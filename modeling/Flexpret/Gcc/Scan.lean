import Flexpret.Gcc.InsnTable
import Mathlib.Algebra.BigOperators.Group.List.Basic
import Mathlib.Algebra.Group.Pi.Basic
import Mathlib.Data.List.Infix
import Mathlib.Data.List.Nodup
import Mathlib.Logic.Function.Basic

/-! # Scanning a Function

    The static tables of the timing pass and what the scan of a function does
    to them: the cycles of its basic blocks, its calls, and its pairs of mt and
    fd instructions.
-/

namespace Flexpret.Gcc

/-! ## Section 1: Functions -/

/-- An element of the instruction chain. -/
inductive Rtx where
  /-- A note or a label. -/
  | note
  /-- Not matched by a pattern, and no asm statement. -/
  | unrecognized
  /-- An asm statement. -/
  | asm (text : String)
  /-- An instruction, with what `tmpl_table` has for it. -/
  | insn (tmpl : Option String)
  deriving DecidableEq

structure BasicBlock where
  index : Nat
  insns : List Rtx
  succs : List Nat
  deriving DecidableEq

/-- The size of the tables indexed by block. -/
def bbMaxNum : Nat := 1000

def mtfdMaxNum : Nat := 1000

/-- The index of the exit block.  `FOR_EACH_BB_FN` leaves it out, and the entry block 0. -/
def exitBlock : Nat := 1

/-- `cfun`: its blocks in the order of the chain, the edges between them given
    by block indices. -/
structure Func where
  blocks : List BasicBlock
  nodup : (blocks.map BasicBlock.index).Nodup
  index_lt : ∀ b ∈ blocks, exitBlock < b.index ∧ b.index < bbMaxNum
  succs_mem : ∀ b ∈ blocks, ∀ s ∈ b.succs, s = exitBlock ∨ s ∈ blocks.map BasicBlock.index

/-- `n_basic_blocks_for_fn`, entry and exit included. -/
def Func.nBasicBlocks (f : Func) : Nat := f.blocks.length + 2

def Func.insns (f : Func) (bb : Nat) : List Rtx :=
  match f.blocks.find? fun b => b.index = bb with
  | some b => b.insns
  | none => []

/-- The exit block has no successors. -/
def Func.succs (f : Func) (bb : Nat) : List Nat :=
  match f.blocks.find? fun b => b.index = bb with
  | some b => b.succs
  | none => []

def Func.indices (f : Func) : List Nat := f.blocks.map BasicBlock.index

theorem Func.find_index {f : Func} {b : BasicBlock} (hb : b ∈ f.blocks) :
    (f.blocks.find? fun b' => b'.index = b.index) = some b := by
  have hsome : (f.blocks.find? fun b' => b'.index = b.index).isSome :=
    List.find?_isSome.mpr ⟨b, hb, by simp⟩
  obtain ⟨b', hb'⟩ := Option.isSome_iff_exists.mp hsome
  have hindex : b'.index = b.index := by simpa using List.find?_some hb'
  rw [hb', List.inj_on_of_nodup_map f.nodup (List.mem_of_find?_eq_some hb') hb hindex]

theorem Func.insns_index {f : Func} {b : BasicBlock} (hb : b ∈ f.blocks) :
    f.insns b.index = b.insns := by
  simp only [insns, find_index hb]

/-- Only a block of the function has successors, and they are blocks of the
    function or the exit. -/
theorem Func.succs_cases {f : Func} {a c : Nat} (h : c ∈ f.succs a) :
    a ∈ f.indices ∧ (c = exitBlock ∨ c ∈ f.indices) := by
  unfold succs at h
  split at h
  · next b hb =>
    have hmem := List.mem_of_find?_eq_some hb
    have hindex : b.index = a := by simpa using List.find?_some hb
    exact ⟨hindex ▸ List.mem_map_of_mem hmem, f.succs_mem b hmem c h⟩
  · exact absurd h List.not_mem_nil

/-! ## Section 2: Cycles of an instruction -/

/-- The template or asm text whose mnemonic is looked up. -/
def Rtx.insnName : Rtx → Option String
  | .note => none
  | .unrecognized => none
  | .asm text => some text
  | .insn none => none
  | .insn (some tmpl) => if tmpl.toList.head? = some '#' then none else some tmpl

/-- `entry2`: what the instruction table has for it. -/
def Rtx.entry (x : Rtx) : Option Cycles := x.insnName.bind fun name => insnCycles (insnKey name)

/-- Cycles that the pass accounts for. -/
def Rtx.cost (x : Rtx) : Cycles := x.entry.getD 0

/-- A `call` of the table. -/
def Rtx.isCall (x : Rtx) : Bool :=
  x.entry.isSome && x.insnName.any fun name => insnKey name = "call"

def cost (insns : List Rtx) : Cycles := (insns.map Rtx.cost).sum

@[simp] theorem cost_nil : cost [] = 0 := rfl

@[simp] theorem cost_cons (x : Rtx) (insns : List Rtx) :
    cost (x :: insns) = x.cost + cost insns := by
  simp [cost]

theorem cost_append (xs ys : List Rtx) : cost (xs ++ ys) = cost xs + cost ys := by
  simp [cost]

/-- A block's own cycles are those before a position and those from it on. -/
theorem cost_take_drop (n : Nat) (insns : List Rtx) :
    cost (insns.take n) + cost (insns.drop n) = cost insns := by
  rw [← cost_append, List.take_append_drop]

/-! ## Section 3: Recognising mt and fd -/

/-- `strstr(text, sub) != NULL`. -/
def strstr (text sub : String) : Bool := decide (sub.toList <:+: text.toList)

def isSpace (c : Char) : Bool := c = ' ' || (9 ≤ c.toNat && c.toNat ≤ 13)

/-- The literal part of a `sscanf` format: a blank stands for any number of
    them. -/
def matchFormat : List Char → List Char → Option (List Char)
  | [], text => some text
  | c :: format, text =>
    if isSpace c then matchFormat format (text.dropWhile isSpace)
    else
      match text with
      | d :: text => if c = d then matchFormat format text else none
      | [] => none

/-- The conversion `%d`. -/
def scanInt (text : List Char) : Option Int :=
  let text := text.dropWhile isSpace
  let negative := text.head? = some '-'
  let text := if negative || text.head? = some '+' then text.tail else text
  let digits := text.takeWhile Char.isDigit
  if digits = [] then none
  else
    let value : Nat := digits.foldl (fun v d => 10 * v + (d.toNat - '0'.toNat)) 0
    some (if negative then -value else value)

/-- `sscanf(text, "lui zero, %d", &deadline)`, where `deadline` is unsigned. -/
def scanDeadline (text : String) : Option Nat :=
  ((matchFormat "lui zero, ".toList text.toList).bind scanInt).map fun v => (v % 2 ^ 32).toNat

example : scanDeadline "lui zero, 340" = some 340 := by decide
example : scanDeadline "nop; lui zero, 340" = none := by decide

/-! ## Section 4: The static tables -/

/-- `mtfd_pair`, with the places of the two instructions in their blocks. -/
structure MtfdPair where
  mt : Nat
  mtBb : Nat
  fd : Nat
  fdBb : Nat
  deadline : Nat

/-- The static variables of the pass that outlive a function. -/
structure MtfdState where
  bbVisit : Nat → Bool
  bbCycle : Nat → Cycles
  bbHasCall : Nat → Bool
  pathVector : Fin 5 → List Nat
  mtfdInsn : Nat → MtfdPair
  mtInsnLen : Nat
  fdInsnLen : Nat

/-- Static storage at the start of the compiler. -/
def MtfdState.zero : MtfdState where
  bbVisit := fun _ => false
  bbCycle := fun _ => 0
  bbHasCall := fun _ => false
  pathVector := fun _ => []
  mtfdInsn := fun _ => { mt := 0, mtBb := 0, fd := 0, fdBb := 0, deadline := 0 }
  mtInsnLen := 0
  fdInsnLen := 0

/-- The errors that make the pass give up on a function. -/
inductive MtfdError where
  | maxBb
  | maxMt
  | maxFd
  | continuousMt
  | fdWithoutMt
  | mtWithoutFd
  | deadlineMissed
  deriving DecidableEq

/-! ## Section 5: Timing a run of instructions -/

/-- `find_mt_fd`, for the instruction at place `pos` of block `bb`. -/
def findMtFd (insn : String) (pos bb : Nat) (st : MtfdState) : Option MtfdError × MtfdState :=
  if strstr insn "lui zero" then
    if st.mtInsnLen = mtfdMaxNum then (some .maxMt, st)
    else if st.fdInsnLen < st.mtInsnLen then (some .continuousMt, st)
    else
      let pair := st.mtfdInsn st.mtInsnLen
      -- a deadline that does not parse leaves the old one in place
      let pair :=
        { pair with mt := pos, mtBb := bb, deadline := (scanDeadline insn).getD pair.deadline }
      (none,
        { st with
          mtfdInsn := Function.update st.mtfdInsn st.mtInsnLen pair
          mtInsnLen := st.mtInsnLen + 1 })
  else if strstr insn "custom3 zero" then
    if st.fdInsnLen = mtfdMaxNum then (some .maxFd, st)
    else if st.mtInsnLen = st.fdInsnLen then (some .fdWithoutMt, st)
    else
      let pair := { st.mtfdInsn st.fdInsnLen with fd := pos, fdBb := bb }
      (none,
        { st with
          mtfdInsn := Function.update st.mtfdInsn st.fdInsnLen pair
          fdInsnLen := st.fdInsnLen + 1 })
  else (none, st)

/-- What the scan records of an instruction that is an asm statement. -/
def findInsn (first : Bool) (pos bb : Nat) (x : Rtx) (st : MtfdState) :
    Option MtfdError × MtfdState :=
  match first, x with
  | true, .asm text => findMtFd text pos bb st
  | _, _ => (none, st)

/-- **`timing_between_insn`**: adds up the cycles of the instructions, the
    first of them at place `pos` of block `bb`; with `first` it also records
    mt, fd and calls. -/
def timingBetweenInsn (first : Bool) (bb : Nat) :
    Nat → List Rtx → Cycles → MtfdState → Option MtfdError × Cycles × MtfdState
  | _, [], cycle, st => (none, cycle, st)
  | pos, x :: insns, cycle, st =>
    match findInsn first pos bb x st with
    | (some e, st) => (some e, cycle, st)
    | (none, st) =>
      let st :=
        if first && x.isCall then { st with bbHasCall := Function.update st.bbHasCall bb true }
        else st
      timingBetweenInsn first bb (pos + 1) insns (cycle + x.cost) st

/-- Without recording the sum is all there is. -/
theorem timingBetweenInsn_plain (bb pos : Nat) (insns : List Rtx) (cycle : Cycles)
    (st : MtfdState) :
    timingBetweenInsn false bb pos insns cycle st = (none, cycle + cost insns, st) := by
  induction insns generalizing pos cycle with
  | nil => simp [timingBetweenInsn]
  | cons x insns ih =>
    simp only [timingBetweenInsn, findInsn, Bool.false_and, Bool.false_eq_true, if_false, ih,
      cost_cons, add_assoc]

/-! ## Section 6: The scan -/

/-- The loop of `scan_bb_timing` over the blocks. -/
def scanBlocks : List BasicBlock → MtfdState → Option MtfdError × MtfdState
  | [], st => (none, st)
  | b :: blocks, st =>
    match timingBetweenInsn true b.index 0 b.insns (st.bbCycle b.index) st with
    | (error, cycle, st) =>
      let st := { st with bbCycle := Function.update st.bbCycle b.index cycle }
      match error with
      | some e => (some e, st)
      | none => scanBlocks blocks st

/-- The tables after the two `memset`s: as many integers of `bb_cycle` are
    cleared as there are flags of `bb_has_call`, and five make a row. -/
def MtfdState.clear (f : Func) (st : MtfdState) : MtfdState :=
  { st with
    bbCycle := fun b j => if 5 * b + j.val < f.nBasicBlocks + 10 then 0 else st.bbCycle b j
    bbHasCall := fun b => if b < f.nBasicBlocks + 10 then false else st.bbHasCall b
    mtInsnLen := 0
    fdInsnLen := 0 }

/-- **`scan_bb_timing`**. -/
def scanBbTiming (f : Func) (st : MtfdState) : Option MtfdError × MtfdState :=
  if bbMaxNum < f.nBasicBlocks + 10 then (some .maxBb, st)
  else scanBlocks f.blocks (st.clear f)

end Flexpret.Gcc
