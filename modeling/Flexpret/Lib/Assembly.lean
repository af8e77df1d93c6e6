import Flexpret.Lib.Numerals
import Mathlib.Data.List.Infix
import Mathlib.Logic.Function.Basic
import Mathlib.Logic.Function.Iterate

/-! # Assembly Routines

    The lines of a RISC-V assembly routine, executed by one thread among others.
    A line is an instruction or one of the pseudo-instructions that set a
    register.  Three kinds of rules:

    * what a straight block of lines does, line by line;
    * that saving registers in a frame and loading them back restores them;
    * that a thread executes a routine as if it were alone, when the others leave
      the memory alone that it reads.
-/

namespace Assembly

/-! ## Section 1: Registers and memory -/

abbrev Word : Type := BitVec 32

/-- The words of the memory, by their byte address. -/
abbrev Memory : Type := Word → Word

abbrev Reg : Type := Fin 32

/-- The integer registers; `x0` is zero. -/
@[ext] structure RegFile where
  reg : Reg → Word
  zero : reg 0 = 0

instance : CoeFun RegFile fun _ => Reg → Word := ⟨RegFile.reg⟩

namespace RegFile

variable (x : RegFile) (r q : Reg) (v : Word)

/-- A write to `x0` is lost. -/
def write : RegFile where
  reg := if r = 0 then x.reg else Function.update x.reg r v
  zero := by
    split
    · exact x.zero
    · next h => rw [Function.update_of_ne (Ne.symm h), x.zero]

variable {r q}

theorem write_self (h : r ≠ 0) : x.write r v r = v := by
  show (if r = 0 then x.reg else Function.update x.reg r v) r = v
  rw [if_neg h, Function.update_self]

theorem write_of_ne (h : q ≠ r) : x.write r v q = x q := by
  show (if r = 0 then x.reg else Function.update x.reg r v) q = x q
  split
  · rfl
  · exact Function.update_of_ne h ..

@[simp] theorem write_zero : x.write 0 v = x := rfl

end RegFile

/-! ## Section 2: Lines -/

/-- The lines of the source.  `li` also stands for `la`, whose value is the address of
    a symbol; either is one line and one step, though an assembler makes two
    instructions of a large value.  The target of a branch or a jump is a line. -/
inductive Line (Csr : Type) where
  | addi (rd rs : Reg) (imm : Word)
  | add (rd rs₁ rs₂ : Reg)
  | slli (rd rs : Reg) (shamt : Nat)
  | li (rd : Reg) (imm : Word)
  | lw (rd : Reg) (imm : Word) (rs : Reg)
  | sw (rs₂ : Reg) (imm : Word) (rs₁ : Reg)
  | beq (rs₁ rs₂ : Reg) (target : Nat)
  | j (target : Nat)
  | jalr (rd rs : Reg)
  | csrr (rd : Reg) (csr : Csr)
  | csrw (csr : Csr) (rs : Reg)
  | csrrsi (csr : Csr) (imm : Word)

/-- How the CSRs are read and written. -/
structure CsrFile (Csr C : Type) where
  read : C → Csr → Word
  write : C → Csr → Word → C

/-- What one thread sees. -/
@[ext] structure Machine (C : Type) where
  x : RegFile
  csrs : C
  mem : Memory
  pc : Word

/-- A routine: its lines and where they are. -/
structure Routine (Csr : Type) where
  code : List (Line Csr)
  addr : Nat → Word
  inj : ∀ i j, i < code.length → j < code.length → addr i = addr j → i = j

variable {Csr C : Type}

namespace Machine

/-- `rd` becomes `v`. -/
def setReg (m : Machine C) (rd : Reg) (v : Word) : Machine C := { m with x := m.x.write rd v }

/-- The word at `a` becomes `v`. -/
def store (m : Machine C) (a v : Word) : Machine C := { m with mem := Function.update m.mem a v }

@[simp] theorem setReg_csrs (m : Machine C) (rd : Reg) (v : Word) :
    (m.setReg rd v).csrs = m.csrs := rfl

@[simp] theorem setReg_mem (m : Machine C) (rd : Reg) (v : Word) :
    (m.setReg rd v).mem = m.mem := rfl

@[simp] theorem setReg_pc (m : Machine C) (rd : Reg) (v : Word) :
    (m.setReg rd v).pc = m.pc := rfl

@[simp] theorem setReg_x (m : Machine C) (rd : Reg) (v : Word) :
    (m.setReg rd v).x = m.x.write rd v := rfl

end Machine

namespace Line

variable (ops : CsrFile Csr C)

/-- What a line does to the registers and the memory.  `link` is the address of
    the next line. -/
def effect (link : Word) (m : Machine C) : Line Csr → Machine C
  | .addi rd rs imm => m.setReg rd (m.x rs + imm)
  | .add rd rs₁ rs₂ => m.setReg rd (m.x rs₁ + m.x rs₂)
  | .slli rd rs shamt => m.setReg rd (m.x rs <<< shamt)
  | .li rd imm => m.setReg rd imm
  | .lw rd imm rs => m.setReg rd (m.mem (m.x rs + imm))
  | .sw rs₂ imm rs₁ => m.store (m.x rs₁ + imm) (m.x rs₂)
  | .beq _ _ _ => m
  | .j _ => m
  | .jalr rd _ => m.setReg rd link
  | .csrr rd csr => m.setReg rd (ops.read m.csrs csr)
  | .csrw csr rs => { m with csrs := ops.write m.csrs csr (m.x rs) }
  | .csrrsi csr imm => { m with csrs := ops.write m.csrs csr (ops.read m.csrs csr ||| imm) }

/-- Where a line at line `i` goes on. -/
def next (addr : Nat → Word) (i : Nat) (x : RegFile) : Line Csr → Word
  | .beq rs₁ rs₂ target => if x rs₁ = x rs₂ then addr target else addr (i + 1)
  | .j target => addr target
  | .jalr _ rs => x rs
  | _ => addr (i + 1)

/-- The line goes on with the next one. -/
def straight : Line Csr → Bool
  | .beq _ _ _ | .j _ | .jalr _ _ => false
  | _ => true

/-- The line goes on with the next one and leaves the memory alone. -/
def plain : Line Csr → Bool
  | .beq _ _ _ | .j _ | .jalr _ _ | .lw _ _ _ | .sw _ _ _ => false
  | _ => true

/-- The address that a line loads from or stores to. -/
def address (x : RegFile) : Line Csr → Option Word
  | .lw _ imm rs => some (x rs + imm)
  | .sw _ imm rs₁ => some (x rs₁ + imm)
  | _ => none

/-- The address that a line stores to. -/
def stores (x : RegFile) : Line Csr → Option Word
  | .sw _ imm rs₁ => some (x rs₁ + imm)
  | _ => none

variable {ops}

theorem straight_of_plain {line : Line Csr} (h : line.plain = true) : line.straight = true := by
  cases line with
  | lw | sw => rfl
  | _ => exact h

theorem address_of_plain {line : Line Csr} (h : line.plain = true) (x : RegFile) :
    line.address x = none := by
  cases line with
  | lw | sw => exact absurd h Bool.noConfusion
  | _ => rfl

/-- A line stores to no other address. -/
theorem effect_mem {line : Line Csr} {m : Machine C} {a : Word} (link : Word)
    (h : line.stores m.x ≠ some a) : (line.effect ops link m).mem a = m.mem a := by
  cases line with
  | sw rs₂ imm rs₁ =>
    refine Function.update_of_ne (fun ha => h ?_) ..
    rw [stores, ha]
  | _ => rfl

end Line

/-! ## Section 3: Routines -/

namespace Routine

variable (R : Routine Csr) (ops : CsrFile Csr C)

/-- The line at an address. -/
def lineAt (pc : Word) : Option Nat :=
  (List.range R.code.length).find? fun i => R.addr i = pc

/-- The routine does not contain the address. -/
def Outside (pc : Word) : Prop := R.lineAt pc = none

instance (pc : Word) : Decidable (R.Outside pc) := inferInstanceAs (Decidable (_ = _))

/-- One line, executed. -/
def execute (m : Machine C) (i : Nat) (line : Line Csr) : Machine C :=
  { line.effect ops (R.addr (i + 1)) m with pc := line.next R.addr i m.x }

/-- The next line; nothing outside the routine. -/
def advance (m : Machine C) : Machine C :=
  match R.lineAt m.pc with
  | none => m
  | some i =>
      match R.code[i]? with
      | none => m
      | some line => R.execute ops m i line

/-- The next line, unless its address is misaligned, which is a trap. -/
def step (m : Machine C) : Option (Machine C) :=
  match R.lineAt m.pc with
  | none => none
  | some i =>
      match R.code[i]? with
      | none => none
      | some line =>
          if ∀ a ∈ line.address m.x, a.toNat % 4 = 0 then some (R.execute ops m i line) else none

variable {R ops} {m m' : Machine C} {i : Nat} {line : Line Csr}

theorem lineAt_addr (h : i < R.code.length) : R.lineAt (R.addr i) = some i := by
  unfold lineAt
  cases hfind : (List.range R.code.length).find? fun j => R.addr j = R.addr i with
  | none =>
    have hno := List.find?_eq_none.mp hfind i (List.mem_range.mpr h)
    exact absurd (decide_eq_true rfl) hno
  | some j =>
    have hj := List.mem_range.mp (List.mem_of_find?_eq_some hfind)
    have haddr := List.find?_some hfind
    rw [R.inj j i hj h (of_decide_eq_true haddr)]

theorem of_lineAt {pc : Word} (h : R.lineAt pc = some i) : i < R.code.length ∧ R.addr i = pc := by
  have haddr := List.find?_some (p := fun j => decide (R.addr j = pc)) h
  exact ⟨List.mem_range.mp (List.mem_of_find?_eq_some h), of_decide_eq_true haddr⟩

theorem advance_line (hpc : m.pc = R.addr i) (hline : R.code[i]? = some line) :
    R.advance ops m = R.execute ops m i line := by
  have hi := (List.getElem?_eq_some_iff.mp hline).1
  rw [advance, hpc, lineAt_addr hi]
  simp only [hline]

/-- **What a step is**: a line of the routine, executed. -/
theorem step_cases (h : R.step ops m = some m') :
    ∃ i line, R.code[i]? = some line ∧ m.pc = R.addr i ∧
      (∀ a ∈ line.address m.x, a.toNat % 4 = 0) ∧ m' = R.execute ops m i line := by
  unfold step at h
  split at h
  · exact absurd h nofun
  · next i hi =>
    split at h
    · exact absurd h nofun
    · next line hline =>
      split at h
      · next haligned =>
        exact ⟨i, line, hline, (of_lineAt hi).2.symm, haligned, (Option.some.inj h).symm⟩
      · exact absurd h nofun

theorem advance_of_step (h : R.step ops m = some m') : m' = R.advance ops m := by
  obtain ⟨i, line, hline, hpc, -, rfl⟩ := step_cases h
  exact (advance_line hpc hline).symm

/-! ### Straight blocks -/

/-- The effects of a block of lines, one after the other. -/
def effects (ops : CsrFile Csr C) (block : List (Line Csr)) (m : Machine C) : Machine C :=
  block.foldl (fun m line => line.effect ops 0 m) m

@[simp] theorem effects_nil : effects ops [] m = m := rfl

@[simp] theorem effects_cons (block : List (Line Csr)) :
    effects ops (line :: block) m = effects ops block (line.effect ops 0 m) := rfl

theorem effects_append (block block' : List (Line Csr)) :
    effects ops (block ++ block') m = effects ops block' (effects ops block m) :=
  List.foldl_append ..

/-- Neither the link nor the address of a straight line matters. -/
theorem execute_straight (h : line.straight = true) :
    R.execute ops m i line = { line.effect ops 0 m with pc := R.addr (i + 1) } := by
  cases line with
  | beq | j | jalr => exact absurd h Bool.noConfusion
  | _ => rfl

theorem effect_pc (line : Line Csr) (m : Machine C) (pc : Word) :
    line.effect ops 0 { m with pc := pc } = { line.effect ops 0 m with pc := pc } := by
  cases line <;> rfl

theorem effects_pc (block : List (Line Csr)) (m : Machine C) (pc : Word) :
    effects ops block { m with pc := pc } = { effects ops block m with pc := pc } := by
  induction block generalizing m with
  | nil => rfl
  | cons line block ih => rw [effects_cons, effects_cons, effect_pc, ih]

/-- The first line of a block, and the rest. -/
theorem of_block {block : List (Line Csr)} (h : line :: block <+: R.code.drop i) :
    R.code[i]? = some line ∧ block <+: R.code.drop (i + 1) := by
  obtain ⟨rest, hrest⟩ := h
  constructor
  · rw [← List.head?_drop, ← hrest]
    rfl
  · rw [← List.tail_drop, ← hrest]
    exact ⟨rest, rfl⟩

end Routine

/-! ## Section 4: Frames -/

section frame

variable {ops : CsrFile Csr C} {sp : Reg} {off : Reg → Word} {l : List Reg} {m : Machine C}

/-- Save registers in the frame at `sp`. -/
def saveRegs (sp : Reg) (off : Reg → Word) (l : List Reg) : List (Line Csr) :=
  l.map fun r => .sw r (off r) sp

/-- Load registers from the frame at `sp`. -/
def loadRegs (sp : Reg) (off : Reg → Word) (l : List Reg) : List (Line Csr) :=
  l.map fun r => .lw r (off r) sp

/-- Registers are saved at different places of the frame. -/
def Apart (off : Reg → Word) (l : List Reg) : Prop :=
  ∀ r ∈ l, ∀ q ∈ l, off r = off q → r = q

theorem effects_saveRegs_cons (r : Reg) :
    Routine.effects ops (saveRegs sp off (r :: l)) m =
      Routine.effects ops (saveRegs sp off l) (m.store (m.x sp + off r) (m.x r)) := rfl

theorem effects_loadRegs_cons (r : Reg) :
    Routine.effects ops (loadRegs sp off (r :: l)) m =
      Routine.effects ops (loadRegs sp off l) (m.setReg r (m.mem (m.x sp + off r))) := rfl

/-- Saving changes only the memory. -/
theorem effects_saveRegs :
    Routine.effects ops (saveRegs sp off l) m =
      { m with mem := (Routine.effects ops (saveRegs sp off l) m).mem } := by
  induction l generalizing m with
  | nil => rfl
  | cons r l ih =>
    rw [effects_saveRegs_cons, ih]
    rfl

theorem saveRegs_mem_of_ne {a : Word} (h : ∀ r ∈ l, a ≠ m.x sp + off r) :
    (Routine.effects ops (saveRegs sp off l) m).mem a = m.mem a := by
  induction l generalizing m with
  | nil => rfl
  | cons r l ih =>
    have hrest : ∀ q ∈ l, a ≠ m.x sp + off q := fun q hq => h q (List.mem_cons_of_mem _ hq)
    rw [effects_saveRegs_cons, ih (m := m.store (m.x sp + off r) (m.x r)) hrest]
    exact Function.update_of_ne (h r List.mem_cons_self) ..

/-- **Saved**: each register is in its place. -/
theorem saveRegs_mem (hapart : Apart off l) {r : Reg} (hr : r ∈ l) :
    (Routine.effects ops (saveRegs sp off l) m).mem (m.x sp + off r) = m.x r := by
  induction l generalizing m with
  | nil => exact absurd hr List.not_mem_nil
  | cons q l ih =>
    rw [effects_saveRegs_cons]
    have hapart' : Apart off l := fun r hr q hq =>
      hapart r (List.mem_cons_of_mem _ hr) q (List.mem_cons_of_mem _ hq)
    by_cases hl : r ∈ l
    · exact ih (m := m.store (m.x sp + off q) (m.x q)) hapart' hl
    · obtain rfl : r = q := (List.mem_cons.mp hr).resolve_right hl
      -- no later register is saved at the same place
      have hne : ∀ q ∈ l, m.x sp + off r ≠ m.x sp + off q := by
        intro q hq haddr
        have hoff := (BitVec.add_right_inj _).mp haddr
        exact hl (hapart r List.mem_cons_self q (List.mem_cons_of_mem _ hq) hoff ▸ hq)
      rw [saveRegs_mem_of_ne (m := m.store (m.x sp + off r) (m.x r)) hne]
      exact Function.update_self ..

/-- **Loaded**: each register is what its place holds. -/
theorem effects_loadRegs (hsp : sp ∉ l) :
    Routine.effects ops (loadRegs sp off l) m =
      { m with x := (Routine.effects ops (loadRegs sp off l) m).x } ∧
    (∀ r, r ∉ l → (Routine.effects ops (loadRegs sp off l) m).x r = m.x r) ∧
    ∀ r ∈ l, r ≠ 0 → (Routine.effects ops (loadRegs sp off l) m).x r = m.mem (m.x sp + off r) := by
  induction l generalizing m with
  | nil => exact ⟨rfl, fun _ _ => rfl, fun r hr => absurd hr List.not_mem_nil⟩
  | cons q l ih =>
    have hq : sp ≠ q := fun h => hsp (h ▸ List.mem_cons_self)
    have hsp' : sp ∉ l := fun h => hsp (List.mem_cons_of_mem _ h)
    obtain ⟨hall, hother, hloaded⟩ := ih (m := m.setReg q (m.mem (m.x sp + off q))) hsp'
    have hbase : (m.setReg q (m.mem (m.x sp + off q))).x sp = m.x sp := RegFile.write_of_ne _ _ hq
    rw [effects_loadRegs_cons]
    refine ⟨hall, ?_, ?_⟩
    · intro r hr
      obtain ⟨hrq, hrl⟩ := not_or.mp (fun h => hr (List.mem_cons.mpr h))
      exact (hother r hrl).trans (RegFile.write_of_ne _ _ hrq)
    · intro r hr hzero
      by_cases hl : r ∈ l
      · refine (hloaded r hl hzero).trans ?_
        rw [hbase]
        rfl
      · obtain rfl : r = q := (List.mem_cons.mp hr).resolve_right hl
        exact (hother r hl).trans (RegFile.write_self _ _ hzero)

end frame

/-! ## Section 5: Other threads -/

section interference

variable {R : Routine Csr} {ops : CsrFile Csr C} {P : Word → Prop} {D : Type} {shown : C → D}

/-- Two views of a thread that may differ in the memory outside `P`, and in what
    `shown` does not show of the CSRs. -/
structure Agree (P : Word → Prop) (shown : C → D) (m m' : Machine C) : Prop where
  x : m.x = m'.x
  csrs : shown m.csrs = shown m'.csrs
  pc : m.pc = m'.pc
  mem : ∀ a, P a → m.mem a = m'.mem a

theorem Agree.refl (m : Machine C) : Agree P shown m m := ⟨rfl, rfl, rfl, fun _ _ => rfl⟩

theorem Agree.trans {m m' m'' : Machine C} (h : Agree P shown m m') (h' : Agree P shown m' m'') :
    Agree P shown m m'' where
  x := h.x.trans h'.x
  csrs := h.csrs.trans h'.csrs
  pc := h.pc.trans h'.pc
  mem := fun a ha => (h.mem a ha).trans (h'.mem a ha)

/-- A line does the same to CSRs of which `shown` shows the same. -/
def Line.Respects (ops : CsrFile Csr C) (shown : C → D) (line : Line Csr) : Prop :=
  ∀ c c', shown c = shown c' →
    match line with
    | .csrr _ csr => ops.read c csr = ops.read c' csr
    | .csrw csr _ => ∀ v, shown (ops.write c csr v) = shown (ops.write c' csr v)
    | .csrrsi csr imm =>
        shown (ops.write c csr (ops.read c csr ||| imm)) =
          shown (ops.write c' csr (ops.read c' csr ||| imm))
    | _ => True

/-- A line of the routine is next, and accesses only `P`. -/
def AtLine (R : Routine Csr) (P : Word → Prop) (m : Machine C) : Prop :=
  ∃ i line, R.code[i]? = some line ∧ m.pc = R.addr i ∧ ∀ a ∈ line.address m.x, P a

/-- A line does the same to both views. -/
theorem Agree.effect {m m' : Machine C} (h : Agree P shown m m') {line : Line Csr}
    (hcsr : line.Respects ops shown) (haddr : ∀ a ∈ line.address m.x, P a) (link : Word) :
    Agree P shown (line.effect ops link m) (line.effect ops link m') := by
  obtain ⟨x, csrs, mem, pc⟩ := m
  obtain ⟨x', csrs', mem', pc'⟩ := m'
  obtain ⟨rfl, hcsrs, rfl, hmem⟩ := h
  cases line with
  | lw rd imm rs =>
    have hword : mem (x rs + imm) = mem' (x rs + imm) := hmem _ (haddr _ rfl)
    refine ⟨?_, hcsrs, rfl, hmem⟩
    show x.write rd (mem (x rs + imm)) = x.write rd (mem' (x rs + imm))
    rw [hword]
  | sw rs₂ imm rs₁ =>
    refine ⟨rfl, hcsrs, rfl, fun a ha => ?_⟩
    show Function.update mem _ _ a = Function.update mem' _ _ a
    unfold Function.update
    split
    · rfl
    · exact hmem a ha
  | csrr rd csr =>
    have hword : ops.read csrs csr = ops.read csrs' csr := hcsr csrs csrs' hcsrs
    refine ⟨?_, hcsrs, rfl, hmem⟩
    show x.write rd (ops.read csrs csr) = x.write rd (ops.read csrs' csr)
    rw [hword]
  | csrw csr rs => exact ⟨rfl, hcsr csrs csrs' hcsrs (x rs), rfl, hmem⟩
  | csrrsi csr imm => exact ⟨rfl, hcsr csrs csrs' hcsrs, rfl, hmem⟩
  | _ => exact ⟨rfl, hcsrs, rfl, hmem⟩

theorem Agree.advance {m m' : Machine C} (h : Agree P shown m m') (hline : AtLine R P m)
    (hcsr : ∀ line ∈ R.code, line.Respects ops shown) :
    Agree P shown (R.advance ops m) (R.advance ops m') := by
  obtain ⟨i, line, hcode, hpc, haddr⟩ := hline
  rw [Routine.advance_line hpc hcode, Routine.advance_line (h.pc ▸ hpc) hcode]
  obtain ⟨hx, hcsrs, -, hmem⟩ :=
    h.effect (hcsr line (List.mem_of_getElem? hcode)) haddr (R.addr (i + 1))
  refine ⟨hx, hcsrs, ?_, hmem⟩
  show Line.next R.addr i m.x _ = Line.next R.addr i m'.x _
  rw [h.x]

/-! ### What a thread does alone -/

variable (R ops P)

/-- Alone, `n` lines lead from `m` to `m'`, and access only `P`. -/
structure Follows (n : Nat) (m m' : Machine C) : Prop where
  ends : (R.advance ops)^[n] m = m'
  atLine : ∀ j, j < n → AtLine R P ((R.advance ops)^[j] m)

variable {R ops P}

theorem Follows.refl (m : Machine C) : Follows R ops P 0 m m := ⟨rfl, fun _ hj => nomatch hj⟩

theorem Follows.trans {n n' : Nat} {m m' m'' : Machine C} (h : Follows R ops P n m m')
    (h' : Follows R ops P n' m' m'') : Follows R ops P (n + n') m m'' := by
  constructor
  case ends => rw [Nat.add_comm, Function.iterate_add_apply, h.ends, h'.ends]
  case atLine =>
    intro j hj
    by_cases hn : j < n
    · exact h.atLine j hn
    · obtain ⟨d, rfl⟩ := Nat.exists_eq_add_of_le (Nat.not_lt.mp hn)
      rw [Nat.add_comm, Function.iterate_add_apply, h.ends]
      exact h'.atLine d (by omega)

/-- **One line**. -/
theorem Follows.line {m : Machine C} (i : Nat) (line : Line Csr) (hpc : m.pc = R.addr i)
    (hline : R.code[i]? = some line) (haddr : ∀ a ∈ line.address m.x, P a) :
    Follows R ops P 1 m (R.execute ops m i line) := by
  constructor
  case ends => exact Routine.advance_line hpc hline
  case atLine =>
    intro j hj
    obtain rfl : j = 0 := Nat.lt_one_iff.mp hj
    exact ⟨i, line, hline, hpc, haddr⟩

/-- One line more. -/
theorem Follows.snoc {n : Nat} {m m' : Machine C} (h : Follows R ops P n m m') (i : Nat)
    (line : Line Csr) (hpc : m'.pc = R.addr i) (hline : R.code[i]? = some line)
    (haddr : ∀ a ∈ line.address m'.x, P a) :
    Follows R ops P (n + 1) m (R.execute ops m' i line) :=
  h.trans (Follows.line i line hpc hline haddr)

/-- **A block of plain lines**. -/
theorem Follows.block {m : Machine C} {i : Nat} {block : List (Line Csr)} (hpc : m.pc = R.addr i)
    (hblock : block <+: R.code.drop i) (hplain : ∀ line ∈ block, line.plain = true) :
    Follows R ops P block.length m
      { Routine.effects ops block m with pc := R.addr (i + block.length) } := by
  induction block generalizing m i with
  | nil =>
    show Follows R ops P 0 m { m with pc := R.addr i }
    rw [← hpc]
    exact Follows.refl m
  | cons line block ih =>
    obtain ⟨hline, hrest⟩ := Routine.of_block hblock
    have hplain' := hplain line List.mem_cons_self
    have hfirst : Follows R ops P 1 m _ := Follows.line _ _ hpc hline (by
      rw [Line.address_of_plain hplain']
      exact fun a ha => nomatch ha)
    rw [Routine.execute_straight (Line.straight_of_plain hplain')] at hfirst
    have hblock := ih (m := { line.effect ops 0 m with pc := R.addr (i + 1) }) rfl hrest
      (fun l hl => hplain l (List.mem_cons_of_mem _ hl))
    rw [Routine.effects_pc, Nat.add_right_comm] at hblock
    rw [List.length_cons, Nat.add_comm block.length 1, ← Nat.add_assoc, Nat.add_right_comm]
    exact hfirst.trans hblock

/-- **Saving registers** to a frame in `P`. -/
theorem Follows.saveRegs {m : Machine C} {i : Nat} {sp : Reg} {off : Reg → Word} {l : List Reg}
    (hpc : m.pc = R.addr i) (hblock : Assembly.saveRegs sp off l <+: R.code.drop i)
    (hframe : ∀ r ∈ l, P (m.x sp + off r)) :
    Follows R ops P l.length m
      { Routine.effects ops (Assembly.saveRegs sp off l) m with pc := R.addr (i + l.length) } := by
  induction l generalizing m i with
  | nil =>
    show Follows R ops P 0 m { m with pc := R.addr i }
    rw [← hpc]
    exact Follows.refl m
  | cons q l ih =>
    obtain ⟨hline, hrest⟩ := Routine.of_block hblock
    have hfirst : Follows R ops P 1 m _ := Follows.line _ _ hpc hline (by
      intro a ha
      obtain rfl := Option.some.inj ha
      exact hframe q List.mem_cons_self)
    rw [Routine.execute_straight rfl] at hfirst
    have hrest := ih (m := { m.store (m.x sp + off q) (m.x q) with pc := R.addr (i + 1) }) rfl
      hrest (fun r hr => hframe r (List.mem_cons_of_mem _ hr))
    rw [Routine.effects_pc, Nat.add_right_comm] at hrest
    rw [List.length_cons, Nat.add_comm l.length 1, ← Nat.add_assoc, Nat.add_right_comm]
    exact hfirst.trans hrest

/-- **Loading registers** from a frame in `P`. -/
theorem Follows.loadRegs {m : Machine C} {i : Nat} {sp : Reg} {off : Reg → Word} {l : List Reg}
    (hpc : m.pc = R.addr i) (hblock : Assembly.loadRegs sp off l <+: R.code.drop i)
    (hsp : sp ∉ l) (hframe : ∀ r ∈ l, P (m.x sp + off r)) :
    Follows R ops P l.length m
      { Routine.effects ops (Assembly.loadRegs sp off l) m with pc := R.addr (i + l.length) } := by
  induction l generalizing m i with
  | nil =>
    show Follows R ops P 0 m { m with pc := R.addr i }
    rw [← hpc]
    exact Follows.refl m
  | cons q l ih =>
    obtain ⟨hline, hrest⟩ := Routine.of_block hblock
    have hq : sp ≠ q := fun h => hsp (h ▸ List.mem_cons_self)
    have hfirst : Follows R ops P 1 m _ := Follows.line _ _ hpc hline (by
      intro a ha
      obtain rfl := Option.some.inj ha
      exact hframe q List.mem_cons_self)
    rw [Routine.execute_straight rfl] at hfirst
    have hbase : (m.setReg q (m.mem (m.x sp + off q))).x sp = m.x sp := RegFile.write_of_ne _ _ hq
    have hrest := ih (m := { m.setReg q (m.mem (m.x sp + off q)) with pc := R.addr (i + 1) }) rfl
      hrest (fun h => hsp (List.mem_cons_of_mem _ h)) (by
        intro r hr
        show P ((m.setReg q (m.mem (m.x sp + off q))).x sp + off r)
        rw [hbase]
        exact hframe r (List.mem_cons_of_mem _ hr))
    rw [Routine.effects_pc, Nat.add_right_comm] at hrest
    rw [List.length_cons, Nat.add_comm l.length 1, ← Nat.add_assoc, Nat.add_right_comm]
    exact hfirst.trans hrest

/-! ### What it does among the others -/

/-- Where all it accesses is aligned the thread can go on. -/
theorem step_of_atLine {m : Machine C} (h : AtLine R P m) (hP : ∀ a, P a → a.toNat % 4 = 0) :
    R.step ops m = some (R.advance ops m) := by
  obtain ⟨i, line, hcode, hpc, haddr⟩ := h
  have hi := (List.getElem?_eq_some_iff.mp hcode).1
  rw [Routine.advance_line hpc hcode, Routine.step, hpc, Routine.lineAt_addr hi]
  simp only [hcode]
  rw [if_pos fun a ha => hP a (haddr a ha)]

/-- How many of the `d` steps from `k` on are the thread's own.  In a routine a step is
    a line of the source. -/
def ownSteps (mine : Nat → Bool) (k : Nat) : Nat → Nat
  | 0 => 0
  | d + 1 => ownSteps mine k d + if mine (k + d) = true then 1 else 0

theorem ownSteps_add (mine : Nat → Bool) (k d d' : Nat) :
    ownSteps mine k (d + d') = ownSteps mine k d + ownSteps mine (k + d) d' := by
  induction d' with
  | zero => rfl
  | succ d' ih => rw [← Nat.add_assoc, ownSteps, ih, ownSteps, Nat.add_assoc, Nat.add_assoc]

theorem ownSteps_all (mine : Nat → Bool) (k d : Nat)
    (h : ∀ c, k ≤ c → c < k + d → mine c = true) : ownSteps mine k d = d := by
  induction d with
  | zero => rfl
  | succ d ih =>
    rw [ownSteps, ih fun c hlow hhigh => h c hlow (by omega),
      if_pos (h (k + d) (by omega) (by omega))]

/-- The last own step. -/
theorem exists_lastStep {mine : Nat → Bool} {k d n : Nat} (h : ownSteps mine k d = n + 1) :
    ∃ d', d' < d ∧ mine (k + d') = true ∧ ownSteps mine k d' = n ∧
      ∀ c, k + d' < c → c < k + d → mine c = false := by
  induction d with
  | zero => exact absurd h (Nat.succ_ne_zero n).symm
  | succ d ih =>
    rw [ownSteps] at h
    cases hc : mine (k + d) with
    | true =>
      rw [hc, if_pos rfl] at h
      exact ⟨d, Nat.lt_succ_self d, hc, Nat.succ.inj h, fun c hlow hhigh => by omega⟩
    | false =>
      rw [hc, if_neg Bool.false_ne_true] at h
      obtain ⟨d', hd', hmine, hn, hlast⟩ := ih h
      refine ⟨d', Nat.lt_succ_of_lt hd', hmine, hn, fun c hlow hhigh => ?_⟩
      by_cases hlt : c < k + d
      · exact hlast c hlow hlt
      · obtain rfl : c = k + d := by omega
        exact hc

/-- The own step after `n` others. -/
theorem exists_ownStep {mine : Nat → Bool} {k d n : Nat} (h : n < ownSteps mine k d) :
    ∃ d', d' < d ∧ mine (k + d') = true ∧ ownSteps mine k d' = n := by
  induction d with
  | zero => exact absurd h (Nat.not_lt_zero n)
  | succ d ih =>
    rw [ownSteps] at h
    by_cases hn : n < ownSteps mine k d
    · obtain ⟨d', hd', hmine, hcount⟩ := ih hn
      exact ⟨d', Nat.lt_succ_of_lt hd', hmine, hcount⟩
    · cases hc : mine (k + d) with
      | true =>
        rw [hc, if_pos rfl] at h
        exact ⟨d, Nat.lt_succ_self d, hc, by omega⟩
      | false =>
        rw [hc, if_neg Bool.false_ne_true] at h
        exact absurd h hn

theorem ownSteps_mono (mine : Nat → Bool) (k : Nat) {d d' : Nat} (h : d ≤ d') :
    ownSteps mine k d ≤ ownSteps mine k d' := by
  obtain ⟨e, rfl⟩ := Nat.exists_eq_add_of_le h
  rw [ownSteps_add]
  exact Nat.le_add_right ..

/-- **Counting down**: a property with a number of own steps to go, where an own
    step leaves one less to go and a step of another thread leaves as many. -/
theorem countDown {Q : Nat → Nat → Prop} {mine : Nat → Bool} {k n : Nat} (hstart : Q n k)
    (hown : ∀ c j, k ≤ c → mine c = true → Q (j + 1) c → Q j (c + 1))
    (hother : ∀ c j, k ≤ c → mine c = false → Q j c → Q j (c + 1)) (d : Nat)
    (hd : ownSteps mine k d ≤ n) : Q (n - ownSteps mine k d) (k + d) := by
  induction d with
  | zero => exact hstart
  | succ d ih =>
    rw [ownSteps] at hd ⊢
    have hbefore := ih (by omega)
    cases hc : mine (k + d) with
    | true =>
      rw [hc, if_pos rfl] at hd
      rw [if_pos rfl, ← Nat.sub_sub]
      refine hown _ _ (Nat.le_add_right k d) hc ?_
      rwa [Nat.sub_add_cancel (by omega)]
    | false =>
      rw [if_neg Bool.false_ne_true]
      exact hother _ _ (Nat.le_add_right k d) hc hbefore

/-- **As if alone**: when the other threads do not change what a routine accesses,
    a thread goes through it as if it were alone. -/
theorem Follows.agree {mine : Nat → Bool} {view : Nat → Machine C} {m m' : Machine C}
    {k n d : Nat} (h : Follows R ops P n m m') (hstart : Agree P shown m (view k))
    (hcsr : ∀ line ∈ R.code, line.Respects ops shown)
    (hmine : ∀ c, k ≤ c → c < k + d → mine c = true → ¬ R.Outside (view c).pc →
      R.step ops (view c) = some (view (c + 1)))
    (hother : ∀ c, k ≤ c → c < k + d → mine c = false → Agree P shown (view c) (view (c + 1)))
    (hd : ownSteps mine k d ≤ n) :
    Agree P shown ((R.advance ops)^[ownSteps mine k d] m) (view (k + d)) := by
  induction d with
  | zero => exact hstart
  | succ d ih =>
    rw [ownSteps] at hd ⊢
    have hagree := ih (fun c hc hcd => hmine c hc (by omega))
      (fun c hc hcd => hother c hc (by omega)) (by omega)
    cases hc : mine (k + d) with
    | true =>
      rw [hc, if_pos rfl] at hd
      have hline := h.atLine (ownSteps mine k d) (by omega)
      have hinside : ¬ R.Outside (view (k + d)).pc := by
        obtain ⟨i, line, hcode, hpc, -⟩ := hline
        have hi := (List.getElem?_eq_some_iff.mp hcode).1
        rw [← hagree.pc, hpc, Routine.Outside, Routine.lineAt_addr hi]
        exact Option.some_ne_none i
      have hstep := Routine.advance_of_step (hmine _ (Nat.le_add_right k d) (by omega) hc hinside)
      rw [if_pos rfl, Function.iterate_succ_apply', ← Nat.add_assoc, hstep]
      exact hagree.advance hline hcsr
    | false =>
      rw [if_neg Bool.false_ne_true]
      exact hagree.trans (hother _ (Nat.le_add_right k d) (by omega) hc)

/-- After all its lines the thread is where they lead. -/
theorem Follows.agree_end {m m' : Machine C} {k n d : Nat} (h : Follows R ops P n m m')
    (mine : Nat → Bool) (view : Nat → Machine C) (hstart : Agree P shown m (view k))
    (hcsr : ∀ line ∈ R.code, line.Respects ops shown)
    (hmine : ∀ c, k ≤ c → c < k + d → mine c = true → ¬ R.Outside (view c).pc →
      R.step ops (view c) = some (view (c + 1)))
    (hother : ∀ c, k ≤ c → c < k + d → mine c = false → Agree P shown (view c) (view (c + 1)))
    (hd : ownSteps mine k d = n) : Agree P shown m' (view (k + d)) := by
  have hagree := h.agree hstart hcsr hmine hother (Nat.le_of_eq hd)
  rw [hd, h.ends] at hagree
  exact hagree

end interference

end Assembly
