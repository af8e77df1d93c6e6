import Flexpret.Lib.ByteMemory
import Flexpret.Lib.Rv32
import Flexpret.Lib.Transition

/-! # Threads of RV32 over One Memory

    Loads and stores beside the integer instructions; threads with a PC and registers
    of their own, which take turns on one memory of bytes; and the program of a thread
    run alone.  While nobody else changes what a thread reads, the thread goes through
    the states of its program alone, whatever else happens.
-/

open ByteMemory Transition

namespace Rv32

/-! ## Section 1: Loads and stores -/

inductive LoadOp where
  | lb | lbu | lh | lhu | lw

inductive StoreOp where
  | sb | sh | sw

def LoadOp.funct3 : LoadOp → BitVec 3
  | .lb => 0b000
  | .lh => 0b001
  | .lw => 0b010
  | .lbu => 0b100
  | .lhu => 0b101

def StoreOp.funct3 : StoreOp → BitVec 3
  | .sb => 0b000
  | .sh => 0b001
  | .sw => 0b010

/-- The bytes that are read. -/
def LoadOp.size : LoadOp → Nat
  | .lb | .lbu => 1
  | .lh | .lhu => 2
  | .lw => 4

/-- The bytes that are written. -/
def StoreOp.size : StoreOp → Nat
  | .sb => 1
  | .sh => 2
  | .sw => 4

/-- The bytes from an address on, sign- or zero-extended. -/
def LoadOp.value (op : LoadOp) (mem : Bytes) (a : BitVec 32) : BitVec 32 :=
  match op with
  | .lb => (mem a).signExtend 32
  | .lbu => (mem a).setWidth 32
  | .lh => (mem (a + 1) ++ mem a).signExtend 32
  | .lhu => (mem (a + 1) ++ mem a).setWidth 32
  | .lw => mem (a + 3) ++ mem (a + 2) ++ mem (a + 1) ++ mem a

/-- The immediate of a store lies on both sides of its registers. -/
def sType (opcode : BitVec 7) (funct3 : BitVec 3) (rs1 rs2 : BitVec 5) (imm : BitVec 12) :
    BitVec 32 :=
  imm.extractLsb' 5 7 ++ rs2 ++ rs1 ++ funct3 ++ imm.extractLsb' 0 5 ++ opcode

/-- An instruction of a thread. -/
inductive Op where
  | int (i : Inst)
  | load (op : LoadOp) (rd rs1 : BitVec 5) (imm : BitVec 12)
  | store (op : StoreOp) (rs1 rs2 : BitVec 5) (imm : BitVec 12)

def Op.encode : Op → BitVec 32
  | .int i => i.encode
  | .load op rd rs1 imm => iType 0b0000011 op.funct3 rd rs1 imm
  | .store op rs1 rs2 imm => sType 0b0100011 op.funct3 rs1 rs2 imm

/-- A load depends on the bytes that it reads. -/
theorem LoadOp.value_congr (op : LoadOp) {mem mem' : Bytes} {a : BitVec 32}
    (h : ∀ j, j < op.size → mem (a + BitVec.ofNat 32 j) = mem' (a + BitVec.ofNat 32 j)) :
    op.value mem a = op.value mem' a := by
  have hfirst : mem a = mem' a := by
    have hzero := h 0 (by cases op <;> decide)
    rwa [BitVec.add_zero] at hzero
  cases op with
  | lb => rw [value, value, hfirst]
  | lbu => rw [value, value, hfirst]
  | lh =>
    have hsecond : mem (a + 1) = mem' (a + 1) := h 1 (by decide)
    rw [value, value, hfirst, hsecond]
  | lhu =>
    have hsecond : mem (a + 1) = mem' (a + 1) := h 1 (by decide)
    rw [value, value, hfirst, hsecond]
  | lw =>
    have h1 : mem (a + 1) = mem' (a + 1) := h 1 (by decide)
    have h2 : mem (a + 2) = mem' (a + 2) := h 2 (by decide)
    have h3 : mem (a + 3) = mem' (a + 3) := h 3 (by decide)
    rw [value, value, hfirst, h1, h2, h3]

/-! ## Section 2: A thread -/

/-- The PC and the registers of a thread. -/
@[ext]
structure Hart where
  pc : BitVec 32
  reg : BitVec 5 → BitVec 32
  zero : reg 0 = 0

namespace Hart

variable (h : Hart)

/-- Register `rd` is written, unless it is register 0 or there is nothing to write. -/
def write (rd : BitVec 5) (value : Option (BitVec 32)) : Hart where
  pc := h.pc
  reg := fun r => if r = rd ∧ r ≠ 0 then value.getD (h.reg r) else h.reg r
  zero := (if_neg fun hand => hand.2 rfl).trans h.zero

/-- The thread goes on at an address. -/
def goto (pc : BitVec 32) : Hart := { h with pc := pc }

theorem write_none (rd : BitVec 5) : h.write rd none = h := by
  ext1
  · rfl
  · funext r
    show (if r = rd ∧ r ≠ 0 then h.reg r else h.reg r) = h.reg r
    rw [ite_self]

theorem write_zero (value : Option (BitVec 32)) : h.write 0 value = h := by
  ext1
  · rfl
  · funext r
    exact if_neg fun hand => hand.2 hand.1

end Hart

/-- The registers that an instruction names; 0 where its format has none. -/
def Inst.rd : Inst → BitVec 5
  | .lui rd _ | .auipc rd _ | .jal rd _ | .jalr rd _ _ => rd
  | .branch _ _ _ _ => 0
  | .aluImm _ rd _ _ | .shiftImm _ rd _ _ | .alu _ rd _ _ | .mul _ rd _ _ => rd

def Inst.rs1 : Inst → BitVec 5
  | .lui _ _ | .auipc _ _ | .jal _ _ => 0
  | .jalr _ rs1 _ | .branch _ rs1 _ _ => rs1
  | .aluImm _ _ rs1 _ | .shiftImm _ _ rs1 _ | .alu _ _ rs1 _ | .mul _ _ rs1 _ => rs1

def Inst.rs2 : Inst → BitVec 5
  | .lui _ _ | .auipc _ _ | .jal _ _ | .jalr _ _ _ | .aluImm _ _ _ _ | .shiftImm _ _ _ _ => 0
  | .branch _ _ rs2 _ | .alu _ _ _ rs2 | .mul _ _ _ rs2 => rs2

namespace Op

variable (op : Op) (h : Hart)

def rd : Op → BitVec 5
  | .int i => i.rd
  | .load _ rd _ _ => rd
  | .store _ _ _ _ => 0

/-- The address that a load or a store accesses. -/
def address : BitVec 32 :=
  match op with
  | .int _ => 0
  | .load _ _ rs1 imm | .store _ rs1 _ imm => h.reg rs1 + imm.signExtend 32

/-- What `rd` gets. -/
def value (mem : Bytes) : Option (BitVec 32) :=
  match op with
  | .int i => i.value h.pc (h.reg i.rs1) (h.reg i.rs2)
  | .load op rd rs1 imm => some (op.value mem (address (.load op rd rs1 imm) h))
  | .store _ _ _ _ => none

/-- Where the thread goes on. -/
def next : BitVec 32 :=
  match op with
  | .int i => (i.target h.pc (h.reg i.rs1) (h.reg i.rs2)).getD (h.pc + 4)
  | .load _ _ _ _ | .store _ _ _ _ => h.pc + 4

/-- The thread after the instruction. -/
def hartAfter (mem : Bytes) : Hart := (h.write op.rd (op.value h mem)).goto (op.next h)

/-- The memory after the instruction. -/
def memAfter (mem : Bytes) : Bytes :=
  match op with
  | .store op rs1 rs2 imm =>
    ByteMemory.store mem (address (.store op rs1 rs2 imm) h) op.size (h.reg rs2)
  | .int _ | .load _ _ _ _ => mem

/-- The bytes that a load reads satisfy `P`. -/
def ReadsIn (P : BitVec 32 → Prop) : Prop :=
  match op with
  | .load op rd rs1 imm =>
    ∀ j, j < op.size → P (address (.load op rd rs1 imm) h + BitVec.ofNat 32 j)
  | .int _ | .store _ _ _ _ => True

variable {op h} {mem mem' : Bytes} {P : BitVec 32 → Prop}

/-- The thread after an instruction depends on the bytes that it reads. -/
theorem hartAfter_congr (hreads : op.ReadsIn h P) (heq : ∀ k, P k → mem k = mem' k) :
    op.hartAfter h mem = op.hartAfter h mem' := by
  cases op with
  | int i => rfl
  | load op rd rs1 imm =>
    have hvalue : (Op.load op rd rs1 imm).value h mem = (Op.load op rd rs1 imm).value h mem' :=
      congrArg some (op.value_congr fun j hj => heq _ (hreads j hj))
    rw [hartAfter, hartAfter, hvalue]
  | store op rs1 rs2 imm => rfl

/-- An instruction keeps an agreement of two memories. -/
theorem memAfter_congr (heq : ∀ k, P k → mem k = mem' k) {k : BitVec 32} (hk : P k) :
    op.memAfter h mem k = op.memAfter h mem' k := by
  cases op with
  | int i => exact heq k hk
  | load op rd rs1 imm => exact heq k hk
  | store op rs1 rs2 imm => exact store_congr heq _ _ _ hk

end Op

/-! ## Section 3: A program alone -/

/-- A program: the instruction at each address that has one. -/
abbrev Program : Type := BitVec 32 → Option Op

/-- A thread and the memory at its turn. -/
structure View where
  hart : Hart
  mem : Bytes

def Op.exec (op : Op) (v : View) : View where
  hart := op.hartAfter v.hart v.mem
  mem := op.memAfter v.hart v.mem

/-- The state after `n` instructions of the program. -/
def Program.run (program : Program) : Nat → View → Option View
  | 0, v => some v
  | n + 1, v => (program.run n v).bind fun v => (program v.hart.pc).map fun op => op.exec v

theorem Program.run_succ {program : Program} {n : Nat} {v v' : View} {op : Op}
    (hrun : program.run n v = some v') (hop : program v'.hart.pc = some op) :
    program.run (n + 1) v = some (op.exec v') := by
  rw [run, hrun, Option.bind_some, hop, Option.map_some]

/-- **Safety** of a program alone: before each of the first `N` instructions there is
    one at the PC, which is as `ok` asks. -/
def Program.Safe (program : Program) (ok : Op → Hart → Prop) (v₀ : View) (N : Nat) : Prop :=
  ∀ n v, n < N → program.run n v₀ = some v → ∃ op, program v.hart.pc = some op ∧ ok op v.hart

/-- The same thread with the same bytes where `P` holds. -/
structure View.Agrees (P : BitVec 32 → Prop) (v v' : View) : Prop where
  hart : v.hart = v'.hart
  mem : ∀ k, P k → v.mem k = v'.mem k

section agreement

variable {program : Program} {P : BitVec 32 → Prop} {ok : Op → Hart → Prop} {v v' : View}
  {n N : Nat}

theorem View.Agrees.exec {op : Op} (h : v.Agrees P v') (hreads : op.ReadsIn v.hart P) :
    (op.exec v).Agrees P (op.exec v') := by
  constructor
  case hart =>
    show op.hartAfter v.hart v.mem = op.hartAfter v'.hart v'.mem
    rw [← h.hart]
    exact Op.hartAfter_congr hreads h.mem
  case mem =>
    intro k hk
    show op.memAfter v.hart v.mem k = op.memAfter v'.hart v'.mem k
    rw [← h.hart]
    exact Op.memAfter_congr h.mem hk

/-- **A safe program** goes the same way from two states that agree where it reads. -/
theorem Program.run_agrees (h : v.Agrees P v') (hsafe : program.Safe ok v N)
    (hok : ∀ op h, ok op h → op.ReadsIn h P) (hn : n ≤ N) :
    ∃ w w', program.run n v = some w ∧ program.run n v' = some w' ∧ w.Agrees P w' := by
  induction n with
  | zero => exact ⟨v, v', rfl, rfl, h⟩
  | succ n ih =>
    obtain ⟨w, w', hrun, hrun', hagrees⟩ := ih (by omega)
    obtain ⟨op, hop, hopok⟩ := hsafe n w (by omega) hrun
    refine ⟨op.exec w, op.exec w', run_succ hrun hop, run_succ hrun' (hagrees.hart ▸ hop), ?_⟩
    exact hagrees.exec (hok op w.hart hopok)

/-- Safety is one of every state that agrees. -/
theorem Program.Safe.of_agrees (h : v.Agrees P v') (hsafe : program.Safe ok v N)
    (hok : ∀ op h, ok op h → op.ReadsIn h P) : program.Safe ok v' N := by
  intro n w' hn hrun'
  obtain ⟨w, w'', hrun, hrun'', hagrees⟩ := Program.run_agrees h hsafe hok hn.le
  obtain rfl : w'' = w' := Option.some.inj (hrun''.symm.trans hrun')
  rw [← hagrees.hart]
  exact hsafe n w hn hrun

end agreement

/-! ## Section 4: Threads in turns -/

section machine

variable {T : Type*} [DecidableEq T]

variable (T) in
/-- The threads and their memory. -/
@[ext]
structure State where
  hart : T → Hart
  mem : Bytes

def State.view (s : State T) (t : T) : View := ⟨s.hart t, s.mem⟩

variable (T) in
/-- What a turn is: nobody's; a thread's instruction; or something else that takes a
    thread elsewhere and may write one of its registers. -/
inductive Event where
  | idle
  | exec (t : T) (op : Op)
  | system (t : T) (next : BitVec 32) (rd : BitVec 5) (value : Option (BitVec 32))

/-- **One turn**. -/
def step (s : State T) : Event T → State T
  | .idle => s
  | .exec t op =>
    { hart := Function.update s.hart t (op.hartAfter (s.hart t) s.mem)
      mem := op.memAfter (s.hart t) s.mem }
  | .system t next rd value =>
    { s with hart := Function.update s.hart t (((s.hart t).write rd value).goto next) }

/-- **A program in turns**: `n` instructions of the program alone lead `t` where it is
    now, and to the bytes that satisfy `P`. -/
def Tracks (program : Program) (P : BitVec 32 → Prop) (t : T) (v₀ : View) (n : Nat)
    (s : State T) : Prop :=
  ∃ v, program.run n v₀ = some v ∧ v.Agrees P (s.view t)

variable {program : Program} {P : BitVec 32 → Prop} {t : T} {v₀ : View} {n : Nat} {s : State T}

omit [DecidableEq T] in
theorem tracks_zero (s : State T) : Tracks program P t (s.view t) 0 s :=
  ⟨s.view t, rfl, rfl, fun _ _ => rfl⟩

/-- An instruction of the program at the thread's turn. -/
theorem Tracks.exec {op : Op} (h : Tracks program P t v₀ n s)
    (hop : program (s.hart t).pc = some op) (hreads : op.ReadsIn (s.hart t) P) :
    Tracks program P t v₀ (n + 1) (step s (.exec t op)) := by
  obtain ⟨v, hrun, hagrees⟩ := h
  have hhart : v.hart = s.hart t := hagrees.hart
  have hexec : (op.exec v).Agrees P (op.exec (s.view t)) := hagrees.exec (by rwa [hhart])
  refine ⟨op.exec v, Program.run_succ hrun (hhart ▸ hop), ?_, hexec.mem⟩
  show _ = Function.update s.hart t _ t
  rw [Function.update_self]
  exact hexec.hart

omit [DecidableEq T] in
/-- **Whatever else** leaves the thread and the bytes as they are. -/
theorem Tracks.stay {s' : State T} (h : Tracks program P t v₀ n s) (hhart : s'.hart t = s.hart t)
    (hmem : ∀ k, P k → s'.mem k = s.mem k) : Tracks program P t v₀ n s' := by
  obtain ⟨v, hrun, hagrees⟩ := h
  exact ⟨v, hrun, hagrees.hart.trans hhart.symm,
    fun k hk => (hagrees.mem k hk).trans (hmem k hk).symm⟩

end machine

end Rv32
