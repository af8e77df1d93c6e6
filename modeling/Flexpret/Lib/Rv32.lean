import Mathlib.Algebra.Order.Ring.Int
import Mathlib.Tactic.Positivity

/-! # Integer Instructions of RV32

    The instructions that compute with registers or change the flow of control:
    how a word encodes them, the value that they give `rd`, and where they go.
-/

namespace Rv32

/-! ## Section 1: Instructions -/

/-- Operations on two registers. -/
inductive AluOp where
  | add | sub | sll | slt | sltu | xor | srl | sra | or | and

/-- Operations on a register and an immediate of 12 bits. -/
inductive ImmOp where
  | addi | slti | sltiu | xori | ori | andi

/-- Shifts by an immediate of 5 bits. -/
inductive ShiftOp where
  | slli | srli | srai

inductive BranchOp where
  | beq | bne | blt | bge | bltu | bgeu

inductive MulOp where
  | mul | mulh | mulhsu | mulhu

/-- An instruction.  The offsets of jumps and branches count halfwords. -/
inductive Inst where
  | lui (rd : BitVec 5) (imm : BitVec 20)
  | auipc (rd : BitVec 5) (imm : BitVec 20)
  | jal (rd : BitVec 5) (offset : BitVec 20)
  | jalr (rd rs1 : BitVec 5) (imm : BitVec 12)
  | branch (op : BranchOp) (rs1 rs2 : BitVec 5) (offset : BitVec 12)
  | aluImm (op : ImmOp) (rd rs1 : BitVec 5) (imm : BitVec 12)
  | shiftImm (op : ShiftOp) (rd rs1 shamt : BitVec 5)
  | alu (op : AluOp) (rd rs1 rs2 : BitVec 5)
  | mul (op : MulOp) (rd rs1 rs2 : BitVec 5)

/-! ## Section 2: Encodings -/

section formats

variable (funct7 opcode : BitVec 7) (funct3 : BitVec 3) (rd rs1 rs2 : BitVec 5)

def rType : BitVec 32 := funct7 ++ rs2 ++ rs1 ++ funct3 ++ rd ++ opcode

def iType (imm : BitVec 12) : BitVec 32 := imm ++ rs1 ++ funct3 ++ rd ++ opcode

/-- The bits of an offset are 12, 10 to 5, 4 to 1 and 11; bit 0 is left out. -/
def bType (offset : BitVec 12) : BitVec 32 :=
  offset.extractLsb' 11 1 ++ offset.extractLsb' 4 6 ++ rs2 ++ rs1 ++ funct3 ++
    (offset.extractLsb' 0 4 ++ offset.extractLsb' 10 1) ++ opcode

def uType (imm : BitVec 20) : BitVec 32 := imm ++ rd ++ opcode

/-- The bits of an offset are 20, 10 to 1, 11 and 19 to 12; bit 0 is left out. -/
def jType (offset : BitVec 20) : BitVec 32 :=
  offset.extractLsb' 19 1 ++ offset.extractLsb' 0 10 ++ offset.extractLsb' 10 1 ++
    offset.extractLsb' 11 8 ++ rd ++ opcode

end formats

def AluOp.funct7 : AluOp → BitVec 7
  | .sub | .sra => 0b0100000
  | .add | .sll | .slt | .sltu | .xor | .srl | .or | .and => 0b0000000

def AluOp.funct3 : AluOp → BitVec 3
  | .add | .sub => 0b000
  | .sll => 0b001
  | .slt => 0b010
  | .sltu => 0b011
  | .xor => 0b100
  | .srl | .sra => 0b101
  | .or => 0b110
  | .and => 0b111

/-- The operation on two registers. -/
def ImmOp.toAlu : ImmOp → AluOp
  | .addi => .add
  | .slti => .slt
  | .sltiu => .sltu
  | .xori => .xor
  | .ori => .or
  | .andi => .and

def ShiftOp.toAlu : ShiftOp → AluOp
  | .slli => .sll
  | .srli => .srl
  | .srai => .sra

def BranchOp.funct3 : BranchOp → BitVec 3
  | .beq => 0b000
  | .bne => 0b001
  | .blt => 0b100
  | .bge => 0b101
  | .bltu => 0b110
  | .bgeu => 0b111

def MulOp.funct3 : MulOp → BitVec 3
  | .mul => 0b000
  | .mulh => 0b001
  | .mulhsu => 0b010
  | .mulhu => 0b011

/-- **The encoding** of an instruction. -/
def Inst.encode : Inst → BitVec 32
  | .lui rd imm => uType 0b0110111 rd imm
  | .auipc rd imm => uType 0b0010111 rd imm
  | .jal rd offset => jType 0b1101111 rd offset
  | .jalr rd rs1 imm => iType 0b1100111 0b000 rd rs1 imm
  | .branch op rs1 rs2 offset => bType 0b1100011 op.funct3 rs1 rs2 offset
  | .aluImm op rd rs1 imm => iType 0b0010011 op.toAlu.funct3 rd rs1 imm
  | .shiftImm op rd rs1 shamt => rType op.toAlu.funct7 0b0010011 op.toAlu.funct3 rd rs1 shamt
  | .alu op rd rs1 rs2 => rType op.funct7 0b0110011 op.funct3 rd rs1 rs2
  | .mul op rd rs1 rs2 => rType 0b0000001 0b0110011 op.funct3 rd rs1 rs2

/-! ## Section 3: Values -/

/-- The result of an operation, modulo `2 ^ 32`; a shift takes the low five bits of
    its second operand. -/
def AluOp.eval (op : AluOp) (x y : BitVec 32) : BitVec 32 :=
  match op with
  | .add => BitVec.ofInt 32 (x.toInt + y.toInt)
  | .sub => BitVec.ofInt 32 (x.toInt - y.toInt)
  | .sll => BitVec.ofNat 32 (x.toNat * 2 ^ (y.toNat % 32))
  | .slt => if x.toInt < y.toInt then 1 else 0
  | .sltu => if x.toNat < y.toNat then 1 else 0
  | .xor => x ^^^ y
  | .srl => BitVec.ofNat 32 (x.toNat / 2 ^ (y.toNat % 32))
  | .sra => BitVec.ofInt 32 (x.toInt / 2 ^ (y.toNat % 32))
  | .or => x ||| y
  | .and => x &&& y

/-- The condition of a branch. -/
def BranchOp.holds (op : BranchOp) (x y : BitVec 32) : Bool :=
  match op with
  | .beq => x = y
  | .bne => x ≠ y
  | .blt => x.toInt < y.toInt
  | .bge => y.toInt ≤ x.toInt
  | .bltu => x.toNat < y.toNat
  | .bgeu => y.toNat ≤ x.toNat

/-- The low or the high word of a product. -/
def MulOp.eval (op : MulOp) (x y : BitVec 32) : BitVec 32 :=
  match op with
  | .mul => BitVec.ofInt 32 (x.toInt * y.toInt)
  | .mulh => BitVec.ofInt 32 (x.toInt * y.toInt / 2 ^ 32)
  | .mulhsu => BitVec.ofInt 32 (x.toInt * (y.toNat : Int) / 2 ^ 32)
  | .mulhu => BitVec.ofNat 32 (x.toNat * y.toNat / 2 ^ 32)

/-- **The value for `rd`** of an instruction at `pc` with the values `x` and `y` of
    `rs1` and `rs2`; a branch has none. -/
def Inst.value (i : Inst) (pc x y : BitVec 32) : Option (BitVec 32) :=
  match i with
  | .lui _ imm => some (imm ++ 0#12)
  | .auipc _ imm => some (pc + (imm ++ 0#12))
  | .jal _ _ | .jalr _ _ _ => some (pc + 4)
  | .branch _ _ _ _ => none
  | .aluImm op _ _ imm => some (op.toAlu.eval x (imm.signExtend 32))
  | .shiftImm op _ _ shamt => some (op.toAlu.eval x (shamt.setWidth 32))
  | .alu op _ _ _ => some (op.eval x y)
  | .mul op _ _ _ => some (op.eval x y)

/-- **The target** of a jump or a branch that is taken. -/
def Inst.target (i : Inst) (pc x y : BitVec 32) : Option (BitVec 32) :=
  match i with
  | .jal _ offset => some (pc + (offset ++ 0#1).signExtend 32)
  -- the lowest bit of the sum is cleared
  | .jalr _ _ imm => some ((x + imm.signExtend 32) &&& ~~~1#32)
  | .branch op _ _ offset =>
    if op.holds x y then some (pc + (offset ++ 0#1).signExtend 32) else none
  | _ => none

/-! ## Section 4: Values by operations on words -/

section words

variable {w : Nat} (x y : BitVec 32)

theorem ediv_emod_two_pow (z : Int) {start len : Nat} (h : start + len ≤ w) :
    z / 2 ^ start % 2 ^ len = z % 2 ^ w / 2 ^ start % 2 ^ len := by
  have hpos : (2 : Int) ^ start ≠ 0 := by positivity
  obtain ⟨c, rfl⟩ := Nat.exists_eq_add_of_le h
  have hsplit : z = z % 2 ^ (start + len + c) +
      2 ^ start * (2 ^ len * (2 ^ c * (z / 2 ^ (start + len + c)))) := by
    have hdiv := Int.emod_add_mul_ediv z (2 ^ (start + len + c))
    rw [pow_add, pow_add] at hdiv ⊢
    rw [← mul_assoc, ← mul_assoc]
    exact hdiv.symm
  conv_lhs => rw [hsplit, Int.add_mul_ediv_left _ _ hpos, Int.add_mul_emod_self_left]

/-- **A slice** of an integer's word is a quotient of the integer. -/
theorem extractLsb'_ofInt (z : Int) {start len : Nat} (h : start + len ≤ w) :
    (BitVec.ofInt w z).extractLsb' start len = BitVec.ofInt len (z / 2 ^ start) := by
  have hnonneg : 0 ≤ z % 2 ^ w := Int.emod_nonneg _ (by positivity)
  obtain ⟨n, hn⟩ := Int.eq_ofNat_of_zero_le hnonneg
  apply BitVec.eq_of_toNat_eq
  rw [BitVec.extractLsb'_toNat, BitVec.toNat_ofInt, BitVec.toNat_ofInt,
    Nat.shiftRight_eq_div_pow]
  push_cast
  rw [ediv_emod_two_pow z h, hn, Int.toNat_natCast]
  norm_cast

/-- **A slice of a product**, whatever is above it. -/
theorem extractLsb'_mul (a b : BitVec w) {start len : Nat} (h : start + len ≤ w) :
    (a * b).extractLsb' start len = BitVec.ofInt len (a.toInt * b.toInt / 2 ^ start) := by
  have hproduct : a * b = BitVec.ofInt w (a.toInt * b.toInt) := by
    rw [BitVec.ofInt_mul, BitVec.ofInt_toInt, BitVec.ofInt_toInt]
  rw [hproduct, extractLsb'_ofInt _ h]

/-- The low five bits. -/
theorem toNat_setWidth_five : (y.setWidth 5).toNat = y.toNat % 32 := BitVec.toNat_setWidth ..

theorem eval_add : AluOp.add.eval x y = x + y := by
  rw [AluOp.eval, BitVec.ofInt_add, BitVec.ofInt_toInt, BitVec.ofInt_toInt]

theorem eval_sub : AluOp.sub.eval x y = x - y := by
  rw [AluOp.eval, sub_eq_add_neg, BitVec.ofInt_add, BitVec.ofInt_neg, BitVec.ofInt_toInt,
    BitVec.ofInt_toInt, BitVec.sub_eq_add_neg]

theorem eval_sll : AluOp.sll.eval x y = x <<< (y.toNat % 32) := by
  apply BitVec.eq_of_toNat_eq
  rw [AluOp.eval, BitVec.toNat_ofNat, BitVec.toNat_shiftLeft, Nat.shiftLeft_eq]

theorem eval_srl : AluOp.srl.eval x y = x >>> (y.toNat % 32) := by
  apply BitVec.eq_of_toNat_eq
  rw [AluOp.eval, BitVec.toNat_ofNat, BitVec.toNat_ushiftRight, Nat.shiftRight_eq_div_pow]
  exact Nat.mod_eq_of_lt ((Nat.div_le_self _ _).trans_lt x.isLt)

theorem eval_sra : AluOp.sra.eval x y = x.sshiftRight (y.toNat % 32) := by
  rw [AluOp.eval, BitVec.sshiftRight, Int.shiftRight_eq_div_pow]
  norm_cast

theorem eval_slt : AluOp.slt.eval x y = (BitVec.ofBool (x.slt y)).setWidth 32 := by
  rw [AluOp.eval, BitVec.slt_eq_decide]
  by_cases h : x.toInt < y.toInt
  · rw [if_pos h, decide_eq_true h]
    rfl
  · rw [if_neg h, decide_eq_false h]
    rfl

theorem eval_sltu : AluOp.sltu.eval x y = (BitVec.ofBool (x.ult y)).setWidth 32 := by
  show (if x.toNat < y.toNat then (1 : BitVec 32) else 0) =
    (BitVec.ofBool (decide (x.toNat < y.toNat))).setWidth 32
  by_cases h : x.toNat < y.toNat
  · rw [if_pos h, decide_eq_true h]
    rfl
  · rw [if_neg h, decide_eq_false h]
    rfl

end words

end Rv32
