import Flexpret.Core.PipelineThread
import Flexpret.Lib.Rv32

/-! # Integer Instructions

    What the decode table, the immediates, the ALU, the branch condition and the
    multiplier deliver together is the value and the target that RV32 gives the
    instruction, whatever the signals are that its row leaves open.
-/

open Rv32

namespace Flexpret.Core

variable {conf : FlexpretConfiguration}

/-! ## Section 1: The table entry of a word -/

/-- No word matches both patterns: they fix a bit differently. -/
def BitPat.Disjoint (p q : BitPat) : Prop := p.mask &&& q.mask &&& (p.value ^^^ q.value) ≠ 0

instance (p q : BitPat) : Decidable (p.Disjoint q) := inferInstanceAs (Decidable (_ ≠ _))

theorem BitPat.Disjoint.not_matches {p q : BitPat} (h : p.Disjoint q) {inst : BitVec 32}
    (hq : q.matches inst = true) : p.matches inst = false := by
  rw [Bool.eq_false_iff]
  intro hp
  have hpvalue : inst &&& p.mask = p.value := of_decide_eq_true hp
  have hqvalue : inst &&& q.mask = q.value := of_decide_eq_true hq
  apply h
  rw [← hpvalue, ← hqvalue]
  apply BitVec.eq_of_getLsbD_eq
  intro i hi
  simp only [BitVec.getLsbD_and, BitVec.getLsbD_xor]
  grind

theorem decodeTable_disjoint :
    decodeTable.Pairwise fun k k' => k.pattern.Disjoint k'.pattern := by
  decide +kernel

theorem mem_decodeTable (k : Instr) : k ∈ decodeTable := by
  cases k <;> decide

/-- **The entry** of a word is the one whose pattern it matches. -/
theorem instrOf_eq {k : Instr} {inst : BitVec 32} (h : k.pattern.matches inst = true) :
    instrOf inst = some k := by
  obtain ⟨before, behind, hsplit⟩ := List.append_of_mem (mem_decodeTable k)
  have hpairwise := decodeTable_disjoint
  rw [hsplit, List.pairwise_append] at hpairwise
  rw [instrOf, hsplit, List.find?_eq_some_iff_append]
  refine ⟨h, before, behind, rfl, fun k' hk' => ?_⟩
  have hdisjoint := hpairwise.2.2 k' hk' k List.mem_cons_self
  rw [hdisjoint.not_matches h]
  rfl

/-! ## Section 2: Encodings match their patterns -/

section patterns

variable (hi25 : BitVec 25) (hi17 : BitVec 17) (funct7 : BitVec 7) (funct6 : BitVec 6)
  (funct3 : BitVec 3) (rs2 rs1 rd : BitVec 5) (opcode : BitVec 7)

theorem opcodePat_matches : (opcodePat opcode).matches (hi25 ++ opcode) = true := by
  apply decide_eq_true
  show (hi25 ++ opcode) &&& (0#25 ++ BitVec.allOnes 7) = opcode.setWidth 32
  rw [BitVec.and_append, BitVec.and_zero, BitVec.and_allOnes]
  exact (BitVec.setWidth_eq_append (by decide)).symm

theorem funct3Pat_matches :
    (funct3Pat funct3 opcode).matches (hi17 ++ funct3 ++ rd ++ opcode) = true := by
  apply decide_eq_true
  show (hi17 ++ funct3 ++ rd ++ opcode) &&&
      (0#17 ++ BitVec.allOnes 3 ++ 0#5 ++ BitVec.allOnes 7) =
    funct3.setWidth 32 <<< 12 ||| opcode.setWidth 32
  simp only [BitVec.and_append, BitVec.and_zero, BitVec.and_allOnes]
  apply BitVec.eq_of_getLsbD_eq
  intro i hi
  simp only [BitVec.getLsbD_append, BitVec.getLsbD_or, BitVec.getLsbD_shiftLeft,
    BitVec.getLsbD_setWidth, BitVec.getLsbD_zero]
  grind

theorem funct6Pat_matches (bit : BitVec 1) :
    (funct6Pat funct6 funct3 opcode).matches
      (funct6 ++ bit ++ rs2 ++ rs1 ++ funct3 ++ rd ++ opcode) = true := by
  apply decide_eq_true
  show (funct6 ++ bit ++ rs2 ++ rs1 ++ funct3 ++ rd ++ opcode) &&&
      (BitVec.allOnes 6 ++ 0#1 ++ 0#5 ++ 0#5 ++ BitVec.allOnes 3 ++ 0#5 ++ BitVec.allOnes 7) =
    funct6.setWidth 32 <<< 26 ||| funct3.setWidth 32 <<< 12 ||| opcode.setWidth 32
  simp only [BitVec.and_append, BitVec.and_zero, BitVec.and_allOnes]
  apply BitVec.eq_of_getLsbD_eq
  intro i hi
  simp only [BitVec.getLsbD_append, BitVec.getLsbD_or, BitVec.getLsbD_shiftLeft,
    BitVec.getLsbD_setWidth, BitVec.getLsbD_zero]
  grind

theorem funct7Pat_matches :
    (funct7Pat funct7 funct3 opcode).matches
      (funct7 ++ rs2 ++ rs1 ++ funct3 ++ rd ++ opcode) = true := by
  apply decide_eq_true
  show (funct7 ++ rs2 ++ rs1 ++ funct3 ++ rd ++ opcode) &&&
      (BitVec.allOnes 7 ++ 0#5 ++ 0#5 ++ BitVec.allOnes 3 ++ 0#5 ++ BitVec.allOnes 7) =
    funct7.setWidth 32 <<< 25 ||| funct3.setWidth 32 <<< 12 ||| opcode.setWidth 32
  simp only [BitVec.and_append, BitVec.and_zero, BitVec.and_allOnes]
  apply BitVec.eq_of_getLsbD_eq
  intro i hi
  simp only [BitVec.getLsbD_append, BitVec.getLsbD_or, BitVec.getLsbD_shiftLeft,
    BitVec.getLsbD_setWidth, BitVec.getLsbD_zero]
  grind

end patterns

/-- The entries of the operations. -/
def aluEntry : AluOp → Instr
  | .add => .add
  | .sub => .sub
  | .sll => .sll
  | .slt => .slt
  | .sltu => .sltu
  | .xor => .xor
  | .srl => .srl
  | .sra => .sra
  | .or => .or
  | .and => .and

def immEntry : ImmOp → Instr
  | .addi => .addi
  | .slti => .slti
  | .sltiu => .sltiu
  | .xori => .xori
  | .ori => .ori
  | .andi => .andi

def shiftEntry : ShiftOp → Instr
  | .slli => .slli
  | .srli => .srli
  | .srai => .srai

def branchEntry : BranchOp → Instr
  | .beq => .beq
  | .bne => .bne
  | .blt => .blt
  | .bge => .bge
  | .bltu => .bltu
  | .bgeu => .bgeu

def mulEntry : MulOp → Instr
  | .mul => .mul
  | .mulh => .mulh
  | .mulhsu => .mulhsu
  | .mulhu => .mulhu

/-- The entry of an instruction. -/
def entry : Inst → Instr
  | .lui _ _ => .lui
  | .auipc _ _ => .auipc
  | .jal _ _ => .jal
  | .jalr _ _ _ => .jalr
  | .branch op _ _ _ => branchEntry op
  | .aluImm op _ _ _ => immEntry op
  | .shiftImm op _ _ _ => shiftEntry op
  | .alu op _ _ _ => aluEntry op
  | .mul op _ _ _ => mulEntry op

/-- **Decoding** an encoding gives its entry. -/
theorem instrOf_encode (w : Inst) : instrOf w.encode = some (entry w) := by
  apply instrOf_eq
  cases w with
  | lui rd imm => exact opcodePat_matches (imm ++ rd) _
  | auipc rd imm => exact opcodePat_matches (imm ++ rd) _
  | jal rd offset =>
    exact opcodePat_matches (offset.extractLsb' 19 1 ++ offset.extractLsb' 0 10 ++
      offset.extractLsb' 10 1 ++ offset.extractLsb' 11 8 ++ rd) _
  | jalr rd rs1 imm => exact funct3Pat_matches (imm ++ rs1) _ rd _
  | branch op rs1 rs2 offset =>
    cases op
    all_goals
      exact funct3Pat_matches (offset.extractLsb' 11 1 ++ offset.extractLsb' 4 6 ++ rs2 ++ rs1) _
        (offset.extractLsb' 0 4 ++ offset.extractLsb' 10 1) _
  | aluImm op rd rs1 imm =>
    cases op
    all_goals exact funct3Pat_matches (imm ++ rs1) _ rd _
  | shiftImm op rd rs1 shamt =>
    cases op with
    | slli => exact funct6Pat_matches 0b000000 _ shamt rs1 rd _ 0
    | srli => exact funct6Pat_matches 0b000000 _ shamt rs1 rd _ 0
    | srai => exact funct6Pat_matches 0b010000 _ shamt rs1 rd _ 0
  | alu op rd rs1 rs2 =>
    cases op
    all_goals exact funct7Pat_matches _ _ rs2 rs1 rd _
  | mul op rd rs1 rs2 =>
    cases op
    all_goals exact funct7Pat_matches _ _ rs2 rs1 rd _

/-! ## Section 3: Immediates -/

section immediates

variable (funct7 opcode : BitVec 7) (funct3 : BitVec 3) (rd rs1 rs2 : BitVec 5)

theorem decImm_iType (imm : BitVec 12) :
    decImm immI (iType opcode funct3 rd rs1 imm) = imm.signExtend 32 := by
  show ((iType opcode funct3 rd rs1 imm).extractLsb' 20 12).signExtend 32 = _
  congr 1
  apply BitVec.eq_of_getLsbD_eq
  intro i hi
  simp only [iType, BitVec.getLsbD_extractLsb', BitVec.getLsbD_append]
  grind

/-- The amount of a shift are the low bits of the immediate. -/
theorem decImm_rType :
    (decImm immI (rType funct7 opcode funct3 rd rs1 rs2)).setWidth 5 = rs2 := by
  show (((rType funct7 opcode funct3 rd rs1 rs2).extractLsb' 20 12).signExtend 32).setWidth 5 = _
  apply BitVec.eq_of_getLsbD_eq
  intro i hi
  simp only [rType, BitVec.getLsbD_setWidth, BitVec.getLsbD_signExtend,
    BitVec.getLsbD_extractLsb', BitVec.getLsbD_append]
  grind

theorem decImm_bType (offset : BitVec 12) :
    decImm immB (bType opcode funct3 rs1 rs2 offset) = (offset ++ 0#1).signExtend 32 := by
  show ((bType opcode funct3 rs1 rs2 offset).extractLsb' 31 1 ++
    (bType opcode funct3 rs1 rs2 offset).extractLsb' 7 1 ++
    (bType opcode funct3 rs1 rs2 offset).extractLsb' 25 6 ++
    (bType opcode funct3 rs1 rs2 offset).extractLsb' 8 4 ++ 0#1).signExtend 32 = _
  congr 1
  apply BitVec.eq_of_getLsbD_eq
  intro i hi
  simp only [bType, BitVec.getLsbD_extractLsb', BitVec.getLsbD_append]
  grind

theorem decImm_uType (imm : BitVec 20) :
    decImm immU (uType opcode rd imm) = imm ++ 0#12 := by
  show (uType opcode rd imm).extractLsb' 12 20 ++ 0#12 = _
  congr 1
  apply BitVec.eq_of_getLsbD_eq
  intro i hi
  simp only [uType, BitVec.getLsbD_extractLsb', BitVec.getLsbD_append]
  grind

theorem decImm_jType (offset : BitVec 20) :
    decImm immJ (jType opcode rd offset) = (offset ++ 0#1).signExtend 32 := by
  show ((jType opcode rd offset).extractLsb' 31 1 ++
    (jType opcode rd offset).extractLsb' 12 8 ++ (jType opcode rd offset).extractLsb' 20 1 ++
    (jType opcode rd offset).extractLsb' 21 10 ++ 0#1).signExtend 32 = _
  congr 1
  apply BitVec.eq_of_getLsbD_eq
  intro i hi
  simp only [jType, BitVec.getLsbD_extractLsb', BitVec.getLsbD_append]
  grind

end immediates

/-! ## Section 4: The units -/

section units

variable (x y : BitVec 32)

/-- The operation of the ALU. -/
def aluTypeOf : AluOp → BitVec 4
  | .add => aluADD
  | .sub => aluSUB
  | .sll => aluSLL
  | .slt => aluSLT
  | .sltu => aluSLTU
  | .xor => aluXOR
  | .srl => aluSRL
  | .sra => aluSRA
  | .or => aluOR
  | .and => aluAND

def brTypeOf : BranchOp → BitVec 3
  | .beq => brEQ
  | .bne => brNE
  | .blt => brLT
  | .bge => brGE
  | .bltu => brLTU
  | .bgeu => brGEU

def mulTypeOf : MulOp → BitVec 2
  | .mul => mulL
  | .mulh => mulH
  | .mulhsu => mulHSU
  | .mulhu => mulHU

theorem aluResult_eq (op : AluOp) : aluResult (aluTypeOf op) x y = op.eval x y := by
  cases op with
  | add => exact (eval_add x y).symm
  | sub => exact (eval_sub x y).symm
  | sll =>
    rw [eval_sll, ← toNat_setWidth_five]
    rfl
  | slt => exact (eval_slt x y).symm
  | sltu => exact (eval_sltu x y).symm
  | xor => rfl
  | srl =>
    rw [eval_srl, ← toNat_setWidth_five]
    rfl
  | sra =>
    rw [eval_sra, ← toNat_setWidth_five]
    rfl
  | or => rfl
  | and => rfl

/-- A shift takes the low five bits of its operand. -/
theorem aluResult_shift (op : ShiftOp) {imm : BitVec 32} {shamt : BitVec 5}
    (h : imm.setWidth 5 = shamt) :
    aluResult (aluTypeOf op.toAlu) x imm = op.toAlu.eval x (shamt.setWidth 32) := by
  have hamount : (shamt.setWidth 32).setWidth 5 = imm.setWidth 5 := by
    rw [h, BitVec.setWidth_setWidth_of_le _ (by decide), BitVec.setWidth_eq]
  rw [← aluResult_eq]
  cases op with
  | slli =>
    show x <<< (imm.setWidth 5).toNat = x <<< ((shamt.setWidth 32).setWidth 5).toNat
    rw [hamount]
  | srli =>
    show x >>> (imm.setWidth 5).toNat = x >>> ((shamt.setWidth 32).setWidth 5).toNat
    rw [hamount]
  | srai =>
    show x.sshiftRight (imm.setWidth 5).toNat =
      x.sshiftRight ((shamt.setWidth 32).setWidth 5).toNat
    rw [hamount]

theorem brCond_eq (op : BranchOp) : brCond (brTypeOf op) x y = op.holds x y := by
  cases op with
  | beq => rfl
  | bne =>
    show (!(x == y)) = decide (x ≠ y)
    rw [decide_not]
    rfl
  | blt => rfl
  | bge =>
    show (!x.slt y) = decide (y.toInt ≤ x.toInt)
    rw [BitVec.slt_eq_decide, ← decide_not]
    exact decide_eq_decide.mpr Int.not_lt
  | bltu => rfl
  | bgeu =>
    show (!decide (x.toNat < y.toNat)) = decide (y.toNat ≤ x.toNat)
    rw [← decide_not]
    exact decide_eq_decide.mpr Nat.not_lt

/-- `Multiplier` with its operands of 33 bits and their product of 66. -/
def multiplier (func : BitVec 2) (op1 op2 : BitVec 32) : BitVec 32 :=
  let wide1 : BitVec 33 := if func = mulHU then 0#1 ++ op1 else op1.extractLsb' 31 1 ++ op1
  let wide2 : BitVec 33 :=
    if func = mulHSU || func = mulHU then 0#1 ++ op2 else op2.extractLsb' 31 1 ++ op2
  let product : BitVec 66 := wide1.signExtend 66 * wide2.signExtend 66
  if func = mulL then product.extractLsb' 0 32 else product.extractLsb' 32 32

theorem toInt_zero_append : (0#1 ++ x : BitVec 33).toInt = x.toNat := by
  rw [BitVec.toInt_append]
  simp

theorem toInt_sign_append : (x.extractLsb' 31 1 ++ x : BitVec 33).toInt = x.toInt := by
  have hextend : x.extractLsb' 31 1 ++ x = x.signExtend 33 := by
    apply BitVec.eq_of_getLsbD_eq
    intro i hi
    simp only [BitVec.getLsbD_append, BitVec.getLsbD_extractLsb', BitVec.getLsbD_signExtend,
      BitVec.msb_eq_getLsbD_last]
    grind
  rw [hextend, BitVec.toInt_signExtend_of_le (by decide)]

theorem toInt_setWidth_wide : (x.setWidth 64).toInt = x.toNat := by
  have hlt := x.isLt
  have hnat : (x.setWidth 64).toNat = x.toNat := BitVec.toNat_setWidth_of_le (by decide)
  rw [BitVec.toInt_eq_toNat_of_lt (by omega), hnat]

/-- **The product** of 64 bits has the words of the one of 66. -/
theorem mulResult_eq_multiplier (func : BitVec 2) : mulResult func x y = multiplier func x y := by
  have hwide1 : (if func = mulHU then x.setWidth 64 else x.signExtend 64).toInt =
      ((if func = mulHU then 0#1 ++ x else x.extractLsb' 31 1 ++ x : BitVec 33).signExtend
        66).toInt := by
    rw [BitVec.toInt_signExtend_of_le (by decide)]
    split
    · rw [toInt_setWidth_wide, toInt_zero_append]
    · rw [toInt_sign_append, BitVec.toInt_signExtend_of_le (by decide)]
  have hwide2 : (if func = mulHSU || func = mulHU then y.setWidth 64 else y.signExtend 64).toInt =
      ((if func = mulHSU || func = mulHU then 0#1 ++ y else
        y.extractLsb' 31 1 ++ y : BitVec 33).signExtend 66).toInt := by
    rw [BitVec.toInt_signExtend_of_le (by decide)]
    split
    · rw [toInt_setWidth_wide, toInt_zero_append]
    · rw [toInt_sign_append, BitVec.toInt_signExtend_of_le (by decide)]
  dsimp only [mulResult, multiplier]
  split
  · rw [extractLsb'_mul _ _ (by decide), extractLsb'_mul _ _ (by decide), hwide1, hwide2]
  · rw [extractLsb'_mul _ _ (by decide), extractLsb'_mul _ _ (by decide), hwide1, hwide2]

theorem mulResult_eq (op : MulOp) : mulResult (mulTypeOf op) x y = op.eval x y := by
  cases op with
  | mul =>
    show (x.signExtend 64 * y.signExtend 64).extractLsb' 0 32 = _
    rw [extractLsb'_mul _ _ (by decide), BitVec.toInt_signExtend_of_le (by decide),
      BitVec.toInt_signExtend_of_le (by decide), pow_zero, Int.ediv_one]
    rfl
  | mulh =>
    show (x.signExtend 64 * y.signExtend 64).extractLsb' 32 32 = _
    rw [extractLsb'_mul _ _ (by decide), BitVec.toInt_signExtend_of_le (by decide),
      BitVec.toInt_signExtend_of_le (by decide)]
    rfl
  | mulhsu =>
    show (x.signExtend 64 * y.setWidth 64).extractLsb' 32 32 = _
    rw [extractLsb'_mul _ _ (by decide), BitVec.toInt_signExtend_of_le (by decide),
      toInt_setWidth_wide]
    rfl
  | mulhu =>
    show (x.setWidth 64 * y.setWidth 64).extractLsb' 32 32 = _
    rw [extractLsb'_mul _ _ (by decide), toInt_setWidth_wide, toInt_setWidth_wide]
    norm_cast

end units

/-! ## Section 5: Delivery -/

/-- What the core delivers for the instruction that is in decode in `d`, with the
    inputs `i` of that cycle and `j` of the next: the value for `rd` out of the
    memory stage, and in execute whether a jump or branch is taken, and whereto. -/
structure Delivers (D : DecodeLogic conf) (d : CoreState conf) (i j : CoreIn conf)
    (value target : Option (BitVec 32)) : Prop where
  writes : (d.next D i).exeReg.sig.rdEn = value.isSome
  value : ∀ v, value = some v →
    ∀ busDataOut, ((d.next D i).next D j).memRdData busDataOut = v
  taken : (d.next D i).exeReg.valid = true → (d.next D i).exeBrjmp = target.isSome
  target : ∀ a, target = some a → (d.next D i).exeAddress = a

section delivery

variable {D : DecodeLogic conf} {d : CoreState conf} {i j : CoreIn conf} {w : Inst}
  {x y : BitVec 32}

theorem decOp1_rs1 (rs1Data pc : BitVec 32) : decOp1 op1RS1 rs1Data pc = rs1Data := rfl

theorem decOp1_pc (rs1Data pc : BitVec 32) : decOp1 op1PC rs1Data pc = pc := rfl

theorem decOp1_zero (rs1Data pc : BitVec 32) : decOp1 op1Zero rs1Data pc = 0#32 := rfl

theorem decOp2_rs2 (rs2Data imm : BitVec 32) : decOp2 op2RS2 rs2Data imm = rs2Data := rfl

theorem decOp2_imm (rs2Data imm : BitVec 32) : decOp2 op2IMM rs2Data imm = imm := rfl

theorem aluResult_add (op1 op2 : BitVec 32) : aluResult aluADD op1 op2 = op1 + op2 := rfl

/-- The signals of an encoding agree with its row. -/
theorem agrees_encode (h : d.decReg.inst = w.encode) :
    ((entry w).row conf).Agrees (d.dec D) := by
  have hagrees := D.agrees d.decReg.inst
  rw [decodeRow, h, instrOf_encode] at hagrees
  show ((entry w).row conf).Agrees (D.decode d.decReg.inst)
  rw [h]
  exact hagrees

/-- The jump or branch in execute is taken. -/
theorem exeBrjmp_next (hvalid : (d.next D i).exeReg.valid = true) :
    (d.next D i).exeBrjmp =
      ((d.dec D).jump || ((d.dec D).branch &&
        brCond (d.dec D).brType (d.decRs1Data i.busDataOut) (d.decRs2Data i.busDataOut))) := by
  rw [CoreState.exeBrjmp, hvalid]
  rfl

/-- The result of the ALU. -/
theorem exeAddress_next :
    (d.next D i).exeAddress =
      aluResult (d.dec D).aluType
        (decOp1 (d.dec D).op1Sel (d.decRs1Data i.busDataOut) d.decReg.pc)
        (decOp2 (d.dec D).op2Sel (d.decRs2Data i.busDataOut)
          (decImm (d.dec D).immSel d.decReg.inst)) := rfl

/-- The value of an instruction that writes the result of the ALU. -/
theorem memRdData_alu (hmem : (d.dec D).memRdDataSel = memRdREG)
    (hexe : (d.dec D).exeRdDataSel = exeRdALU) (busDataOut : BitVec 32) :
    ((d.next D i).next D j).memRdData busDataOut = (d.next D i).exeAddress := by
  show (if (d.dec D).memRdDataSel = memRdMEM then _
    else if (d.dec D).memRdDataSel = memRdMUL then _
    else if (d.dec D).exeRdDataSel = exeRdCSR then _
    else if (d.dec D).exeRdDataSel = exeRdPC4 then _ else (d.next D i).exeAddress) = _
  rw [hmem, hexe]
  rfl

/-- The value of an instruction that links. -/
theorem memRdData_link (hmem : (d.dec D).memRdDataSel = memRdREG)
    (hexe : (d.dec D).exeRdDataSel = exeRdPC4) (busDataOut : BitVec 32) :
    ((d.next D i).next D j).memRdData busDataOut = d.decReg.pc4 := by
  show (if (d.dec D).memRdDataSel = memRdMEM then _
    else if (d.dec D).memRdDataSel = memRdMUL then _
    else if (d.dec D).exeRdDataSel = exeRdCSR then _
    else if (d.dec D).exeRdDataSel = exeRdPC4 then d.decReg.pc4 else _) = _
  rw [hmem, hexe]
  rfl

/-- The value of a multiplication. -/
theorem memRdData_mul (hmul : conf.mul = true) (hmem : (d.dec D).memRdDataSel = memRdMUL)
    (busDataOut : BitVec 32) :
    ((d.next D i).next D j).memRdData busDataOut =
      mulResult (d.dec D).mulType
        (decOp1 (d.dec D).op1Sel (d.decRs1Data i.busDataOut) d.decReg.pc)
        (decOp2 (d.dec D).op2Sel (d.decRs2Data i.busDataOut)
          (decImm (d.dec D).immSel d.decReg.inst)) := by
  show (if (d.dec D).memRdDataSel = memRdMEM then _
    else if (d.dec D).memRdDataSel = memRdMUL then
      (if conf.mul then mulResult (d.dec D).mulType
        (decOp1 (d.dec D).op1Sel (d.decRs1Data i.busDataOut) d.decReg.pc)
        (decOp2 (d.dec D).op2Sel (d.decRs2Data i.busDataOut)
          (decImm (d.dec D).immSel d.decReg.inst)) else _) else _) = _
  rw [hmem, hmul]
  rfl

/-- An instruction that writes a value and neither jumps nor branches. -/
theorem delivers_value {v : BitVec 32} {row : DecodeRow} (h : row.Agrees (d.dec D))
    (hrd : row.rdEn = true) (hjump : row.jump = false) (hbranch : row.branch = false)
    (hvalue : ∀ busDataOut, ((d.next D i).next D j).memRdData busDataOut = v) :
    Delivers D d i j (some v) none := by
  constructor
  case writes => exact (congrArg Flags.rdEn h.flags).trans hrd
  case value =>
    intro v' hv' busDataOut
    rw [hvalue, Option.some.inj hv']
  case taken =>
    intro hvalid
    rw [exeBrjmp_next hvalid, (congrArg Flags.jump h.flags).trans hjump,
      (congrArg Flags.branch h.flags).trans hbranch]
    rfl
  case target =>
    intro a ha
    exact nomatch ha

/-- A register and an immediate. -/
theorem delivers_aluImm {alu : BitVec 4} (h : (aluImmRow alu).Agrees (d.dec D))
    (hrs1 : d.decRs1Data i.busDataOut = x) :
    Delivers D d i j (some (aluResult alu x (decImm immI d.decReg.inst))) none := by
  apply delivers_value h rfl rfl rfl
  intro busDataOut
  rw [memRdData_alu (h.memRdDataSel _ rfl) (h.exeRdDataSel _ rfl), exeAddress_next,
    h.aluType _ rfl, h.op1Sel _ rfl, h.op2Sel _ rfl, h.immSel _ rfl, hrs1, decOp1_rs1,
    decOp2_imm]

/-- Two registers; the row leaves the immediate open. -/
theorem delivers_aluReg {alu : BitVec 4} (h : (aluRegRow alu).Agrees (d.dec D))
    (hrs1 : d.decRs1Data i.busDataOut = x) (hrs2 : d.decRs2Data i.busDataOut = y) :
    Delivers D d i j (some (aluResult alu x y)) none := by
  apply delivers_value h rfl rfl rfl
  intro busDataOut
  rw [memRdData_alu (h.memRdDataSel _ rfl) (h.exeRdDataSel _ rfl), exeAddress_next,
    h.aluType _ rfl, h.op1Sel _ rfl, h.op2Sel _ rfl, hrs1, hrs2, decOp1_rs1, decOp2_rs2]

/-- A multiplication; the row leaves the operation of the ALU open. -/
theorem delivers_mul {mulType : BitVec 2} (hmul : conf.mul = true)
    (h : (mulRow conf mulType).Agrees (d.dec D)) (hrs1 : d.decRs1Data i.busDataOut = x)
    (hrs2 : d.decRs2Data i.busDataOut = y) :
    Delivers D d i j (some (mulResult mulType x y)) none := by
  rw [mulRow, if_pos hmul] at h
  apply delivers_value h rfl rfl rfl
  intro busDataOut
  rw [memRdData_mul hmul (h.memRdDataSel _ rfl), h.mulType _ rfl, h.op1Sel _ rfl,
    h.op2Sel _ rfl, hrs1, hrs2, decOp1_rs1, decOp2_rs2]

/-- A branch; the row leaves the source of the value that it does not write open. -/
theorem delivers_branch {br : BitVec 3} (h : (branchRow br).Agrees (d.dec D))
    (hrs1 : d.decRs1Data i.busDataOut = x) (hrs2 : d.decRs2Data i.busDataOut = y) :
    Delivers D d i j none
      (if brCond br x y then some (d.decReg.pc + decImm immB d.decReg.inst) else none) := by
  constructor
  case writes => exact congrArg Flags.rdEn h.flags
  case value =>
    intro v hv
    exact nomatch hv
  case taken =>
    intro hvalid
    have hjump : (d.dec D).jump = false := congrArg Flags.jump h.flags
    have hbranch : (d.dec D).branch = true := congrArg Flags.branch h.flags
    rw [exeBrjmp_next hvalid, hjump, hbranch, h.brType _ rfl, hrs1, hrs2]
    cases brCond br x y with
    | true => rfl
    | false => rfl
  case target =>
    intro a ha
    have htarget : d.decReg.pc + decImm immB d.decReg.inst = a := by
      split at ha
      · exact Option.some.inj ha
      · exact nomatch ha
    rw [exeAddress_next, h.aluType _ rfl, h.op1Sel _ rfl, h.op2Sel _ rfl, h.immSel _ rfl,
      decOp1_pc, decOp2_imm, aluResult_add, htarget]

/-- A jump goes where the ALU says, and links. -/
theorem delivers_jump {a : BitVec 32} {row : DecodeRow} (h : row.Agrees (d.dec D))
    (hrd : row.rdEn = true) (hjump : row.jump = true) (hmem : row.memRdDataSel = some memRdREG)
    (hexe : row.exeRdDataSel = some exeRdPC4) (htarget : (d.next D i).exeAddress = a) :
    Delivers D d i j (some d.decReg.pc4) (some a) := by
  constructor
  case writes => exact (congrArg Flags.rdEn h.flags).trans hrd
  case value =>
    intro v hv busDataOut
    rw [memRdData_link (h.memRdDataSel _ hmem) (h.exeRdDataSel _ hexe), Option.some.inj hv]
  case taken =>
    intro hvalid
    rw [exeBrjmp_next hvalid, (congrArg Flags.jump h.flags).trans hjump]
    rfl
  case target =>
    intro a' ha'
    rw [htarget, Option.some.inj ha']

end delivery

/-! ## Section 6: Instructions -/

theorem aluEntry_row (op : AluOp) : (aluEntry op).row conf = aluRegRow (aluTypeOf op) := by
  cases op
  all_goals rfl

theorem immEntry_row (op : ImmOp) : (immEntry op).row conf = aluImmRow (aluTypeOf op.toAlu) := by
  cases op
  all_goals rfl

theorem shiftEntry_row (op : ShiftOp) :
    (shiftEntry op).row conf = aluImmRow (aluTypeOf op.toAlu) := by
  cases op
  all_goals rfl

theorem branchEntry_row (op : BranchOp) : (branchEntry op).row conf = branchRow (brTypeOf op) := by
  cases op
  all_goals rfl

theorem mulEntry_row (op : MulOp) : (mulEntry op).row conf = mulRow conf (mulTypeOf op) := by
  cases op
  all_goals rfl

variable (conf) in
/-- The core has the instruction: a multiplication needs the multiplier. -/
def Has : Inst → Prop
  | .mul _ _ _ _ => conf.mul = true
  | _ => True

/-- The sum that a JALR jumps to is even. -/
def EvenTarget (x : BitVec 32) : Inst → Prop
  | .jalr _ _ imm => (x + imm.signExtend 32).toNat % 2 = 0
  | _ => True

/-- Clearing the lowest bit of an even word. -/
theorem and_not_one {a : BitVec 32} (h : a.toNat % 2 = 0) : a &&& ~~~1#32 = a := by
  have hbit : a.getLsbD 0 = false := by
    rw [BitVec.getLsbD, Nat.testBit_zero, h]
    rfl
  apply BitVec.eq_of_getLsbD_eq
  intro i hi
  rw [BitVec.getLsbD_and, BitVec.getLsbD_not, BitVec.getLsbD_one]
  grind

section instructions

variable {D : DecodeLogic conf} {d : CoreState conf} {i j : CoreIn conf} {w : Inst}
  {x y : BitVec 32}

/-- The sum of an operand that is selected and the immediate. -/
theorem exeAddress_imm {row : DecodeRow} {immSel : BitVec 3} {op1Sel : BitVec 2}
    (h : row.Agrees (d.dec D)) (halu : row.aluType = some aluADD)
    (hop1 : row.op1Sel = some op1Sel) (hop2 : row.op2Sel = some op2IMM)
    (himm : row.immSel = some immSel) :
    (d.next D i).exeAddress =
      decOp1 op1Sel (d.decRs1Data i.busDataOut) d.decReg.pc + decImm immSel d.decReg.inst := by
  rw [exeAddress_next, h.aluType _ halu, h.op1Sel _ hop1, h.op2Sel _ hop2, h.immSel _ himm,
    decOp2_imm, aluResult_add]

/-- **One instruction** in decode. -/
theorem delivers_encode (hinst : d.decReg.inst = w.encode) (hpc4 : d.decReg.pc4 = d.decReg.pc + 4)
    (hrs1 : d.decRs1Data i.busDataOut = x) (hrs2 : d.decRs2Data i.busDataOut = y)
    (hhas : Has conf w) (heven : EvenTarget x w) :
    Delivers D d i j (w.value d.decReg.pc x y) (w.target d.decReg.pc x y) := by
  have h := agrees_encode (D := D) hinst
  cases w with
  | lui rd imm =>
    apply delivers_value h rfl rfl rfl
    intro busDataOut
    rw [memRdData_alu (h.memRdDataSel _ rfl) (h.exeRdDataSel _ rfl),
      exeAddress_imm h rfl rfl rfl rfl, hinst, Inst.encode, decImm_uType, decOp1_zero,
      BitVec.zero_add]
  | auipc rd imm =>
    apply delivers_value h rfl rfl rfl
    intro busDataOut
    rw [memRdData_alu (h.memRdDataSel _ rfl) (h.exeRdDataSel _ rfl),
      exeAddress_imm h rfl rfl rfl rfl, hinst, Inst.encode, decImm_uType, decOp1_pc]
  | jal rd offset =>
    rw [Inst.value, ← hpc4]
    apply delivers_jump h rfl rfl rfl rfl
    rw [exeAddress_imm h rfl rfl rfl rfl, hinst, Inst.encode, decImm_jType, decOp1_pc]
  | jalr rd rs1 imm =>
    rw [Inst.value, ← hpc4]
    apply delivers_jump h rfl rfl rfl rfl
    rw [exeAddress_imm h rfl rfl rfl rfl, hinst, Inst.encode, decImm_iType, decOp1_rs1, hrs1]
    exact (and_not_one heven).symm
  | branch op rs1 rs2 offset =>
    rw [entry, branchEntry_row] at h
    have hdelivers := delivers_branch (j := j) h hrs1 hrs2
    rw [hinst, Inst.encode, decImm_bType, brCond_eq] at hdelivers
    exact hdelivers
  | aluImm op rd rs1 imm =>
    rw [entry, immEntry_row] at h
    have hdelivers := delivers_aluImm (j := j) h hrs1
    rw [hinst, Inst.encode, decImm_iType, aluResult_eq] at hdelivers
    exact hdelivers
  | shiftImm op rd rs1 shamt =>
    rw [entry, shiftEntry_row] at h
    have hdelivers := delivers_aluImm (j := j) h hrs1
    rw [hinst, Inst.encode, aluResult_shift _ _ (decImm_rType _ _ _ _ _ _)] at hdelivers
    exact hdelivers
  | alu op rd rs1 rs2 =>
    rw [entry, aluEntry_row] at h
    rw [Inst.value, ← aluResult_eq]
    exact delivers_aluReg h hrs1 hrs2
  | mul op rd rs1 rs2 =>
    rw [entry, mulEntry_row] at h
    rw [Inst.value, ← mulResult_eq]
    exact delivers_mul hhas h hrs1 hrs2

/-- **Integer instructions**: for the word fetched in `s` that encodes `w`, the core
    delivers the value and the target that RV32 gives `w` at its PC with the operands
    `x` and `y`. -/
theorem integerInstr_delivers (D : DecodeLogic conf) (s : CoreState conf) (i₀ i₁ i₂ : CoreIn conf)
    (w : Inst) (x y : BitVec 32) (hinst : s.ifInst = w.encode)
    (hrs1 : (s.next D i₀).decRs1Data i₁.busDataOut = x)
    (hrs2 : (s.next D i₀).decRs2Data i₁.busDataOut = y)
    (hhas : Has conf w) (heven : EvenTarget x w) :
    Delivers D (s.next D i₀) i₁ i₂ (w.value s.ifPc x y) (w.target s.ifPc x y) :=
  delivers_encode (d := s.next D i₀) hinst rfl hrs1 hrs2 hhas heven

end instructions

/-- The core when it has fetched a word. -/
def fetched (word : BitVec 32) : CoreState conf4tf :=
  { coreZero conf4tf fun _ => 0 with
    imem := { ispm := fun _ => 0, doutR := word, doutRw := 0 } }

/-- `jalr x1, 8(x2)` at 0 links 4 and goes to 8. -/
theorem jalr_delivers :
    Delivers (DecodeLogic.zeros conf4tf)
      ((fetched (Inst.jalr 1 2 8).encode).next (DecodeLogic.zeros conf4tf) (issue conf4tf 0))
      (issue conf4tf 0) (issue conf4tf 0) (some 4) (some 8) := by
  have hdelivers := integerInstr_delivers (DecodeLogic.zeros conf4tf)
    (fetched (Inst.jalr 1 2 8).encode) (issue conf4tf 0) (issue conf4tf 0) (issue conf4tf 0)
    (.jalr 1 2 8) 0 0 rfl rfl rfl trivial rfl
  exact hdelivers

end Flexpret.Core
