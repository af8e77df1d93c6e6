import Flexpret.Core.LoadStore

/-! # The Datapath

    Immediates, operands, the ALU, the branch condition and the multiplier;
    then the registers of the pipeline, stage by stage.
-/

namespace Flexpret.Core

/-! ## Section 1: Decode stage -/

/-- `dec_imm`. -/
def decImm (immSel : BitVec 3) (inst : BitVec 32) : BitVec 32 :=
  if immSel = immS then (inst.extractLsb' 25 7 ++ inst.extractLsb' 7 5).signExtend 32
  else if immSel = immB then
    (inst.extractLsb' 31 1 ++ inst.extractLsb' 7 1 ++ inst.extractLsb' 25 6 ++
      inst.extractLsb' 8 4 ++ 0#1).signExtend 32
  else if immSel = immU then inst.extractLsb' 12 20 ++ 0#12
  else if immSel = immJ then
    (inst.extractLsb' 31 1 ++ inst.extractLsb' 12 8 ++ inst.extractLsb' 20 1 ++
      inst.extractLsb' 21 10 ++ 0#1).signExtend 32
  else if immSel = immZ then (inst.extractLsb' 15 5).setWidth 32
  else (inst.extractLsb' 20 12).signExtend 32

/-- `dec_op1`: zero unless `rs1` or the PC is selected. -/
def decOp1 (op1Sel : BitVec 2) (rs1Data pc : BitVec 32) : BitVec 32 :=
  if op1Sel = op1RS1 then rs1Data else if op1Sel = op1PC then pc else 0

/-- `dec_op2`: zero unless `rs2` or the immediate is selected. -/
def decOp2 (op2Sel : BitVec 2) (rs2Data imm : BitVec 32) : BitVec 32 :=
  if op2Sel = op2RS2 then rs2Data else if op2Sel = op2IMM then imm else 0

/-! ## Section 2: Execute stage -/

/-- `exe_alu_result`. -/
def aluResult (aluType : BitVec 4) (op1 op2 : BitVec 32) : BitVec 32 :=
  let shift := (op2.setWidth 5).toNat
  if aluType = aluSLL then op1 <<< shift
  else if aluType = aluXOR then op1 ^^^ op2
  else if aluType = aluSRL then op1 >>> shift
  else if aluType = aluOR then op1 ||| op2
  else if aluType = aluAND then op1 &&& op2
  else if aluType = aluSUB then op1 - op2
  else if aluType = aluSLT then (BitVec.ofBool (op1.slt op2)).setWidth 32
  else if aluType = aluSLTU then (BitVec.ofBool (op1.ult op2)).setWidth 32
  else if aluType = aluSRA then op1.sshiftRight shift
  else op1 + op2

/-- `exe_br_cond`. -/
def brCond (brType : BitVec 3) (rs1Data rs2Data : BitVec 32) : Bool :=
  if brType = brEQ then rs1Data == rs2Data
  else if brType = brLT then rs1Data.slt rs2Data
  else if brType = brLTU then rs1Data.ult rs2Data
  else if brType = brNE then !(rs1Data == rs2Data)
  else if brType = brGE then !(rs1Data.slt rs2Data)
  else if brType = brGEU then !(rs1Data.ult rs2Data)
  else false

/-- `Multiplier`: one half of the product of the operands, each read as signed
    or unsigned. -/
def mulResult (func : BitVec 2) (op1 op2 : BitVec 32) : BitVec 32 :=
  let wide1 : BitVec 64 := if func = mulHU then op1.setWidth 64 else op1.signExtend 64
  let wide2 : BitVec 64 :=
    if func = mulHSU || func = mulHU then op2.setWidth 64 else op2.signExtend 64
  let product := wide1 * wide2
  if func = mulL then product.extractLsb' 0 32 else product.extractLsb' 32 32

/-! ## Section 3: Pipeline registers -/

variable (conf : FlexpretConfiguration)

/-- Between the scheduler and the fetch stage (`regSchedule`). -/
structure NextReg where
  tid : conf.Tid
  valid : Bool

/-- Fetch stage. -/
structure IfReg where
  tid : conf.Tid
  valid : Bool
  pc : BitVec 32

/-- Decode stage.  `issued` is the schedule's `valid`, whatever was killed. -/
structure DecReg where
  tid : conf.Tid
  valid : Bool
  issued : Bool
  pc : BitVec 32
  pc4 : BitVec 32
  inst : BitVec 32
  exc : Bool
  cause : Cause

/-- Execute stage. -/
structure ExeReg where
  tid : conf.Tid
  valid : Bool
  issued : Bool
  sig : Decoded
  ie : Bool
  ee : Bool
  mtImm : Bool
  rdWrite : Bool
  rdAddr : BitVec 5
  op1 : BitVec 32
  op2 : BitVec 32
  rs1Data : BitVec 32
  rs2Data : BitVec 32
  pc : BitVec 32
  pc4 : BitVec 32
  csrAddr : BitVec 12
  csrData : BitVec 32
  inst : BitVec 32
  exc : Bool
  cause : Cause

/-- Memory stage, with the registers of the multiplier and of the load and
    store unit. -/
structure MemReg where
  tid : conf.Tid
  valid : Bool
  exception : Bool
  brjmp : Bool
  rdDataSel : BitVec 2
  rdWrite : Bool
  rdAddr : BitVec 5
  rdData : BitVec 32
  address : BitVec 32
  mulResult : BitVec 32
  addrByte : BitVec 2
  memType : BitVec 4
  dmemOp : Bool
  imemOp : Bool

/-- Writeback stage. -/
structure WbReg where
  tid : conf.Tid
  rdWrite : Bool
  rdAddr : BitVec 5
  rdData : BitVec 32

/-- The register file and the words it read for the decode stage. -/
structure RegFile where
  regfile : BitVec 5 → conf.Tid → BitVec 32
  dout1 : BitVec 32
  dout2 : BitVec 32

variable {conf}

/-- Register 0 reads as zero. -/
def RegFile.read (r : RegFile conf) (addr : BitVec 5) (t : conf.Tid) : BitVec 32 :=
  if addr = 0 then 0 else r.regfile addr t

def RegFile.next (r : RegFile conf) (rs1 rs2 : BitVec 5) (thread : conf.Tid)
    (rdEnable : Bool) (rdAddr : BitVec 5) (rdThread : conf.Tid) (rdData : BitVec 32) :
    RegFile conf where
  regfile := fun a t =>
    if rdEnable && a = rdAddr && t = rdThread then rdData else r.regfile a t
  dout1 := r.read rs1 thread
  dout2 := r.read rs2 thread

end Flexpret.Core
