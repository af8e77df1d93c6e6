import Flexpret.Core.Datapath

/-! # The Pipeline

    The control unit and the datapath around it: fetch, decode, execute,
    memory and writeback, each stage with a thread of its own.  Every signal
    is a function of the registers; `CoreState.next` is one clock cycle.
-/

namespace Flexpret.Core

/-! ## Section 1: State -/

variable (conf : FlexpretConfiguration)

/-- All registers and memories of the core but for the scheduler's. -/
structure CoreState where
  nextReg : NextReg conf
  ifReg : IfReg conf
  ifRegPcs : conf.Tid → BitVec 32
  decReg : DecReg conf
  exeReg : ExeReg conf
  memReg : MemReg conf
  wbReg : WbReg conf
  stallCount : conf.Tid → BitVec 2
  regfile : RegFile conf
  csr : CsrState conf
  imem : ISpm conf
  dmem : DSpm conf

/-- What comes from outside in a cycle: the scheduler's decision, the bus, the
    pins and the interrupt lines. -/
structure CoreIn where
  thread : conf.Tid
  valid : Bool
  busDataOut : BitVec 32
  gpioIn : Fin 4 → BitVec 1
  intExts : conf.Tid → Bool

/-- The registers that reset decides.  `mem_reg_exception` has no reset value
    of its own: it is clear once reset has been held for two cycles. -/
structure CoreReset (s : CoreState conf) : Prop where
  nextValid : s.nextReg.valid = false
  ifValid : s.ifReg.valid = false
  decValid : s.decReg.valid = false
  exeValid : s.exeReg.valid = false
  memValid : s.memReg.valid = false
  memException : s.memReg.exception = false
  pcs : ∀ t, s.ifRegPcs t = 0
  stallCount : ∀ t, s.stallCount t = 0
  csr : CsrReset conf s.csr

/-- The core after reset with a program in the instruction scratchpad, a word
    at each address, and zeros where reset leaves a register open. -/
def coreZero (program : Nat → BitVec 32) : CoreState conf where
  nextReg := { tid := 0, valid := false }
  ifReg := { tid := 0, valid := false, pc := 0 }
  ifRegPcs := fun _ => 0
  decReg :=
    { tid := 0, valid := false, issued := false, pc := 0, pc4 := 0, inst := 0, exc := false
      cause := 0 }
  exeReg :=
    { tid := 0, valid := false, issued := false, sig := (DecodeLogic.zeros conf).decode 0
      ie := false, ee := false, mtImm := false, rdWrite := false, rdAddr := 0, op1 := 0, op2 := 0
      rs1Data := 0, rs2Data := 0, pc := 0, pc4 := 0, csrAddr := 0, csrData := 0, inst := 0
      exc := false, cause := 0 }
  memReg :=
    { tid := 0, valid := false, exception := false, brjmp := false, rdDataSel := 0
      rdWrite := false, rdAddr := 0, rdData := 0, address := 0, mulResult := 0, addrByte := 0
      memType := 0, dmemOp := false, imemOp := false }
  wbReg := { tid := 0, rdWrite := false, rdAddr := 0, rdData := 0 }
  stallCount := fun _ => 0
  regfile := { regfile := fun _ _ => 0, dout1 := 0, dout2 := 0 }
  csr := csrZero conf
  imem := { ispm := fun a => program a.toNat, doutR := 0, doutRw := 0 }
  dmem := { dspm := fun _ => 0, dout := 0 }

theorem coreZero_reset (program : Nat → BitVec 32) :
    CoreReset conf (coreZero conf program) := by
  constructor
  case csr => exact csrZero_reset conf
  all_goals
    intros
    rfl

/-- A cycle in which the scheduler issues thread `t` and nothing comes from
    outside. -/
def issue (t : conf.Tid) : CoreIn conf where
  thread := t
  valid := true
  busDataOut := 0
  gpioIn := fun _ => 0
  intExts := fun _ => false

/-- How the next PC of a thread is chosen. -/
inductive NextPcSel where
  | pcreg
  | plus4
  | brjmp
  | evec
  deriving DecidableEq

/-- Priority of exceptions: the first of the list that is supported and
    present, and whether there is one. -/
def checkExceptions (exceptions : List (Bool × Cause)) : Bool × Cause :=
  let enabled := exceptions.filter fun e => conf.causes.contains e.2
  (enabled.any fun e => e.1,
    match enabled.find? fun e => e.1 with
    | some e => e.2
    | none => 0)

variable {conf}

namespace CoreState

variable (D : DecodeLogic conf) (s : CoreState conf)

/-! ## Section 2: Fetch stage -/

/-- `if_reg_pc`, which is the PC register itself for one thread. -/
def ifPc : BitVec 32 := if conf.threads > 1 then s.ifReg.pc else s.ifRegPcs 0

def ifPcPlus4 : BitVec 32 := s.ifPc + 4

/-- The fetched word. -/
def ifInst : BitVec 32 := s.imem.doutR

/-- Exceptions of the fetch stage and their cause. -/
def ifExc : Bool × Cause :=
  let misaligned := conf.causes.contains Causes.misalignedFetch && addrBits s.ifPc 1 0 ≠ 0
  let fault := conf.causes.contains Causes.faultFetch &&
    addrBits s.ifPc 31 (conf.iMemAddrBits + 2) ≠ 0
  checkExceptions conf [(misaligned, Causes.misalignedFetch), (fault, Causes.faultFetch)]

/-! ## Section 3: Decode stage -/

/-- The control signals of the word in decode. -/
def dec : Decoded := D.decode s.decReg.inst

/-- `dec_stall`: a load, a multiplication or a FENCE.I keeps its thread from
    fetching. -/
def decStall : Bool :=
  conf.bypassing && s.decReg.valid &&
    ((s.dec D).load || (conf.mul && (s.dec D).memRdDataSel = memRdMUL) || (s.dec D).fenceI)

def decRdWrite : Bool := s.decReg.inst.extractLsb' 7 5 ≠ 0 && (s.dec D).rdEn

def decExc : Bool × Cause :=
  checkExceptions conf
    [(!(s.dec D).legal, Causes.illegalInstruction), ((s.dec D).scall, Causes.syscall)]

/-! ## Section 4: Execute stage -/

/-- `exe_address`, the ALU's result. -/
def exeAddress : BitVec 32 := aluResult s.exeReg.sig.aluType s.exeReg.op1 s.exeReg.op2

def exeBrCond : Bool := brCond s.exeReg.sig.brType s.exeReg.rs1Data s.exeReg.rs2Data

/-- Exceptions of the execute stage that any instruction may take. -/
def exeAnyExc : Bool × Cause :=
  checkExceptions conf
    [(s.csr.mtfdExceptionReg s.exeReg.tid, Causes.fd),
      (s.csr.excExpire s.exeReg.tid s.exeReg.valid, Causes.ee),
      (s.csr.intExpire s.exeReg.tid s.exeReg.valid, Causes.ie),
      (s.csr.intExt s.exeReg.tid, Causes.externalInt)]

/-- `exe_kill`: prevents any commit. -/
def exeKill : Bool := s.exeReg.exc || s.exeAnyExc.1

def loadStoreIn : LoadStoreIn conf where
  addr := s.exeAddress
  thread := s.exeReg.tid
  load := s.exeReg.sig.load && s.exeReg.valid
  store := s.exeReg.sig.store && s.exeReg.valid
  memType := s.exeReg.sig.memType
  dataIn := s.exeReg.rs2Data
  imemProtection := s.csr.regImemProtection
  dmemProtection := s.csr.regDmemProtection
  kill := s.exeKill

/-- Exceptions that the instruction in execute causes itself; there is no
    privilege fault without the privileged mode. -/
def exeInstExc : Bool × Cause :=
  checkExceptions conf
    [(false, Causes.privilegedInstruction),
      (s.loadStoreIn.loadMisaligned, Causes.misalignedLoad),
      (s.loadStoreIn.loadFault, Causes.faultLoad),
      (s.loadStoreIn.storeMisaligned, Causes.misalignedStore),
      (s.loadStoreIn.storeFault, Causes.faultStore)]

/-- `exe_exception`: the instruction traps and does not commit. -/
def exeException : Bool :=
  conf.exceptions && s.exeReg.valid && (s.exeReg.exc || s.exeInstExc.1 || s.exeAnyExc.1)

def exeCause : Cause :=
  if conf.exceptions then
    if s.exeReg.exc then s.exeReg.cause
    else if s.exeInstExc.1 then s.exeInstExc.2
    else s.exeAnyExc.2
  else 0

/-- `exe_valid`: the instruction commits. -/
def exeValid : Bool := s.exeReg.valid && !s.exeException

/-- `exe_brjmp`: a jump or a taken branch. -/
def exeBrjmp : Bool :=
  s.exeReg.valid && (s.exeReg.sig.jump || (s.exeReg.sig.branch && s.exeBrCond))

/-- `exe_du`: a DU or WU whose time has not come. -/
def exeDu : Bool :=
  conf.delayUntil && s.exeReg.valid && s.exeReg.sig.du &&
    !s.csr.expired s.exeReg.tid s.exeReg.tid

def exeSleep : Bool := s.exeDu && s.exeValid

/-- `exe_flush`: kills fetch and decode of the thread in execute. -/
def exeFlush : Bool := conf.bypassing && (s.exeException || s.exeBrjmp || s.exeSleep)

/-- The inputs of the CSR unit. -/
def csrIn (i : CoreIn conf) : CsrIn conf where
  addr := s.exeReg.csrAddr
  thread := s.exeReg.tid
  csrType := s.exeReg.sig.csrType
  write := s.exeReg.sig.csr && s.exeReg.valid
  dataIn := s.exeReg.csrData
  valid := s.exeReg.valid
  kill := s.exeKill
  exception := s.exeException
  epc := s.exeReg.pc
  cause := s.exeCause
  sleep := s.exeSleep
  ie := conf.interruptExpire && s.exeValid && s.exeReg.ie
  ee := conf.interruptExpire && s.exeValid && s.exeReg.ee
  gpioIn := i.gpioIn
  intExts := i.intExts
  cycle := conf.stats && s.exeReg.issued
  instret := conf.stats && s.exeValid
  mt := (s.exeValid && s.exeReg.sig.mtReg) || (s.exeValid && s.exeReg.mtImm)
  fd := s.exeValid && s.exeReg.sig.fd
  mtfdVal :=
    if s.exeValid && s.exeReg.sig.mtReg then s.exeReg.rs1Data
    else if s.exeValid && s.exeReg.mtImm then (s.exeReg.inst.extractLsb' 12 20).setWidth 32
    else 0

/-- `exe_rd_data`. -/
def exeRdData : BitVec 32 :=
  if s.exeReg.sig.exeRdDataSel = exeRdCSR then s.csr.dataOut s.exeReg.csrAddr s.exeReg.tid
  else if s.exeReg.sig.exeRdDataSel = exeRdPC4 then s.exeReg.pc4
  else s.exeAddress

/-! ## Section 5: Memory and writeback stage -/

def memRdWrite : Bool := s.memReg.rdWrite && s.memReg.valid

/-- `loadstore.io.data_out`. -/
def loadDataOut (busDataOut : BitVec 32) : BitVec 32 :=
  if s.memReg.dmemOp then loadFormat s.dmem.dout s.memReg.addrByte s.memReg.memType
  else if s.memReg.imemOp then s.imem.doutRw
  else busDataOut

def memMulResult : BitVec 32 := if conf.mul then s.memReg.mulResult else s.memReg.rdData

/-- `mem_rd_data`. -/
def memRdData (busDataOut : BitVec 32) : BitVec 32 :=
  if s.memReg.rdDataSel = memRdMEM then s.loadDataOut busDataOut
  else if s.memReg.rdDataSel = memRdMUL then s.memMulResult
  else s.memReg.rdData

/-! ## Section 6: Forwarding -/

/-- The value of a source register of the instruction in decode: from the
    execute, memory or writeback stage when an instruction of the thread there
    writes it. -/
def decRsData (busDataOut : BitVec 32) (rsAddr : BitVec 5) (regfileData : BitVec 32) :
    BitVec 32 :=
  let checkExe := s.decReg.tid = s.exeReg.tid && s.exeReg.rdWrite
  let checkMem := s.decReg.tid = s.memReg.tid && s.memReg.rdWrite
  let checkWb := s.decReg.tid = s.wbReg.tid && s.wbReg.rdWrite
  if conf.bypassing then
    if checkExe && rsAddr = s.exeReg.rdAddr then s.exeRdData
    else if checkMem && rsAddr = s.memReg.rdAddr then s.memRdData busDataOut
    else if checkWb && rsAddr = s.wbReg.rdAddr then s.wbReg.rdData
    else regfileData
  else regfileData

def decRs1Data (busDataOut : BitVec 32) : BitVec 32 :=
  s.decRsData busDataOut (s.decReg.inst.extractLsb' 15 5) s.regfile.dout1

def decRs2Data (busDataOut : BitVec 32) : BitVec 32 :=
  s.decRsData busDataOut (s.decReg.inst.extractLsb' 20 5) s.regfile.dout2

/-! ## Section 7: Which stages stay valid -/

def ifPreValid : Bool :=
  s.ifReg.valid && !(s.decStall D && s.ifReg.tid = s.decReg.tid) &&
    s.stallCount s.ifReg.tid = 0

def ifValid : Bool := s.ifPreValid D && !(s.exeFlush && s.ifReg.tid = s.exeReg.tid)

def decValid : Bool := s.decReg.valid && !(s.exeFlush && s.decReg.tid = s.exeReg.tid)

/-- `stall_count`: cycles for which fetches of a thread are killed. -/
def nextStallCount : conf.Tid → BitVec 2 :=
  let count : conf.Tid → BitVec 2 :=
    fun t => if s.stallCount t ≠ 0 then s.stallCount t - 1 else 0
  let count := assign (s.exeBrjmp && conf.regBrJmp) s.exeReg.tid 1 count
  let count := assign s.exeSleep s.exeReg.tid 2 count
  -- the FENCE.I is in decode, but the count set is that of the thread in execute
  let count := assign (s.decReg.valid && (s.dec D).fenceI) s.exeReg.tid 1 count
  let count := assign s.exeException s.exeReg.tid 1 count
  if conf.bypassing then count else fun _ => 0

/-! ## Section 8: Next PCs -/

/-- `next_pc_sel`. -/
def nextPcSel : conf.Tid → NextPcSel :=
  let sel : conf.Tid → NextPcSel := fun _ => .pcreg
  let sel := assign (s.ifPreValid D) s.ifReg.tid .plus4 sel
  let sel :=
    if conf.regBrJmp then assign s.memReg.brjmp s.memReg.tid .brjmp sel
    else assign (s.exeBrjmp || s.exeDu) s.exeReg.tid .brjmp sel
  assign (conf.exceptions && s.memReg.exception) s.memReg.tid .evec sel

/-- `next_pcs`. -/
def nextPcs : conf.Tid → BitVec 32 :=
  let pcs := assign (s.nextPcSel D s.ifReg.tid = .plus4) s.ifReg.tid s.ifPcPlus4 s.ifRegPcs
  let pcs :=
    if conf.regBrJmp then
      assign (s.nextPcSel D s.memReg.tid = .brjmp) s.memReg.tid s.memReg.address pcs
    else assign (s.nextPcSel D s.exeReg.tid = .brjmp) s.exeReg.tid s.exeAddress pcs
  assign (conf.exceptions && s.nextPcSel D s.memReg.tid = .evec) s.memReg.tid
    (s.csr.regEvecs s.memReg.tid) pcs

/-- The PC of the thread scheduled to be fetched next. -/
def nextPc : BitVec 32 := s.nextPcs D s.nextReg.tid

/-! ## Section 9: One clock cycle -/

def nextDecReg : DecReg conf where
  tid := s.ifReg.tid
  valid := s.ifValid D
  issued := s.ifReg.valid
  pc := s.ifPc
  pc4 := s.ifPcPlus4
  inst := s.ifInst
  exc := s.ifExc.1
  cause := s.ifExc.2

def nextExeReg (busDataOut : BitVec 32) : ExeReg conf :=
  let imm := decImm (s.dec D).immSel s.decReg.inst
  let rs1Data := s.decRs1Data busDataOut
  let rs2Data := s.decRs2Data busDataOut
  { tid := s.decReg.tid
    valid := s.decValid
    issued := s.decReg.issued
    sig := s.dec D
    ie := (s.dec D).ie && s.decReg.inst.getLsbD 25
    ee := (s.dec D).ie && !s.decReg.inst.getLsbD 25
    mtImm := (s.dec D).mtImm && s.decReg.inst.extractLsb' 7 5 = 0
    rdWrite := s.decRdWrite D && s.decReg.valid
    rdAddr := s.decReg.inst.extractLsb' 7 5
    op1 := decOp1 (s.dec D).op1Sel rs1Data s.decReg.pc
    op2 := decOp2 (s.dec D).op2Sel rs2Data imm
    rs1Data := rs1Data
    rs2Data := rs2Data
    pc := s.decReg.pc
    pc4 := s.decReg.pc4
    csrAddr := s.decReg.inst.extractLsb' 20 12
    csrData := if (s.dec D).op2Sel = op2IMM then imm else rs1Data
    inst := s.decReg.inst
    exc := s.decReg.exc || (s.decExc D).1
    cause := if s.decReg.exc then s.decReg.cause else (s.decExc D).2 }

def nextMemReg : MemReg conf where
  tid := s.exeReg.tid
  valid := s.exeValid
  exception := s.exeException
  brjmp := (s.exeBrjmp || s.exeDu) && s.exeValid
  rdDataSel := s.exeReg.sig.memRdDataSel
  rdWrite := s.exeReg.rdWrite && s.exeReg.valid
  rdAddr := s.exeReg.rdAddr
  rdData := s.exeRdData
  address := s.exeAddress
  mulResult := mulResult s.exeReg.sig.mulType s.exeReg.op1 s.exeReg.op2
  addrByte := s.exeAddress.setWidth 2
  memType := s.exeReg.sig.memType
  dmemOp := Core.dmemOp s.exeAddress
  imemOp := Core.imemOp s.exeAddress

def nextWbReg (busDataOut : BitVec 32) : WbReg conf where
  tid := s.memReg.tid
  rdWrite := s.memRdWrite
  rdAddr := s.memReg.rdAddr
  rdData := s.memRdData busDataOut

/-- **One clock cycle** of the core. -/
def next (i : CoreIn conf) : CoreState conf where
  nextReg := { tid := i.thread, valid := i.valid }
  ifReg := { tid := s.nextReg.tid, valid := s.nextReg.valid, pc := s.nextPc D }
  ifRegPcs := s.nextPcs D
  decReg := s.nextDecReg D
  exeReg := s.nextExeReg D i.busDataOut
  memReg := s.nextMemReg
  wbReg := s.nextWbReg i.busDataOut
  stallCount := s.nextStallCount D
  regfile :=
    s.regfile.next (s.ifInst.extractLsb' 15 5) (s.ifInst.extractLsb' 20 5) s.ifReg.tid
      s.memRdWrite s.memReg.rdAddr s.memReg.tid (s.memRdData i.busDataOut)
  csr := s.csr.next (s.csrIn i)
  imem := s.imem.next s.nextReg.valid (fetchAddr conf (s.nextPc D)) s.loadStoreIn
  dmem := s.dmem.next s.loadStoreIn

end CoreState

end Flexpret.Core
