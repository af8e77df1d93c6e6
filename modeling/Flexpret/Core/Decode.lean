import Flexpret.Core.Config

/-! # Instruction Decoding

    The instruction patterns, the control signals of each instruction, and the
    decode table of the control unit.  `DecodeLogic` minimises the table, so a
    signal that a row leaves open may come out as anything.
-/

namespace Flexpret.Core

/-! ## Section 1: Encodings of the control signals -/

def immS : BitVec 3 := 0
def immB : BitVec 3 := 1
def immU : BitVec 3 := 2
def immJ : BitVec 3 := 3
def immI : BitVec 3 := 4
def immZ : BitVec 3 := 5

def op1PC : BitVec 2 := 0
def op1RS1 : BitVec 2 := 1
def op1Zero : BitVec 2 := 2

def op2IMM : BitVec 2 := 0
def op2RS2 : BitVec 2 := 1
def op2Zero : BitVec 2 := 2
def op2Four : BitVec 2 := 3

def aluADD : BitVec 4 := 0
def aluSLL : BitVec 4 := 1
def aluXOR : BitVec 4 := 4
def aluSRL : BitVec 4 := 5
def aluOR : BitVec 4 := 6
def aluAND : BitVec 4 := 7
def aluSUB : BitVec 4 := 8
def aluSLT : BitVec 4 := 10
def aluSLTU : BitVec 4 := 11
def aluSRA : BitVec 4 := 13

def brEQ : BitVec 3 := 0
def brNE : BitVec 3 := 1
def brLT : BitVec 3 := 2
def brGE : BitVec 3 := 3
def brLTU : BitVec 3 := 4
def brGEU : BitVec 3 := 5

def csrW : BitVec 2 := 1
def csrS : BitVec 2 := 2
def csrC : BitVec 2 := 3

def exeRdALU : BitVec 2 := 0
def exeRdCSR : BitVec 2 := 1
def exeRdPC4 : BitVec 2 := 2

def memLB : BitVec 4 := 0
def memLH : BitVec 4 := 1
def memLW : BitVec 4 := 2
def memLBU : BitVec 4 := 4
def memLHU : BitVec 4 := 5
def memSB : BitVec 4 := 8
def memSH : BitVec 4 := 9
def memSW : BitVec 4 := 10

def mulL : BitVec 2 := 0
def mulH : BitVec 2 := 1
def mulHSU : BitVec 2 := 2
def mulHU : BitVec 2 := 3

def memRdREG : BitVec 2 := 0
def memRdMEM : BitVec 2 := 1
def memRdMUL : BitVec 2 := 2

/-! ## Section 2: Instructions and their patterns -/

/-- The instructions of the decode table. -/
inductive Instr where
  | lui | auipc | jal | jalr
  | beq | bne | blt | bge | bltu | bgeu
  | lb | lh | lw | lbu | lhu
  | sb | sh | sw
  | addi | slti | sltiu | xori | ori | andi | slli | srli | srai
  | add | sub | sll | slt | sltu | xor | srl | sra | or | and
  | csrrw | csrrs | csrrc | csrrwi | csrrsi | csrrci
  | fence | fenceI
  | mul | mulh | mulhsu | mulhu
  | scall | sret
  | du | wu | ie | mtReg | fd
  deriving DecidableEq

/-- A pattern of bits: those under the mask are fixed. -/
structure BitPat where
  mask : BitVec 32
  value : BitVec 32

def BitPat.matches (p : BitPat) (inst : BitVec 32) : Bool := inst &&& p.mask = p.value

/-- Only the opcode is fixed. -/
def opcodePat (opcode : BitVec 7) : BitPat :=
  ⟨0x0000007f, opcode.setWidth 32⟩

/-- `funct3` and the opcode are fixed. -/
def funct3Pat (funct3 : BitVec 3) (opcode : BitVec 7) : BitPat :=
  ⟨0x0000707f, funct3.setWidth 32 <<< 12 ||| opcode.setWidth 32⟩

/-- The top six bits, `funct3` and the opcode are fixed. -/
def funct6Pat (funct6 : BitVec 6) (funct3 : BitVec 3) (opcode : BitVec 7) : BitPat :=
  ⟨0xfc00707f,
    funct6.setWidth 32 <<< 26 ||| funct3.setWidth 32 <<< 12 ||| opcode.setWidth 32⟩

/-- `funct7`, `funct3` and the opcode are fixed. -/
def funct7Pat (funct7 : BitVec 7) (funct3 : BitVec 3) (opcode : BitVec 7) : BitPat :=
  ⟨0xfe00707f,
    funct7.setWidth 32 <<< 25 ||| funct3.setWidth 32 <<< 12 ||| opcode.setWidth 32⟩

/-- The patterns of `Instructions`. -/
def Instr.pattern : Instr → BitPat
  | .beq => funct3Pat 0b000 0b1100011
  | .bne => funct3Pat 0b001 0b1100011
  | .blt => funct3Pat 0b100 0b1100011
  | .bge => funct3Pat 0b101 0b1100011
  | .bltu => funct3Pat 0b110 0b1100011
  | .bgeu => funct3Pat 0b111 0b1100011
  | .jalr => funct3Pat 0b000 0b1100111
  | .jal => opcodePat 0b1101111
  | .lui => opcodePat 0b0110111
  | .auipc => opcodePat 0b0010111
  | .addi => funct3Pat 0b000 0b0010011
  | .slli => funct6Pat 0b000000 0b001 0b0010011
  | .slti => funct3Pat 0b010 0b0010011
  | .sltiu => funct3Pat 0b011 0b0010011
  | .xori => funct3Pat 0b100 0b0010011
  | .srli => funct6Pat 0b000000 0b101 0b0010011
  | .srai => funct6Pat 0b010000 0b101 0b0010011
  | .ori => funct3Pat 0b110 0b0010011
  | .andi => funct3Pat 0b111 0b0010011
  | .add => funct7Pat 0b0000000 0b000 0b0110011
  | .sub => funct7Pat 0b0100000 0b000 0b0110011
  | .sll => funct7Pat 0b0000000 0b001 0b0110011
  | .slt => funct7Pat 0b0000000 0b010 0b0110011
  | .sltu => funct7Pat 0b0000000 0b011 0b0110011
  | .xor => funct7Pat 0b0000000 0b100 0b0110011
  | .srl => funct7Pat 0b0000000 0b101 0b0110011
  | .sra => funct7Pat 0b0100000 0b101 0b0110011
  | .or => funct7Pat 0b0000000 0b110 0b0110011
  | .and => funct7Pat 0b0000000 0b111 0b0110011
  | .lb => funct3Pat 0b000 0b0000011
  | .lh => funct3Pat 0b001 0b0000011
  | .lw => funct3Pat 0b010 0b0000011
  | .lbu => funct3Pat 0b100 0b0000011
  | .lhu => funct3Pat 0b101 0b0000011
  | .sb => funct3Pat 0b000 0b0100011
  | .sh => funct3Pat 0b001 0b0100011
  | .sw => funct3Pat 0b010 0b0100011
  | .fence => funct3Pat 0b000 0b0001111
  | .fenceI => funct3Pat 0b001 0b0001111
  | .mul => funct7Pat 0b0000001 0b000 0b0110011
  | .mulh => funct7Pat 0b0000001 0b001 0b0110011
  | .mulhsu => funct7Pat 0b0000001 0b010 0b0110011
  | .mulhu => funct7Pat 0b0000001 0b011 0b0110011
  | .csrrw => funct3Pat 0b001 0b1110011
  | .csrrs => funct3Pat 0b010 0b1110011
  | .csrrc => funct3Pat 0b011 0b1110011
  | .csrrwi => funct3Pat 0b101 0b1110011
  | .csrrsi => funct3Pat 0b110 0b1110011
  | .csrrci => funct3Pat 0b111 0b1110011
  -- `b0??????????0?????000?????1110011` and `b1????????????????000?????1110011`
  | .scall => ⟨0x8010707f, 0x00000073⟩
  | .sret => ⟨0x8000707f, 0x80000073⟩
  -- the custom instructions with `rd`, `rs1` and `rs2`
  | .du => funct3Pat 0b111 0b0001011
  | .wu => funct3Pat 0b111 0b0101011
  | .ie => funct3Pat 0b111 0b1011011
  | .mtReg => funct3Pat 0b010 0b1111011
  | .fd => funct3Pat 0b111 0b1111011

/-! ## Section 3: Control signals -/

/-- The signals that every row of the table fixes. -/
structure Flags where
  legal : Bool := false
  rdEn : Bool := false
  branch : Bool := false
  jump : Bool := false
  csr : Bool := false
  load : Bool := false
  store : Bool := false
  fence : Bool := false
  fenceI : Bool := false
  scall : Bool := false
  sret : Bool := false
  du : Bool := false
  ie : Bool := false
  mtReg : Bool := false
  mtImm : Bool := false
  fd : Bool := false
  deriving DecidableEq

/-- The decoded signals of an instruction. -/
structure Decoded extends Flags where
  immSel : BitVec 3
  op1Sel : BitVec 2
  op2Sel : BitVec 2
  aluType : BitVec 4
  brType : BitVec 3
  csrType : BitVec 2
  mulType : BitVec 2
  exeRdDataSel : BitVec 2
  memType : BitVec 4
  memRdDataSel : BitVec 2

/-- A row of the table: `none` is a don't-care. -/
structure DecodeRow extends Flags where
  immSel : Option (BitVec 3) := none
  op1Sel : Option (BitVec 2) := none
  op2Sel : Option (BitVec 2) := none
  aluType : Option (BitVec 4) := none
  brType : Option (BitVec 3) := none
  csrType : Option (BitVec 2) := none
  mulType : Option (BitVec 2) := none
  exeRdDataSel : Option (BitVec 2) := none
  memType : Option (BitVec 4) := none
  memRdDataSel : Option (BitVec 2) := none

/-- The signals `d` are what the row asks for. -/
structure DecodeRow.Agrees (row : DecodeRow) (d : Decoded) : Prop where
  flags : d.toFlags = row.toFlags
  immSel : ∀ v ∈ row.immSel, d.immSel = v
  op1Sel : ∀ v ∈ row.op1Sel, d.op1Sel = v
  op2Sel : ∀ v ∈ row.op2Sel, d.op2Sel = v
  aluType : ∀ v ∈ row.aluType, d.aluType = v
  brType : ∀ v ∈ row.brType, d.brType = v
  csrType : ∀ v ∈ row.csrType, d.csrType = v
  mulType : ∀ v ∈ row.mulType, d.mulType = v
  exeRdDataSel : ∀ v ∈ row.exeRdDataSel, d.exeRdDataSel = v
  memType : ∀ v ∈ row.memType, d.memType = v
  memRdDataSel : ∀ v ∈ row.memRdDataSel, d.memRdDataSel = v

/-! ## Section 4: The decode table -/

/-- `default`: nothing is legal. -/
def defaultRow : DecodeRow := { }

def branchRow (br : BitVec 3) : DecodeRow :=
  { legal := true, branch := true, immSel := some immB, op1Sel := some op1PC
    op2Sel := some op2IMM, aluType := some aluADD, brType := some br }

def loadRow (mem : BitVec 4) : DecodeRow :=
  { legal := true, rdEn := true, load := true, immSel := some immI, op1Sel := some op1RS1
    op2Sel := some op2IMM, aluType := some aluADD, memType := some mem
    memRdDataSel := some memRdMEM }

def storeRow (mem : BitVec 4) : DecodeRow :=
  { legal := true, store := true, immSel := some immS, op1Sel := some op1RS1
    op2Sel := some op2IMM, aluType := some aluADD, memType := some mem }

/-- Register and immediate to register. -/
def aluImmRow (alu : BitVec 4) : DecodeRow :=
  { legal := true, rdEn := true, immSel := some immI, op1Sel := some op1RS1
    op2Sel := some op2IMM, aluType := some alu, exeRdDataSel := some exeRdALU
    memRdDataSel := some memRdREG }

/-- Register and register to register. -/
def aluRegRow (alu : BitVec 4) : DecodeRow :=
  { legal := true, rdEn := true, op1Sel := some op1RS1, op2Sel := some op2RS2
    aluType := some alu, exeRdDataSel := some exeRdALU, memRdDataSel := some memRdREG }

def csrRegRow (csrType : BitVec 2) : DecodeRow :=
  { legal := true, rdEn := true, csr := true, op1Sel := some op1RS1, op2Sel := some op2Zero
    aluType := some aluADD, csrType := some csrType, exeRdDataSel := some exeRdCSR
    memRdDataSel := some memRdREG }

def csrImmRow (csrType : BitVec 2) : DecodeRow :=
  { legal := true, rdEn := true, csr := true, immSel := some immZ, op1Sel := some op1Zero
    op2Sel := some op2IMM, aluType := some aluADD, csrType := some csrType
    exeRdDataSel := some exeRdCSR, memRdDataSel := some memRdREG }

def mulRow (conf : FlexpretConfiguration) (mulType : BitVec 2) : DecodeRow :=
  if conf.mul then
    { legal := true, rdEn := true, op1Sel := some op1RS1, op2Sel := some op2RS2
      mulType := some mulType, memRdDataSel := some memRdMUL }
  else defaultRow

/-- A row of `decode_table`. -/
def Instr.row (conf : FlexpretConfiguration) : Instr → DecodeRow
  | .lui =>
    { legal := true, rdEn := true, mtImm := true, immSel := some immU, op1Sel := some op1Zero
      op2Sel := some op2IMM, aluType := some aluADD, exeRdDataSel := some exeRdALU
      memRdDataSel := some memRdREG }
  | .auipc =>
    { legal := true, rdEn := true, immSel := some immU, op1Sel := some op1PC
      op2Sel := some op2IMM, aluType := some aluADD, exeRdDataSel := some exeRdALU
      memRdDataSel := some memRdREG }
  | .jal =>
    { legal := true, rdEn := true, jump := true, immSel := some immJ, op1Sel := some op1PC
      op2Sel := some op2IMM, aluType := some aluADD, exeRdDataSel := some exeRdPC4
      memRdDataSel := some memRdREG }
  | .jalr =>
    { legal := true, rdEn := true, jump := true, immSel := some immI, op1Sel := some op1RS1
      op2Sel := some op2IMM, aluType := some aluADD, exeRdDataSel := some exeRdPC4
      memRdDataSel := some memRdREG }
  | .beq => branchRow brEQ
  | .bne => branchRow brNE
  | .blt => branchRow brLT
  | .bge => branchRow brGE
  | .bltu => branchRow brLTU
  | .bgeu => branchRow brGEU
  | .lb => loadRow memLB
  | .lh => loadRow memLH
  | .lw => loadRow memLW
  | .lbu => loadRow memLBU
  | .lhu => loadRow memLHU
  | .sb => storeRow memSB
  | .sh => storeRow memSH
  | .sw => storeRow memSW
  | .addi => aluImmRow aluADD
  | .slti => aluImmRow aluSLT
  | .sltiu => aluImmRow aluSLTU
  | .xori => aluImmRow aluXOR
  | .ori => aluImmRow aluOR
  | .andi => aluImmRow aluAND
  | .slli => aluImmRow aluSLL
  | .srli => aluImmRow aluSRL
  | .srai => aluImmRow aluSRA
  | .add => aluRegRow aluADD
  | .sub => aluRegRow aluSUB
  | .sll => aluRegRow aluSLL
  | .slt => aluRegRow aluSLT
  | .sltu => aluRegRow aluSLTU
  | .xor => aluRegRow aluXOR
  | .srl => aluRegRow aluSRL
  | .sra => aluRegRow aluSRA
  | .or => aluRegRow aluOR
  | .and => aluRegRow aluAND
  | .csrrw => csrRegRow csrW
  | .csrrs => csrRegRow csrS
  | .csrrc => csrRegRow csrC
  | .csrrwi => csrImmRow csrW
  | .csrrsi => csrImmRow csrS
  | .csrrci => csrImmRow csrC
  | .fence => { legal := true, fence := true, aluType := some aluADD }
  | .fenceI => { legal := true, fenceI := true, aluType := some aluADD }
  | .mul => mulRow conf mulL
  | .mulh => mulRow conf mulH
  | .mulhsu => mulRow conf mulHSU
  | .mulhu => mulRow conf mulHU
  | .scall => { legal := true, scall := true }
  | .sret =>
    if FlexpretConfiguration.privilegedMode then { legal := true, sret := true } else defaultRow
  | .du =>
    if conf.delayUntil then
      { legal := true, du := true, op1Sel := some op1PC, op2Sel := some op2Zero
        aluType := some aluADD }
    else defaultRow
  | .wu =>
    if conf.delayUntil then
      { legal := true, du := true, op1Sel := some op1PC, op2Sel := some op2Four
        aluType := some aluADD }
    else defaultRow
  | .ie =>
    if conf.interruptExpire then
      { legal := true, ie := true, op1Sel := some op1PC, op2Sel := some op2Four
        aluType := some aluADD }
    else defaultRow
  | .mtReg => { legal := true, mtReg := true, op1Sel := some op1RS1 }
  | .fd => { legal := true, fd := true }

/-- The keys of `decode_table`, in its order. -/
def decodeTable : List Instr :=
  [.lui, .auipc, .jal, .jalr, .beq, .bne, .blt, .bge, .bltu, .bgeu, .lb, .lh, .lw, .lbu, .lhu,
    .sb, .sh, .sw, .addi, .slti, .sltiu, .xori, .ori, .andi, .slli, .srli, .srai, .add, .sub,
    .sll, .slt, .sltu, .xor, .srl, .sra, .or, .and, .csrrw, .csrrs, .csrrc, .csrrwi, .csrrsi,
    .csrrci, .fence, .fenceI, .mul, .mulh, .mulhsu, .mulhu, .scall, .sret, .du, .wu, .ie,
    .mtReg, .fd]

/-- The table entry of a word. -/
def instrOf (inst : BitVec 32) : Option Instr :=
  decodeTable.find? fun k => k.pattern.matches inst

def decodeRow (conf : FlexpretConfiguration) (inst : BitVec 32) : DecodeRow :=
  match instrOf inst with
  | some k => k.row conf
  | none => defaultRow

/-- **Decode logic**: signals that agree with the table on every word. -/
structure DecodeLogic (conf : FlexpretConfiguration) where
  decode : BitVec 32 → Decoded
  agrees : ∀ inst, (decodeRow conf inst).Agrees (decode inst)

/-- The logic that makes every don't-care zero. -/
def DecodeLogic.zeros (conf : FlexpretConfiguration) : DecodeLogic conf where
  decode := fun inst =>
    let row := decodeRow conf inst
    { row.toFlags with
      immSel := row.immSel.getD 0
      op1Sel := row.op1Sel.getD 0
      op2Sel := row.op2Sel.getD 0
      aluType := row.aluType.getD 0
      brType := row.brType.getD 0
      csrType := row.csrType.getD 0
      mulType := row.mulType.getD 0
      exeRdDataSel := row.exeRdDataSel.getD 0
      memType := row.memType.getD 0
      memRdDataSel := row.memRdDataSel.getD 0 }
  agrees := fun inst => by
    constructor
    · rfl
    all_goals
      intro v hv
      simp [Option.mem_def.mp hv]

/-! ## Section 5: Facts about the rows -/

section rows

variable {conf : FlexpretConfiguration}

/-- What the default row and every row of the table have is had by the row of
    every word. -/
theorem decodeRow_cases {P : DecodeRow → Prop} (hdefault : P defaultRow)
    (hrow : ∀ k : Instr, P (k.row conf)) (inst : BitVec 32) : P (decodeRow conf inst) := by
  unfold decodeRow
  cases instrOf inst with
  | none => exact hdefault
  | some k => exact hrow k

theorem DecodeLogic.flags (D : DecodeLogic conf) (inst : BitVec 32) :
    (D.decode inst).toFlags = (decodeRow conf inst).toFlags :=
  (D.agrees inst).flags

variable (conf) in
/-- How the signals of a row go together. -/
structure DecodeRow.Sound (row : DecodeRow) : Prop where
  /-- The operands of DU and WU: the PC and zero, added. -/
  du : row.du = true → row.op1Sel = some op1PC ∧
    (row.op2Sel = some op2Zero ∨ row.op2Sel = some op2Four) ∧ row.aluType = some aluADD
  /-- A CSR instruction is no load and no store. -/
  csr : row.csr = true → row.load = false ∧ row.store = false
  load : row.load = true → row.store = false
  /-- Where the value written to `rd` comes from. -/
  rd : row.rdEn = true →
    (row.memRdDataSel = some memRdMEM ∧ row.load = true) ∨
    (row.memRdDataSel = some memRdMUL ∧ conf.mul = true) ∨
    (row.memRdDataSel = some memRdREG ∧
      (row.exeRdDataSel = some exeRdALU ∨ row.exeRdDataSel = some exeRdPC4 ∨
        (row.exeRdDataSel = some exeRdCSR ∧ row.csr = true)))

theorem defaultRow_sound : defaultRow.Sound conf := by
  constructor <;> simp [defaultRow]

theorem Instr.row_sound (k : Instr) : (k.row conf).Sound conf := by
  cases k <;> simp only [row, mulRow]
  -- the rows that depend on the configuration
  case mul | mulh | mulhsu | mulhu | sret | du | wu | ie =>
    split
    · constructor <;> simp [*]
    · exact defaultRow_sound
  all_goals
    constructor <;>
      simp [branchRow, loadRow, storeRow, aluImmRow, aluRegRow, csrRegRow, csrImmRow]

theorem decodeRow_sound (inst : BitVec 32) : (decodeRow conf inst).Sound conf :=
  decodeRow_cases defaultRow_sound Instr.row_sound inst

/-- **One kind**: an instruction that commits something is of one kind, and its
    other signals are off. -/
structure Flags.Exclusive (f : Flags) : Prop where
  csr : f.csr = true → f = { legal := true, rdEn := true, csr := true }
  load : f.load = true → f = { legal := true, rdEn := true, load := true }
  store : f.store = true → f = { legal := true, store := true }
  du : f.du = true → f = { legal := true, du := true }
  ie : f.ie = true → f = { legal := true, ie := true }
  fd : f.fd = true → f = { legal := true, fd := true }
  mtReg : f.mtReg = true → f = { legal := true, mtReg := true }

theorem defaultRow_exclusive : defaultRow.toFlags.Exclusive := by
  constructor <;> simp [defaultRow]

theorem Instr.row_exclusive (k : Instr) : (k.row conf).toFlags.Exclusive := by
  cases k <;> simp only [row, mulRow]
  -- the rows that depend on the configuration
  case mul | mulh | mulhsu | mulhu | sret | du | wu | ie =>
    split
    · constructor <;> simp
    · exact defaultRow_exclusive
  all_goals
    constructor <;>
      simp [branchRow, loadRow, storeRow, aluImmRow, aluRegRow, csrRegRow, csrImmRow]

theorem DecodeLogic.exclusive (D : DecodeLogic conf) (inst : BitVec 32) :
    (D.decode inst).toFlags.Exclusive := by
  rw [D.flags]
  exact decodeRow_cases (P := fun row => row.toFlags.Exclusive) defaultRow_exclusive
    Instr.row_exclusive inst

/-- A FENCE.I does nothing but stall. -/
theorem Instr.row_fenceI (k : Instr) (h : (k.row conf).fenceI = true) :
    (k.row conf).toFlags = { legal := true, fenceI := true } := by
  revert h
  cases k <;> simp only [row, mulRow]
  case fenceI => exact fun _ => trivial
  -- the rows that depend on the configuration
  case mul | mulh | mulhsu | mulhu | sret | du | wu | ie =>
    split <;> simp [defaultRow]
  all_goals simp [branchRow, loadRow, storeRow, aluImmRow, aluRegRow, csrRegRow, csrImmRow]

theorem DecodeLogic.fenceI_flags (D : DecodeLogic conf) {inst : BitVec 32}
    (h : (D.decode inst).fenceI = true) :
    (D.decode inst).toFlags = { legal := true, fenceI := true } := by
  rw [D.flags]
  have hrow : (decodeRow conf inst).fenceI = true :=
    (congrArg Flags.fenceI (D.flags inst)).symm.trans h
  exact decodeRow_cases (P := fun row => row.fenceI = true →
    row.toFlags = { legal := true, fenceI := true }) nofun Instr.row_fenceI inst hrow

end rows

end Flexpret.Core
