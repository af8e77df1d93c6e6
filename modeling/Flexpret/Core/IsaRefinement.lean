import Flexpret.Core.DspmBytes
import Flexpret.Core.Forwarding
import Flexpret.Core.InstructionStream
import Flexpret.Core.IntegerInstr
import Flexpret.Lib.Rv32Threads

/-! # The Core Refines the Instruction Set

    Five stages with an instruction each, forwarding, stalls and kills on one side; on
    the other threads of RV32 that take turns on one memory.  The mapping reads the PC
    and the registers of a thread out of the pipeline registers of one cycle, and the
    turn of a cycle is that of the instruction in execute.
-/

open ByteMemory Rv32 Transition

namespace Flexpret.Core

variable {conf : FlexpretConfiguration}

/-! ## Section 1: The mapping -/

namespace CoreState

variable (s : CoreState conf)

/-- The PC of the oldest instruction of `t` before the memory stage; without one, the
    trap vector that is about to be loaded or the PC register. -/
def hartPc (t : conf.Tid) : BitVec 32 :=
  if s.inExe t then s.exeReg.pc
  else if s.inDec t then s.decReg.pc
  else if s.trapPending t then s.csr.regEvecs t
  else s.ifRegPcs t

/-- The register file with the write that the memory stage makes. -/
def hartReg (busDataOut : BitVec 32) (t : conf.Tid) (r : BitVec 5) : BitVec 32 :=
  if r = 0 then 0
  else if s.memRdWrite && s.memReg.tid = t && s.memReg.rdAddr = r then s.memRdData busDataOut
  else s.regfile.regfile r t

/-- A thread in the pipeline. -/
def hart (busDataOut : BitVec 32) (t : conf.Tid) : Hart where
  pc := s.hartPc t
  reg := s.hartReg busDataOut t
  zero := if_pos rfl

/-- The bytes of the data scratchpad, and zero elsewhere. -/
def scratchpad : Bytes := fun k => if InDspm conf k then s.dmem.bytes k else 0

/-- **The mapping** to threads over one memory. -/
def machine (busDataOut : BitVec 32) : Rv32.State conf.Tid where
  hart := s.hart busDataOut
  mem := s.scratchpad

variable {s} {t : conf.Tid}

theorem StreamInv.hartPc_eq {pc : BitVec 32} (h : StreamInv t pc s) : s.hartPc t = pc := by
  unfold hartPc
  cases hexe : s.inExe t with
  | true => exact h.exe hexe
  | false =>
    cases hdec : s.inDec t with
    | true =>
      have hpc := h.dec hdec
      rw [hexe] at hpc
      exact hpc.trans (BitVec.add_zero pc)
    | false =>
      cases hpending : s.trapPending t with
      | true => exact (h.pending hpending).2.2.2
      | false =>
        have hpc := h.pcs hpending
        rw [hexe, hdec] at hpc
        exact hpc.trans ((BitVec.add_zero _).trans (BitVec.add_zero pc))

end CoreState

section runs

variable {D : DecodeLogic conf} {st : Nat → CoreState conf} {inp : Nat → CoreIn conf}
  {t : conf.Tid} {c : Nat}

/-- The PC moves with the instruction of the thread in execute. -/
theorem CoreRun.hartPc_next (h : CoreRun D st inp) (hflex : conf.flex = true) (t : conf.Tid)
    (c : Nat) : (st (c + 1)).hartPc t = (st c).archStep t ((st c).hartPc t) := by
  obtain ⟨pc, hpc⟩ := h.streamInv D hflex t c
  have hnext := CoreState.streamInv_next (i := inp c) hflex (h.exeDecoded c) hpc
  rw [← h.next c] at hnext
  rw [hnext.hartPc_eq, hpc.hartPc_eq]

/-- The registers of the mapping are those after the instructions before. -/
theorem CoreRun.hartReg_eq (h : CoreRun D st inp) (t : conf.Tid) (r : BitVec 5) (c : Nat) :
    (st c).hartReg (inp c).busDataOut t r = archReg st inp t r c := by
  unfold CoreState.hartReg
  by_cases hr : r = 0
  · rw [if_pos hr, hr, h.archReg_zero]
  · rw [if_neg hr]
    cases c with
    | zero =>
      have hmem : (st 0).memRdWrite = false := by
        simp [CoreState.memRdWrite, h.reset.memValid]
      rw [hmem, Bool.false_and, Bool.false_and, if_neg Bool.false_ne_true, h.regfile_eq hr]
    | succ c =>
      rw [archReg, CoreState.commitsRd_eq_memRdWrite (i := inp c), ← h.next, h.regfile_eq hr,
        Nat.add_sub_cancel]
      rfl

/-! ## Section 2: A thread after a cycle -/

/-- What the instruction in execute in cycle `c` writes to its register. -/
def rdCommitted (st : Nat → CoreState conf) (inp : Nat → CoreIn conf) (c : Nat) :
    Option (BitVec 32) :=
  if (st c).exeValid && (st c).exeReg.rdWrite then some (rdWritten st inp c) else none

/-- A thread that has no instruction in execute stays. -/
theorem CoreRun.hart_stay (h : CoreRun D st inp) (hflex : conf.flex = true)
    (hexe : (st c).inExe t = false) :
    (st (c + 1)).hart (inp (c + 1)).busDataOut t = (st c).hart (inp c).busDataOut t := by
  ext1
  · show (st (c + 1)).hartPc t = (st c).hartPc t
    rw [h.hartPc_next hflex, CoreState.archStep, hexe, if_neg Bool.false_ne_true]
  · funext r
    show (st (c + 1)).hartReg _ t r = (st c).hartReg _ t r
    have hcommits : (st c).commitsRd t r = false := by
      rw [Bool.eq_false_iff]
      intro hcommits
      obtain ⟨hvalid, -, htid, -⟩ := CoreState.commitsRd_iff.mp hcommits
      have hin := CoreState.inExe_iff.mpr ⟨CoreState.exeReg_valid_of_valid hvalid, htid⟩
      exact Bool.noConfusion (hexe.symm.trans hin)
    rw [h.hartReg_eq, h.hartReg_eq, archReg, hcommits, if_neg Bool.false_ne_true]

/-- A thread that has one moves as it says. -/
theorem CoreRun.hart_move (h : CoreRun D st inp) (hflex : conf.flex = true)
    (hexe : (st c).inExe t = true) :
    (st (c + 1)).hart (inp (c + 1)).busDataOut t =
      (((st c).hart (inp c).busDataOut t).write (st c).exeReg.rdAddr
        (rdCommitted st inp c)).goto (st c).archNext := by
  obtain ⟨-, htid⟩ := CoreState.inExe_iff.mp hexe
  ext1
  · show (st (c + 1)).hartPc t = (st c).archNext
    rw [h.hartPc_next hflex, CoreState.archStep, hexe, if_pos rfl]
  · funext r
    show (st (c + 1)).hartReg _ t r = (if r = (st c).exeReg.rdAddr ∧ r ≠ 0 then
      (rdCommitted st inp c).getD ((st c).hartReg _ t r) else (st c).hartReg _ t r)
    rw [h.hartReg_eq, h.hartReg_eq]
    by_cases hr : r = 0
    · rw [if_neg fun hand => hand.2 hr, hr, h.archReg_zero, h.archReg_zero]
    · by_cases hrd : r = (st c).exeReg.rdAddr
      · have hcommits : (st c).commitsRd t r = ((st c).exeValid && (st c).exeReg.rdWrite) := by
          simp only [CoreState.commitsRd, htid, hrd, decide_true, Bool.and_true]
        rw [if_pos (And.intro hrd hr), archReg, hcommits, rdCommitted]
        split
        · rfl
        · rfl
      · have hcommits : (st c).commitsRd t r = false := by
          rw [Bool.eq_false_iff]
          intro hcommits
          exact hrd (CoreState.commitsRd_iff.mp hcommits).2.2.2.symm
        rw [if_neg (fun hand : r = _ ∧ r ≠ 0 => hrd hand.1), archReg, hcommits,
          if_neg Bool.false_ne_true]

/-- The bytes of a store that commits lie in the scratchpad. -/
theorem LoadStoreIn.CommitsData.inDspm_byte {i : LoadStoreIn conf} (h : i.CommitsData)
    (htype : IsStoreType i.memType) {k : BitVec 32} (hfrom : i.addr.toNat ≤ k.toNat)
    (hto : k.toNat < i.addr.toNat + storeSize i.memType) : InDspm conf k := by
  have haligned := h.aligned
  have hblock : i.addr.toNat % 4 + storeSize i.memType ≤ 4 := by
    obtain ⟨-, hsize⟩ | ⟨-, hsize⟩ | ⟨-, hsize⟩ := storeSize_cases htype
    all_goals
      rw [hsize] at haligned ⊢
      omega
  have hadd := inDspm_add h.inDspm (j := k.toNat - i.addr.toNat) (by omega)
  have hsum : i.addr + BitVec.ofNat 32 (k.toNat - i.addr.toNat) = k := by
    apply BitVec.eq_of_toNat_eq
    rw [BitVec.toNat_add, BitVec.toNat_ofNat]
    have hk := k.isLt
    omega
  rwa [hsum] at hadd

/-- **The scratchpad** after a cycle with a store that is checked. -/
theorem CoreRun.scratchpad_next (h : CoreRun D st inp) (hchecked : (st c).loadStoreIn.Checked) :
    (st (c + 1)).scratchpad = (st c).loadStoreIn.commitStore (st c).scratchpad := by
  have hbytes : ∀ k, InDspm conf k →
      (st (c + 1)).dmem.bytes k = (st c).loadStoreIn.commitStore (st c).dmem.bytes k := by
    intro k hk
    rw [h.next c]
    exact bytes_next_eq _ (h.dspmRun.storeType c) hchecked hk
  funext k
  by_cases hk : InDspm conf k
  · have hsame : ∀ k, InDspm conf k → (st c).dmem.bytes k = (st c).scratchpad k :=
      fun k hk => (if_pos hk).symm
    rw [CoreState.scratchpad, if_pos hk, hbytes k hk]
    unfold LoadStoreIn.commitStore
    split
    · exact store_congr hsame _ _ _ hk
    · exact hsame k hk
  · -- a store that commits has all its bytes in the scratchpad
    rw [CoreState.scratchpad, if_neg hk]
    unfold LoadStoreIn.commitStore
    split
    · next hcommits =>
      have hout : ¬ ((st c).loadStoreIn.addr.toNat ≤ k.toNat ∧ k.toNat <
          (st c).loadStoreIn.addr.toNat + storeSize (st c).loadStoreIn.memType) :=
        fun hin => hk (hcommits.inDspm_byte (h.dspmRun.storeType c hcommits.store) hin.1 hin.2)
      rw [store, if_neg hout, CoreState.scratchpad, if_neg hk]
    · exact (if_neg hk).symm

end runs

/-! ## Section 3: Words of instructions -/

/-- The entries of loads and stores. -/
def loadEntry : LoadOp → Instr
  | .lb => .lb
  | .lbu => .lbu
  | .lh => .lh
  | .lhu => .lhu
  | .lw => .lw

def storeEntry : StoreOp → Instr
  | .sb => .sb
  | .sh => .sh
  | .sw => .sw

/-- The entry of an instruction. -/
def opEntry : Op → Instr
  | .int w => entry w
  | .load op _ _ _ => loadEntry op
  | .store op _ _ _ => storeEntry op

/-- The types of loads and stores. -/
def loadTypeOf : LoadOp → BitVec 4
  | .lb => memLB
  | .lbu => memLBU
  | .lh => memLH
  | .lhu => memLHU
  | .lw => memLW

def storeTypeOf : StoreOp → BitVec 4
  | .sb => memSB
  | .sh => memSH
  | .sw => memSW

theorem loadEntry_row (op : LoadOp) : (loadEntry op).row conf = loadRow (loadTypeOf op) := by
  cases op
  all_goals rfl

theorem storeEntry_row (op : StoreOp) : (storeEntry op).row conf = storeRow (storeTypeOf op) := by
  cases op
  all_goals rfl

theorem instrOf_load (op : LoadOp) (rd rs1 : BitVec 5) (imm : BitVec 12) :
    instrOf (Op.load op rd rs1 imm).encode = some (loadEntry op) := by
  apply instrOf_eq
  cases op
  all_goals exact funct3Pat_matches (imm ++ rs1) _ rd _

theorem instrOf_store (op : StoreOp) (rs1 rs2 : BitVec 5) (imm : BitVec 12) :
    instrOf (Op.store op rs1 rs2 imm).encode = some (storeEntry op) := by
  apply instrOf_eq
  cases op
  all_goals
    exact funct3Pat_matches (imm.extractLsb' 5 7 ++ rs2 ++ rs1) _ (imm.extractLsb' 0 5) _

theorem instrOf_op (op : Op) : instrOf op.encode = some (opEntry op) := by
  cases op with
  | int w => exact instrOf_encode w
  | load op rd rs1 imm => exact instrOf_load op rd rs1 imm
  | store op rs1 rs2 imm => exact instrOf_store op rs1 rs2 imm

section fields

variable (funct3 : BitVec 3) (rd rs1 rs2 : BitVec 5) (opcode : BitVec 7)

theorem field_rd (hi : BitVec 20) : (hi ++ rd ++ opcode).extractLsb' 7 5 = rd := by
  apply BitVec.eq_of_getLsbD_eq
  intro i hi
  simp only [BitVec.getLsbD_extractLsb', BitVec.getLsbD_append]
  grind

theorem field_rs1 (hi : BitVec 12) :
    (hi ++ rs1 ++ funct3 ++ rd ++ opcode).extractLsb' 15 5 = rs1 := by
  apply BitVec.eq_of_getLsbD_eq
  intro i hi
  simp only [BitVec.getLsbD_extractLsb', BitVec.getLsbD_append]
  grind

theorem field_rs2 (hi : BitVec 7) :
    (hi ++ rs2 ++ rs1 ++ funct3 ++ rd ++ opcode).extractLsb' 20 5 = rs2 := by
  apply BitVec.eq_of_getLsbD_eq
  intro i hi
  simp only [BitVec.getLsbD_extractLsb', BitVec.getLsbD_append]
  grind

theorem decImm_sType (imm : BitVec 12) :
    decImm immS (sType opcode funct3 rs1 rs2 imm) = imm.signExtend 32 := by
  show ((sType opcode funct3 rs1 rs2 imm).extractLsb' 25 7 ++
    (sType opcode funct3 rs1 rs2 imm).extractLsb' 7 5).signExtend 32 = _
  congr 1
  apply BitVec.eq_of_getLsbD_eq
  intro i hi
  simp only [sType, BitVec.getLsbD_extractLsb', BitVec.getLsbD_append]
  grind

/-- A word is a store of its fields. -/
theorem sType_fields (inst : BitVec 32) :
    sType (inst.extractLsb' 0 7) (inst.extractLsb' 12 3) (inst.extractLsb' 15 5)
      (inst.extractLsb' 20 5) (inst.extractLsb' 25 7 ++ inst.extractLsb' 7 5) = inst := by
  apply BitVec.eq_of_getLsbD_eq
  intro i hi
  simp only [sType, BitVec.getLsbD_extractLsb', BitVec.getLsbD_append]
  grind

end fields

/-- The rows that store are those of stores. -/
theorem Instr.storeEntry_of_store (k : Instr) (h : (k.row conf).store = true) :
    ∃ op, k = storeEntry op := by
  revert h
  cases k <;> simp only [row, mulRow]
  case sb => exact fun _ => ⟨.sb, rfl⟩
  case sh => exact fun _ => ⟨.sh, rfl⟩
  case sw => exact fun _ => ⟨.sw, rfl⟩
  -- the rows that depend on the configuration
  case mul | mulh | mulhsu | mulhu | sret | du | wu | ie =>
    split <;> simp [defaultRow]
  all_goals simp [branchRow, loadRow, aluImmRow, aluRegRow, csrRegRow, csrImmRow]

/-- The fields that a pattern fixes. -/
theorem fields_of_funct3Pat {funct3 : BitVec 3} {opcode : BitVec 7} {inst : BitVec 32}
    (h : (funct3Pat funct3 opcode).matches inst = true) :
    inst.extractLsb' 0 7 = opcode ∧ inst.extractLsb' 12 3 = funct3 := by
  have hvalue : inst &&& (0#17 ++ BitVec.allOnes 3 ++ 0#5 ++ BitVec.allOnes 7) =
      funct3.setWidth 32 <<< 12 ||| opcode.setWidth 32 := of_decide_eq_true h
  have hbit := fun i => congrArg (fun word => word.getLsbD i) hvalue
  simp only [BitVec.getLsbD_and, BitVec.getLsbD_append, BitVec.getLsbD_or,
    BitVec.getLsbD_shiftLeft, BitVec.getLsbD_setWidth, BitVec.getLsbD_zero,
    BitVec.getLsbD_allOnes] at hbit
  constructor
  · apply BitVec.eq_of_getLsbD_eq
    intro i hi
    have hi' := hbit i
    simp only [BitVec.getLsbD_extractLsb']
    grind
  · apply BitVec.eq_of_getLsbD_eq
    intro i hi
    have hi' := hbit (12 + i)
    simp only [BitVec.getLsbD_extractLsb']
    grind

/-- **Stores**: a word that the core decodes as a store is one. -/
theorem DecodeLogic.store_word (D : DecodeLogic conf) {inst : BitVec 32}
    (h : (D.decode inst).store = true) :
    ∃ op rs1 rs2 imm, inst = (Op.store op rs1 rs2 imm).encode := by
  have hrow : (decodeRow conf inst).store = true :=
    (congrArg Flags.store (D.flags inst)).symm.trans h
  unfold decodeRow at hrow
  cases hentry : instrOf inst with
  | none =>
    rw [hentry] at hrow
    exact Bool.noConfusion hrow
  | some k =>
    rw [hentry] at hrow
    obtain ⟨op, rfl⟩ := k.storeEntry_of_store hrow
    have hmatches : (storeEntry op).pattern.matches inst = true :=
      List.find?_some (p := fun k : Instr => k.pattern.matches inst) hentry
    have hpattern : (storeEntry op).pattern = funct3Pat op.funct3 0b0100011 := by
      cases op
      all_goals rfl
    rw [hpattern] at hmatches
    obtain ⟨hopcode, hfunct3⟩ := fields_of_funct3Pat hmatches
    refine ⟨op, inst.extractLsb' 15 5, inst.extractLsb' 20 5,
      inst.extractLsb' 25 7 ++ inst.extractLsb' 7 5, ?_⟩
    have hfields := sType_fields inst
    rw [hopcode, hfunct3] at hfields
    exact hfields.symm

/-! ## Section 4: The instruction in execute -/

/-- The core reads the registers that an integer instruction names, where it needs
    them. -/
theorem int_fields (w : Inst) (pc : BitVec 32) (reg : BitVec 5 → BitVec 32) :
    w.value pc (reg (w.encode.extractLsb' 15 5)) (reg (w.encode.extractLsb' 20 5)) =
        w.value pc (reg w.rs1) (reg w.rs2) ∧
      w.target pc (reg (w.encode.extractLsb' 15 5)) (reg (w.encode.extractLsb' 20 5)) =
        w.target pc (reg w.rs1) (reg w.rs2) := by
  cases w with
  | lui rd imm => exact ⟨rfl, rfl⟩
  | auipc rd imm => exact ⟨rfl, rfl⟩
  | jal rd offset => exact ⟨rfl, rfl⟩
  | jalr rd rs1 imm =>
    rw [show (Inst.jalr rd rs1 imm).encode.extractLsb' 15 5 = rs1 from field_rs1 ..]
    exact ⟨rfl, rfl⟩
  | branch op rs1 rs2 offset =>
    rw [show (Inst.branch op rs1 rs2 offset).encode.extractLsb' 15 5 = rs1 from
        field_rs1 _ (offset.extractLsb' 0 4 ++ offset.extractLsb' 10 1) _ _
          (offset.extractLsb' 11 1 ++ offset.extractLsb' 4 6 ++ rs2),
      show (Inst.branch op rs1 rs2 offset).encode.extractLsb' 20 5 = rs2 from
        field_rs2 _ (offset.extractLsb' 0 4 ++ offset.extractLsb' 10 1) _ _ _
          (offset.extractLsb' 11 1 ++ offset.extractLsb' 4 6)]
    exact ⟨rfl, rfl⟩
  | aluImm op rd rs1 imm =>
    rw [show (Inst.aluImm op rd rs1 imm).encode.extractLsb' 15 5 = rs1 from field_rs1 ..]
    exact ⟨rfl, rfl⟩
  | shiftImm op rd rs1 shamt =>
    rw [show (Inst.shiftImm op rd rs1 shamt).encode.extractLsb' 15 5 = rs1 from
      field_rs1 _ _ _ _ (op.toAlu.funct7 ++ shamt)]
    exact ⟨rfl, rfl⟩
  | alu op rd rs1 rs2 =>
    rw [show (Inst.alu op rd rs1 rs2).encode.extractLsb' 15 5 = rs1 from
        field_rs1 _ _ _ _ (op.funct7 ++ rs2),
      show (Inst.alu op rd rs1 rs2).encode.extractLsb' 20 5 = rs2 from field_rs2 ..]
    exact ⟨rfl, rfl⟩
  | mul op rd rs1 rs2 =>
    rw [show (Inst.mul op rd rs1 rs2).encode.extractLsb' 15 5 = rs1 from
        field_rs1 _ _ _ _ (0b0000001#7 ++ rs2),
      show (Inst.mul op rd rs1 rs2).encode.extractLsb' 20 5 = rs2 from field_rs2 ..]
    exact ⟨rfl, rfl⟩

/-- What writes a register writes the one that the instruction names. -/
theorem int_rd (w : Inst) {pc x y : BitVec 32} (h : (w.value pc x y).isSome = true) :
    w.encode.extractLsb' 7 5 = w.rd := by
  cases w with
  | lui rd imm => exact field_rd ..
  | auipc rd imm => exact field_rd ..
  | jal rd offset => exact field_rd ..
  | jalr rd rs1 imm => exact field_rd _ _ (imm ++ rs1 ++ 0b000#3)
  | branch op rs1 rs2 offset => exact Bool.noConfusion h
  | aluImm op rd rs1 imm => exact field_rd _ _ (imm ++ rs1 ++ op.toAlu.funct3)
  | shiftImm op rd rs1 shamt =>
    exact field_rd _ _ (op.toAlu.funct7 ++ shamt ++ rs1 ++ op.toAlu.funct3)
  | alu op rd rs1 rs2 => exact field_rd _ _ (op.funct7 ++ rs2 ++ rs1 ++ op.funct3)
  | mul op rd rs1 rs2 => exact field_rd _ _ (0b0000001#7 ++ rs2 ++ rs1 ++ op.funct3)

section execute

variable {D : DecodeLogic conf} {st : Nat → CoreState conf} {inp : Nat → CoreIn conf}
  {t : conf.Tid} {c : Nat}

/-- The instruction of `t` in execute in cycle `c` as it was in decode, in the state
    `d` with the inputs `i`. -/
structure FromDecode (D : DecodeLogic conf) (st : Nat → CoreState conf)
    (inp : Nat → CoreIn conf) (t : conf.Tid) (c : Nat) (d : CoreState conf)
    (i : CoreIn conf) : Prop where
  next : st c = d.next D i
  valid : d.decReg.valid = true
  pc : d.decReg.pc = ((st c).hart (inp c).busDataOut t).pc
  pc4 : d.decReg.pc4 = d.decReg.pc + 4
  rs1 : d.decRs1Data i.busDataOut =
    ((st c).hart (inp c).busDataOut t).reg (d.decReg.inst.extractLsb' 15 5)
  rs2 : d.decRs2Data i.busDataOut =
    ((st c).hart (inp c).busDataOut t).reg (d.decReg.inst.extractLsb' 20 5)

theorem CoreRun.fromDecode (h : CoreRun D st inp) (hflex : conf.flex = true)
    (hexe : (st c).inExe t = true) : ∃ d i, FromDecode D st inp t c d i := by
  obtain ⟨c, rfl, hdec, hflush⟩ := h.inDec_of_inExe hexe
  obtain ⟨hvalid, htid⟩ := CoreState.inDec_iff.mp hdec
  -- the register file has read while the instruction was fetched
  have hread : ∀ r, (st (c + 1)).regfile.read r (st (c + 1)).ifReg.tid = archReg st inp t r c := by
    intro r
    have hif : (st (c + 1)).ifReg.tid = t := by
      rw [h.next (c + 1)] at htid
      exact htid
    rw [hif, h.regfile_read]
    rfl
  have hreg : ∀ r, ((st (c + 3)).hart (inp (c + 3)).busDataOut t).reg r =
      archReg st inp t r (c + 3) := fun r => h.hartReg_eq t r (c + 3)
  refine ⟨st (c + 2), inp (c + 2), ?_⟩
  constructor
  case next => exact h.next (c + 2)
  case valid => exact hvalid
  case pc =>
    show _ = (st (c + 3)).hartPc t
    rw [CoreState.hartPc, hexe, if_pos rfl, h.next (c + 2)]
    rfl
  case pc4 =>
    rw [h.next (c + 1)]
    rfl
  case rs1 =>
    rw [hreg]
    refine h.decRsData_eq hflex hdec hflush ?_
    rw [h.next (c + 1)]
    exact hread _
  case rs2 =>
    rw [hreg]
    refine h.decRsData_eq hflex hdec hflush ?_
    rw [h.next (c + 1)]
    exact hread _

/-- What the core does in cycle `c` is what `op` says of the thread and the memory. -/
structure Executes (st : Nat → CoreState conf) (inp : Nat → CoreIn conf) (c : Nat) (op : Op)
    (h : Hart) (mem : Bytes) : Prop where
  write : h.write (st c).exeReg.rdAddr (rdCommitted st inp c) = h.write op.rd (op.value h mem)
  next : (st c).archNext = op.next h
  mem : (st c).loadStoreIn.commitStore mem = op.memAfter h mem

variable {d : CoreState conf} {i : CoreIn conf} {op : Op} {mem : Bytes} {hart : Hart}

/-- The value of an instruction reaches its register. -/
theorem FromDecode.write_eq (hd : FromDecode D st inp t c d i) (hvalid : (st c).exeValid = true)
    (hrd : (op.value hart mem).isSome = true → d.decReg.inst.extractLsb' 7 5 = op.rd)
    (hwrites : (d.dec D).rdEn = (op.value hart mem).isSome)
    (hvalue : ∀ v, op.value hart mem = some v → rdWritten st inp c = v) :
    hart.write (st c).exeReg.rdAddr (rdCommitted st inp c) =
      hart.write op.rd (op.value hart mem) := by
  have haddr : (st c).exeReg.rdAddr = d.decReg.inst.extractLsb' 7 5 := by
    rw [hd.next]
    rfl
  have hwrite : (st c).exeReg.rdWrite =
      (decide (d.decReg.inst.extractLsb' 7 5 ≠ 0) && (d.dec D).rdEn) := by
    rw [hd.next]
    show (decide (d.decReg.inst.extractLsb' 7 5 ≠ 0) && (d.dec D).rdEn && d.decReg.valid) = _
    rw [hd.valid, Bool.and_true]
  cases hv : op.value hart mem with
  | none =>
    have hnone : rdCommitted st inp c = none := by
      rw [rdCommitted, hwrite, hwrites, hv, Option.isSome_none, Bool.and_false, Bool.and_false,
        if_neg Bool.false_ne_true]
    rw [hnone, Hart.write_none, Hart.write_none]
  | some v =>
    rw [hv] at hrd
    rw [haddr, hrd rfl]
    by_cases hzero : op.rd = 0
    · rw [hzero, Hart.write_zero, Hart.write_zero]
    · have hsome : rdCommitted st inp c = some v := by
        rw [rdCommitted, hvalid, hwrite, hwrites, hv, hrd rfl, decide_eq_true hzero,
          Option.isSome_some, Bool.and_self, Bool.and_self, if_pos rfl, hvalue v hv]
      rw [hsome]

/-- Where an instruction goes that commits and does not sleep. -/
theorem CoreState.archNext_of_valid {s : CoreState conf} (hvalid : s.exeValid = true)
    (hdu : s.exeReg.sig.du = false) :
    s.archNext = if s.exeBrjmp then s.exeAddress else s.exeReg.pc + 4 := by
  have htrap : s.exeException = false := by
    rw [exeValid, Bool.and_eq_true, Bool.not_eq_true'] at hvalid
    exact hvalid.2
  have hdu' : s.exeDu = false := by
    rw [exeDu, hdu, Bool.and_false, Bool.false_and]
  rw [archNext, htrap, hdu', if_neg Bool.false_ne_true, if_neg Bool.false_ne_true]

/-- What is no store leaves the bytes. -/
theorem LoadStoreIn.commitStore_of_not_store {i : LoadStoreIn conf} (h : i.store = false)
    (mem : Bytes) : i.commitStore mem = mem := by
  refine if_neg fun hcommits => ?_
  rw [hcommits.store] at h
  exact Bool.noConfusion h

/-- An integer instruction is legal and none of the others. -/
theorem int_flags {w : Inst} (hhas : Has conf w) :
    ((entry w).row conf).legal = true ∧ ((entry w).row conf).scall = false ∧
      ((entry w).row conf).load = false ∧ ((entry w).row conf).store = false ∧
      ((entry w).row conf).du = false := by
  cases w with
  | branch op rs1 rs2 offset =>
    rw [entry, branchEntry_row]
    exact ⟨rfl, rfl, rfl, rfl, rfl⟩
  | aluImm op rd rs1 imm =>
    rw [entry, immEntry_row]
    exact ⟨rfl, rfl, rfl, rfl, rfl⟩
  | shiftImm op rd rs1 shamt =>
    rw [entry, shiftEntry_row]
    exact ⟨rfl, rfl, rfl, rfl, rfl⟩
  | alu op rd rs1 rs2 =>
    rw [entry, aluEntry_row]
    exact ⟨rfl, rfl, rfl, rfl, rfl⟩
  | mul op rd rs1 rs2 =>
    have hmul : conf.mul = true := hhas
    rw [entry, mulEntry_row, mulRow, if_pos hmul]
    exact ⟨rfl, rfl, rfl, rfl, rfl⟩
  | lui | auipc | jal | jalr => exact ⟨rfl, rfl, rfl, rfl, rfl⟩

/-- **An integer instruction** in execute. -/
theorem CoreRun.executes_int (h : CoreRun D st inp) (hd : FromDecode D st inp t c d i)
    (hvalid : (st c).exeValid = true) {w : Inst} (hinst : d.decReg.inst = w.encode)
    (hhas : Has conf w) (heven : EvenTarget (st c).exeReg.rs1Data w) (mem : Bytes) :
    Executes st inp c (.int w) ((st c).hart (inp c).busDataOut t) mem := by
  have hagrees := agrees_encode (D := D) hinst
  have heven' : EvenTarget (d.decRs1Data i.busDataOut) w := by
    rw [hd.next] at heven
    exact heven
  have hdelivers := delivers_encode (D := D) (j := inp c) hinst hd.pc4 rfl rfl hhas heven'
  obtain ⟨hvalue, htarget⟩ := int_fields w d.decReg.pc ((st c).hart (inp c).busDataOut t).reg
  rw [hd.rs1, hd.rs2, hinst, hvalue, htarget, hd.pc] at hdelivers
  have hkind := int_flags hhas
  have hexe : (st c).exeReg.valid = true := CoreState.exeReg_valid_of_valid hvalid
  constructor
  case write =>
    apply hd.write_eq hvalid
    · rw [hinst]
      exact int_rd w
    · exact hdelivers.writes
    · intro v hv
      rw [rdWritten, h.next c, hd.next]
      exact hdelivers.value v hv _
  case next =>
    have hdu : (st c).exeReg.sig.du = false := by
      rw [hd.next]
      exact (congrArg Flags.du hagrees.flags).trans hkind.2.2.2.2
    have htaken := hdelivers.taken
    have haddress := hdelivers.target
    rw [← hd.next] at htaken haddress
    rw [CoreState.archNext_of_valid hvalid hdu, htaken hexe, Op.next]
    cases htarget : w.target ((st c).hart (inp c).busDataOut t).pc
        (((st c).hart (inp c).busDataOut t).reg w.rs1)
        (((st c).hart (inp c).busDataOut t).reg w.rs2) with
    | none =>
      rw [Option.isSome_none, if_neg Bool.false_ne_true, Option.getD_none, ← hd.pc, hd.next]
      rfl
    | some a =>
      rw [Option.isSome_some, if_pos rfl, Option.getD_some]
      exact haddress a htarget
  case mem =>
    apply LoadStoreIn.commitStore_of_not_store
    have hstore : (st c).exeReg.sig.store = false := by
      rw [hd.next]
      exact (congrArg Flags.store hagrees.flags).trans hkind.2.2.2.1
    show ((st c).exeReg.sig.store && (st c).exeReg.valid) = false
    rw [hstore, Bool.false_and]

theorem loadedValue_eq (op : LoadOp) (mem : Bytes) (a : BitVec 32) :
    loadedValue mem a (loadTypeOf op) = op.value mem a := by
  cases op
  all_goals rfl

theorem loadSize_eq (op : LoadOp) : loadSize (loadTypeOf op) = op.size := by
  cases op
  all_goals rfl

theorem storeSize_eq (op : StoreOp) : storeSize (storeTypeOf op) = op.size := by
  cases op
  all_goals rfl

theorem loadTypeOf_isLoadType (op : LoadOp) : IsLoadType (loadTypeOf op) := by
  unfold IsLoadType
  cases op
  all_goals decide

/-- The signals of an instruction agree with its row. -/
theorem agrees_op (hinst : d.decReg.inst = op.encode) :
    ((opEntry op).row conf).Agrees (d.dec D) := by
  have hagrees := D.agrees d.decReg.inst
  rw [decodeRow, hinst, instrOf_op] at hagrees
  show ((opEntry op).row conf).Agrees (D.decode d.decReg.inst)
  rw [hinst]
  exact hagrees

/-- What neither jumps nor sleeps goes on behind itself. -/
theorem FromDecode.next_eq (hd : FromDecode D st inp t c d i) (hvalid : (st c).exeValid = true)
    (hjump : (d.dec D).jump = false) (hbranch : (d.dec D).branch = false)
    (hdu : (d.dec D).du = false) :
    (st c).archNext = ((st c).hart (inp c).busDataOut t).pc + 4 := by
  have hnone : (st c).exeReg.sig.jump = false ∧ (st c).exeReg.sig.branch = false ∧
      (st c).exeReg.sig.du = false := by
    rw [hd.next]
    exact ⟨hjump, hbranch, hdu⟩
  have hbrjmp : (st c).exeBrjmp = false := by
    rw [CoreState.exeBrjmp, hnone.1, hnone.2.1, Bool.false_and, Bool.or_false, Bool.and_false]
  rw [CoreState.archNext_of_valid hvalid hnone.2.2, hbrjmp, if_neg Bool.false_ne_true, ← hd.pc,
    hd.next]
  rfl

/-- The address of a load is the result of the ALU. -/
theorem FromDecode.load_address (hd : FromDecode D st inp t c d i) {op : LoadOp}
    {rd rs1 : BitVec 5} {imm : BitVec 12}
    (hinst : d.decReg.inst = (Op.load op rd rs1 imm).encode) :
    (st c).exeAddress = (Op.load op rd rs1 imm).address ((st c).hart (inp c).busDataOut t) := by
  have hagrees := agrees_op (D := D) hinst
  rw [opEntry, loadEntry_row] at hagrees
  have hfield : d.decReg.inst.extractLsb' 15 5 = rs1 := by
    rw [hinst]
    exact field_rs1 ..
  show _ = ((st c).hart (inp c).busDataOut t).reg rs1 + imm.signExtend 32
  rw [← hfield, ← hd.rs1, hd.next, exeAddress_imm hagrees rfl rfl rfl rfl, decOp1_rs1, hinst]
  exact congrArg _ (decImm_iType ..)

/-- The address of a store is the result of the ALU. -/
theorem FromDecode.store_address (hd : FromDecode D st inp t c d i) {op : StoreOp}
    {rs1 rs2 : BitVec 5} {imm : BitVec 12}
    (hinst : d.decReg.inst = (Op.store op rs1 rs2 imm).encode) :
    (st c).exeAddress = (Op.store op rs1 rs2 imm).address ((st c).hart (inp c).busDataOut t) := by
  have hagrees := agrees_op (D := D) hinst
  rw [opEntry, storeEntry_row] at hagrees
  have hfield : d.decReg.inst.extractLsb' 15 5 = rs1 := by
    rw [hinst]
    exact field_rs1 _ (imm.extractLsb' 0 5) _ _ (imm.extractLsb' 5 7 ++ rs2)
  show _ = ((st c).hart (inp c).busDataOut t).reg rs1 + imm.signExtend 32
  rw [← hfield, ← hd.rs1, hd.next, exeAddress_imm hagrees rfl rfl rfl rfl, decOp1_rs1, hinst]
  exact congrArg _ (decImm_sType ..)

/-- **A load** in execute, of bytes in the scratchpad. -/
theorem CoreRun.executes_load (h : CoreRun D st inp) (hd : FromDecode D st inp t c d i)
    (hvalid : (st c).exeValid = true) {op : LoadOp} {rd rs1 : BitVec 5} {imm : BitVec 12}
    (hinst : d.decReg.inst = (Op.load op rd rs1 imm).encode)
    (hin : InDspm conf (st c).exeAddress) (haligned : (st c).exeAddress.toNat % op.size = 0) :
    Executes st inp c (.load op rd rs1 imm) ((st c).hart (inp c).busDataOut t)
      (st c).scratchpad := by
  have hagrees := agrees_op (D := D) hinst
  rw [opEntry, loadEntry_row] at hagrees
  have hvalid' := CoreState.exeReg_valid_of_valid hvalid
  have haddress := hd.load_address hinst
  have hload : (st c).loadStoreIn.load = true := by
    have hflag : (st c).exeReg.sig.load = true := by
      rw [hd.next]
      exact congrArg Flags.load hagrees.flags
    show ((st c).exeReg.sig.load && (st c).exeReg.valid) = true
    rw [hflag, hvalid']
    rfl
  have hstore : (st c).loadStoreIn.store = false := by
    have hflag : (st c).exeReg.sig.store = false := by
      rw [hd.next]
      exact congrArg Flags.store hagrees.flags
    show ((st c).exeReg.sig.store && (st c).exeReg.valid) = false
    rw [hflag, Bool.false_and]
  have hsig : (st c).exeReg.sig.memType = loadTypeOf op ∧
      (st c).exeReg.sig.memRdDataSel = memRdMEM := by
    rw [hd.next]
    exact ⟨hagrees.memType _ rfl, hagrees.memRdDataSel _ rfl⟩
  -- the word read now is formatted in the memory stage
  have hloaded : rdWritten st inp c =
      op.value (st c).scratchpad ((Op.load op rd rs1 imm).address
        ((st c).hart (inp c).busDataOut t)) := by
    have hout : rdWritten st inp c =
        loadFormat ((st c).dmem.next (st c).loadStoreIn).dout ((st c).exeAddress.setWidth 2)
          (st c).exeReg.sig.memType := by
      rw [rdWritten, h.next c]
      show (if (st c).exeReg.sig.memRdDataSel = memRdMEM then
        (if dmemOp (st c).exeAddress then _ else _) else _) = _
      rw [hsig.2, if_pos rfl, if_pos hin.1]
      rfl
    have htype : IsLoadType (st c).loadStoreIn.memType := by
      show IsLoadType (st c).exeReg.sig.memType
      rw [hsig.1]
      exact loadTypeOf_isLoadType op
    have haligned' : (st c).loadStoreIn.addr.toNat % loadSize (st c).loadStoreIn.memType = 0 := by
      show (st c).exeAddress.toNat % loadSize (st c).exeReg.sig.memType = 0
      rw [hsig.1, loadSize_eq]
      exact haligned
    have hread := dout_next_eq (st c).dmem hload htype hin.1 haligned'
    have hcongr : loadedValue (st c).dmem.bytes (st c).exeAddress (st c).exeReg.sig.memType =
        loadedValue (st c).scratchpad (st c).exeAddress (st c).exeReg.sig.memType :=
      loadedValue_congr (fun k hk => (if_pos hk).symm) hin htype haligned'
    rw [hout]
    refine hread.trans (hcongr.trans ?_)
    rw [hsig.1, loadedValue_eq, haddress]
  constructor
  case write =>
    apply hd.write_eq hvalid
    · intro _
      rw [hinst]
      exact field_rd _ _ (imm ++ rs1 ++ op.funct3)
    · exact congrArg Flags.rdEn hagrees.flags
    · intro v hv
      rw [hloaded]
      exact Option.some.inj hv
  case next =>
    exact hd.next_eq hvalid (congrArg Flags.jump hagrees.flags)
      (congrArg Flags.branch hagrees.flags) (congrArg Flags.du hagrees.flags)
  case mem => exact LoadStoreIn.commitStore_of_not_store hstore _

/-- **A store** in execute that commits to the scratchpad. -/
theorem CoreRun.executes_store (hd : FromDecode D st inp t c d i)
    (hvalid : (st c).exeValid = true) {op : StoreOp} {rs1 rs2 : BitVec 5} {imm : BitVec 12}
    (hinst : d.decReg.inst = (Op.store op rs1 rs2 imm).encode)
    (hcommits : (st c).loadStoreIn.CommitsData) (mem : Bytes) :
    Executes st inp c (.store op rs1 rs2 imm) ((st c).hart (inp c).busDataOut t) mem := by
  have hagrees := agrees_op (D := D) hinst
  rw [opEntry, storeEntry_row] at hagrees
  have hfield2 : d.decReg.inst.extractLsb' 20 5 = rs2 := by
    rw [hinst]
    exact field_rs2 _ (imm.extractLsb' 0 5) _ _ _ (imm.extractLsb' 5 7)
  have haddress := hd.store_address hinst
  have hdata : (st c).exeReg.rs2Data = ((st c).hart (inp c).busDataOut t).reg rs2 := by
    rw [← hfield2, ← hd.rs2, hd.next]
    rfl
  have htype : (st c).exeReg.sig.memType = storeTypeOf op := by
    rw [hd.next]
    exact hagrees.memType _ rfl
  constructor
  case write =>
    apply hd.write_eq hvalid
    · intro hv
      exact Bool.noConfusion hv
    · exact congrArg Flags.rdEn hagrees.flags
    · intro v hv
      contradiction
  case next =>
    exact hd.next_eq hvalid (congrArg Flags.jump hagrees.flags)
      (congrArg Flags.branch hagrees.flags) (congrArg Flags.du hagrees.flags)
  case mem =>
    rw [LoadStoreIn.commitStore, if_pos hcommits]
    show store mem (st c).exeAddress (storeSize (st c).exeReg.sig.memType)
      (st c).exeReg.rs2Data = _
    rw [htype, storeSize_eq, haddress, hdata]
    rfl

/-! ## Section 5: The turn of a cycle -/

/-- What the core needs to execute an instruction as RV32 does: the multiplier, or a
    sum that a JALR can go to; for a load or a store an aligned address in the data
    scratchpad, and for a store the permission. -/
def CoreState.Plain (s : CoreState conf) : Op → Prop
  | .int w => Has conf w ∧ EvenTarget s.exeReg.rs1Data w
  | .load op _ _ _ => InDspm conf s.exeAddress ∧ s.exeAddress.toNat % op.size = 0
  | .store _ _ _ _ => s.loadStoreIn.CommitsData

/-- **The turn of cycle `c`**: that of the instruction in execute.  A trap and every
    other instruction take the thread where the core does. -/
inductive Retires (st : Nat → CoreState conf) (inp : Nat → CoreIn conf) (c : Nat) :
    Event conf.Tid → Prop where
  | idle : (st c).exeReg.valid = false → Retires st inp c .idle
  | exec (op : Op) : (st c).exeValid = true → (st c).exeReg.inst = op.encode →
      (st c).Plain op → Retires st inp c (.exec (st c).exeReg.tid op)
  | system : (st c).exeReg.valid = true →
      ((st c).exeValid = true → ∀ op, (st c).exeReg.inst = op.encode → ¬ (st c).Plain op) →
      Retires st inp c
        (.system (st c).exeReg.tid (st c).archNext (st c).exeReg.rdAddr (rdCommitted st inp c))

/-- Every cycle has a turn. -/
theorem retires_total (st : Nat → CoreState conf) (inp : Nat → CoreIn conf) (c : Nat) :
    ∃ e, Retires st inp c e := by
  cases hvalid : (st c).exeReg.valid with
  | false => exact ⟨_, .idle hvalid⟩
  | true =>
    by_cases hop : (st c).exeValid = true ∧ ∃ op : Op, (st c).exeReg.inst = op.encode ∧
        (st c).Plain op
    · obtain ⟨hcommit, op, hinst, hplain⟩ := hop
      exact ⟨_, .exec op hcommit hinst hplain⟩
    · refine ⟨_, .system hvalid fun hcommit op hinst hplain => ?_⟩
      exact hop ⟨hcommit, op, hinst, hplain⟩

/-- An instruction that is executed as RV32 does. -/
theorem CoreRun.executes (h : CoreRun D st inp) (hflex : conf.flex = true)
    (hvalid : (st c).exeValid = true) (hinst : (st c).exeReg.inst = op.encode)
    (hplain : (st c).Plain op) :
    Executes st inp c op ((st c).hart (inp c).busDataOut (st c).exeReg.tid)
      (st c).scratchpad := by
  have hexe : (st c).inExe (st c).exeReg.tid = true :=
    CoreState.inExe_iff.mpr ⟨CoreState.exeReg_valid_of_valid hvalid, rfl⟩
  obtain ⟨d, i, hd⟩ := h.fromDecode hflex hexe
  have hinst' : d.decReg.inst = op.encode := by
    rw [← hinst, hd.next]
    rfl
  cases op with
  | int w => exact h.executes_int hd hvalid hinst' hplain.1 hplain.2 _
  | load op rd rs1 imm => exact h.executes_load hd hvalid hinst' hplain.1 hplain.2
  | store op rs1 rs2 imm => exact CoreRun.executes_store hd hvalid hinst' hplain _

/-- A store that commits is a turn of an instruction. -/
theorem CoreRun.exec_of_commits (h : CoreRun D st inp)
    (hcommits : (st c).loadStoreIn.CommitsData) :
    (st c).exeValid = true ∧ ∃ op : Op, (st c).exeReg.inst = op.encode ∧ (st c).Plain op := by
  have hstore : ((st c).exeReg.sig.store && (st c).exeReg.valid) = true := hcommits.store
  rw [Bool.and_eq_true] at hstore
  have hcommit : (st c).exeValid = true := by
    rw [CoreState.exeValid, hstore.2, Bool.true_and, Bool.not_eq_true', Bool.eq_false_iff]
    intro htrap
    have hwrite := CoreState.store_not_written (h.exeDecoded c) htrap
    rw [hcommits.write] at hwrite
    exact Bool.noConfusion hwrite
  have hdecoded : (D.decode (st c).exeReg.inst).store = true := by
    rw [← (h.exeDecoded c).sig hstore.2]
    exact hstore.1
  obtain ⟨op, rs1, rs2, imm, hinst⟩ := D.store_word hdecoded
  exact ⟨hcommit, .store op rs1 rs2 imm, hinst, hcommits⟩

/-- **One cycle** is one turn. -/
theorem CoreRun.machine_next (h : CoreRun D st inp) (hflex : conf.flex = true)
    (hchecked : (st c).loadStoreIn.Checked) {e : Event conf.Tid} (hretires : Retires st inp c e) :
    (st (c + 1)).machine (inp (c + 1)).busDataOut =
      Rv32.step ((st c).machine (inp c).busDataOut) e := by
  have hscratchpad := h.scratchpad_next hchecked
  -- the threads that are not in execute stay
  have hothers : ∀ u, u ≠ (st c).exeReg.tid →
      (st (c + 1)).hart (inp (c + 1)).busDataOut u = (st c).hart (inp c).busDataOut u := by
    intro u hu
    apply h.hart_stay hflex
    rw [CoreState.inExe, decide_eq_false fun heq => hu heq.symm, Bool.and_false]
  cases hretires with
  | idle hvalid =>
    ext1
    · funext u
      apply h.hart_stay hflex
      rw [CoreState.inExe, hvalid, Bool.false_and]
    · refine hscratchpad.trans (LoadStoreIn.commitStore_of_not_store ?_ _)
      show ((st c).exeReg.sig.store && (st c).exeReg.valid) = false
      rw [hvalid, Bool.and_false]
  | exec op hvalid hinst hplain =>
    have hexecutes := h.executes hflex hvalid hinst hplain
    have hmove := h.hart_move hflex
      (CoreState.inExe_iff.mpr ⟨CoreState.exeReg_valid_of_valid hvalid, rfl⟩)
    ext1
    · funext u
      show _ = Function.update ((st c).hart (inp c).busDataOut) _ _ u
      by_cases hu : u = (st c).exeReg.tid
      · rw [hu, Function.update_self]
        refine hmove.trans ?_
        rw [hexecutes.write, hexecutes.next]
        rfl
      · rw [Function.update_of_ne hu]
        exact hothers u hu
    · exact hscratchpad.trans hexecutes.mem
  | system hvalid hother =>
    have hmove := h.hart_move hflex (CoreState.inExe_iff.mpr ⟨hvalid, rfl⟩)
    ext1
    · funext u
      show _ = Function.update ((st c).hart (inp c).busDataOut) _ _ u
      by_cases hu : u = (st c).exeReg.tid
      · rw [hu, Function.update_self]
        exact hmove
      · rw [Function.update_of_ne hu]
        exact hothers u hu
    · refine hscratchpad.trans (if_neg fun hcommits => ?_)
      obtain ⟨hcommit, op, hinst, hplain⟩ := h.exec_of_commits hcommits
      exact hother hcommit op hinst hplain

end execute

/-! ## Section 6: Every run -/

/-- **Refinement**: in every run of the flexible core every cycle has a turn, and
    through the mapping the core goes from cycle to cycle as threads of RV32 do that take
    these turns on one memory, as long as stores are checked. -/
theorem core_refines (hflex : conf.flex = true) (D : DecodeLogic conf)
    (st : Nat → CoreState conf) (inp : Nat → CoreIn conf) (h : CoreRun D st inp) :
    (∀ c, ∃ e, Retires st inp c e) ∧
      ∀ (events : Nat → Event conf.Tid) (n : Nat),
        (∀ c, c < n → Retires st inp c (events c)) →
        (∀ c, c < n → (st c).loadStoreIn.Checked) →
        (st n).machine (inp n).busDataOut =
          Machine.trace Rv32.step ((st 0).machine (inp 0).busDataOut) events n := by
  refine ⟨retires_total st inp, fun events n hretires hchecked => ?_⟩
  induction n with
  | zero => rfl
  | succ n ih =>
    rw [Machine.trace_succ, ← ih (fun c hc => hretires c (Nat.lt_succ_of_lt hc))
      fun c hc => hchecked c (Nat.lt_succ_of_lt hc)]
    exact h.machine_next hflex (hchecked n (Nat.lt_succ_self n)) (hretires n (Nat.lt_succ_self n))

/-- `addi x1, x0, 7`, `lui x2, 0x20000`, `sw x1, 0(x2)` and `lb x3, 0(x2)`. -/
def storeThenLoad (a : Nat) : BitVec 32 :=
  if a = 0 then 0x00700093 else if a = 1 then 0x20000137 else if a = 2 then 0x00112023
  else if a = 3 then 0x00010183 else 0x13

/-- Thread 0 alone. -/
def storeThenLoadRun : Nat → CoreState conf4tf :=
  Machine.trace (CoreState.next (DecodeLogic.zeros conf4tf))
    (coreZero conf4tf storeThenLoad) fun _ => issue conf4tf 0

def storeThenLoadOp (c : Nat) : Op :=
  if c = 4 then .int (.aluImm .addi 1 0 7) else if c = 5 then .int (.lui 2 0x20000)
  else if c = 6 then .store .sw 2 1 0 else .load .lb 3 2 0

/-- From cycle 4 on there is an instruction in execute. -/
theorem storeThenLoad_stages :
    (∀ c, c < 4 → (storeThenLoadRun c).exeReg.valid = false) ∧
      (∀ c, c < 4 → (storeThenLoadRun (c + 4)).exeValid = true ∧
        (storeThenLoadRun (c + 4)).exeReg.tid.val = 0 ∧
        (storeThenLoadRun (c + 4)).exeReg.inst = (storeThenLoadOp (c + 4)).encode) ∧
      (∀ c, c < 8 → (storeThenLoadRun c).loadStoreIn.store = false ∨
        InDspm conf4tf (storeThenLoadRun c).exeAddress) ∧
      (storeThenLoadRun 6).loadStoreIn.CommitsData ∧
      InDspm conf4tf (storeThenLoadRun 7).exeAddress := by
  decide +kernel

theorem storeThenLoad_refines :
    (storeThenLoadRun 8).machine 0 =
      Machine.trace Rv32.step ((storeThenLoadRun 0).machine 0)
        (fun c => if c < 4 then .idle else .exec (0 : Fin 4) (storeThenLoadOp c)) 8 := by
  obtain ⟨hidle, hexec, hstores, hsw, hlb⟩ := storeThenLoad_stages
  refine (core_refines rfl (DecodeLogic.zeros conf4tf) storeThenLoadRun (fun _ => issue conf4tf 0)
    (coreRun_trace _ (coreZero_reset conf4tf storeThenLoad) _)).2 _ 8 (fun c hc => ?_)
    fun c hc => ?_
  · by_cases hlow : c < 4
    · rw [if_pos hlow]
      exact .idle (hidle c hlow)
    · obtain ⟨k, rfl⟩ : ∃ k, c = k + 4 := ⟨c - 4, by omega⟩
      obtain ⟨hvalid, htid, hinst⟩ := hexec k (by omega)
      have hzero : (storeThenLoadRun (k + 4)).exeReg.tid = (0 : Fin 4) := Fin.ext htid
      rw [if_neg hlow, ← hzero]
      refine .exec _ hvalid hinst ?_
      obtain rfl | rfl | rfl | rfl : k = 0 ∨ k = 1 ∨ k = 2 ∨ k = 3 := by omega
      · exact ⟨trivial, trivial⟩
      · exact ⟨trivial, trivial⟩
      · exact hsw
      · exact ⟨hlb, Nat.mod_one _⟩
  · constructor
    case misaligned => exact fun _ => .inr (by decide)
    case outOfRange =>
      intro hreaches
      obtain hnone | hin := hstores c hc
      · rw [hreaches.store] at hnone
        exact Bool.noConfusion hnone
      · exact .inl hin

end Flexpret.Core
