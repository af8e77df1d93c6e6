import Flexpret.Core.Forwarding
import Flexpret.Core.InstructionStream

/-! # Two Cores that Differ in a Trap Entry

    What an instruction commits, and what it depends on: two cores whose CSRs
    differ only in what trap entry writes let the other threads commit the
    same, but for those that use their interrupt enable.
-/

namespace Flexpret.Core

variable {conf : FlexpretConfiguration}

/-! ## Section 1: What an instruction commits -/

/-- What the instruction in execute commits: its register, the word it writes
    to a CSR, its store, and its effect on the timing features. -/
@[ext] structure Commit where
  rd : Option (BitVec 5 × BitVec 32)
  csr : Option (BitVec 12 × BitVec 32)
  store : Option (BitVec 32 × BitVec 4 × BitVec 32)
  sleep : Bool
  ie : Bool
  ee : Bool
  mt : Option (BitVec 32)
  fd : Bool

namespace CoreState

variable (D : DecodeLogic conf) (s : CoreState conf) (i : CoreIn conf) (bus : BitVec 32)

/-- The commit of the instruction in execute.  The word for its register comes
    a cycle later, with `bus` on the bus. -/
def commit : Commit where
  rd :=
    if (s.next D i).memRdWrite then
      some ((s.next D i).memReg.rdAddr, (s.next D i).memRdData bus)
    else none
  csr :=
    if (s.csrIn i).write && !(s.csrIn i).kill then
      some (s.exeReg.csrAddr, s.csr.dataIn (s.csrIn i))
    else none
  store :=
    if s.loadStoreIn.write then
      some (s.exeAddress, s.exeReg.sig.memType, s.exeReg.rs2Data)
    else none
  sleep := s.exeSleep
  ie := (s.csrIn i).ie
  ee := (s.csrIn i).ee
  mt := if (s.csrIn i).mt then some (s.csrIn i).mtfdVal else none
  fd := (s.csrIn i).fd

/-- **Nothing is committed**: no register, no CSR, no word of the scratchpads,
    nothing on the bus, and no effect on the timing features. -/
structure CommitsNothing : Prop where
  suppressed : s.CommitSuppressed D i
  dspm : (s.next D i).dmem.dspm = s.dmem.dspm
  ispm : (s.next D i).imem.ispm = s.imem.ispm
  bus : s.loadStoreIn.busWrite = false

variable {D s i}

theorem mergeBytes_zero (new current : BitVec 32) : mergeBytes 0 new current = current := by
  have hmask : ∀ k, (0 : BitVec 4).getLsbD k = false := fun k => by simp
  simp only [mergeBytes, hmask, Bool.false_eq_true, if_false]
  rw [BitVec.extractLsb'_append_extractLsb'_eq_extractLsb' (by omega),
    BitVec.extractLsb'_append_extractLsb'_eq_extractLsb' (by omega),
    BitVec.extractLsb'_append_extractLsb'_eq_extractLsb' (by omega)]
  exact BitVec.extractLsb'_eq_self

/-- Without a store the memories keep their words. -/
theorem memories_kept (hwrite : s.loadStoreIn.write = false) :
    (s.next D i).dmem.dspm = s.dmem.dspm ∧ (s.next D i).imem.ispm = s.imem.ispm ∧
      s.loadStoreIn.busWrite = false := by
  refine ⟨?_, ?_, ?_⟩
  · show (if _ then Function.update s.dmem.dspm _ _ else s.dmem.dspm) = _
    split
    · rw [hwrite, if_neg Bool.false_ne_true, mergeBytes_zero, Function.update_eq_self]
    · rfl
  · show (if _ && s.loadStoreIn.write then Function.update s.imem.ispm _ _ else s.imem.ispm) = _
    rw [hwrite, Bool.and_false, if_neg Bool.false_ne_true]
  · rw [LoadStoreIn.busWrite, hwrite, Bool.and_false]

theorem commitsNothing_of_trap (h : ExeDecoded D s) (htrap : s.exeException = true) :
    CommitsNothing D s i := by
  have hsuppressed := commitSuppressed (i := i) h htrap
  obtain ⟨hdspm, hispm, hbus⟩ := memories_kept (D := D) (i := i) hsuppressed.store
  exact ⟨hsuppressed, hdspm, hispm, hbus⟩

/-- An instruction that is not valid commits nothing. -/
theorem commitsNothing_of_invalid (hvalid : s.exeReg.valid = false) :
    CommitsNothing D s i := by
  have hexe : s.exeValid = false := by simp [exeValid, hvalid]
  have hsuppressed : CommitSuppressed s D i := by
    constructor
    case rd =>
      show (s.exeReg.rdWrite && s.exeReg.valid && s.exeValid) = false
      rw [hexe, Bool.and_false]
    case csr =>
      intro addr
      simp [CsrIn.writes, csrIn, hvalid]
    case store => simp [LoadStoreIn.write, loadStoreIn, hvalid]
    case sleep => simp [exeSleep, hexe]
    case timer => simp [csrIn, hexe]
    case mtfd => simp [csrIn, hexe]
  obtain ⟨hdspm, hispm, hbus⟩ := memories_kept (D := D) (i := i) hsuppressed.store
  exact ⟨hsuppressed, hdspm, hispm, hbus⟩

end CoreState

/-! ## Section 2: CSRs that differ in what trap entry writes -/

/-- The low 32 bits of a status word. -/
def statusWord (mtie ie msip : Bool) : BitVec 32 :=
  0#1 ++ BitVec.ofBool mtie ++ 0#20 ++ 0#2 ++ 0#1 ++ 3#2 ++ BitVec.ofBool ie ++
    BitVec.ofBool msip ++ 0#3

/-- Where bit 4 is set or cleared the enable does not show. -/
theorem statusWord_or (mtie ie ie' msip : Bool) :
    statusWord mtie ie msip ||| BitVec.twoPow 32 4 =
      statusWord mtie ie' msip ||| BitVec.twoPow 32 4 := by
  revert mtie ie ie' msip
  decide

theorem statusWord_andNot (mtie ie ie' msip : Bool) :
    statusWord mtie ie msip &&& ~~~BitVec.twoPow 32 4 =
      statusWord mtie ie' msip &&& ~~~BitVec.twoPow 32 4 := by
  revert mtie ie ie' msip
  decide

theorem or_twoPow {w k : Nat} {d : BitVec w} (h : d.getLsbD k = true) :
    BitVec.twoPow w k ||| d = d := by
  apply BitVec.eq_of_getLsbD_eq
  intro j hj
  rw [BitVec.getLsbD_or, BitVec.getLsbD_twoPow]
  by_cases hk : k = j
  · rw [← hk, h, Bool.or_true]
  · simp [hk]

/-- The CSR unit with the registers that trap entry writes replaced. -/
def CsrState.withTrapRegs (c : CsrState conf) (ie : conf.Tid → Bool)
    (epcs : conf.Tid → BitVec 32) (causes : conf.Tid → Cause) : CsrState conf :=
  { c with regIe := ie, regEpcs := epcs, regCauses := causes }

theorem dataOut_status (c : CsrState conf) (u : conf.Tid) :
    c.dataOut CSRs.status u = statusWord (c.regMtie u) (c.regIe u) (c.regMsip u) := by
  simp [CsrState.dataOut, CSRs.status, CSRs.slots, CSRs.hartid, CSRs.tmodes, CSRs.evec, CSRs.epc,
    CSRs.cause, CSRs.sup0, CSRs.clock, CSRs.tohost, CSRs.gpiBase, CSRs.gpoBase,
    CSRs.gpoProtection, CSRs.iMemProtection, CSRs.dMemProtection, CSRs.time, CSRs.cycle,
    CSRs.instret, CSRs.timeh, CSRs.cycleh, CSRs.instreth, CsrState.status, statusWord]

section withTrapRegs

variable {c : CsrState conf} {u : conf.Tid} {i i' : CsrIn conf} {ie : conf.Tid → Bool}
  {epcs : conf.Tid → BitVec 32} {causes : conf.Tid → Cause}

/-- Where the registers of a thread agree it reads the same. -/
theorem dataOut_withTrapRegs (hepc : epcs u = c.regEpcs u) (hcause : causes u = c.regCauses u)
    {addr : BitVec 12} (hie : addr ≠ CSRs.status ∨ ie u = c.regIe u) :
    (c.withTrapRegs ie epcs causes).dataOut addr u = c.dataOut addr u := by
  have hstatus : ∀ w : BitVec 32,
      (if addr = CSRs.status then (c.withTrapRegs ie epcs causes).status u else w) =
        if addr = CSRs.status then c.status u else w := by
    intro w
    rcases hie with hne | hsame
    · rw [if_neg hne, if_neg hne]
    · show (if addr = CSRs.status then statusWord (c.regMtie u) (ie u) (c.regMsip u) else w) = _
      rw [hsame]
      rfl
  have hcauseWord : (c.withTrapRegs ie epcs causes).causeWord u = c.causeWord u := by
    show (causes u).extractLsb' 4 1 ++ 0#27 ++ (causes u).extractLsb' 0 4 = _
    rw [hcause]
    rfl
  have hepcWord : (c.withTrapRegs ie epcs causes).regEpcs u = c.regEpcs u := hepc
  simp only [CsrState.dataOut, hstatus, hcauseWord, hepcWord]
  rfl

/-- The other registers after the cycle agree when the inputs do but for `kill`
    and `cause`, and the words written do. -/
theorem next_withTrapRegs {kill : Bool} {cause : Cause}
    (hi : i' = { i with kill := kill, cause := cause })
    (hwrites : ∀ addr, i'.writes addr = i.writes addr)
    (hdata : (∀ addr, i.writes addr = false) ∨
      (c.withTrapRegs ie epcs causes).dataIn i' = c.dataIn i) :
    (c.withTrapRegs ie epcs causes).next i' =
      (c.next i).withTrapRegs ((c.withTrapRegs ie epcs causes).next i').regIe
        ((c.withTrapRegs ie epcs causes).next i').regEpcs
        ((c.withTrapRegs ie epcs causes).next i').regCauses := by
  rcases hdata with hnone | hword
  · simp only [CsrState.next, CsrState.withTrapRegs, CsrState.nextTmodes, CsrState.nextTimer,
      CsrState.nextMtie, CsrState.nextMsip, hwrites, hnone, Bool.and_false, Bool.false_and,
      Bool.false_eq_true, if_false, assign]
    subst hi
    rfl
  · simp only [CsrState.next, CsrState.nextTmodes, CsrState.nextTimer, CsrState.nextMtie,
      CsrState.nextMsip, hwrites, hword]
    subst hi
    rfl

end withTrapRegs

/-- Two CSR units agree but for the interrupt enables of the threads in `en`
    and the `epc` and the cause of `t`. -/
structure CsrButTrap (t : conf.Tid) (en : conf.Tid → Bool) (c c' : CsrState conf) : Prop where
  eq : c' = c.withTrapRegs c'.regIe c'.regEpcs c'.regCauses
  epcs : ∀ u, u ≠ t → c'.regEpcs u = c.regEpcs u
  causes : ∀ u, u ≠ t → c'.regCauses u = c.regCauses u
  ie : ∀ u, en u = false → c'.regIe u = c.regIe u

namespace CsrButTrap

variable {t u : conf.Tid} {en : conf.Tid → Bool} {c c' : CsrState conf} {i i' : CsrIn conf}

theorem dataOut_eq (h : CsrButTrap t en c c') (hu : u ≠ t) {addr : BitVec 12}
    (hie : addr ≠ CSRs.status ∨ c'.regIe u = c.regIe u) :
    c'.dataOut addr u = c.dataOut addr u := by
  rw [h.eq]
  exact dataOut_withTrapRegs (h.epcs u hu) (h.causes u hu) hie

/-- The word written agrees when the CSR reads the same, or is the status and
    the instruction decides the enable itself. -/
theorem dataIn_eq (h : CsrButTrap t en c c') (hu : i.thread ≠ t) (hi : i'.addr = i.addr)
    (hthread : i'.thread = i.thread) (htype : i'.csrType = i.csrType)
    (hdata : i'.dataIn = i.dataIn)
    (hie : (i.addr ≠ CSRs.status ∨ c'.regIe i.thread = c.regIe i.thread) ∨
      (i.csrType = csrS ∨ i.csrType = csrC → i.dataIn.getLsbD 4 = true)) :
    c'.dataIn i' = c.dataIn i := by
  unfold CsrState.dataIn
  rw [hi, hthread, htype, hdata]
  by_cases hread : i.addr ≠ CSRs.status ∨ c'.regIe i.thread = c.regIe i.thread
  · rw [h.dataOut_eq hu hread]
  · have hbit := hie.resolve_left hread
    simp only [not_or, not_not] at hread
    have hmtie : c'.regMtie = c.regMtie := by
      rw [h.eq]
      rfl
    have hmsip : c'.regMsip = c.regMsip := by
      rw [h.eq]
      rfl
    rw [hread.1, dataOut_status, dataOut_status, hmtie, hmsip]
    by_cases hset : i.csrType = csrS
    · have hd := or_twoPow (hbit (.inl hset))
      simp only [if_pos hset]
      rw [← hd, ← BitVec.or_assoc, ← BitVec.or_assoc, statusWord_or _ (c'.regIe i.thread)]
    · by_cases hclear : i.csrType = csrC
      · have hd := or_twoPow (hbit (.inr hclear))
        simp only [if_neg hset, if_pos hclear]
        rw [← hd, BitVec.not_or, ← BitVec.and_assoc, ← BitVec.and_assoc,
          statusWord_andNot _ (c'.regIe i.thread)]
      · simp only [if_neg hset, if_neg hclear]

/-- **One cycle** keeps the agreement of the CSR units. -/
theorem next (h : CsrButTrap t en c c') {kill : Bool} {cause : Cause}
    (hi : i' = { i with kill := kill, cause := cause })
    (hkill : i.write = true → kill = i.kill) (hcause : i.exception = true → cause = i.cause)
    (hdata : i.write = true → c'.dataIn i' = c.dataIn i) :
    CsrButTrap t en (c.next i) (c'.next i') := by
  have hwrites : ∀ addr, i'.writes addr = i.writes addr := by
    intro addr
    rw [hi]
    cases hw : i.write with
    | true => simp only [CsrIn.writes, hw, hkill hw]
    | false => simp only [CsrIn.writes, hw, Bool.false_and]
  have hword : (∀ addr, i.writes addr = false) ∨ c'.dataIn i' = c.dataIn i := by
    cases hw : i.write with
    | true => exact .inr (hdata hw)
    | false => exact .inl fun addr => by simp only [CsrIn.writes, hw, Bool.false_and]
  have hassign : ∀ {α : Type} (b : Bool) (addr : BitVec 12) (f : BitVec 32 → α)
      (reg reg' : conf.Tid → α) (v : conf.Tid), reg' v = reg v →
      assign (b && i'.writes addr) i'.thread (f (c'.dataIn i')) reg' v =
        assign (b && i.writes addr) i.thread (f (c.dataIn i)) reg v := by
    intro α b addr f reg reg' v hreg
    have hthread : i'.thread = i.thread := by rw [hi]
    rw [hwrites, hthread, assign_apply, assign_apply, hreg]
    rcases hword with hnone | hword
    · simp [hnone addr]
    · rw [hword]
  constructor
  case eq =>
    have heq := h.eq
    rw [heq]
    refine next_withTrapRegs hi hwrites ?_
    rw [← heq]
    exact hword
  case epcs =>
    intro u hu
    have hwrite := hassign true CSRs.epc id c.regEpcs c'.regEpcs u (h.epcs u hu)
    rw [Bool.true_and, Bool.true_and] at hwrite
    refine assign_congr ?_ (fun _ => ?_) hwrite
    · rw [hi]
    · rw [hi]
  case causes =>
    intro u hu
    show assign (conf.exceptions && i'.exception) i'.thread i'.cause c'.regCauses u =
      assign (conf.exceptions && i.exception) i.thread i.cause c.regCauses u
    refine assign_congr ?_ (fun hexc => ?_) (h.causes u hu)
    · rw [hi]
    · rw [hi] at hexc ⊢
      simp only [Bool.and_eq_true] at hexc
      exact hcause hexc.1.2
  case ie =>
    intro u hen
    have hwrite := hassign conf.exceptions CSRs.status (fun w => w.getLsbD 4) c.regIe c'.regIe u
      (h.ie u hen)
    have hexc : i'.exception = i.exception := by rw [hi]
    show c'.nextIe i' u = c.nextIe i u
    simp only [CsrState.nextIe, hexc]
    split
    · rfl
    · exact hwrite

end CsrButTrap

/-! ## Section 3: The execute stage -/

namespace CoreState

/-- The instruction in execute shows the interrupt enable of its thread, or
    writes it back. -/
def usesIe (s : CoreState conf) : Bool :=
  s.exeReg.sig.csr && s.exeReg.csrAddr = CSRs.status &&
    (s.exeReg.rdWrite || ((s.exeReg.sig.csrType = csrS || s.exeReg.sig.csrType = csrC) &&
      !s.exeReg.csrData.getLsbD 4))

/-- An interrupt of the thread in execute is pending, enabled or not. -/
def intPending (s : CoreState conf) : Bool :=
  (conf.interruptExpire && (s.csr.regMtie s.exeReg.tid ||
    s.csr.mtieSet s.exeReg.tid s.exeReg.valid)) ||
  (conf.causes.contains Causes.externalInt && s.csr.regMsip s.exeReg.tid)

/-- If its thread is in `en`, the instruction in execute does not depend on the
    interrupt enable. -/
def IgnoresIe (en : conf.Tid → Bool) (s : CoreState conf) : Prop :=
  s.exeReg.valid = true → en s.exeReg.tid = true → s.usesIe = false ∧ s.intPending = false

/-- A result from the execute stage that is a CSR is that of a CSR
    instruction. -/
theorem ExeDecoded.csr_of_sel {D : DecodeLogic conf} {s : CoreState conf}
    (h : ExeDecoded D s) (hvalid : s.exeReg.valid = true) (hwrite : s.exeReg.rdWrite = true)
    (hreg : s.exeReg.sig.memRdDataSel = memRdREG)
    (hsel : s.exeReg.sig.exeRdDataSel = exeRdCSR) : s.exeReg.sig.csr = true := by
  rcases h.rdSource hvalid hwrite with ⟨hmem, -⟩ | ⟨hmul, -⟩ | ⟨-, halu | hpc | hcsr⟩
  · rw [hreg] at hmem
    exact absurd hmem (by decide)
  · rw [hreg] at hmul
    exact absurd hmul (by decide)
  · rw [halu] at hsel
    exact absurd hsel (by decide)
  · rw [hpc] at hsel
    exact absurd hsel (by decide)
  · exact hcsr.2

/-- Two cores have the same instruction in execute, one of another thread than
    `t`, and the same memories, and the CSRs agree but for what a trap of `t`
    writes. -/
structure SameExecute (t : conf.Tid) (en : conf.Tid → Bool) (s s' : CoreState conf) : Prop where
  valid : s'.exeReg.valid = s.exeReg.valid
  reg : s.exeReg.valid = true → s'.exeReg = s.exeReg
  other : s.exeReg.valid = true → s.exeReg.tid ≠ t
  dmem : s'.dmem = s.dmem
  ispm : s'.imem.ispm = s.imem.ispm
  doutRw : s'.imem.doutRw = s.imem.doutRw
  csr : CsrButTrap t en s.csr s'.csr

namespace SameExecute

variable {t : conf.Tid} {en : conf.Tid → Bool} {s s' : CoreState conf} {D : DecodeLogic conf}
  {i : CoreIn conf}

/-- The enable of the thread in execute agrees, or does not matter. -/
theorem ie_cases (h : SameExecute t en s s') (hign : s.IgnoresIe en)
    (hvalid : s.exeReg.valid = true) :
    s'.csr.regIe s.exeReg.tid = s.csr.regIe s.exeReg.tid ∨
      (s.usesIe = false ∧ s.intPending = false) := by
  cases hen : en s.exeReg.tid with
  | false => exact .inl (h.csr.ie _ hen)
  | true => exact .inr (hign hvalid hen)

theorem exeAnyExc_eq (h : SameExecute t en s s') (hign : s.IgnoresIe en)
    (hvalid : s.exeReg.valid = true) : s'.exeAnyExc = s.exeAnyExc := by
  have hmtie : s'.csr.mtieSet s.exeReg.tid s.exeReg.valid =
      s.csr.mtieSet s.exeReg.tid s.exeReg.valid := by
    rw [h.csr.eq]
    rfl
  have hpending : s'.csr.regMtie = s.csr.regMtie ∧ s'.csr.regMsip = s.csr.regMsip := by
    rw [h.csr.eq]
    exact ⟨rfl, rfl⟩
  have hfd : s'.csr.mtfdExceptionReg = s.csr.mtfdExceptionReg := by
    rw [h.csr.eq]
    rfl
  have hee : s'.csr.excExpire s.exeReg.tid s.exeReg.valid =
      s.csr.excExpire s.exeReg.tid s.exeReg.valid := by
    rw [h.csr.eq]
    rfl
  have hints : s'.csr.intExpire s.exeReg.tid s.exeReg.valid =
        s.csr.intExpire s.exeReg.tid s.exeReg.valid ∧
      s'.csr.intExt s.exeReg.tid = s.csr.intExt s.exeReg.tid := by
    simp only [CsrState.intExpire, CsrState.intExt, hmtie, hpending.1, hpending.2]
    rcases h.ie_cases hign hvalid with hie | ⟨-, hnone⟩
    · rw [hie]
      exact ⟨rfl, rfl⟩
    · -- nothing is pending, so the enable does not matter
      simp only [intPending, Bool.or_eq_false_iff, Bool.and_eq_false_iff] at hnone
      obtain ⟨hexpire, hext⟩ := hnone
      constructor
      · rcases hexpire with hconf | ⟨hreg, hset⟩
        · simp only [hconf, Bool.false_and]
        · simp only [hreg, hset, Bool.or_self, Bool.and_false]
      · rcases hext with hconf | hreg
        · simp only [hconf, Bool.false_and]
        · simp only [hreg, Bool.and_false]
  simp only [exeAnyExc, h.reg hvalid, hfd, hee, hints.1, hints.2]

theorem exeDu_eq (h : SameExecute t en s s') (hvalid : s.exeReg.valid = true) :
    s'.exeDu = s.exeDu := by
  have hexpired : s'.csr.expired s.exeReg.tid s.exeReg.tid =
      s.csr.expired s.exeReg.tid s.exeReg.tid := by
    rw [h.csr.eq]
    rfl
  rw [exeDu, exeDu, h.reg hvalid, hexpired]

section valid

variable (h : SameExecute t en s s') (hign : s.IgnoresIe en) (hvalid : s.exeReg.valid = true)

include h hign hvalid

theorem exeKill_eq : s'.exeKill = s.exeKill := by
  rw [exeKill, exeKill, h.reg hvalid, h.exeAnyExc_eq hign hvalid]

theorem loadStoreIn_eq : s'.loadStoreIn = s.loadStoreIn := by
  have hprot : s'.csr.regImemProtection = s.csr.regImemProtection ∧
      s'.csr.regDmemProtection = s.csr.regDmemProtection := by
    rw [h.csr.eq]
    exact ⟨rfl, rfl⟩
  simp only [loadStoreIn, exeAddress, h.reg hvalid, hprot.1, hprot.2, h.exeKill_eq hign hvalid]

theorem exeInstExc_eq : s'.exeInstExc = s.exeInstExc := by
  rw [exeInstExc, exeInstExc, h.loadStoreIn_eq hign hvalid]

theorem exeException_eq : s'.exeException = s.exeException := by
  rw [exeException, exeException, h.reg hvalid, h.exeInstExc_eq hign hvalid,
    h.exeAnyExc_eq hign hvalid]

theorem exeCause_eq : s'.exeCause = s.exeCause := by
  rw [exeCause, exeCause, h.reg hvalid, h.exeInstExc_eq hign hvalid,
    h.exeAnyExc_eq hign hvalid]

theorem exeValid_eq : s'.exeValid = s.exeValid := by
  rw [exeValid, exeValid, h.valid, h.exeException_eq hign hvalid]

theorem exeSleep_eq : s'.exeSleep = s.exeSleep := by
  rw [exeSleep, exeSleep, h.exeDu_eq hvalid, h.exeValid_eq hign hvalid]

theorem exeFlush_eq : s'.exeFlush = s.exeFlush := by
  have hbrjmp : s'.exeBrjmp = s.exeBrjmp := by
    simp only [exeBrjmp, exeBrCond, h.reg hvalid]
  rw [exeFlush, exeFlush, h.exeException_eq hign hvalid, hbrjmp, h.exeSleep_eq hign hvalid]

theorem csrIn_eq : s'.csrIn i = s.csrIn i := by
  simp only [csrIn, h.reg hvalid, h.exeKill_eq hign hvalid, h.exeException_eq hign hvalid,
    h.exeCause_eq hign hvalid, h.exeValid_eq hign hvalid, h.exeSleep_eq hign hvalid]

/-- A CSR instruction writes the same word. -/
theorem csrDataIn_eq (hcsr : s.exeReg.sig.csr = true) :
    s'.csr.dataIn (s.csrIn i) = s.csr.dataIn (s.csrIn i) := by
  refine h.csr.dataIn_eq (h.other hvalid) rfl rfl rfl rfl ?_
  rcases h.ie_cases hign hvalid with hie | ⟨huses, -⟩
  · exact .inl (.inr hie)
  · by_cases hstatus : s.exeReg.csrAddr = CSRs.status
    · right
      intro htype
      simp only [usesIe, hcsr, hstatus, decide_true, Bool.true_and, Bool.or_eq_false_iff,
        Bool.and_eq_false_iff, Bool.not_eq_false', decide_eq_false_iff_not] at huses
      rcases huses.2 with hnone | hbit
      · have hneither : ¬ (s.exeReg.sig.csrType = csrS ∨ s.exeReg.sig.csrType = csrC) := by
          simpa using hnone
        exact absurd htype hneither
      · exact hbit
    · exact .inl (.inl hstatus)

/-- The value for `rd` from the execute stage agrees. -/
theorem exeRdData_eq (hwrite : s.exeReg.rdWrite = true)
    (hcsr : s.exeReg.sig.exeRdDataSel = exeRdCSR → s.exeReg.sig.csr = true) :
    s'.exeRdData = s.exeRdData := by
  unfold exeRdData exeAddress
  rw [h.reg hvalid]
  by_cases hsel : s.exeReg.sig.exeRdDataSel = exeRdCSR
  · rw [if_pos hsel, if_pos hsel]
    refine h.csr.dataOut_eq (h.other hvalid) ?_
    rcases h.ie_cases hign hvalid with hie | ⟨huses, -⟩
    · exact .inr hie
    · left
      intro hstatus
      simp only [usesIe, hcsr hsel, hstatus, hwrite, decide_true, Bool.true_and, Bool.true_or,
        Bool.true_eq_false] at huses
  · rw [if_neg hsel, if_neg hsel]

theorem memRdWrite_eq : (s'.next D i).memRdWrite = (s.next D i).memRdWrite := by
  show (s'.exeReg.rdWrite && s'.exeReg.valid && s'.exeValid) =
    (s.exeReg.rdWrite && s.exeReg.valid && s.exeValid)
  rw [h.reg hvalid, h.exeValid_eq hign hvalid]

/-- What is written to `rd` in the memory stage agrees. -/
theorem memRdData_eq (hdecoded : ExeDecoded D s) (hwrite : s.exeReg.rdWrite = true)
    (bus : BitVec 32) : (s'.next D i).memRdData bus = (s.next D i).memRdData bus := by
  have hload : (s'.next D i).loadDataOut bus = (s.next D i).loadDataOut bus := by
    have hdmem : s'.dmem.next s'.loadStoreIn = s.dmem.next s.loadStoreIn := by
      rw [h.dmem, h.loadStoreIn_eq hign hvalid]
    have hout : (s'.next D i).imem.doutRw = (s.next D i).imem.doutRw := by
      show (if _ then s'.imem.ispm _ else s'.imem.doutRw) = _
      rw [h.ispm, h.doutRw, h.loadStoreIn_eq hign hvalid]
      rfl
    show (if Core.dmemOp s'.exeAddress then
        loadFormat (s'.dmem.next s'.loadStoreIn).dout (s'.exeAddress.setWidth 2)
          s'.exeReg.sig.memType
      else if Core.imemOp s'.exeAddress then (s'.next D i).imem.doutRw else bus) = _
    rw [hdmem, hout, exeAddress, h.reg hvalid]
    rfl
  have hmul : (s'.next D i).memReg.mulResult = (s.next D i).memReg.mulResult := by
    show mulResult s'.exeReg.sig.mulType s'.exeReg.op1 s'.exeReg.op2 = _
    rw [h.reg hvalid]
    rfl
  have hsame : s'.exeReg.sig.memRdDataSel = s.exeReg.sig.memRdDataSel := by rw [h.reg hvalid]
  show (if s'.exeReg.sig.memRdDataSel = memRdMEM then (s'.next D i).loadDataOut bus
    else if s'.exeReg.sig.memRdDataSel = memRdMUL then
      (if conf.mul then (s'.next D i).memReg.mulResult else s'.exeRdData)
    else s'.exeRdData) =
    (if s.exeReg.sig.memRdDataSel = memRdMEM then (s.next D i).loadDataOut bus
    else if s.exeReg.sig.memRdDataSel = memRdMUL then
      (if conf.mul then (s.next D i).memReg.mulResult else s.exeRdData)
    else s.exeRdData)
  rw [hload, hmul, hsame]
  rcases hdecoded.rdSource hvalid hwrite with ⟨hsel, -⟩ | ⟨hsel, hconf⟩ | ⟨hsel, -⟩
  · rw [if_pos hsel, if_pos hsel]
  · rw [hsel, hconf]
    rfl
  · rw [h.exeRdData_eq hign hvalid hwrite (hdecoded.csr_of_sel hvalid hwrite hsel)]

end valid

end SameExecute

/-! ## Section 4: The cycle after a trap -/

end CoreState

def Commit.nothing : Commit where
  rd := none
  csr := none
  store := none
  sleep := false
  ie := false
  ee := false
  mt := none
  fd := false

namespace CoreState

variable {t : conf.Tid} {en : conf.Tid → Bool} {s s' : CoreState conf} {D : DecodeLogic conf}
  {i : CoreIn conf}

theorem CommitsNothing.commit_eq (h : CommitsNothing D s i) (bus : BitVec 32) :
    s.commit D i bus = Commit.nothing := by
  have hcsr : ((s.csrIn i).write && !(s.csrIn i).kill) = false := by
    have hwrites := h.suppressed.csr (s.csrIn i).addr
    simpa [CsrIn.writes] using hwrites
  simp only [commit, h.suppressed.rd, hcsr, h.suppressed.store, h.suppressed.sleep,
    h.suppressed.timer.1, h.suppressed.timer.2, h.suppressed.mtfd.1, h.suppressed.mtfd.2,
    Bool.false_eq_true, if_false, Commit.nothing]

/-- **The same instruction commits the same**. -/
theorem SameExecute.commit_eq (h : SameExecute t en s s') (hign : s.IgnoresIe en)
    (hdecoded : ExeDecoded D s) (bus : BitVec 32) : s'.commit D i bus = s.commit D i bus := by
  cases hvalid : s.exeReg.valid with
  | false =>
    have hvalid' : s'.exeReg.valid = false := h.valid.trans hvalid
    rw [(commitsNothing_of_invalid hvalid).commit_eq,
      (commitsNothing_of_invalid hvalid').commit_eq]
  | true =>
    have hrd : (s'.commit D i bus).rd = (s.commit D i bus).rd := by
      show (if (s'.next D i).memRdWrite then
        some ((s'.next D i).memReg.rdAddr, (s'.next D i).memRdData bus) else none) =
        if (s.next D i).memRdWrite then
          some ((s.next D i).memReg.rdAddr, (s.next D i).memRdData bus)
        else none
      rw [h.memRdWrite_eq hign hvalid]
      by_cases hwrite : (s.next D i).memRdWrite = true
      · have hset : s.exeReg.rdWrite = true := by
          have hmem : (s.exeReg.rdWrite && s.exeReg.valid && s.exeValid) = true := hwrite
          simp only [Bool.and_eq_true] at hmem
          exact hmem.1.1
        have haddr : (s'.next D i).memReg.rdAddr = (s.next D i).memReg.rdAddr := by
          show s'.exeReg.rdAddr = s.exeReg.rdAddr
          rw [h.reg hvalid]
        rw [if_pos hwrite, if_pos hwrite, haddr, h.memRdData_eq hign hvalid hdecoded hset]
      · rw [if_neg hwrite, if_neg hwrite]
    have hin : s'.csrIn i = s.csrIn i := h.csrIn_eq hign hvalid
    have hcsr : (s'.commit D i bus).csr = (s.commit D i bus).csr := by
      show (if (s'.csrIn i).write && !(s'.csrIn i).kill then
        some (s'.exeReg.csrAddr, s'.csr.dataIn (s'.csrIn i)) else none) =
        if (s.csrIn i).write && !(s.csrIn i).kill then
          some (s.exeReg.csrAddr, s.csr.dataIn (s.csrIn i))
        else none
      rw [hin, h.reg hvalid]
      by_cases hwrite : ((s.csrIn i).write && !(s.csrIn i).kill) = true
      · have hset : s.exeReg.sig.csr = true := by
          have hw := (Bool.and_eq_true_iff.mp hwrite).1
          exact (Bool.and_eq_true_iff.mp hw).1
        rw [if_pos hwrite, if_pos hwrite, h.csrDataIn_eq hign hvalid hset]
      · rw [if_neg hwrite, if_neg hwrite]
    have hstore : (s'.commit D i bus).store = (s.commit D i bus).store := by
      show (if s'.loadStoreIn.write then
        some (s'.exeAddress, s'.exeReg.sig.memType, s'.exeReg.rs2Data) else none) = _
      rw [h.loadStoreIn_eq hign hvalid, exeAddress, h.reg hvalid]
      rfl
    have hmt : (s'.commit D i bus).mt = (s.commit D i bus).mt := by
      show (if (s'.csrIn i).mt then some (s'.csrIn i).mtfdVal else none) = _
      rw [hin]
      rfl
    exact Commit.ext hrd hcsr hstore (h.exeSleep_eq hign hvalid) (congrArg CsrIn.ie hin)
      (congrArg CsrIn.ee hin) hmt (congrArg CsrIn.fd hin)

theorem exeFlush_of_invalid (hvalid : s.exeReg.valid = false) : s.exeFlush = false := by
  rw [Bool.eq_false_iff]
  intro hflush
  rw [exeReg_valid_of_flush hflush] at hvalid
  exact Bool.noConfusion hvalid

/-- Two cores agree but for what a trap of `t` writes, and hold no instruction
    of `t` in decode and execute. -/
structure ButTrap (t : conf.Tid) (en : conf.Tid → Bool) (s s' : CoreState conf) : Prop where
  eq : s' = { s with
    csr := s'.csr, memReg := { s.memReg with exception := s'.memReg.exception } }
  csr : CsrButTrap t en s.csr s'.csr
  dec : s.decReg.valid = true → s.decReg.tid ≠ t
  exe : s.exeReg.valid = true → s.exeReg.tid ≠ t

namespace ButTrap

theorem exeReg_eq (h : ButTrap t en s s') : s'.exeReg = s.exeReg := by rw [h.eq]

theorem decReg_eq (h : ButTrap t en s s') : s'.decReg = s.decReg := by rw [h.eq]

theorem sameExecute (h : ButTrap t en s s') : SameExecute t en s s' := by
  constructor
  case valid => rw [h.exeReg_eq]
  case reg => exact fun _ => h.exeReg_eq
  case other => exact h.exe
  case dmem => rw [h.eq]
  case ispm => rw [h.eq]
  case doutRw => rw [h.eq]
  case csr => exact h.csr

/-- What is forwarded to the instruction in decode agrees. -/
theorem decRsData_eq (h : ButTrap t en s s') (hign : s.IgnoresIe en)
    (hdecoded : ExeDecoded D s)
    (hready : conf.bypassing = true → s.decReg.tid = s.exeReg.tid → s.exeReg.rdWrite = true →
      s.exeReg.valid = true ∧ s.exeReg.sig.load = false ∧
        ¬ (conf.mul = true ∧ s.exeReg.sig.memRdDataSel = memRdMUL))
    (bus : BitVec 32) (r : BitVec 5) (d : BitVec 32) :
    s'.decRsData bus r d = s.decRsData bus r d := by
  have hmem : s'.memRdData bus = s.memRdData bus := by
    rw [h.eq]
    rfl
  have hmemReg : s'.memReg.tid = s.memReg.tid ∧ s'.memReg.rdWrite = s.memReg.rdWrite ∧
      s'.memReg.rdAddr = s.memReg.rdAddr := by
    rw [h.eq]
    exact ⟨rfl, rfl, rfl⟩
  have hwb : s'.wbReg = s.wbReg := by rw [h.eq]
  simp only [decRsData, h.decReg_eq, h.exeReg_eq, hmemReg.1, hmemReg.2.1, hmemReg.2.2, hwb, hmem]
  cases hbypass : conf.bypassing with
  | false => rfl
  | true =>
    cases hcheck : s.decReg.tid = s.exeReg.tid && s.exeReg.rdWrite with
    | false => rfl
    | true =>
      simp only [Bool.and_eq_true, decide_eq_true_eq] at hcheck
      obtain ⟨hvalid, hload, hmul⟩ := hready hbypass hcheck.1 hcheck.2
      have hreg := hdecoded.sel_of_ready hvalid hcheck.2 hload hmul
      rw [h.sameExecute.exeRdData_eq hign hvalid hcheck.2
        (hdecoded.csr_of_sel hvalid hcheck.2 hreg)]

theorem decValid_eq (h : ButTrap t en s s') (hign : s.IgnoresIe en) :
    s'.decValid = s.decValid := by
  have hflush : s'.exeFlush = s.exeFlush := by
    cases hvalid : s.exeReg.valid with
    | false =>
      rw [exeFlush_of_invalid hvalid, exeFlush_of_invalid (h.exeReg_eq ▸ hvalid)]
    | true => exact h.sameExecute.exeFlush_eq hign hvalid
  rw [decValid, decValid, h.decReg_eq, h.exeReg_eq, hflush]

/-- The memories after the cycle agree. -/
theorem memories_eq (h : ButTrap t en s s') (hign : s.IgnoresIe en) :
    (s'.next D i).dmem = (s.next D i).dmem ∧
      (s'.next D i).imem.ispm = (s.next D i).imem.ispm ∧
      (s'.next D i).imem.doutRw = (s.next D i).imem.doutRw := by
  have hdmem : s'.dmem = s.dmem := by rw [h.eq]
  have himem : s'.imem = s.imem := by rw [h.eq]
  cases hvalid : s.exeReg.valid with
  | false =>
    -- neither a load nor a store
    have hnone : s.loadStoreIn.load = false ∧ s.loadStoreIn.store = false ∧
        s'.loadStoreIn.load = false ∧ s'.loadStoreIn.store = false := by
      simp [loadStoreIn, h.exeReg_eq, hvalid]
    show s'.dmem.next s'.loadStoreIn = s.dmem.next s.loadStoreIn ∧
      (s'.imem.next s'.nextReg.valid (fetchAddr conf (s'.nextPc D)) s'.loadStoreIn).ispm =
        (s.imem.next s.nextReg.valid (fetchAddr conf (s.nextPc D)) s.loadStoreIn).ispm ∧
      (s'.imem.next s'.nextReg.valid (fetchAddr conf (s'.nextPc D)) s'.loadStoreIn).doutRw =
        (s.imem.next s.nextReg.valid (fetchAddr conf (s.nextPc D)) s.loadStoreIn).doutRw
    simp only [DSpm.next, ISpm.next, hnone.1, hnone.2.1, hnone.2.2.1, hnone.2.2.2, hdmem, himem,
      Bool.or_self, Bool.and_false, Bool.false_and, Bool.false_eq_true, if_false, and_self]
  | true =>
    have hin := h.sameExecute.loadStoreIn_eq hign hvalid
    refine ⟨?_, ?_, ?_⟩
    · show s'.dmem.next s'.loadStoreIn = _
      rw [hin, hdmem]
      rfl
    · show (s'.imem.next _ _ s'.loadStoreIn).ispm = _
      rw [hin, himem]
      rfl
    · show (s'.imem.next _ _ s'.loadStoreIn).doutRw = _
      rw [hin, himem]
      rfl

theorem nextCsr (h : ButTrap t en s s') (hign : s.IgnoresIe en) :
    CsrButTrap t en (s.next D i).csr (s'.next D i).csr := by
  cases hvalid : s.exeReg.valid with
  | false =>
    have hidle : s.exeException = false ∧ s'.exeException = false := by
      simp [exeException, h.exeReg_eq, hvalid]
    have hsleep : s.exeSleep = false ∧ s'.exeSleep = false := by
      simp [exeSleep, exeDu, h.exeReg_eq, hvalid]
    have hin : s'.csrIn i = { s.csrIn i with kill := s'.exeKill, cause := s'.exeCause } := by
      simp only [csrIn, exeValid, h.exeReg_eq, hvalid, hidle.1, hidle.2, hsleep.1, hsleep.2,
        Bool.false_and, Bool.and_false]
    refine h.csr.next hin (fun hw => ?_) (fun hexc => ?_) (fun hw => ?_)
    · simp [csrIn, hvalid] at hw
    · simp [csrIn, hidle.1] at hexc
    · simp [csrIn, hvalid] at hw
  | true =>
    have hin : s'.csrIn i = s.csrIn i := h.sameExecute.csrIn_eq hign hvalid
    have hin' : s'.csrIn i = { s.csrIn i with kill := s.exeKill, cause := s.exeCause } := hin
    refine h.csr.next hin' (fun _ => rfl) (fun _ => rfl) fun hw => ?_
    rw [hin]
    exact h.sameExecute.csrDataIn_eq hign hvalid (Bool.and_eq_true_iff.mp hw).1

/-- **The cycle after** leaves the same instruction in execute. -/
theorem next (h : ButTrap t en s s') (hign : s.IgnoresIe en) (hdecoded : ExeDecoded D s)
    (hready : s.decReg.valid = true → conf.bypassing = true → s.decReg.tid = s.exeReg.tid →
      s.exeReg.rdWrite = true → s.exeReg.valid = true ∧ s.exeReg.sig.load = false ∧
        ¬ (conf.mul = true ∧ s.exeReg.sig.memRdDataSel = memRdMUL)) :
    SameExecute t en (s.next D i) (s'.next D i) := by
  obtain ⟨hdmem, hispm, hdout⟩ := h.memories_eq (D := D) (i := i) hign
  constructor
  case valid => exact h.decValid_eq hign
  case reg =>
    intro hvalid
    have hdec : s.decReg.valid = true := (Bool.and_eq_true_iff.mp hvalid).1
    have hrs : ∀ r d, s'.decRsData i.busDataOut r d = s.decRsData i.busDataOut r d :=
      fun r d => h.decRsData_eq hign hdecoded (hready hdec) i.busDataOut r d
    have hregs : s'.regfile = s.regfile := by rw [h.eq]
    have hsig : s'.dec D = s.dec D := by rw [CoreState.dec, CoreState.dec, h.decReg_eq]
    show s'.nextExeReg D i.busDataOut = s.nextExeReg D i.busDataOut
    simp only [nextExeReg, decRs1Data, decRs2Data, decRdWrite, decExc, hsig, h.decReg_eq, hrs,
      hregs, h.decValid_eq hign]
  case other =>
    intro hvalid
    exact h.dec (Bool.and_eq_true_iff.mp hvalid).1
  case dmem => exact hdmem
  case ispm => exact hispm
  case doutRw => exact hdout
  case csr => exact h.nextCsr hign

end ButTrap

end CoreState

end Flexpret.Core
