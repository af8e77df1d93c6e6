import Flexpret.Core.System
import Flexpret.Core.TimerDelivery
import Flexpret.Core.TrapEntry

/-! # Memory Protection

    The protection modes as the OS header numbers them, written to the regions
    of the data scratchpad, and what the load and store unit makes of a store
    of a thread.
-/

open Transition

namespace Flexpret.Core

/-! ## Section 1: The modes of the OS header -/

/-- The protection modes of the OS header. -/
inductive MempMode where
  | thread (i : Fin 8)
  | shared
  | readOnly
  deriving DecidableEq

/-- `MEMP_T0` .. `MEMP_T7`, `MEMP_SH` and `MEMP_RO` in the OS header. -/
def MempMode.toBits : MempMode → BitVec 4
  | .thread i => BitVec.ofNat 4 i.val
  | .shared => 8
  | .readOnly => 9

/-- What the modes stand for: the region is one thread's, shared, or nobody's
    to write. -/
def MempMode.allows (t : Nat) : MempMode → Bool
  | .thread i => i.val = t
  | .shared => true
  | .readOnly => false

variable {conf : FlexpretConfiguration}

/-- **The drift**: of the modes of the header the core takes `MEMP_RO`
    for one that names thread 1. -/
theorem permits_toBits (hthreads : conf.threads = 8) (mode : MempMode) (t : conf.Tid) :
    permits conf mode.toBits t = (mode.allows t.val || (mode = .readOnly && t.val = 1)) := by
  have hbits : conf.threadBits = 3 := by
    rw [FlexpretConfiguration.threadBits, hthreads]
    decide
  rw [Bool.eq_iff_iff]
  cases mode with
  | thread i =>
    have hi := i.isLt
    have hne : (BitVec.ofNat 4 i.val : BitVec 4) ≠ mempSH ∧ BitVec.ofNat 4 i.val ≠ mempRO := by
      revert i
      decide
    have hlow : ((BitVec.ofNat 4 i.val).setWidth conf.threadBits).toNat = i.val := by
      rw [BitVec.toNat_setWidth, BitVec.toNat_ofNat, hbits]
      omega
    simp [permits, MempMode.toBits, MempMode.allows, hne.1, hne.2, hlow]
  | shared => simp [permits, MempMode.toBits, MempMode.allows, mempSH, mempRO]
  | readOnly => simp [permits, MempMode.toBits, MempMode.allows, mempSH, mempRO, hbits, eq_comm]

/-! ## Section 2: One store -/

/-- The bytes that a store writes. -/
def storeSize (memType : BitVec 4) : Nat :=
  if memType = memSH then 2 else if memType = memSW then 4 else 1

namespace LoadStoreIn

variable (i : LoadStoreIn conf)

/-- The region of the data scratchpad that the address lies in. -/
def dmemRegion : Fin 8 := Fin.ofNat 8 (addrBits i.addr conf.dMemHighIndex conf.dMemLowIndex)

def aligned : Bool := i.addr.toNat % storeSize i.memType = 0

/-- The offset in the data scratchpad does not overflow its size. -/
def inRange : Bool := i.addr.toNat % 2 ^ 29 < 2 ^ conf.dMemAddrBits

/-- The word of the data scratchpad that is addressed. -/
def dspmAddr : BitVec (conf.dMemAddrBits - 2) := (i.addr >>> 2).setWidth (conf.dMemAddrBits - 2)

variable {i}

theorem only_dmemOp (h : dmemOp i.addr = true) :
    imemOp i.addr = false ∧ busOp i.addr = false := by
  have htop : i.addr.toNat / 2 ^ 29 % 2 ^ 3 = 1 := of_decide_eq_true h
  constructor
  · apply decide_eq_false
    show ¬ i.addr.toNat / 2 ^ 29 % 2 ^ 3 = 0
    omega
  · apply decide_eq_false
    show ¬ i.addr.toNat / 2 ^ 30 % 2 ^ 2 = 1
    omega

theorem badAddress_eq (h : dmemOp i.addr = true) : i.badAddress = !i.inRange := by
  obtain ⟨himem, hbus⟩ := only_dmemOp h
  have hrange : addrBits i.addr 28 conf.dMemAddrBits = 0 ↔
      i.addr.toNat % 2 ^ 29 < 2 ^ conf.dMemAddrBits := by
    unfold addrBits
    by_cases hle : conf.dMemAddrBits ≤ 29
    · rw [← Nat.mod_mul_right_div_self, ← Nat.pow_add, Nat.add_sub_cancel' hle,
        Nat.div_eq_zero_iff_lt (Nat.two_pow_pos _)]
    · have hzero : 28 + 1 - conf.dMemAddrBits = 0 := by omega
      have hpow : 2 ^ 29 ≤ 2 ^ conf.dMemAddrBits := Nat.pow_le_pow_right Nat.two_pos (by omega)
      have hlt := Nat.mod_lt i.addr.toNat (Nat.two_pow_pos 29)
      rw [hzero, Nat.pow_zero, Nat.mod_one]
      exact iff_of_true rfl (Nat.lt_of_lt_of_le hlt hpow)
  rw [badAddress, inRange, h, himem, hbus, ← decide_not]
  simp only [Bool.true_and, Bool.false_and, Bool.or_false, ne_eq, hrange]

theorem permission_eq (hprot : conf.memProtection = true) (h : dmemOp i.addr = true) :
    i.permission = permits conf (i.dmemProtection i.dmemRegion) i.thread := by
  obtain ⟨himem, hbus⟩ := only_dmemOp h
  simp [permission, hprot, h, himem, hbus, dmemRegionMode, dmemRegion]

theorem storeMisaligned_eq (hcause : conf.causes.contains Causes.misalignedStore = true)
    (hstore : i.store = true) : i.storeMisaligned = !i.aligned := by
  rw [storeMisaligned, aligned, storeSize, hcause, hstore]
  by_cases hhalf : i.memType = memSH
  · rcases Nat.mod_two_eq_zero_or_one i.addr.toNat with heven | hodd
    · simp [addrBits, hhalf, memSH, memSW, heven]
    · simp [addrBits, hhalf, memSH, memSW, hodd]
  · by_cases hword : i.memType = memSW
    · simp [addrBits, hword, memSH, memSW]
    · simp [hhalf, hword, Nat.mod_one]

end LoadStoreIn

/-- Protection comes with exceptions, and with the trap for misaligned stores. -/
theorem exceptions_of_memProtection (h : conf.memProtection = true) :
    conf.exceptions = true ∧ conf.causes.contains Causes.misalignedStore = true := by
  simp only [FlexpretConfiguration.memProtection, Bool.and_eq_true, decide_eq_true_eq] at h
  cases hfeatures : conf.features with
  | min => exact absurd hfeatures h.1
  | ex | ti | all =>
    simp [FlexpretConfiguration.causes, FlexpretConfiguration.supportedCauses,
      FlexpretConfiguration.exceptions, hfeatures, Causes.misalignedStore]

/-! ## Section 3: The traps of a store -/

/-- An exception that is present and supported is taken. -/
theorem checkExceptions_of_mem {l : List (Bool × Cause)} {e : Bool × Cause} (hmem : e ∈ l)
    (hset : e.1 = true) (hcause : conf.causes.contains e.2 = true) :
    (checkExceptions conf l).1 = true :=
  List.any_eq_true.mpr ⟨e, List.mem_filter.mpr ⟨hmem, hcause⟩, hset⟩

/-- The cause is that of an exception that is present. -/
theorem checkExceptions_present {l : List (Bool × Cause)}
    (h : (checkExceptions conf l).1 = true) :
    ∃ e ∈ l, e.1 = true ∧ (checkExceptions conf l).2 = e.2 := by
  obtain ⟨e, hmem, hset⟩ := List.any_eq_true.mp h
  cases hfind : (l.filter fun e => conf.causes.contains e.2).find? fun e => e.1 with
  | none => exact absurd hset (List.find?_eq_none.mp hfind e hmem)
  | some first =>
    have hin := List.mem_filter.mp (List.mem_of_find?_eq_some hfind)
    refine ⟨first, hin.1, List.find?_some hfind, ?_⟩
    rw [checkExceptions, hfind]

namespace CoreState

variable {s : CoreState conf} {D : DecodeLogic conf} {i : CoreIn conf}

/-- A store of the instruction in execute to the data scratchpad. -/
structure StoresData (s : CoreState conf) : Prop where
  valid : s.exeReg.valid = true
  store : s.exeReg.sig.store = true
  dspm : dmemOp s.exeAddress = true

theorem StoresData.unit_store (h : StoresData s) : s.loadStoreIn.store = true := by
  rw [loadStoreIn, h.store, h.valid]
  rfl

theorem StoresData.not_load (h : StoresData s) (hdec : ExeDecoded D s) :
    s.exeReg.sig.load = false := by
  rw [Bool.eq_false_iff]
  intro hload
  have hnone := hdec.load_exclusive h.valid hload
  rw [h.store] at hnone
  exact Bool.noConfusion hnone

/-- The only exceptions that a store causes itself. -/
theorem StoresData.instExc (h : StoresData s) (hdec : ExeDecoded D s)
    (hprot : conf.memProtection = true) :
    (s.exeInstExc.1 = true ↔
        s.loadStoreIn.storeMisaligned = true ∨ s.loadStoreIn.storeFault = true) ∧
      (s.exeInstExc.1 = true →
        s.exeInstExc.2 = Causes.misalignedStore ∨ s.exeInstExc.2 = Causes.faultStore) := by
  have hload : s.loadStoreIn.load = false := by
    rw [loadStoreIn, h.not_load hdec]
    rfl
  have hpresent : s.exeInstExc.1 = true →
      (s.loadStoreIn.storeMisaligned = true ∧ s.exeInstExc.2 = Causes.misalignedStore) ∨
        (s.loadStoreIn.storeFault = true ∧ s.exeInstExc.2 = Causes.faultStore) := by
    intro hinst
    obtain ⟨e, hmem, hset, hcause⟩ := checkExceptions_present hinst
    simp only [List.mem_cons, List.not_mem_nil, or_false] at hmem
    rcases hmem with rfl | rfl | rfl | rfl | rfl
    · exact Bool.noConfusion hset
    · simp [LoadStoreIn.loadMisaligned, hload] at hset
    · simp [LoadStoreIn.loadFault, hload] at hset
    · exact .inl ⟨hset, hcause⟩
    · exact .inr ⟨hset, hcause⟩
  refine ⟨⟨fun hinst => ?_, fun hcase => ?_⟩, fun hinst => ?_⟩
  · exact (hpresent hinst).imp And.left And.left
  · rcases hcase with hmis | hfault
    · exact checkExceptions_of_mem
        (e := (s.loadStoreIn.storeMisaligned, Causes.misalignedStore))
        (.tail _ (.tail _ (.tail _ (.head _)))) hmis (exceptions_of_memProtection hprot).2
    · have hcause : conf.causes.contains Causes.faultStore = true := by
        simp only [LoadStoreIn.storeFault, Bool.and_eq_true] at hfault
        exact hfault.1.1
      exact checkExceptions_of_mem (e := (s.loadStoreIn.storeFault, Causes.faultStore))
        (.tail _ (.tail _ (.tail _ (.tail _ (.head _))))) hfault hcause
  · exact (hpresent hinst).imp And.right And.right

/-- **A refused store** that is not killed traps, as misaligned or as a fault. -/
theorem StoresData.traps_iff (h : StoresData s) (hdec : ExeDecoded D s)
    (hprot : conf.memProtection = true) (hkill : s.exeKill = false) :
    (s.exeException = true ↔
        s.loadStoreIn.storeMisaligned = true ∨ s.loadStoreIn.storeFault = true) ∧
      (s.exeException = true →
        s.exeCause = Causes.misalignedStore ∨ s.exeCause = Causes.faultStore) := by
  have hexceptions := (exceptions_of_memProtection hprot).1
  obtain ⟨hexc, hany⟩ : s.exeReg.exc = false ∧ s.exeAnyExc.1 = false := by
    simpa [exeKill] using hkill
  obtain ⟨hiff, hcause⟩ := h.instExc hdec hprot
  have hexception : s.exeException = s.exeInstExc.1 := by
    rw [exeException, hexceptions, h.valid, hexc, hany]
    simp
  rw [hexception]
  refine ⟨hiff, fun hinst => ?_⟩
  rw [exeCause, hexceptions, hexc, hinst, if_pos rfl, if_neg Bool.false_ne_true, if_pos rfl]
  exact hcause hinst

end CoreState

/-! ## Section 4: What a store does -/

namespace CoreState

variable (D : DecodeLogic conf) (i : CoreIn conf) (s : CoreState conf)
  (modes : Fin 8 → MempMode)

/-- The mode of the region that the store goes to. -/
def storeMode : MempMode := modes s.loadStoreIn.dmemRegion

/-- **The rule** of the modes: the region allows the thread, and the store is
    aligned, in range and not killed. -/
structure StoreAllowed : Prop where
  mode : (s.storeMode modes).allows s.exeReg.tid.val = true
  aligned : s.loadStoreIn.aligned = true
  inRange : s.loadStoreIn.inRange = true
  alive : s.exeKill = false

/-- **Memory protection** of a store: it is written if it is allowed; otherwise
    no word of the scratchpads changes, and it traps unless it was killed. -/
structure StoreChecked : Prop where
  written : s.StoreAllowed modes → (s.next D i).dmem.dspm =
    Function.update s.dmem.dspm s.loadStoreIn.dspmAddr
      (mergeBytes (storeMask (s.exeAddress.setWidth 2) s.exeReg.sig.memType)
        (storeFormat s.exeReg.rs2Data s.exeReg.sig.memType)
        (s.dmem.dspm s.loadStoreIn.dspmAddr))
  kept : ¬ s.StoreAllowed modes → (s.next D i).dmem.dspm = s.dmem.dspm
  ispm : (s.next D i).imem.ispm = s.imem.ispm
  trapped : ¬ s.StoreAllowed modes → s.exeKill = false → s.exeException = true ∧
    (s.exeCause = Causes.misalignedStore ∨ s.exeCause = Causes.faultStore)

/-- **The condition**: what is not killed, aligned and not allowed is found out
    by a core that has the fault for stores, unless thread 1 stores to a region
    marked read-only. -/
def StoreCaught : Prop :=
  s.exeKill = true ∨ s.loadStoreIn.aligned = false ∨
    ((s.storeMode modes).allows s.exeReg.tid.val = true ∧ s.loadStoreIn.inRange = true) ∨
    (conf.causes.contains Causes.faultStore = true ∧
      ¬ (s.storeMode modes = .readOnly ∧ s.exeReg.tid.val = 1 ∧ s.loadStoreIn.inRange = true))

variable {D i s modes}

/-- The words of a store to the data scratchpad. -/
theorem StoresData.dspm_next (h : StoresData s) (hwrite : s.loadStoreIn.write = true) :
    (s.next D i).dmem.dspm =
      Function.update s.dmem.dspm s.loadStoreIn.dspmAddr
        (mergeBytes (storeMask (s.exeAddress.setWidth 2) s.exeReg.sig.memType)
          (storeFormat s.exeReg.rs2Data s.exeReg.sig.memType)
          (s.dmem.dspm s.loadStoreIn.dspmAddr)) := by
  have henable : (dmemOp s.loadStoreIn.addr && (s.loadStoreIn.load || s.loadStoreIn.store)) =
      true := by
    rw [h.unit_store, Bool.or_true, Bool.and_true]
    exact h.dspm
  show (if dmemOp s.loadStoreIn.addr && (s.loadStoreIn.load || s.loadStoreIn.store) then
    Function.update s.dmem.dspm _ (mergeBytes (if s.loadStoreIn.write then _ else 0) _ _)
    else _) = _
  rw [if_pos henable, hwrite, if_pos rfl]
  rfl

theorem StoresData.ispm_next (h : StoresData s) : (s.next D i).imem.ispm = s.imem.ispm := by
  have himem : imemOp s.loadStoreIn.addr = false := (LoadStoreIn.only_dmemOp h.dspm).1
  show (if imemOp s.loadStoreIn.addr && _ && _ then _ else s.imem.ispm) = _
  rw [himem, Bool.false_and, Bool.false_and, if_neg Bool.false_ne_true]

/-- What the unit checks, for regions with modes of the header. -/
theorem StoresData.permission_eq (h : StoresData s) (hthreads : conf.threads = 8)
    (hprot : conf.memProtection = true)
    (hmodes : ∀ r, s.csr.regDmemProtection r = (modes r).toBits) :
    s.loadStoreIn.permission = ((s.storeMode modes).allows s.exeReg.tid.val ||
      (s.storeMode modes = .readOnly && s.exeReg.tid.val = 1)) := by
  have hregion : s.loadStoreIn.dmemProtection s.loadStoreIn.dmemRegion =
      (s.storeMode modes).toBits := hmodes _
  rw [LoadStoreIn.permission_eq hprot h.dspm, hregion]
  exact permits_toBits hthreads _ _

/-- When the unit traps a store, and when it writes it. -/
theorem StoresData.unit_eq (h : StoresData s) (hprot : conf.memProtection = true) :
    s.loadStoreIn.storeMisaligned = !s.loadStoreIn.aligned ∧
      s.loadStoreIn.storeFault = (conf.causes.contains Causes.faultStore &&
        (!s.loadStoreIn.inRange || !s.loadStoreIn.permission)) ∧
      s.loadStoreIn.write = (s.loadStoreIn.permission && s.loadStoreIn.aligned &&
        !s.loadStoreIn.storeFault && !s.exeKill) := by
  have hmis := LoadStoreIn.storeMisaligned_eq (exceptions_of_memProtection hprot).2 h.unit_store
  have hbad : s.loadStoreIn.badAddress = !s.loadStoreIn.inRange :=
    LoadStoreIn.badAddress_eq (i := s.loadStoreIn) h.dspm
  refine ⟨hmis, ?_, ?_⟩
  · rw [LoadStoreIn.storeFault, h.unit_store, Bool.and_true, hbad]
  · rw [LoadStoreIn.write, h.unit_store, hmis, Bool.true_and, Bool.not_not]
    rfl

/-- What the condition says of a store that is not allowed: it is killed, it is
    misaligned, or the core finds the fault. -/
theorem StoreCaught.refused (hcaught : s.StoreCaught modes) (hnot : ¬ s.StoreAllowed modes)
    (hperm : s.loadStoreIn.permission = ((s.storeMode modes).allows s.exeReg.tid.val ||
      (s.storeMode modes = .readOnly && s.exeReg.tid.val = 1))) :
    s.exeKill = true ∨ s.loadStoreIn.aligned = false ∨
      (conf.causes.contains Causes.faultStore &&
        (!s.loadStoreIn.inRange || !s.loadStoreIn.permission)) = true := by
  cases hkill : s.exeKill with
  | true => exact .inl rfl
  | false =>
    cases haligned : s.loadStoreIn.aligned with
    | false => exact .inr (.inl rfl)
    | true =>
      have hmode : (s.storeMode modes).allows s.exeReg.tid.val = true →
          s.loadStoreIn.inRange = false := by
        intro hallows
        rw [Bool.eq_false_iff]
        exact fun hrange => hnot ⟨hallows, haligned, hrange, hkill⟩
      rcases hcaught with hk | ha | ⟨hallows, hrange⟩ | ⟨hcause, hdrift⟩
      · exact Bool.noConfusion (hkill.symm.trans hk)
      · exact Bool.noConfusion (haligned.symm.trans ha)
      · exact Bool.noConfusion ((hmode hallows).symm.trans hrange)
      · refine .inr (.inr ?_)
        rw [hcause, Bool.true_and]
        cases hrange : s.loadStoreIn.inRange with
        | false => rfl
        | true =>
          have hallows : (s.storeMode modes).allows s.exeReg.tid.val = false := by
            rw [Bool.eq_false_iff]
            intro hallows
            exact Bool.noConfusion ((hmode hallows).symm.trans hrange)
          have hother : ¬ (s.storeMode modes = .readOnly ∧ s.exeReg.tid.val = 1) :=
            fun hdr => hdrift ⟨hdr.1, hdr.2, hrange⟩
          simpa [hperm, hallows] using not_and_or.mp hother

/-- **A store of the data scratchpad** is handled by its mode exactly under the
    condition. -/
theorem storeChecked_iff_caught (h : StoresData s) (hdec : ExeDecoded D s)
    (hthreads : conf.threads = 8) (hprot : conf.memProtection = true)
    (hmodes : ∀ r, s.csr.regDmemProtection r = (modes r).toBits) :
    StoreChecked D i s modes ↔ s.StoreCaught modes := by
  have hperm := h.permission_eq hthreads hprot hmodes
  obtain ⟨hmis, hfault, hwrite⟩ := h.unit_eq hprot
  constructor
  · intro hchecked
    by_contra hnot
    simp only [StoreCaught, not_or, Bool.not_eq_true, Bool.not_eq_false] at hnot
    obtain ⟨hkill, haligned, hmode, hcause⟩ := hnot
    have hrefused : ¬ s.StoreAllowed modes := fun hall => hmode ⟨hall.mode, hall.inRange⟩
    have htrap := (hchecked.trapped hrefused hkill).1
    rcases ((h.traps_iff hdec hprot hkill).1).mp htrap with hbad | hbad
    · rw [hmis, haligned] at hbad
      exact Bool.noConfusion hbad
    · -- the fault is there, so the store is one of thread 1 that is not found out
      rw [hfault, Bool.and_eq_true] at hbad
      have hdrift : s.storeMode modes = .readOnly ∧ s.exeReg.tid.val = 1 ∧
          s.loadStoreIn.inRange = true := by
        by_contra hother
        exact hcause ⟨hbad.1, hother⟩
      obtain ⟨hro, hone, hrange⟩ := hdrift
      simp [hperm, hro, hone, hrange] at hbad
  · intro hcaught
    have hnone : ¬ s.StoreAllowed modes → s.loadStoreIn.write = false := by
      intro hnot
      rw [hwrite, hfault]
      rcases hcaught.refused hnot hperm with hk | ha | hf
      · rw [hk, Bool.not_true, Bool.and_false]
      · rw [ha, Bool.and_false, Bool.false_and, Bool.false_and]
      · rw [hf, Bool.not_true, Bool.and_false, Bool.false_and]
    constructor
    case written =>
      intro hall
      apply h.dspm_next
      rw [hwrite, hfault, hperm, hall.mode, hall.aligned, hall.inRange, hall.alive]
      simp
    case kept => exact fun hnot => (memories_kept (hnone hnot)).1
    case ispm => exact h.ispm_next
    case trapped =>
      intro hnot hkill
      obtain ⟨htraps, hcause⟩ := h.traps_iff hdec hprot hkill
      have htrap : s.exeException = true := by
        apply htraps.mpr
        rw [hmis, hfault]
        rcases hcaught.refused hnot hperm with hk | ha | hf
        · exact Bool.noConfusion (hkill.symm.trans hk)
        · exact .inl (by rw [ha, Bool.not_false])
        · exact .inr hf
      exact ⟨htrap, hcause htrap⟩

end CoreState

/-! ## Section 5: Modes written through the CSR -/

variable {D : DecodeLogic conf} {sys : Nat → SystemState conf} {pins : Nat → Pins conf}

/-- The modes are written to `dMemProtection` in cycle `a` and not rewritten
    before cycle `e`. -/
structure ModesWritten (sys : Nat → SystemState conf) (modes : Fin 8 → MempMode)
    (a e : Nat) : Prop where
  before : a < e
  writes : (sys a).core.writesCsr CSRs.dMemProtection = true
  word : (sys a).core.csrWord = toBits fun r => (modes r).toBits
  kept : ∀ c, a < c → c < e → (sys c).core.writesCsr CSRs.dMemProtection = false

/-- The registers hold the modes from the write on. -/
theorem ModesWritten.dmemProtection {modes : Fin 8 → MempMode} {a e : Nat}
    (h : ModesWritten sys modes a e) (hrun : SystemRun D sys pins)
    (hprot : conf.memProtection = true) (r : Fin 8) :
    (sys e).core.csr.regDmemProtection r = (modes r).toBits := by
  have hnext : ∀ c, (sys (c + 1)).core.csr.regDmemProtection =
      if (sys c).core.writesCsr CSRs.dMemProtection then
        fun r => field (sys c).core.csrWord 4 r.val
      else (sys c).core.csr.regDmemProtection := by
    intro c
    rw [hrun.core_next]
    show (if conf.memProtection && (sys c).core.writesCsr CSRs.dMemProtection then _ else _) = _
    rw [hprot, Bool.true_and]
    rfl
  obtain ⟨n, hn⟩ := Nat.exists_eq_add_of_lt h.before
  have hkept := h.kept
  rw [hn] at hkept ⊢
  clear hn
  induction n with
  | zero =>
    rw [Nat.add_zero, hnext, if_pos h.writes, h.word]
    exact field_toBits (n := 8) (w := 4) (by decide) (fun r => (modes r).toBits) r
  | succ n ih =>
    have hstep := hkept (a + n + 1) (by omega) (by omega)
    rw [← Nat.add_assoc, hnext, hstep, if_neg Bool.false_ne_true]
    exact ih fun c hac hce => hkept c hac (by omega)

/-- **Memory protection** with the modes of the OS header holds for a store
    exactly when the store is caught or allowed. -/
theorem storeChecked_iff (D : DecodeLogic conf) (sys : Nat → SystemState conf)
    (pins : Nat → Pins conf) (h : SystemRun D sys pins) (hthreads : conf.threads = 8)
    (hprot : conf.memProtection = true) (modes : Fin 8 → MempMode) (a e : Nat)
    (hmodes : ModesWritten sys modes a e) (hstore : (sys e).core.StoresData) :
    CoreState.StoreChecked D ((sys e).coreIn (pins e)) (sys e).core modes ↔
      (sys e).core.StoreCaught modes := by
  have hdec : CoreState.ExeDecoded D (sys e).core := h.core.exeDecoded e
  exact CoreState.storeChecked_iff_caught hstore hdec hthreads hprot
    (hmodes.dmemProtection h hprot)

/-- The configuration `8tf-16i-16d-all`. -/
def conf8tAll : FlexpretConfiguration where
  threads := 8
  flex := true
  iMemKB := 16
  dMemKB := 16
  mul := false
  features := .all
  threads_pos := Nat.zero_lt_succ 7
  threads_le := by decide

/-- Thread 0 makes the threads active and gives the only slot to thread 1; each
    then marks the first region by the word given and stores to it. -/
def markAndStore (mark : BitVec 32) (a : Nat) : BitVec 32 :=
  if a = 0 then 0x50405073 else if a = 1 then 0xff100093 else if a = 2 then 0x50309073
  else if a = 3 then mark else if a = 4 then 0x20000137 else if a = 5 then 0x00212023 else 0x13

/-- `csrrwi dMemProtection, MEMP_T1` and `csrrwi dMemProtection, MEMP_RO`. -/
def markT1 : BitVec 32 := 0x50c0d073
def markRO : BitVec 32 := 0x50c4d073

/-- The first region has the mode, and thread 0 the others. -/
def firstRegion (mode : MempMode) (r : Fin 8) : MempMode := if r = 0 then mode else .thread 0

def markRun (mark : BitVec 32) : Nat → SystemState conf8tAll :=
  Machine.trace (fun s p => SystemState.next s (DecodeLogic.zeros conf8tAll) p)
    (systemZero conf8tAll (markAndStore mark)) fun _ => noPins conf8tAll

def markThread (c : Nat) : conf8tAll.Tid := if c ≤ 6 then (0 : Fin 8) else (1 : Fin 8)

def markIssues (mark : BitVec 32) : Nat → CoreState conf8tAll :=
  SystemRun.issueRun (DecodeLogic.zeros conf8tAll) (coreZero conf8tAll (markAndStore mark))
    markThread (fun _ => true) fun _ => noPins conf8tAll

theorem markRun_systemRun (mark : BitVec 32) :
    SystemRun (DecodeLogic.zeros conf8tAll) (markRun mark) fun _ => noPins conf8tAll :=
  systemRun_trace _ _ _

/-- The word gives the first region the mode. -/
def Marks (mark : BitVec 32) (mode : MempMode) : Prop :=
  (mark = markT1 ∧ mode = .thread 1) ∨ (mark = markRO ∧ mode = .readOnly)

/-- Thread 1 marks the first region in cycle 14 and stores to it in cycle 16. -/
theorem markIssues_facts {mark : BitVec 32} {mode : MempMode} (hmark : Marks mark mode) :
    (∀ c, c < 16 → SystemRun.Issues (markIssues mark c) (if c ≤ 7 then 7 else 0)
      (if c + 1 ≤ 7 then 7 else 0) (markThread c) true) ∧
    ((markIssues mark 14).writesCsr CSRs.dMemProtection = true ∧
      (markIssues mark 14).csrWord = toBits (fun r => (firstRegion mode r).toBits) ∧
      (markIssues mark 15).writesCsr CSRs.dMemProtection = false) ∧
    ((markIssues mark 16).exeReg.valid = true ∧ (markIssues mark 16).exeReg.sig.store = true ∧
      dmemOp (markIssues mark 16).exeAddress = true) ∧
    ((markIssues mark 16).exeReg.tid.val = 1 ∧
      (markIssues mark 16).storeMode (firstRegion mode) = mode ∧
      (markIssues mark 16).loadStoreIn.inRange = true ∧
      (markIssues mark 16).exeKill = false ∧ (markIssues mark 16).exeException = false) := by
  rcases hmark with ⟨rfl, rfl⟩ | ⟨rfl, rfl⟩
  · decide +kernel
  · decide +kernel

theorem markRun_core {mark : BitVec 32} {mode : MempMode} (hmark : Marks mark mode) (c : Nat)
    (hc : c ≤ 16) : (markRun mark c).core = markIssues mark c :=
  ((markRun_systemRun mark).issue_run (by decide) rfl (fun c => if c ≤ 7 then 7 else 0)
    markThread (fun _ => true) (markIssues_facts hmark).1 c hc).1

theorem markRun_modesWritten {mark : BitVec 32} {mode : MempMode} (hmark : Marks mark mode) :
    ModesWritten (markRun mark) (firstRegion mode) 14 16 ∧ (markRun mark 16).core.StoresData := by
  have hcore := markRun_core hmark
  obtain ⟨-, ⟨hwrites, hword, hkept⟩, ⟨hvalid, hstore, hdspm⟩, -⟩ := markIssues_facts hmark
  constructor
  · constructor
    case before => decide
    case writes =>
      rw [hcore 14 (by decide)]
      exact hwrites
    case word =>
      rw [hcore 14 (by decide)]
      exact hword
    case kept =>
      intro c hc hc'
      obtain rfl : c = 15 := by omega
      rw [hcore 15 (by decide)]
      exact hkept
  · rw [hcore 16 (by decide)]
    exact ⟨hvalid, hstore, hdspm⟩

/-- A region of thread 1 takes its store. -/
theorem markRun_t1_checked :
    CoreState.StoreChecked (DecodeLogic.zeros conf8tAll)
      ((markRun markT1 16).coreIn (noPins conf8tAll)) (markRun markT1 16).core
      (firstRegion (.thread 1)) := by
  have hmark : Marks markT1 (.thread 1) := .inl ⟨rfl, rfl⟩
  obtain ⟨hmodes, hstore⟩ := markRun_modesWritten hmark
  obtain ⟨-, -, -, htid, hmode, hrange, -⟩ := markIssues_facts hmark
  refine (storeChecked_iff _ _ _ (markRun_systemRun markT1) rfl rfl _ 14 16 hmodes hstore).mpr ?_
  refine .inr (.inr (.inl ?_))
  rw [markRun_core hmark 16 (by decide), hmode, htid]
  exact ⟨rfl, hrange⟩

/-- A region that is marked read-only takes the store of thread 1 as well. -/
theorem markRun_ro_not_checked :
    SystemRun (DecodeLogic.zeros conf8tAll) (markRun markRO) (fun _ => noPins conf8tAll) ∧
      ModesWritten (markRun markRO) (firstRegion .readOnly) 14 16 ∧
      (markRun markRO 16).core.StoresData ∧
      ¬ CoreState.StoreChecked (DecodeLogic.zeros conf8tAll)
        ((markRun markRO 16).coreIn (noPins conf8tAll)) (markRun markRO 16).core
        (firstRegion .readOnly) := by
  have hmark : Marks markRO .readOnly := .inr ⟨rfl, rfl⟩
  obtain ⟨hmodes, hstore⟩ := markRun_modesWritten hmark
  obtain ⟨-, -, -, -, hmode, -, hkill, hexception⟩ := markIssues_facts hmark
  rw [← markRun_core hmark 16 (by decide)] at hmode hkill hexception
  refine ⟨markRun_systemRun markRO, hmodes, hstore, fun hchecked => ?_⟩
  have hrefused : ¬ (markRun markRO 16).core.StoreAllowed (firstRegion .readOnly) := by
    intro hall
    have hallows := hall.mode
    rw [hmode] at hallows
    exact Bool.noConfusion hallows
  exact Bool.noConfusion ((hchecked.trapped hrefused hkill).1.symm.trans hexception)

end Flexpret.Core
