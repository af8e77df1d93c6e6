import Flexpret.Core.Exceptions
import Flexpret.Lib.Transition

/-! # Delivery of Timer Exceptions and Timer Interrupts

    `EE` and `IE` arm the comparator of their thread.  An expired timer
    exception shows for one instruction only.  An expired timer interrupt is
    kept in `reg_mtie`, which any write to the status register replaces by bit
    26 of the word, while reads find it in bit 30.
-/

open Transition

namespace Flexpret.Core

variable {conf : FlexpretConfiguration}

/-! ## Section 1: What an instruction does to the timer -/

namespace CoreState

variable (s : CoreState conf) (t : conf.Tid)

/-- The instruction in execute commits a write to the CSR. -/
def writesCsr (csr : BitVec 12) : Bool :=
  s.exeReg.sig.csr && s.exeReg.valid && !s.exeKill && s.exeReg.csrAddr = csr

/-- The word it writes. -/
def csrWord : BitVec 32 :=
  let dataOut := s.csr.dataOut s.exeReg.csrAddr s.exeReg.tid
  if s.exeReg.sig.csrType = csrS then dataOut ||| s.exeReg.csrData
  else if s.exeReg.sig.csrType = csrC then dataOut &&& ~~~s.exeReg.csrData
  else s.exeReg.csrData

/-- `IE` is committed. -/
def exeIe : Bool := conf.interruptExpire && s.exeValid && s.exeReg.ie

/-- `EE` is committed. -/
def exeEe : Bool := conf.interruptExpire && s.exeValid && s.exeReg.ee

/-- The instruction of `t` in execute arms the timer. -/
def arms : TimerMode → Bool
  | .ie => s.exeIe && s.exeReg.tid = t
  | .ee => s.exeEe && s.exeReg.tid = t
  | _ => false

/-- The instruction in execute uses the comparator for something else. -/
def changesTimer : Bool :=
  s.writesCsr CSRs.compare || s.exeSleep || s.exeIe || s.exeEe

/-- The time has come to the compare value of `t`. -/
def timeReached : Bool := reached s.csr.time32 (s.csr.regCompare t)

/-- A valid instruction of `t` finds its comparator used for this, and the time
    come. -/
def expires (m : TimerMode) : Bool :=
  s.inExe t && s.csr.regTimer t = m && s.timeReached t

variable (i : CoreIn conf)

theorem csrIn_writes (csr : BitVec 12) : (s.csrIn i).writes csr = s.writesCsr csr := rfl

theorem csrIn_dataIn : s.csr.dataIn (s.csrIn i) = s.csrWord := rfl

variable {s t i} {D : DecodeLogic conf}

/-- What only a valid instruction does is not done to `t` while none of `t` is
    in execute. -/
theorem not_here {c : Bool} (hexe : s.inExe t = false)
    (hc : c = true → s.exeReg.valid = true) : (c && decide (s.exeReg.tid = t)) = false := by
  rw [Bool.eq_false_iff]
  intro h
  simp only [Bool.and_eq_true, decide_eq_true_eq] at h
  rw [inExe_iff.mpr ⟨hc h.1, h.2⟩] at hexe
  exact Bool.noConfusion hexe

theorem valid_of_writesCsr {csr : BitVec 12} (h : s.writesCsr csr = true) :
    s.exeReg.valid = true := by
  simp only [writesCsr, Bool.and_eq_true] at h
  exact h.1.1.2

theorem valid_of_exeIe (h : s.exeIe = true) : s.exeReg.valid = true := by
  simp only [exeIe, Bool.and_eq_true] at h
  exact exeReg_valid_of_valid h.1.2

theorem valid_of_exeEe (h : s.exeEe = true) : s.exeReg.valid = true := by
  simp only [exeEe, Bool.and_eq_true] at h
  exact exeReg_valid_of_valid h.1.2

theorem valid_of_exeSleep (h : s.exeSleep = true) : s.exeReg.valid = true := by
  simp only [exeSleep, Bool.and_eq_true] at h
  exact exeReg_valid_of_du h.1

theorem expired_self (hconf : conf.interruptExpire = true) :
    s.csr.expired t t = s.timeReached t := by
  simp [CsrState.expired, hconf, timeReached]

/-- The timer exception of `t`. -/
theorem excExpire_iff (hconf : conf.interruptExpire = true) {valid : Bool} :
    s.csr.excExpire t valid = true ↔
      valid = true ∧ s.csr.regTimer t = .ee ∧ s.timeReached t = true := by
  simp [CsrState.excExpire, hconf, expired_self, and_assoc]

/-- The timer interrupt of `t` becomes pending. -/
theorem mtieSet_iff (hconf : conf.interruptExpire = true) {valid : Bool} :
    s.csr.mtieSet t valid = true ↔
      valid = true ∧ s.csr.regTimer t = .ie ∧ s.timeReached t = true := by
  simp [CsrState.mtieSet, hconf, expired_self, and_assoc]

/-- A timer exception lets the instruction commit nothing. -/
theorem idle_of_excExpire (hconf : conf.interruptExpire = true) (hexe : s.inExe t = true)
    (hexp : s.csr.excExpire t s.exeReg.valid = true) :
    s.exeKill = true ∧ s.exeValid = false := by
  have hany : s.exeAnyExc.1 = true := by
    rw [exeAnyExc_eq hconf, (inExe_iff.mp hexe).2, hexp]
    simp
  have htraps := traps_of_anyExc hconf hexe hany
  simp only [traps, Bool.and_eq_true] at htraps
  exact ⟨by simp [exeKill, hany], by simp [exeValid, htraps.1]⟩

/-! ## Section 2: The timer after the cycle -/

theorem next_regTimer_of_not_inExe (hexe : s.inExe t = false) :
    (s.next D i).csr.regTimer t =
      if s.csr.delayOver (s.csrIn i) t then .off else s.csr.regTimer t := by
  have hwrites : ((conf.delayUntil || conf.interruptExpire) &&
      (s.csrIn i).writes CSRs.compare && decide (s.exeReg.tid = t)) = false :=
    not_here hexe fun h => valid_of_writesCsr (Bool.and_eq_true_iff.mp h).2
  have hsleep : (conf.delayUntil && (s.csrIn i).sleep && decide (s.exeReg.tid = t)) = false :=
    not_here hexe fun h => valid_of_exeSleep (Bool.and_eq_true_iff.mp h).2
  have hee : (conf.interruptExpire && (s.csrIn i).ee && decide (s.exeReg.tid = t)) = false :=
    not_here hexe fun h => valid_of_exeEe (Bool.and_eq_true_iff.mp h).2
  have hie : (conf.interruptExpire && (s.csrIn i).ie && decide (s.exeReg.tid = t)) = false :=
    not_here hexe fun h => valid_of_exeIe (Bool.and_eq_true_iff.mp h).2
  have hexc : (s.csr.excExpire s.exeReg.tid s.exeReg.valid && decide (s.exeReg.tid = t)) =
      false := by
    refine not_here hexe fun h => ?_
    simp only [CsrState.excExpire, Bool.and_eq_true] at h
    exact h.1.1.2
  have hmtie : (s.csr.mtieSet s.exeReg.tid s.exeReg.valid && decide (s.exeReg.tid = t)) =
      false := by
    refine not_here hexe fun h => ?_
    simp only [CsrState.mtieSet, Bool.and_eq_true] at h
    exact h.1.1.2
  show s.csr.nextTimer (s.csrIn i) t = _
  simp only [CsrState.nextTimer, assign_apply]
  show (if s.csr.mtieSet s.exeReg.tid s.exeReg.valid && decide (s.exeReg.tid = t) then _ else _) = _
  rw [hmtie, if_neg Bool.false_ne_true]
  show (if conf.interruptExpire && (s.csrIn i).ie && decide (s.exeReg.tid = t) then _ else _) = _
  rw [hie, if_neg Bool.false_ne_true]
  show (if s.csr.excExpire s.exeReg.tid s.exeReg.valid && decide (s.exeReg.tid = t) then _
    else _) = _
  rw [hexc, if_neg Bool.false_ne_true]
  show (if conf.interruptExpire && (s.csrIn i).ee && decide (s.exeReg.tid = t) then _ else _) = _
  rw [hee, if_neg Bool.false_ne_true]
  split
  · rfl
  · show (if conf.delayUntil && (s.csrIn i).sleep && decide (s.exeReg.tid = t) then _ else _) = _
    rw [hsleep, if_neg Bool.false_ne_true]
    show (if (conf.delayUntil || conf.interruptExpire) && (s.csrIn i).writes CSRs.compare &&
      decide (s.exeReg.tid = t) then _ else _) = _
    rw [hwrites, if_neg Bool.false_ne_true]

theorem next_regTimer_of_inExe (hconf : conf.interruptExpire = true)
    (hexe : s.inExe t = true) :
    (s.next D i).csr.regTimer t =
      if s.expires t .ie then .off
      else if s.exeIe then .ie
      else if s.expires t .ee then .off
      else if s.exeEe then .ee
      else if s.csr.delayOver (s.csrIn i) t then .off
      else if s.exeSleep then .duWu
      else if s.writesCsr CSRs.compare then .off
      else s.csr.regTimer t := by
  obtain ⟨hvalid, htid⟩ := inExe_iff.mp hexe
  have hdu : conf.delayUntil = true := hconf
  have hmtie : s.csr.mtieSet s.exeReg.tid s.exeReg.valid = s.expires t .ie := by
    rw [Bool.eq_iff_iff, htid, mtieSet_iff hconf]
    simp [expires, hexe, hvalid]
  have hexc : s.csr.excExpire s.exeReg.tid s.exeReg.valid = s.expires t .ee := by
    rw [Bool.eq_iff_iff, htid, excExpire_iff hconf]
    simp [expires, hexe, hvalid]
  show s.csr.nextTimer (s.csrIn i) t = _
  simp only [CsrState.nextTimer, assign_apply]
  show (if s.csr.mtieSet s.exeReg.tid s.exeReg.valid && decide (s.exeReg.tid = t) then _
    else if conf.interruptExpire && s.exeIe && decide (s.exeReg.tid = t) then _
    else if s.csr.excExpire s.exeReg.tid s.exeReg.valid && decide (s.exeReg.tid = t) then _
    else if conf.interruptExpire && s.exeEe && decide (s.exeReg.tid = t) then _
    else if s.csr.delayOver (s.csrIn i) t then _
    else if conf.delayUntil && s.exeSleep && decide (s.exeReg.tid = t) then _
    else if (conf.delayUntil || conf.interruptExpire) && s.writesCsr CSRs.compare &&
      decide (s.exeReg.tid = t) then _
    else _) = _
  rw [hmtie, hexc]
  simp only [hconf, hdu, htid, decide_true, Bool.and_true, Bool.true_and, Bool.or_self]

/-- No instruction arms the timer while its interrupt expires. -/
def ArmsApart (s : CoreState conf) (t : conf.Tid) : Prop :=
  s.expires t .ie = true → s.exeIe = false ∧ s.exeEe = false

/-- **The timer after the cycle**: it is used for timer interrupts or timer
    exceptions when the instruction of `t` arms it so, or when it was and the
    instruction of `t` neither finds the time come nor changes it. -/
theorem next_regTimer_iff (hconf : conf.interruptExpire = true)
    (hone : ¬ (s.exeIe = true ∧ s.exeEe = true)) (hapart : s.ArmsApart t) {m : TimerMode}
    (hm : m = .ie ∨ m = .ee) :
    (s.next D i).csr.regTimer t = m ↔
      s.arms t m = true ∨ (s.csr.regTimer t = m ∧
        (s.inExe t = true → s.timeReached t = false ∧ s.changesTimer = false)) := by
  cases hexe : s.inExe t with
  | false =>
    have harms : s.arms t m = false := by
      rw [Bool.eq_false_iff]
      intro h
      have hvalid : s.exeReg.valid = true ∧ s.exeReg.tid = t := by
        rcases hm with rfl | rfl
        · simp only [arms, Bool.and_eq_true, decide_eq_true_eq] at h
          exact ⟨valid_of_exeIe h.1, h.2⟩
        · simp only [arms, Bool.and_eq_true, decide_eq_true_eq] at h
          exact ⟨valid_of_exeEe h.1, h.2⟩
      rw [inExe_iff.mpr hvalid] at hexe
      exact Bool.noConfusion hexe
    rw [next_regTimer_of_not_inExe hexe, harms]
    -- a delay is over only while the timer is used for it
    have hdelay : s.csr.regTimer t = m → s.csr.delayOver (s.csrIn i) t = false := by
      intro htimer
      rcases hm with rfl | rfl <;> simp [CsrState.delayOver, htimer]
    cases hover : s.csr.delayOver (s.csrIn i) t with
    | true =>
      have hne : s.csr.regTimer t ≠ m := fun htimer => by
        rw [hdelay htimer] at hover
        exact Bool.noConfusion hover
      rcases hm with rfl | rfl <;> simp [hne]
    | false => simp
  | true =>
    obtain ⟨hvalid, htid⟩ := inExe_iff.mp hexe
    have harms : s.arms t m = if m = .ie then s.exeIe else s.exeEe := by
      rcases hm with rfl | rfl <;> simp [arms, htid]
    rw [next_regTimer_of_inExe hconf hexe, harms]
    -- an expired timer lets nothing be armed, by the trap or by assumption
    have hie : s.expires t .ie = true → s.exeIe = false ∧ s.exeEe = false := hapart
    have hee : s.expires t .ee = true → s.exeIe = false ∧ s.exeEe = false := by
      intro h
      have hexp : s.csr.excExpire t s.exeReg.valid = true := by
        simp only [expires, Bool.and_eq_true, decide_eq_true_eq] at h
        exact (excExpire_iff hconf).mpr ⟨hvalid, h.1.2, h.2⟩
      have hidle := (idle_of_excExpire hconf hexe hexp).2
      simp [exeIe, exeEe, hidle]
    cases hexpIe : s.expires t .ie with
    | true =>
      obtain ⟨hnoIe, hnoEe⟩ := hie hexpIe
      simp only [expires, Bool.and_eq_true, decide_eq_true_eq] at hexpIe
      rcases hm with rfl | rfl <;> simp [hnoIe, hnoEe, hexpIe.2]
    | false =>
      cases hexpEe : s.expires t .ee with
      | true =>
        obtain ⟨hnoIe, hnoEe⟩ := hee hexpEe
        simp only [expires, Bool.and_eq_true, decide_eq_true_eq] at hexpEe
        rcases hm with rfl | rfl <;> simp [hnoIe, hnoEe, hexpEe.2]
      | false =>
        -- the timer does not expire, so it keeps its use unless it is changed
        have hnot : s.csr.regTimer t = m → s.timeReached t = false := by
          intro htimer
          rcases hm with rfl | rfl
          · simpa [expires, hexe, htimer] using hexpIe
          · simpa [expires, hexe, htimer] using hexpEe
        have hover : s.csr.regTimer t = m → s.csr.delayOver (s.csrIn i) t = false := by
          intro htimer
          rcases hm with rfl | rfl <;> simp [CsrState.delayOver, htimer]
        by_cases htimer : s.csr.regTimer t = m
        · simp only [changesTimer, htimer, hnot htimer, hover htimer]
          rcases hm with rfl | rfl <;> cases hi : s.exeIe <;> cases he : s.exeEe <;>
            cases s.exeSleep <;> cases s.writesCsr CSRs.compare <;> simp [hi, he] at hone ⊢
        · rcases hm with rfl | rfl <;> cases hi : s.exeIe <;> cases he : s.exeEe <;>
            cases s.exeSleep <;> cases s.writesCsr CSRs.compare <;>
            cases s.csr.delayOver (s.csrIn i) t <;> simp [hi, he, htimer] at hone ⊢

/-! ## Section 3: The pending bit and the interrupt enable after the cycle -/

theorem next_regMtie (hconf : conf.interruptExpire = true) :
    (s.next D i).csr.regMtie t =
      if s.expires t .ie then true
      else if s.inExe t && s.writesCsr CSRs.status then s.csrWord.getLsbD 26
      else s.csr.regMtie t := by
  have hset : (s.csr.mtieSet s.exeReg.tid s.exeReg.valid && decide (s.exeReg.tid = t)) =
      s.expires t .ie := by
    by_cases htid : s.exeReg.tid = t
    · rw [Bool.eq_iff_iff, htid, Bool.and_eq_true, mtieSet_iff hconf]
      simp [expires, inExe, htid, and_assoc]
    · simp [expires, inExe, htid]
  have hwrite : (conf.interruptExpire && (s.csrIn i).writes CSRs.status &&
      decide (s.exeReg.tid = t)) = (s.inExe t && s.writesCsr CSRs.status) := by
    rw [csrIn_writes, hconf, Bool.true_and]
    cases hstatus : s.writesCsr CSRs.status with
    | true => simp [inExe, valid_of_writesCsr hstatus]
    | false => simp
  show s.csr.nextMtie (s.csrIn i) t = _
  simp only [CsrState.nextMtie, assign_apply]
  show (if s.csr.mtieSet s.exeReg.tid s.exeReg.valid && decide (s.exeReg.tid = t) then _
    else if conf.interruptExpire && (s.csrIn i).writes CSRs.status &&
      decide (s.exeReg.tid = t) then _ else _) = _
  rw [hset, hwrite]
  rfl

/-- A trap of any thread disables the interrupts of `t`. -/
theorem next_regIe (hconf : conf.interruptExpire = true) :
    (s.next D i).csr.regIe t =
      if s.exeException then false
      else if s.inExe t && s.writesCsr CSRs.status then s.csrWord.getLsbD 4
      else s.csr.regIe t := by
  have hwrite : (conf.exceptions && (s.csrIn i).writes CSRs.status &&
      decide (s.exeReg.tid = t)) = (s.inExe t && s.writesCsr CSRs.status) := by
    rw [csrIn_writes, exceptions_of_interruptExpire hconf, Bool.true_and]
    cases hstatus : s.writesCsr CSRs.status with
    | true => simp [inExe, valid_of_writesCsr hstatus]
    | false => simp
  show s.csr.nextIe (s.csrIn i) t = _
  simp only [CsrState.nextIe]
  show (if s.exeException then fun _ => false else _) t = _
  split
  · rfl
  · rw [assign_apply]
    show (if conf.exceptions && (s.csrIn i).writes CSRs.status &&
      decide (s.exeReg.tid = t) then _ else _) = _
    rw [hwrite]
    rfl

/-! ## Section 4: What may be taken -/

/-- The timer exception or timer interrupt is permitted at the instruction of
    `t` in execute: the instruction is sound, no missed deadline comes first,
    and for the interrupt, interrupts are enabled and no timer exception comes
    first. -/
def Permitted (s : CoreState conf) (t : conf.Tid) : TimerMode → Prop
  | .ee => s.inExe t = true ∧ s.NoOwnException t
  | .ie => s.inExe t = true ∧ s.NoOwnException t ∧ s.csr.regIe t = true ∧
      s.expires t .ee = false
  | _ => False

theorem excExpire_eq_expires (hconf : conf.interruptExpire = true) (hexe : s.inExe t = true) :
    s.csr.excExpire t s.exeReg.valid = s.expires t .ee := by
  rw [Bool.eq_iff_iff, excExpire_iff hconf]
  simp [expires, hexe, (inExe_iff.mp hexe).1]

theorem takes_ee_iff_expires (hconf : conf.interruptExpire = true)
    (hcause : s.exeReg.cause ∉ asyncCauses) :
    s.takes Causes.ee t = true ↔ s.Permitted t .ee ∧ s.expires t .ee = true := by
  rw [takes_ee_iff hconf hcause]
  constructor
  · intro ⟨hexe, hown, hexp⟩
    exact ⟨⟨hexe, hown⟩, (excExpire_eq_expires hconf hexe).symm.trans hexp⟩
  · intro ⟨⟨hexe, hown⟩, hexp⟩
    exact ⟨hexe, hown, (excExpire_eq_expires hconf hexe).trans hexp⟩

theorem takes_ie_iff_expires (hconf : conf.interruptExpire = true)
    (hcause : s.exeReg.cause ∉ asyncCauses) :
    s.takes Causes.ie t = true ↔
      s.Permitted t .ie ∧ (s.csr.regMtie t = true ∨ s.expires t .ie = true) := by
  rw [takes_ie_iff hconf hcause]
  have hset : s.inExe t = true → s.csr.mtieSet t s.exeReg.valid = s.expires t .ie := by
    intro hexe
    rw [Bool.eq_iff_iff, mtieSet_iff hconf]
    simp [expires, hexe, (inExe_iff.mp hexe).1]
  constructor
  · intro ⟨hexe, hown, hee, hint⟩
    simp only [CsrState.intExpire, hconf, hset hexe, Bool.true_and, Bool.and_eq_true,
      Bool.or_eq_true] at hint
    exact ⟨⟨hexe, hown, hint.1, (excExpire_eq_expires hconf hexe).symm.trans hee⟩, hint.2⟩
  · intro ⟨⟨hexe, hown, hie, hee⟩, hpending⟩
    refine ⟨hexe, hown, (excExpire_eq_expires hconf hexe).trans hee, ?_⟩
    simp only [CsrState.intExpire, hconf, hset hexe, hie, Bool.true_and, Bool.or_eq_true]
    exact hpending

theorem exception_of_takes {c : Cause} (h : s.takes c t = true) : s.exeException = true := by
  simp only [takes, traps, Bool.and_eq_true] at h
  exact h.1.1

end CoreState

/-! ## Section 5: Expiry and delivery over a run -/

section runs

variable {D : DecodeLogic conf} {st : Nat → CoreState conf} {inp : Nat → CoreIn conf}
  {t : conf.Tid} {m : TimerMode} {c : Nat}

/-- The timer armed in cycle `a` is still armed in cycle `e`: no instruction of
    `t` in between has found the time come or has changed the timer. -/
structure ArmedSince (st : Nat → CoreState conf) (t : conf.Tid) (m : TimerMode) (a e : Nat) :
    Prop where
  arms : (st a).arms t m = true
  order : a < e
  kept : ∀ j, a < j → j < e → (st j).inExe t = true →
    (st j).timeReached t = false ∧ (st j).changesTimer = false

/-- **Expiry**: a valid instruction of `t` in cycle `e` is the first to find
    the time come to the compare value of a timer that is still armed. -/
structure Expiry (st : Nat → CoreState conf) (t : conf.Tid) (m : TimerMode) (e : Nat) :
    Prop where
  armed : ∃ a, ArmedSince st t m a e
  exe : (st e).inExe t = true
  reached : (st e).timeReached t = true

/-- `c` is the first cycle from `e` on in which the trap is permitted. -/
structure FirstPermitted (st : Nat → CoreState conf) (t : conf.Tid) (m : TimerMode)
    (e c : Nat) : Prop where
  order : e ≤ c
  permitted : (st c).Permitted t m
  first : ∀ j, e ≤ j → j < c → ¬ (st j).Permitted t m

/-- An expired timer interrupt has not been permitted before cycle `c`. -/
def Waiting (st : Nat → CoreState conf) (t : conf.Tid) (c : Nat) : Prop :=
  ∃ e, e < c ∧ Expiry st t .ie e ∧ ∀ j, e ≤ j → j < c → ¬ (st j).Permitted t .ie

/-- The cause of the trap. -/
def timerCause : TimerMode → Cause
  | .ie => Causes.ie
  | _ => Causes.ee

/-- **Delivery exactly once** up to cycle `n`. -/
structure DeliveredOnce (st : Nat → CoreState conf) (t : conf.Tid) (m : TimerMode) (n : Nat) :
    Prop where
  /-- An expired timer is taken at the first instruction at which it is
      permitted. -/
  taken : ∀ e c, c ≤ n → Expiry st t m e → FirstPermitted st t m e c →
    (st c).takes (timerCause m) t = true
  /-- And, until the timer is armed anew and expires again, at no other. -/
  once : ∀ e c c', c ≤ n → c' ≤ n → Expiry st t m e → FirstPermitted st t m e c → e ≤ c' →
    (∀ e', e < e' → e' ≤ c' → ¬ Expiry st t m e') → (st c').takes (timerCause m) t = true →
    c' = c
  /-- Nothing is taken that has not expired. -/
  expired : ∀ c, c ≤ n → (st c).takes (timerCause m) t = true →
    ∃ e, Expiry st t m e ∧ FirstPermitted st t m e c

/-- **The condition** on cycle `c`. -/
structure TimerSafe (st : Nat → CoreState conf) (t : conf.Tid) (c : Nat) : Prop where
  /-- The instruction that finds a timer exception expired is permitted to
      take it. -/
  ee : (st c).expires t .ee = true → (st c).NoOwnException t
  /-- No instruction arms the timer while its interrupt expires. -/
  apart : (st c).ArmsApart t
  /-- A word written to the status register has bit 26 set just when an
      expired interrupt waits. -/
  status : (st c).inExe t = true → (st c).writesCsr CSRs.status = true →
    (st c).expires t .ie = false → ((st c).csrWord.getLsbD 26 = true ↔ Waiting st t c)

theorem CoreRun.not_ie_ee (h : CoreRun D st inp) (c : Nat) :
    ¬ ((st c).exeIe = true ∧ (st c).exeEe = true) := by
  intro ⟨hie, hee⟩
  have hvalid := CoreState.valid_of_exeIe hie
  simp only [CoreState.exeIe, CoreState.exeEe, Bool.and_eq_true] at hie hee
  cases c with
  | zero =>
    rw [h.reset.exeValid] at hvalid
    exact Bool.noConfusion hvalid
  | succ c =>
    rw [h.next] at hie hee
    -- bit 25 of the word tells the two apart
    have hset : (st c).decReg.inst.getLsbD 25 = true := (Bool.and_eq_true_iff.mp hie.2).2
    have hclear := (Bool.and_eq_true_iff.mp hee.2).2
    rw [hset] at hclear
    exact Bool.noConfusion hclear

/-- **The timer of a run** is used for what it was last armed for. -/
theorem timer_iff (h : CoreRun D st inp) (hconf : conf.interruptExpire = true)
    (hm : m = .ie ∨ m = .ee) {e : Nat} (hsafe : ∀ j, j < e → (st j).ArmsApart t) :
    (st e).csr.regTimer t = m ↔ ∃ a, ArmedSince st t m a e := by
  induction e with
  | zero =>
    rw [h.reset.csr.timer]
    constructor
    · intro htimer
      rcases hm with rfl | rfl <;> exact TimerMode.noConfusion htimer
    · intro ⟨a, ha⟩
      exact absurd ha.order (Nat.not_lt_zero a)
  | succ e ih =>
    rw [h.next, CoreState.next_regTimer_iff hconf (h.not_ie_ee e)
      (hsafe e (Nat.lt_succ_self e)) hm, ih fun j hj => hsafe j (Nat.lt_succ_of_lt hj)]
    constructor
    · intro htimer
      rcases htimer with harms | ⟨⟨a, ha⟩, hkept⟩
      · exact ⟨e, harms, Nat.lt_succ_self e, fun j hj hj' => by omega⟩
      · refine ⟨a, ha.arms, Nat.lt_succ_of_lt ha.order, fun j hj hj' => ?_⟩
        rcases Nat.lt_succ_iff_lt_or_eq.mp hj' with hlt | rfl
        · exact ha.kept j hj hlt
        · exact hkept
    · intro ⟨a, ha⟩
      rcases Nat.lt_succ_iff_lt_or_eq.mp ha.order with hlt | rfl
      · right
        constructor
        · exact ⟨a, ha.arms, hlt, fun j hj hj' => ha.kept j hj (Nat.lt_succ_of_lt hj')⟩
        · exact ha.kept e hlt (Nat.lt_succ_self e)
      · exact .inl ha.arms

theorem expires_iff (h : CoreRun D st inp) (hconf : conf.interruptExpire = true)
    (hm : m = .ie ∨ m = .ee) {e : Nat} (hsafe : ∀ j, j < e → (st j).ArmsApart t) :
    (st e).expires t m = true ↔ Expiry st t m e := by
  simp only [CoreState.expires, Bool.and_eq_true, decide_eq_true_eq]
  rw [timer_iff h hconf hm hsafe]
  constructor
  · intro ⟨⟨hexe, harmed⟩, hreached⟩
    exact ⟨harmed, hexe, hreached⟩
  · intro hexp
    exact ⟨⟨hexp.exe, hexp.armed⟩, hexp.reached⟩

/-- **Pending invariant** at cycle `c`: the pending bit is set while an expired
    interrupt waits, and when it is set for nothing, interrupts are disabled. -/
structure PendingInv (st : Nat → CoreState conf) (t : conf.Tid) (c : Nat) : Prop where
  set : Waiting st t c → (st c).csr.regMtie t = true
  stale : (st c).csr.regMtie t = true → Waiting st t c ∨ (st c).csr.regIe t = false

theorem CoreRun.takes_ie_iff (h : CoreRun D st inp) (hconf : conf.interruptExpire = true) :
    (st c).takes Causes.ie t = true ↔ (st c).Permitted t .ie ∧
      ((st c).csr.regMtie t = true ∨ (st c).expires t .ie = true) := by
  cases hexe : (st c).inExe t with
  | true =>
    exact CoreState.takes_ie_iff_expires hconf (h.exeReg_cause (CoreState.inExe_iff.mp hexe).1)
  | false =>
    constructor
    · intro htakes
      have htraps : (st c).traps t = true := (Bool.and_eq_true_iff.mp htakes).1
      rw [CoreState.inExe_of_traps htraps] at hexe
      exact Bool.noConfusion hexe
    · intro ⟨hpermitted, _⟩
      rw [hpermitted.1] at hexe
      exact Bool.noConfusion hexe

/-- When a timer interrupt is taken. -/
theorem PendingInv.takes_ie_iff (hinv : PendingInv st t c) (h : CoreRun D st inp)
    (hconf : conf.interruptExpire = true) (hsafe : ∀ j, j < c → (st j).ArmsApart t) :
    (st c).takes Causes.ie t = true ↔
      ∃ e, Expiry st t .ie e ∧ FirstPermitted st t .ie e c := by
  rw [h.takes_ie_iff hconf, expires_iff h hconf (.inl rfl) hsafe]
  constructor
  · intro ⟨hpermitted, hpending⟩
    rcases hpending with hmtie | hexp
    · rcases hinv.stale hmtie with ⟨e, hlt, hexp, hnot⟩ | hdisabled
      · exact ⟨e, hexp, Nat.le_of_lt hlt, hpermitted, hnot⟩
      · rw [hpermitted.2.2.1] at hdisabled
        exact Bool.noConfusion hdisabled
    · exact ⟨c, hexp, Nat.le_refl c, hpermitted, fun j hj hj' => by omega⟩
  · intro ⟨e, hexp, hfirst⟩
    refine ⟨hfirst.permitted, ?_⟩
    rcases Nat.lt_or_eq_of_le hfirst.order with hlt | rfl
    · exact .inl (hinv.set ⟨e, hlt, hexp, hfirst.first⟩)
    · exact .inr hexp

theorem Waiting.succ (hwait : Waiting st t c) (hnot : ¬ (st c).Permitted t .ie) :
    Waiting st t (c + 1) := by
  obtain ⟨e, hlt, hexp, hfirst⟩ := hwait
  refine ⟨e, Nat.lt_succ_of_lt hlt, hexp, fun j hj hj' => ?_⟩
  rcases Nat.lt_succ_iff_lt_or_eq.mp hj' with hlt' | rfl
  · exact hfirst j hj hlt'
  · exact hnot

/-- What waits after a cycle has expired in it or waited before. -/
theorem Waiting.pred (hwait : Waiting st t (c + 1)) :
    (Expiry st t .ie c ∨ Waiting st t c) ∧ ¬ (st c).Permitted t .ie := by
  obtain ⟨e, hlt, hexp, hfirst⟩ := hwait
  have hnot := hfirst c (Nat.le_of_lt_succ hlt) (Nat.lt_succ_self c)
  rcases Nat.lt_succ_iff_lt_or_eq.mp hlt with hlt' | rfl
  · exact ⟨.inr ⟨e, hlt', hexp, fun j hj hj' => hfirst j hj (Nat.lt_succ_of_lt hj')⟩, hnot⟩
  · exact ⟨.inl hexp, hnot⟩

/-- **One cycle** keeps the pending invariant. -/
theorem PendingInv.next (hinv : PendingInv st t c) (h : CoreRun D st inp)
    (hconf : conf.interruptExpire = true) (hsafe : ∀ j, j ≤ c → (st j).ArmsApart t)
    (hstatus : (st c).inExe t = true → (st c).writesCsr CSRs.status = true →
      (st c).expires t .ie = false → ((st c).csrWord.getLsbD 26 = true ↔ Waiting st t c)) :
    PendingInv st t (c + 1) := by
  have hexpires := expires_iff (t := t) h hconf (.inl rfl) fun j hj => hsafe j (Nat.le_of_lt hj)
  -- what is permitted and pending is taken, which disables the interrupts
  have htaken : (st c).Permitted t .ie →
      (st c).csr.regMtie t = true ∨ (st c).expires t .ie = true →
      (st c).exeException = true := fun hpermitted hpending =>
    CoreState.exception_of_takes ((h.takes_ie_iff hconf).mpr ⟨hpermitted, hpending⟩)
  constructor
  · intro hwait
    obtain ⟨hbefore, hnot⟩ := hwait.pred
    rw [h.next, CoreState.next_regMtie hconf]
    cases hexp : (st c).expires t .ie with
    | true => rfl
    | false =>
      have hwaits : Waiting st t c := by
        rcases hbefore with hnow | hwaits
        · rw [hexpires.mpr hnow] at hexp
          exact Bool.noConfusion hexp
        · exact hwaits
      cases hwrite : (st c).inExe t && (st c).writesCsr CSRs.status with
      | true =>
        obtain ⟨hexe, hwrites⟩ := Bool.and_eq_true_iff.mp hwrite
        exact (hstatus hexe hwrites hexp).mpr hwaits
      | false => exact hinv.set hwaits
  · rw [h.next, CoreState.next_regMtie hconf, CoreState.next_regIe hconf]
    intro hmtie
    by_cases hexc : (st c).exeException = true
    · rw [if_pos hexc]
      exact .inr rfl
    · rw [if_neg hexc]
      cases hexp : (st c).expires t .ie with
      | true =>
        left
        refine ⟨c, Nat.lt_succ_self c, hexpires.mp hexp, fun j hj hj' => ?_⟩
        obtain rfl : j = c := by omega
        exact fun hpermitted => hexc (htaken hpermitted (.inr hexp))
      | false =>
        rw [hexp, if_neg Bool.false_ne_true] at hmtie
        cases hwrite : (st c).inExe t && (st c).writesCsr CSRs.status with
        | true =>
          rw [hwrite, if_pos rfl] at hmtie
          obtain ⟨hexe, hwrites⟩ := Bool.and_eq_true_iff.mp hwrite
          have hwaits := (hstatus hexe hwrites hexp).mp hmtie
          have hset := hinv.set hwaits
          exact .inl (hwaits.succ fun hpermitted => hexc (htaken hpermitted (.inl hset)))
        | false =>
          rw [hwrite, if_neg Bool.false_ne_true] at hmtie
          rw [if_neg Bool.false_ne_true]
          rcases hinv.stale hmtie with hwaits | hdisabled
          · exact .inl (hwaits.succ fun hpermitted => hexc (htaken hpermitted (.inl hmtie)))
          · exact .inr hdisabled

theorem pendingInv_run (h : CoreRun D st inp) (hconf : conf.interruptExpire = true) {n : Nat}
    (hsafe : ∀ c, c < n → TimerSafe st t c) : PendingInv st t n := by
  induction n with
  | zero =>
    constructor
    · intro ⟨e, hlt, _⟩
      exact absurd hlt (Nat.not_lt_zero e)
    · intro hmtie
      rw [h.reset.csr.mtie] at hmtie
      exact Bool.noConfusion hmtie
  | succ n ih =>
    have hlast := hsafe n (Nat.lt_succ_self n)
    exact (ih fun c hc => hsafe c (Nat.lt_succ_of_lt hc)).next h hconf
      (fun j hj => (hsafe j (Nat.lt_succ_of_le hj)).apart) hlast.status

/-- When a timer exception is taken. -/
theorem takes_ee_run (h : CoreRun D st inp) (hconf : conf.interruptExpire = true)
    (hsafe : ∀ j, j ≤ c → TimerSafe st t j) :
    (st c).takes Causes.ee t = true ↔
      ∃ e, Expiry st t .ee e ∧ FirstPermitted st t .ee e c := by
  have hapart : ∀ n, n ≤ c → ∀ j, j < n → (st j).ArmsApart t :=
    fun n hn j hj => (hsafe j (by omega)).apart
  constructor
  · intro htakes
    have htraps : (st c).traps t = true := (Bool.and_eq_true_iff.mp htakes).1
    have hvalid := (CoreState.inExe_iff.mp (CoreState.inExe_of_traps htraps)).1
    obtain ⟨hpermitted, hexp⟩ :=
      (CoreState.takes_ee_iff_expires hconf (h.exeReg_cause hvalid)).mp htakes
    refine ⟨c, (expires_iff h hconf (.inr rfl) (hapart c (Nat.le_refl c))).mp hexp, ?_⟩
    exact ⟨Nat.le_refl c, hpermitted, fun j hj hj' => by omega⟩
  · intro ⟨e, hexp, hfirst⟩
    have hexpires := (expires_iff h hconf (.inr rfl) (hapart e hfirst.order)).mpr hexp
    -- it is permitted in the cycle of the expiry, which is therefore `c`
    have hnow : (st e).Permitted t .ee := ⟨hexp.exe, (hsafe e hfirst.order).ee hexpires⟩
    obtain rfl : e = c := by
      rcases Nat.lt_or_eq_of_le hfirst.order with hlt | heq
      · exact absurd hnow (hfirst.first e (Nat.le_refl e) hlt)
      · exact heq
    have hvalid := (CoreState.inExe_iff.mp hexp.exe).1
    exact (CoreState.takes_ee_iff_expires hconf (h.exeReg_cause hvalid)).mpr ⟨hnow, hexpires⟩

/-- Without the timing features nothing expires and nothing is taken. -/
theorem takes_timer_iff_of_not_conf (h : CoreRun D st inp)
    (hconf : conf.interruptExpire = false) (hm : m = .ie ∨ m = .ee) :
    (st c).takes (timerCause m) t = true ↔
      ∃ e, Expiry st t m e ∧ FirstPermitted st t m e c := by
  constructor
  · intro htakes
    have htraps : (st c).traps t = true := (Bool.and_eq_true_iff.mp htakes).1
    have hcause := h.exeReg_cause (CoreState.inExe_iff.mp (CoreState.inExe_of_traps htraps)).1
    have htiming : timerCause m ∈ timingCauses := by
      rcases hm with rfl | rfl <;> decide
    rw [CoreState.interruptExpire_of_takes htiming hcause htakes] at hconf
    exact Bool.noConfusion hconf
  · intro ⟨e, hexp, _⟩
    obtain ⟨a, ha⟩ := hexp.armed
    have harms := ha.arms
    rcases hm with rfl | rfl <;>
      simp [CoreState.arms, CoreState.exeIe, CoreState.exeEe, hconf] at harms

/-- **Every run** takes the traps of its timers where they are due. -/
theorem takes_timer_iff (h : CoreRun D st inp) (hm : m = .ie ∨ m = .ee)
    (hsafe : ∀ j, j ≤ c → TimerSafe st t j) :
    (st c).takes (timerCause m) t = true ↔
      ∃ e, Expiry st t m e ∧ FirstPermitted st t m e c := by
  cases hconf : conf.interruptExpire with
  | false => exact takes_timer_iff_of_not_conf h hconf hm
  | true =>
    rcases hm with rfl | rfl
    · exact (pendingInv_run h hconf fun j hj => hsafe j (Nat.le_of_lt hj)).takes_ie_iff h hconf
        fun j hj => (hsafe j (Nat.le_of_lt hj)).apart
    · exact takes_ee_run h hconf hsafe

theorem deliveredOnce (h : CoreRun D st inp) (hm : m = .ie ∨ m = .ee) {n : Nat}
    (hsafe : ∀ c, c ≤ n → TimerSafe st t c) : DeliveredOnce st t m n := by
  have htakes : ∀ c, c ≤ n → ((st c).takes (timerCause m) t = true ↔
      ∃ e, Expiry st t m e ∧ FirstPermitted st t m e c) :=
    fun c hc => takes_timer_iff h hm fun j hj => hsafe j (Nat.le_trans hj hc)
  constructor
  · intro e c hc hexp hfirst
    exact (htakes c hc).mpr ⟨e, hexp, hfirst⟩
  · intro e c c' hc hc' hexp hfirst hec hnone htaken
    obtain ⟨e', hexp', hfirst'⟩ := (htakes c' hc').mp htaken
    -- both are the first from their expiry on, and the second expires no later
    have hle : e' ≤ e := by
      by_contra hlt
      exact hnone e' (by omega) hfirst'.order hexp'
    rcases Nat.lt_trichotomy c' c with hlt | heq | hgt
    · exact absurd hfirst'.permitted (hfirst.first c' hec hlt)
    · exact heq
    · exact absurd hfirst.permitted (hfirst'.first c (Nat.le_trans hle hfirst.order) hgt)
  · intro c hc htaken
    exact (htakes c hc).mp htaken

end runs

/-- **Delivery of timer traps**: in every run whose cycles all meet the
    condition, the timer interrupts and timer exceptions of every thread are
    taken exactly once, at the first instruction at which they are permitted. -/
theorem timers_delivered_once (D : DecodeLogic conf) (st : Nat → CoreState conf)
    (inp : Nat → CoreIn conf) (h : CoreRun D st inp) (t : conf.Tid) (n : Nat)
    (hsafe : ∀ c, c ≤ n → TimerSafe st t c) :
    DeliveredOnce st t .ie n ∧ DeliveredOnce st t .ee n :=
  ⟨deliveredOnce h (.inl rfl) hsafe, deliveredOnce h (.inr rfl) hsafe⟩

/-! ## Section 6: A timer interrupt at time 90 -/

/-- `compare` is 90 and `IE` arms the timer; two instructions on the status
    register come before the `IE` and after the expiry. -/
def ieAt90 (before after : BitVec 32) (a : Nat) : BitVec 32 :=
  if a = 0 then 0x05a00093 else if a = 1 then 0x50709073 else if a = 2 then before
  else if a = 3 then 0x0200705b else if a = 6 then after else 0x13

/-- Thread 0 alone runs it. -/
def ieAt90Run (before after : BitVec 32) : Nat → CoreState conf4tf :=
  Machine.trace (CoreState.next (DecodeLogic.zeros conf4tf))
    (coreZero conf4tf (ieAt90 before after)) fun _ => issue conf4tf 0

theorem ieAt90Run_coreRun (before after : BitVec 32) :
    CoreRun (DecodeLogic.zeros conf4tf) (ieAt90Run before after) fun _ => issue conf4tf 0 :=
  coreRun_trace _ (coreZero_reset conf4tf (ieAt90 before after)) _

/-- `csrrsi status, 16` comes first: the interrupt is taken when it expires. -/
theorem ieAt90_enabled_delivered :
    DeliveredOnce (ieAt90Run 0x50a86073 0x13) (0 : Fin 4) .ie 9 ∧
      DeliveredOnce (ieAt90Run 0x50a86073 0x13) (0 : Fin 4) .ee 9 := by
  have hee : ∀ c, c ≤ 9 → (ieAt90Run 0x50a86073 0x13 c).expires (0 : Fin 4) .ee = false := by
    decide +kernel
  have hapart : ∀ c, c ≤ 9 → (ieAt90Run 0x50a86073 0x13 c).expires (0 : Fin 4) .ie = true →
      (ieAt90Run 0x50a86073 0x13 c).exeIe = false ∧
        (ieAt90Run 0x50a86073 0x13 c).exeEe = false := by
    decide +kernel
  have hwrites : ∀ c, c ≤ 9 → (ieAt90Run 0x50a86073 0x13 c).writesCsr CSRs.status = true →
      c = 6 ∧ (ieAt90Run 0x50a86073 0x13 c).csrWord.getLsbD 26 = false := by
    decide +kernel
  have harms : ∀ a, a < 6 → (ieAt90Run 0x50a86073 0x13 a).arms (0 : Fin 4) .ie = false := by
    decide +kernel
  refine timers_delivered_once _ _ _ (ieAt90Run_coreRun _ _) (0 : Fin 4) 9 fun c hc => ?_
  constructor
  case ee =>
    intro hexp
    rw [hee c hc] at hexp
    exact Bool.noConfusion hexp
  case apart => exact hapart c hc
  case status =>
    intro _ hwrite _
    obtain ⟨rfl, hbit⟩ := hwrites c hc hwrite
    rw [hbit]
    refine iff_of_false Bool.false_ne_true ?_
    -- nothing is armed before the `IE`
    intro ⟨e, he, hexp, _⟩
    obtain ⟨a, ha⟩ := hexp.armed
    have harm := ha.arms
    rw [harms a (Nat.lt_trans ha.order he)] at harm
    exact Bool.noConfusion harm

/-- `csrrci status, 16` comes first, and `csrrsi status, 16` after the expiry:
    the interrupt is lost. -/
theorem ieAt90_disabled_lost :
    CoreRun (DecodeLogic.zeros conf4tf) (ieAt90Run 0x50a87073 0x50a86073)
        (fun _ => issue conf4tf 0) ∧
      Expiry (ieAt90Run 0x50a87073 0x50a86073) (0 : Fin 4) .ie 9 ∧
      FirstPermitted (ieAt90Run 0x50a87073 0x50a86073) (0 : Fin 4) .ie 9 11 ∧
      ¬ DeliveredOnce (ieAt90Run 0x50a87073 0x50a86073) (0 : Fin 4) .ie 11 := by
  have hexp : Expiry (ieAt90Run 0x50a87073 0x50a86073) (0 : Fin 4) .ie 9 := by
    constructor
    case armed =>
      refine ⟨7, by decide +kernel, by decide, fun j hj hj' => ?_⟩
      obtain rfl : j = 8 := by omega
      decide +kernel
    case exe => decide +kernel
    case reached => decide +kernel
  have hfirst : FirstPermitted (ieAt90Run 0x50a87073 0x50a86073) (0 : Fin 4) .ie 9 11 := by
    constructor
    case order => decide
    case permitted =>
      refine ⟨by decide +kernel, ⟨by decide +kernel, by decide +kernel, by decide +kernel⟩, ?_, ?_⟩
      · decide +kernel
      · decide +kernel
    case first =>
      intro j hj hj' hpermitted
      have hie := hpermitted.2.2.1
      obtain rfl | rfl : j = 9 ∨ j = 10 := by omega
      · revert hie
        decide +kernel
      · revert hie
        decide +kernel
  refine ⟨ieAt90Run_coreRun _ _, hexp, hfirst, fun hdelivered => ?_⟩
  have htaken := hdelivered.taken 9 11 (Nat.le_refl 11) hexp hfirst
  revert htaken
  decide +kernel

end Flexpret.Core
