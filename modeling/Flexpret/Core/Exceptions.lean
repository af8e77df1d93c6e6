import Flexpret.Core.PipelineThread

/-! # Which Exception Is Taken

    The exceptions found in fetch and decode come first, then those of the
    load or store in execute, then the four that come from outside of the
    instruction: missed deadline, timer exception, timer interrupt and
    external interrupt.
-/

namespace Flexpret.Core

variable {conf : FlexpretConfiguration}

/-! ## Section 1: Supported causes -/

/-- The causes that any instruction may meet in execute. -/
def asyncCauses : List Cause := [Causes.fd, Causes.ee, Causes.ie, Causes.externalInt]

/-- The causes that come with the timing features. -/
def timingCauses : List Cause := [Causes.fd, Causes.ee, Causes.ie]

theorem causes_timing {c : Cause} (hc : c ∈ timingCauses) :
    conf.causes.contains c = conf.interruptExpire := by
  obtain ⟨threads, flex, iMemKB, dMemKB, mul, features, hpos, hle⟩ := conf
  simp only [timingCauses, List.mem_cons, List.not_mem_nil, or_false] at hc
  rcases hc with rfl | rfl | rfl <;> cases features <;> rfl

theorem causes_async (h : conf.interruptExpire = true) {c : Cause} (hc : c ∈ asyncCauses) :
    conf.causes.contains c = true := by
  obtain ⟨threads, flex, iMemKB, dMemKB, mul, features, hpos, hle⟩ := conf
  simp only [asyncCauses, List.mem_cons, List.not_mem_nil, or_false] at hc
  cases features with
  | min => exact absurd h Bool.false_ne_true
  | ex => exact absurd h Bool.false_ne_true
  | ti => rcases hc with rfl | rfl | rfl | rfl <;> rfl
  | all => rcases hc with rfl | rfl | rfl | rfl <;> rfl

theorem exceptions_of_interruptExpire (h : conf.interruptExpire = true) :
    conf.exceptions = true := by
  simp [FlexpretConfiguration.exceptions, h]

/-! ## Section 2: The chosen cause -/

/-- A cause other than the default is that of a present exception of the
    list. -/
theorem checkExceptions_cause {l : List (Bool × Cause)} {c : Cause} (hc : c ≠ 0)
    (h : (checkExceptions conf l).2 = c) :
    ∃ e ∈ l, e.1 = true ∧ conf.causes.contains e.2 = true ∧ e.2 = c := by
  simp only [checkExceptions] at h
  split at h
  · next e hfind =>
    have hmem := List.mem_filter.mp (List.mem_of_find?_eq_some hfind)
    have hset := List.find?_some hfind
    exact ⟨e, hmem.1, hset, hmem.2, h⟩
  · exact absurd h.symm hc

theorem checkExceptions_not_async {l : List (Bool × Cause)}
    (hl : ∀ e ∈ l, e.2 ∉ asyncCauses) : (checkExceptions conf l).2 ∉ asyncCauses := by
  intro hc
  have hzero : (checkExceptions conf l).2 ≠ 0 := by
    intro hzero
    rw [hzero] at hc
    revert hc
    decide
  obtain ⟨e, hmem, -, -, hcause⟩ := checkExceptions_cause hzero rfl
  exact hl e hmem (hcause ▸ hc)

namespace CoreState

variable {s : CoreState conf} {D : DecodeLogic conf} {i : CoreIn conf}

theorem ifExc_not_async (s : CoreState conf) : s.ifExc.2 ∉ asyncCauses := by
  refine checkExceptions_not_async ?_
  simp only [List.mem_cons, List.not_mem_nil, or_false, forall_eq_or_imp, forall_eq]
  decide

theorem decExc_not_async (s : CoreState conf) : (s.decExc D).2 ∉ asyncCauses := by
  refine checkExceptions_not_async ?_
  simp only [List.mem_cons, List.not_mem_nil, or_false, forall_eq_or_imp, forall_eq]
  decide

theorem exeInstExc_not_async (s : CoreState conf) : s.exeInstExc.2 ∉ asyncCauses := by
  refine checkExceptions_not_async ?_
  simp only [List.mem_cons, List.not_mem_nil, or_false, forall_eq_or_imp, forall_eq]
  decide

/-- What comes with an instruction from fetch and decode is not asynchronous. -/
theorem next_next_exeReg_cause (s : CoreState conf) (i i' : CoreIn conf) :
    ((s.next D i).next D i').exeReg.cause ∉ asyncCauses := by
  show (if s.ifExc.1 then s.ifExc.2 else ((s.next D i).decExc D).2) ∉ asyncCauses
  split
  · exact ifExc_not_async s
  · exact decExc_not_async _

/-- **Priority**: an asynchronous cause is taken when nothing else is wrong
    with the instruction. -/
theorem exeCause_async {c : Cause} (hc : c ∈ asyncCauses)
    (hcause : s.exeReg.cause ∉ asyncCauses) (h : s.exeCause = c) :
    s.exeReg.exc = false ∧ s.exeInstExc.1 = false ∧ s.exeAnyExc.2 = c := by
  unfold exeCause at h
  split at h
  · cases hexc : s.exeReg.exc with
    | true =>
      rw [hexc, if_pos rfl] at h
      exact absurd (h ▸ hc) hcause
    | false =>
      cases hinst : s.exeInstExc.1 with
      | true =>
        rw [hexc, hinst, if_neg Bool.false_ne_true, if_pos rfl] at h
        exact absurd (h ▸ hc) (exeInstExc_not_async s)
      | false =>
        rw [hexc, hinst, if_neg Bool.false_ne_true, if_neg Bool.false_ne_true] at h
        exact ⟨rfl, rfl, h⟩
  · subst h
    exact absurd hc (by decide)

/-- The asynchronous exceptions in the order of their priority. -/
theorem exeAnyExc_eq (hconf : conf.interruptExpire = true) :
    s.exeAnyExc =
      (s.csr.mtfdExceptionReg s.exeReg.tid || s.csr.excExpire s.exeReg.tid s.exeReg.valid ||
          s.csr.intExpire s.exeReg.tid s.exeReg.valid || s.csr.intExt s.exeReg.tid,
        if s.csr.mtfdExceptionReg s.exeReg.tid then Causes.fd
        else if s.csr.excExpire s.exeReg.tid s.exeReg.valid then Causes.ee
        else if s.csr.intExpire s.exeReg.tid s.exeReg.valid then Causes.ie
        else if s.csr.intExt s.exeReg.tid then Causes.externalInt
        else 0) := by
  have hfd := causes_async hconf (c := Causes.fd) (by decide)
  have hee := causes_async hconf (c := Causes.ee) (by decide)
  have hie := causes_async hconf (c := Causes.ie) (by decide)
  have hext := causes_async hconf (c := Causes.externalInt) (by decide)
  unfold exeAnyExc checkExceptions
  simp only [List.filter_cons, hfd, hee, hie, hext, if_true, List.filter_nil]
  cases s.csr.mtfdExceptionReg s.exeReg.tid <;>
    cases s.csr.excExpire s.exeReg.tid s.exeReg.valid <;>
    cases s.csr.intExpire s.exeReg.tid s.exeReg.valid <;>
    cases s.csr.intExt s.exeReg.tid <;> rfl

/-! ## Section 3: Taking an exception -/

/-- `t` traps with this cause. -/
def takes (s : CoreState conf) (c : Cause) (t : conf.Tid) : Bool := s.traps t && s.exeCause = c

/-- The instruction in execute has no exception of its own, and `t` has not
    missed a deadline. -/
structure NoOwnException (s : CoreState conf) (t : conf.Tid) : Prop where
  exc : s.exeReg.exc = false
  instExc : s.exeInstExc.1 = false
  missed : s.csr.mtfdExceptionReg t = false

theorem traps_of_anyExc {t : conf.Tid} (hconf : conf.interruptExpire = true)
    (hexe : s.inExe t = true) (hany : s.exeAnyExc.1 = true) : s.traps t = true := by
  obtain ⟨hvalid, htid⟩ := inExe_iff.mp hexe
  simp [traps, exeException, exceptions_of_interruptExpire hconf, hvalid, hany, htid]

/-- An asynchronous exception is taken when its cause comes first. -/
theorem takes_async_iff {t : conf.Tid} {c : Cause} (hconf : conf.interruptExpire = true)
    (hcause : s.exeReg.cause ∉ asyncCauses) (hc : c ∈ asyncCauses) :
    s.takes c t = true ↔ s.inExe t = true ∧ s.exeReg.exc = false ∧ s.exeInstExc.1 = false ∧
      s.exeAnyExc.1 = true ∧ s.exeAnyExc.2 = c := by
  constructor
  · intro h
    simp only [takes, Bool.and_eq_true, decide_eq_true_eq] at h
    obtain ⟨htraps, heq⟩ := h
    obtain ⟨hexc, hinst, hany⟩ := exeCause_async hc hcause heq
    have hset : s.exeAnyExc.1 = true := by
      simp only [traps, exeException, hexc, hinst, Bool.false_or, Bool.and_eq_true] at htraps
      exact htraps.1.2
    exact ⟨inExe_of_traps htraps, hexc, hinst, hset, hany⟩
  · rintro ⟨hexe, hexc, hinst, hset, hany⟩
    have htraps := traps_of_anyExc hconf hexe hset
    have heq : s.exeCause = c := by
      simp [exeCause, exceptions_of_interruptExpire hconf, hexc, hinst, hany]
    simp only [takes, htraps, heq, decide_true, Bool.and_self]

/-- **The exception of a missed deadline**. -/
theorem takes_fd_iff {t : conf.Tid} (hconf : conf.interruptExpire = true)
    (hcause : s.exeReg.cause ∉ asyncCauses) :
    s.takes Causes.fd t = true ↔ s.inExe t = true ∧ s.exeReg.exc = false ∧
      s.exeInstExc.1 = false ∧ s.csr.mtfdExceptionReg t = true := by
  rw [takes_async_iff hconf hcause (by decide)]
  refine and_congr_right fun hexe => and_congr_right fun _ => and_congr_right fun _ => ?_
  obtain ⟨-, htid⟩ := inExe_iff.mp hexe
  rw [exeAnyExc_eq hconf, htid]
  cases s.csr.mtfdExceptionReg t with
  | true => simp
  | false =>
    cases s.csr.excExpire t s.exeReg.valid <;> cases s.csr.intExpire t s.exeReg.valid <;>
      cases s.csr.intExt t <;> decide

theorem interruptExpire_of_takes {t : conf.Tid} {c : Cause} (hc : c ∈ timingCauses)
    (hcause : s.exeReg.cause ∉ asyncCauses) (h : s.takes c t = true) :
    conf.interruptExpire = true := by
  have hasync : c ∈ asyncCauses := by
    simp only [timingCauses, List.mem_cons, List.not_mem_nil, or_false] at hc
    rcases hc with rfl | rfl | rfl <;> decide
  have hzero : c ≠ 0 := by
    intro hzero
    subst hzero
    revert hasync
    decide
  simp only [takes, Bool.and_eq_true, decide_eq_true_eq] at h
  obtain ⟨-, -, hany⟩ := exeCause_async hasync hcause h.2
  obtain ⟨e, -, -, hcontains, he⟩ := checkExceptions_cause hzero hany
  rw [← causes_timing hc, ← he]
  exact hcontains

/-- A valid instruction of `t` traps while the miss flag is up. -/
theorem traps_of_flag {t : conf.Tid} (hconf : conf.interruptExpire = true)
    (hexe : s.inExe t = true) (hflag : s.csr.mtfdExceptionReg t = true) :
    s.traps t = true := by
  refine traps_of_anyExc hconf hexe ?_
  rw [exeAnyExc_eq hconf, (inExe_iff.mp hexe).2, hflag]
  rfl

/-- **The timer exception**. -/
theorem takes_ee_iff {t : conf.Tid} (hconf : conf.interruptExpire = true)
    (hcause : s.exeReg.cause ∉ asyncCauses) :
    s.takes Causes.ee t = true ↔
      s.inExe t = true ∧ s.NoOwnException t ∧ s.csr.excExpire t s.exeReg.valid = true := by
  rw [takes_async_iff hconf hcause (by decide)]
  refine and_congr_right fun hexe => ?_
  obtain ⟨-, htid⟩ := inExe_iff.mp hexe
  rw [exeAnyExc_eq hconf, htid]
  constructor
  · intro ⟨hexc, hinst, hany⟩
    revert hany
    cases hmissed : s.csr.mtfdExceptionReg t <;> cases s.csr.excExpire t s.exeReg.valid <;>
      cases s.csr.intExpire t s.exeReg.valid <;> cases s.csr.intExt t <;>
      simp [Causes.fd, Causes.ee, Causes.ie, Causes.externalInt] <;>
      exact ⟨hexc, hinst, hmissed⟩
  · intro ⟨hown, hset⟩
    simp [hown.exc, hown.instExc, hown.missed, hset]

/-- **The timer interrupt**. -/
theorem takes_ie_iff {t : conf.Tid} (hconf : conf.interruptExpire = true)
    (hcause : s.exeReg.cause ∉ asyncCauses) :
    s.takes Causes.ie t = true ↔
      s.inExe t = true ∧ s.NoOwnException t ∧ s.csr.excExpire t s.exeReg.valid = false ∧
        s.csr.intExpire t s.exeReg.valid = true := by
  rw [takes_async_iff hconf hcause (by decide)]
  refine and_congr_right fun hexe => ?_
  obtain ⟨-, htid⟩ := inExe_iff.mp hexe
  rw [exeAnyExc_eq hconf, htid]
  constructor
  · intro ⟨hexc, hinst, hany⟩
    revert hany
    cases hmissed : s.csr.mtfdExceptionReg t <;> cases s.csr.excExpire t s.exeReg.valid <;>
      cases s.csr.intExpire t s.exeReg.valid <;> cases s.csr.intExt t <;>
      simp [Causes.fd, Causes.ee, Causes.ie, Causes.externalInt] <;>
      exact ⟨hexc, hinst, hmissed⟩
  · intro ⟨hown, hee, hset⟩
    simp [hown.exc, hown.instExc, hown.missed, hee, hset]

end CoreState

/-- A valid instruction of a run brings no asynchronous cause along. -/
theorem CoreRun.exeReg_cause {D : DecodeLogic conf} {st : Nat → CoreState conf}
    {inp : Nat → CoreIn conf} (h : CoreRun D st inp) {c : Nat}
    (hvalid : (st c).exeReg.valid = true) : (st c).exeReg.cause ∉ asyncCauses := by
  match c with
  | 0 =>
    rw [h.reset.exeValid] at hvalid
    exact absurd hvalid Bool.false_ne_true
  | 1 =>
    rw [h.next 0, CoreState.next_exeReg_valid, CoreState.decValid, h.reset.decValid] at hvalid
    exact absurd hvalid Bool.false_ne_true
  | c + 2 =>
    rw [h.next (c + 1), h.next c]
    exact CoreState.next_next_exeReg_cause _ _ _

end Flexpret.Core
