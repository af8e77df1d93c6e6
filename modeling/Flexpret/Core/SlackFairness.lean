import Flexpret.Core.SchedulerRate

/-! # Slack Cycles Are Used and Shared

    A cycle is a slack cycle when the granted slot is the soft one or its
    thread is not active.  The second arbiter gives slack cycles to the soft
    threads; its register moves in these cycles only, so what comes between
    them does not disturb the round.
-/

open Transition

namespace Flexpret.Core

variable {conf : FlexpretConfiguration}

/-! ## Section 1: Slack cycles -/

/-- The granted slot is `SLOT_S` or its thread is not active. -/
def slackCycle (s : SchedulerState conf) (inp : SchedulerIn conf) : Bool :=
  slotGrantValid s inp &&
    (slotSelected s inp = slotS || !inp.threadActive (slotThread s inp))

/-- The threads in mode `SA`. -/
def softThreads (inp : SchedulerIn conf) : Finset conf.Tid :=
  requestSet fun t => decide (inp.threadModes t = tmodeSA)

@[simp] theorem mem_softThreads {inp : SchedulerIn conf} {t : conf.Tid} :
    t ∈ softThreads inp ↔ inp.threadModes t = tmodeSA := by
  simp [softThreads]

/-- The thread of slot `p`, if there is one, cannot use the cycle. -/
def Unusable (inp : SchedulerIn conf) (p : Fin 8) : Prop :=
  inp.slots p = slotS ∨
    ∃ u, inp.slots p = slotOf u ∧ inp.threadModes u ≠ tmodeHA ∧ inp.threadModes u ≠ tmodeSA

theorem slackCycle_eq (s : SchedulerState conf) (inp : SchedulerIn conf) :
    slackCycle s inp = (slotGrantValid s inp && !slotIssues s inp) := by
  simp only [slackCycle, slotIssues, Bool.not_and, decide_not, Bool.not_not]

/-- The granted slot of a slack cycle. -/
theorem slackCycle_unusable {s : SchedulerState conf} {inp : SchedulerIn conf}
    (hinv : SchedulerInv s) (hfields : ∀ p, SlotField conf (inp.slots p))
    (h : slackCycle s inp = true) : ∃ p, SlotGranted s inp p ∧ Unusable inp p := by
  simp only [slackCycle, Bool.and_eq_true, Bool.or_eq_true, decide_eq_true_eq] at h
  obtain ⟨hslot, hslack⟩ := h
  obtain ⟨p, hp⟩ := hinv.slotOH.oneHot_of_anyOf hslot
  have hsel : slotSelected s inp = inp.slots p := mux1H_oneHot hp _
  have hrequest : inp.slots p ≠ slotD := by simpa using rrArbiter_le ((hp p).mpr rfl)
  refine ⟨p, (hp p).mpr rfl, ?_⟩
  rcases hslack with hsoft | hactive
  · exact .inl (hsel ▸ hsoft)
  · rcases hfields p with ⟨u, hu⟩ | hsoft | hoff
    · have hthread : slotThread s inp = BitVec.ofNat conf.threadBits u := by
        rw [slotThread, hsel, hu, slotOf_setWidth]
      rw [hthread, Bool.not_eq_true', ← Bool.not_eq_true, threadActive_tid, not_or] at hactive
      exact .inr ⟨u, hu, hactive⟩
    · exact .inl hsoft
    · exact absurd hoff hrequest

/-! ## Section 2: One cycle -/

section cycle

variable {s : SchedulerState conf} {inp : SchedulerIn conf}

/-- Outside slack cycles the second arbiter's register stays. -/
theorem threadModeOH_of_not_slack (h : slackCycle s inp = false) :
    (schedulerNext s inp).threadModeOH = s.threadModeOH := by
  rw [slackCycle_eq] at h
  simp only [schedulerNext, h, Bool.false_and, Bool.false_eq_true, if_false]

variable (hmt : conf.threads ≠ 1) (hflex : conf.flex = true)

include hmt hflex

/-- Some slot is in use, so an invalid cycle is a slack cycle that no soft
    thread takes. -/
theorem slack_of_invalid (hinv : SchedulerInv s) (hused : (usedSlots inp.slots).Nonempty)
    (hvalid : (schedulerOut s inp).valid = false) :
    slackCycle s inp = true ∧ ∀ u, inp.threadModes u ≠ tmodeSA := by
  obtain ⟨g, hg, -⟩ := schedulerStep_grant hinv rfl hused
  have hslot : slotGrantValid s inp = true := anyOf_eq_true_iff.mpr ⟨g, (hg g).mpr rfl⟩
  rw [schedulerOut_flex hmt hflex, if_pos hslot] at hvalid
  cases hissues : slotIssues s inp with
  | true => simp [hissues] at hvalid
  | false =>
    cases hsoft : threadModeGrantValid s inp with
    | true => simp [hissues, hsoft] at hvalid
    | false =>
      refine ⟨by rw [slackCycle_eq, hslot, hissues]; rfl, fun u hu => ?_⟩
      have hreq : ∃ i, decide (inp.threadModes i = tmodeSA) = true := ⟨u, decide_eq_true hu⟩
      obtain ⟨v, hv⟩ := hinv.threadModeOH.exists_grant hreq
      have hany : threadModeGrantValid s inp = true :=
        anyOf_eq_true_iff.mpr ⟨v, (hv v).mpr rfl⟩
      rw [hsoft] at hany
      exact Bool.false_ne_true hany

/-- A slack cycle issues the soft thread that the second arbiter grants, and
    its register keeps the grant. -/
theorem slack_grant (hinv : SchedulerInv s) (hslack : slackCycle s inp = true)
    (hsoft : (softThreads inp).Nonempty) :
    ∃ g, OneHot (threadModeGrantOH s inp) g ∧ g ∈ softThreads inp ∧ Issued s inp g ∧
      (schedulerNext s inp).threadModeOH = threadModeGrantOH s inp := by
  obtain ⟨u, hu⟩ := hsoft
  obtain ⟨g, hg⟩ := hinv.threadModeOH.exists_grant ⟨u, mem_requestSet.mp hu⟩
  have hany : threadModeGrantValid s inp = true := anyOf_eq_true_iff.mpr ⟨g, (hg g).mpr rfl⟩
  rw [slackCycle_eq] at hslack
  obtain ⟨hslot, hissues⟩ := Bool.and_eq_true_iff.mp hslack
  rw [Bool.not_eq_true'] at hissues
  refine ⟨g, hg, mem_requestSet.mpr (rrArbiter_le ((hg g).mpr rfl)), ?_, ?_⟩
  · have hindex : ohToUInt (threadModeGrantOH s inp) = g.val := ohToUInt_oneHot hg
    rw [Issued, schedulerOut_flex hmt hflex, if_pos hslot, hissues, hany, hindex]
    exact ⟨rfl, rfl⟩
  · simp only [schedulerNext, hslot, hissues, hany, Bool.not_false, Bool.and_self, if_true]

end cycle

/-! ## Section 3: Windows of constant soft threads -/

/-- The soft threads are `M` in the first `n` cycles. -/
def ConstantSoft (M : Finset conf.Tid) (n : Nat) (inp : Nat → SchedulerIn conf) : Prop :=
  ∀ c, c < n → softThreads (inp c) = M

/-- How `n` cycles share their slack cycles among the threads of `M`. -/
structure SlackWindow (M : Finset conf.Tid) (n : Nat) (s : Nat → SchedulerState conf)
    (inp : Nat → SchedulerIn conf) : Prop where
  issued : ∀ c, c < n → slackCycle (s c) (inp c) = true → ∃ g ∈ M, Issued (s c) (inp c) g
  /-- From one slack cycle to the next the threads come in cyclic order. -/
  cyclic : ∀ c c' g g', c < c' → c' < n → slackCycle (s c) (inp c) = true →
    slackCycle (s c') (inp c') = true →
    (∀ d, c < d → d < c' → slackCycle (s d) (inp d) = false) →
    Issued (s c) (inp c) g → Issued (s c') (inp c') g' → RoundRobin.IsNext M g g'
  /-- Each thread is issued exactly once in as many slack cycles as there are
      threads. -/
  once : ∀ a b, b ≤ n →
    ((Finset.Ico a b).filter fun c => slackCycle (s c) (inp c) = true).card = M.card →
    ∀ p ∈ M, ∃! c, (a ≤ c ∧ c < b ∧ slackCycle (s c) (inp c) = true) ∧ Issued (s c) (inp c) p

theorem issued_unique {s : SchedulerState conf} {inp : SchedulerIn conf} {t u : conf.Tid}
    (ht : Issued s inp t) (hu : Issued s inp u) : t = u :=
  threadId_injective (ht.2.symm.trans hu.2)

theorem count_Ico (turn : Nat → Prop) [DecidablePred turn] {a b : Nat} (h : a ≤ b) :
    Nat.count turn b = Nat.count turn a + ((Finset.Ico a b).filter turn).card := by
  have hdisj : Disjoint ((Finset.range a).filter turn) ((Finset.Ico a b).filter turn) := by
    refine Finset.disjoint_filter_filter ?_
    rw [Finset.range_eq_Ico]
    exact Finset.Ico_disjoint_Ico_consecutive 0 a b
  have hunion : Finset.range b = Finset.range a ∪ Finset.Ico a b := by
    rw [Finset.range_eq_Ico, Finset.range_eq_Ico,
      Finset.Ico_union_Ico_eq_Ico (Nat.zero_le a) h]
  rw [Nat.count_eq_card_filter_range, Nat.count_eq_card_filter_range, hunion,
    Finset.filter_union, Finset.card_union_of_disjoint hdisj]

section window

variable {s₀ : SchedulerState conf} {inp : Nat → SchedulerIn conf}

/-- Between slack cycles the second arbiter's register keeps the last grant. -/
theorem threadModeOH_kept (hinv : ∀ c, SchedulerInv (Machine.trace schedulerNext s₀ inp c))
    (hmt : conf.threads ≠ 1) (hflex : conf.flex = true) {c d : Nat} {g : conf.Tid}
    (hsoft : (softThreads (inp c)).Nonempty)
    (hslack : slackCycle (Machine.trace schedulerNext s₀ inp c) (inp c) = true)
    (hg : Issued (Machine.trace schedulerNext s₀ inp c) (inp c) g) (hcd : c < d)
    (hbetween : ∀ e, c < e → e < d →
      slackCycle (Machine.trace schedulerNext s₀ inp e) (inp e) = false) :
    OneHot (Machine.trace schedulerNext s₀ inp d).threadModeOH g := by
  induction d with
  | zero => exact absurd hcd (Nat.not_lt_zero c)
  | succ d ih =>
    rw [Machine.trace_succ]
    rcases Nat.lt_succ_iff_lt_or_eq.mp hcd with hlt | rfl
    · rw [threadModeOH_of_not_slack (hbetween d hlt (Nat.lt_succ_self d))]
      exact ih hlt fun e hce hed => hbetween e hce (Nat.lt_succ_of_lt hed)
    · obtain ⟨g', hg', -, hissued, hreg⟩ := slack_grant hmt hflex (hinv c) hslack hsoft
      rw [hreg, issued_unique hg hissued]
      exact hg'

/-- The slack cycles of a window are a walk around the soft threads. -/
theorem exists_slackWalk (hmt : conf.threads ≠ 1) (hflex : conf.flex = true)
    (hinv : SchedulerInv s₀) {M : Finset conf.Tid} (hM : M.Nonempty) {n : Nat}
    (hconst : ConstantSoft M n inp) :
    ∃ grant : Nat → conf.Tid,
      (∀ c, c < n → slackCycle (Machine.trace schedulerNext s₀ inp c) (inp c) = true →
        Issued (Machine.trace schedulerNext s₀ inp c) (inp c) (grant c)) ∧
      RoundRobin.TurnWalk M n
        (fun c => slackCycle (Machine.trace schedulerNext s₀ inp c) (inp c) = true) grant := by
  have hinvs : ∀ c, SchedulerInv (Machine.trace schedulerNext s₀ inp c) :=
    Machine.trace_invariant hinv fun s i hs => schedulerInv_next hs i
  have hgrant : ∀ c, ∃ g, c < n →
      slackCycle (Machine.trace schedulerNext s₀ inp c) (inp c) = true →
      OneHot (threadModeGrantOH (Machine.trace schedulerNext s₀ inp c) (inp c)) g ∧ g ∈ M ∧
      Issued (Machine.trace schedulerNext s₀ inp c) (inp c) g := by
    intro c
    by_cases hc : c < n ∧ slackCycle (Machine.trace schedulerNext s₀ inp c) (inp c) = true
    · obtain ⟨g, hg, hmem, hissued, -⟩ := slack_grant hmt hflex (hinvs c) hc.2
        ((hconst c hc.1).symm ▸ hM)
      exact ⟨g, fun _ _ => ⟨hg, hconst c hc.1 ▸ hmem, hissued⟩⟩
    · exact ⟨0, fun hn hslack => absurd ⟨hn, hslack⟩ hc⟩
  choose grant hgrant using hgrant
  refine ⟨grant, fun c hc hslack => (hgrant c hc hslack).2.2,
    fun c hc hslack => (hgrant c hc hslack).2.1, ?_⟩
  intro c c' hlt hc' hslack hslack' hbetween
  obtain ⟨-, hmem, hissued⟩ := hgrant c (hlt.trans hc') hslack
  obtain ⟨hnext, -, -⟩ := hgrant c' hc' hslack'
  have hlast : OneHot (Machine.trace schedulerNext s₀ inp c').threadModeOH (grant c) :=
    threadModeOH_kept hinvs hmt hflex ((hconst c (hlt.trans hc')).symm ▸ hM) hslack hissued hlt
      fun d hcd hdc => Bool.eq_false_iff.mpr (hbetween d hcd hdc)
  have hreq : ∃ i, decide ((inp c').threadModes i = tmodeSA) = true :=
    ⟨grant c', rrArbiter_le ((hnext _).mpr rfl)⟩
  obtain ⟨g, hg, hisNext⟩ := rrArbiter_isNext hlast hreq
  have hset : requestSet (fun i => decide ((inp c').threadModes i = tmodeSA)) = M :=
    hconst c' hc'
  rw [hset] at hisNext
  rwa [hnext.unique hg]

theorem slackWindow (hmt : conf.threads ≠ 1) (hflex : conf.flex = true)
    (hinv : SchedulerInv s₀) {M : Finset conf.Tid} (hM : M.Nonempty) {n : Nat}
    (hconst : ConstantSoft M n inp) :
    SlackWindow M n (Machine.trace schedulerNext s₀ inp) inp := by
  obtain ⟨grant, hgrant, hwalk⟩ := exists_slackWalk hmt hflex hinv hM hconst
  constructor
  case issued =>
    intro c hc hslack
    exact ⟨grant c, hwalk.mem c hc hslack, hgrant c hc hslack⟩
  case cyclic =>
    intro c c' g g' hlt hc' hslack hslack' hbetween hg hg'
    rw [issued_unique hg (hgrant c (hlt.trans hc') hslack),
      issued_unique hg' (hgrant c' hc' hslack')]
    exact hwalk.next c c' hlt hc' hslack hslack' fun d hcd hdc =>
      Bool.eq_false_iff.mp (hbetween d hcd hdc)
  case once =>
    intro a b hb hcard p hp
    have hab : a ≤ b := by
      by_contra hlt
      rw [Finset.Ico_eq_empty (fun h => hlt h.le), Finset.filter_empty, Finset.card_empty] at hcard
      exact absurd (Finset.card_pos.mpr hM) (by omega)
    have hcount := count_Ico
      (fun c => slackCycle (Machine.trace schedulerNext s₀ inp c) (inp c) = true) hab
    rw [hcard] at hcount
    obtain ⟨c, ⟨hc, hgc⟩, huniq⟩ := hwalk.existsUnique hb hcount hp
    refine ⟨c, ⟨hc, hgc ▸ hgrant c (hc.2.1.trans_le hb) hc.2.2⟩, ?_⟩
    intro c' ⟨hc', hissued⟩
    exact huniq c' ⟨hc', issued_unique (hgrant c' (hc'.2.1.trans_le hb) hc'.2.2) hissued⟩

end window

/-- **Slack cycles**: from any reachable state and for any slots and modes, a
    cycle is idle only if the granted slot's thread cannot use it and no thread
    is soft and active; and while the soft threads stay the same they take the
    slack cycles in turn, whatever cycles come between. -/
theorem slackCycles_shared (conf : FlexpretConfiguration) (hmt : conf.threads ≠ 1)
    (hflex : conf.flex = true) (s₀ : SchedulerState conf) (hreach : SchedulerReachable s₀)
    (inp : Nat → SchedulerIn conf) (hused : ∀ c, (usedSlots (inp c).slots).Nonempty)
    (hfields : ∀ c p, SlotField conf ((inp c).slots p)) :
    (∀ c, (schedulerOut (Machine.trace schedulerNext s₀ inp c) (inp c)).valid = false →
      (∃ p, SlotGranted (Machine.trace schedulerNext s₀ inp c) (inp c) p ∧
        Unusable (inp c) p) ∧
      ∀ u, (inp c).threadModes u ≠ tmodeSA) ∧
    ∀ M n, M.Nonempty → ConstantSoft M n inp →
      SlackWindow M n (Machine.trace schedulerNext s₀ inp) inp := by
  have hinv := schedulerInv_reachable hreach
  have hinvs : ∀ c, SchedulerInv (Machine.trace schedulerNext s₀ inp c) :=
    Machine.trace_invariant hinv fun s i hs => schedulerInv_next hs i
  constructor
  · intro c hvalid
    obtain ⟨hslack, hsoft⟩ := slack_of_invalid hmt hflex (hinvs c) (hused c) hvalid
    exact ⟨slackCycle_unusable (hinvs c) (hfields c) hslack, hsoft⟩
  · intro M n hM hconst
    exact slackWindow hmt hflex hinv hM hconst

/-- Thread 0 is hard, thread 1 sleeps in its slot, threads 2 and 3 are soft. -/
def twoSoftIn (_ : Nat) : SchedulerIn conf4tf where
  slots := threeSlots
  threadModes := fun t => if t = 0 then tmodeHA else if t = 1 then tmodeHZ else tmodeSA

theorem twoSoft_shared :
    (softThreads (twoSoftIn 0)).card = 2 ∧
    SlackWindow (softThreads (twoSoftIn 0)) 30
      (Machine.trace schedulerNext (schedulerReset conf4tf) twoSoftIn) twoSoftIn := by
  have hused : (usedSlots threeSlots).Nonempty := ⟨0, by decide⟩
  refine ⟨by decide, (slackCycles_shared conf4tf (by decide) rfl (schedulerReset conf4tf)
    ⟨twoSoftIn, 0, rfl⟩ twoSoftIn (fun _ => hused) (fun _ => threeSlots_fields)).2
    (softThreads (twoSoftIn 0)) 30 ?_ fun _ _ => rfl⟩
  exact ⟨(2 : Fin 4), mem_softThreads.mpr rfl⟩

end Flexpret.Core
