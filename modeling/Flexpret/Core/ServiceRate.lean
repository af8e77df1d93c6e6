import Flexpret.Core.SlackFairness
import Flexpret.Core.System
import Mathlib.Algebra.Order.Interval.Finset.Basic

/-! # What a Schedule Gives Each Thread

    While the slots stay as they are, a hard thread that is awake is issued in as many
    cycles of a round as there are slots with its id, and a soft thread that is awake in
    as many cycles as there are soft slots for each round that goes to every soft thread.
-/

open Transition

namespace Flexpret.Core

variable {conf : FlexpretConfiguration}

/-! ## Section 1: Issues of the system -/

/-- The scheduler issues `t` in this cycle. -/
def SystemState.issues (s : SystemState conf) (t : conf.Tid) : Bool :=
  (schedulerOut s.sched s.schedIn).valid &&
    decide ((schedulerOut s.sched s.schedIn).thread = BitVec.ofNat conf.threadBits t)

theorem SystemState.issues_iff {s : SystemState conf} {t : conf.Tid} :
    s.issues t = true ↔ Issued s.sched s.schedIn t := by
  rw [issues, Bool.and_eq_true, decide_eq_true_eq, Issued]

/-- What is issued is what the core gets. -/
theorem SystemState.coreIn_of_issues {s : SystemState conf} {t : conf.Tid}
    (h : s.issues t = true) (p : Pins conf) :
    (s.coreIn p).valid = true ∧ (s.coreIn p).thread = t := by
  obtain ⟨hvalid, hthread⟩ := issues_iff.mp h
  refine ⟨hvalid, ?_⟩
  show tidOf (schedulerOut s.sched s.schedIn).thread = t
  rw [hthread, tidOf, dif_pos (by rw [threadId_toNat]; exact t.isLt)]
  exact Fin.ext (threadId_toNat t)

/-- The cycles from `a` until `b` in which `t` is issued. -/
def issueCount (sys : Nat → SystemState conf) (t : conf.Tid) (a b : Nat) : Nat :=
  ((Finset.Ico a b).filter fun c => (sys c).issues t = true).card

/-- The slots that hold `x`. -/
def fieldsWith (slots : Fin 8 → BitVec 4) (x : BitVec 4) : Finset (Fin 8) :=
  Finset.univ.filter fun p => slots p = x

@[simp] theorem mem_fieldsWith {slots : Fin 8 → BitVec 4} {x : BitVec 4} {p : Fin 8} :
    p ∈ fieldsWith slots x ↔ slots p = x := by
  simp [fieldsWith]

/-- How many slots are in use: a round of the slot arbiter. -/
def roundLength (slots : Fin 8 → BitVec 4) : Nat := (usedSlots slots).card

/-! ## Section 2: Rounds -/

section round

variable {s₀ : SchedulerState conf} {inp : Nat → SchedulerIn conf} {slots : Fin 8 → BitVec 4}
  {n : Nat}

/-- **One round**: each slot in use has a cycle of its own, so cycles that come with the
    slots of an id are as many as these. -/
theorem round_count (turn : Nat → Prop) [DecidablePred turn]
    (h : SlotWindow slots n (Machine.trace schedulerNext s₀ inp) inp) {x : BitVec 4}
    (hx : x ≠ slotD) {c : Nat} (hc : c + roundLength slots ≤ n)
    (hturn : ∀ k p, k < n → SlotGranted (Machine.trace schedulerNext s₀ inp k) (inp k) p →
      slots p = x → turn k) :
    (fieldsWith slots x).card ≤ ((Finset.Ico c (c + roundLength slots)).filter turn).card := by
  have hcycle : ∀ p, ∃ k, slots p = x → (c ≤ k ∧ k < c + roundLength slots) ∧
      SlotGranted (Machine.trace schedulerNext s₀ inp k) (inp k) p := by
    intro p
    by_cases hp : slots p = x
    · obtain ⟨j, ⟨hj, hgranted⟩, -⟩ := h.once c p hc (hp ▸ hx)
      exact ⟨c + j, fun _ => ⟨⟨Nat.le_add_right c j, Nat.add_lt_add_left hj c⟩, hgranted⟩⟩
    · exact ⟨0, fun hp' => absurd hp' hp⟩
  choose cycle hcycle using hcycle
  refine Finset.card_le_card_of_injOn cycle ?_ ?_
  · intro p hp
    obtain ⟨⟨hlow, hhigh⟩, hgranted⟩ := hcycle p (mem_fieldsWith.mp hp)
    exact Finset.mem_coe.mpr (Finset.mem_filter.mpr ⟨Finset.mem_Ico.mpr ⟨hlow, hhigh⟩,
      hturn _ p (hhigh.trans_le hc) hgranted (mem_fieldsWith.mp hp)⟩)
  · intro p hp q hq heq
    obtain ⟨⟨-, hhigh⟩, hp⟩ := hcycle p (mem_fieldsWith.mp hp)
    obtain ⟨-, hq⟩ := hcycle q (mem_fieldsWith.mp hq)
    rw [← heq] at hq
    exact h.single _ p q (hhigh.trans_le hc) hp hq

/-- The other way around: cycles that come with these slots only are no more. -/
theorem round_count_le (turn : Nat → Prop) [DecidablePred turn]
    (h : SlotWindow slots n (Machine.trace schedulerNext s₀ inp) inp) {x : BitVec 4}
    (hx : x ≠ slotD) {c : Nat} (hc : c + roundLength slots ≤ n)
    (hturn : ∀ k, k < n → turn k →
      ∃ p, SlotGranted (Machine.trace schedulerNext s₀ inp k) (inp k) p ∧ slots p = x) :
    ((Finset.Ico c (c + roundLength slots)).filter turn).card ≤ (fieldsWith slots x).card := by
  have hslot : ∀ k, ∃ p, k < n → turn k →
      SlotGranted (Machine.trace schedulerNext s₀ inp k) (inp k) p ∧ slots p = x := by
    intro k
    by_cases hk : k < n ∧ turn k
    · obtain ⟨p, hp⟩ := hturn k hk.1 hk.2
      exact ⟨p, fun _ _ => hp⟩
    · exact ⟨0, fun hn hturn => absurd ⟨hn, hturn⟩ hk⟩
  choose slot hslot using hslot
  refine Finset.card_le_card_of_injOn slot ?_ ?_
  · intro k hk
    obtain ⟨hico, hk⟩ := Finset.mem_filter.mp (Finset.mem_coe.mp hk)
    have hlt := (Finset.mem_Ico.mp hico).2
    exact Finset.mem_coe.mpr (mem_fieldsWith.mpr (hslot k (hlt.trans_le hc) hk).2)
  · intro k hk m hm heq
    obtain ⟨hico, hk⟩ := Finset.mem_filter.mp (Finset.mem_coe.mp hk)
    obtain ⟨hico', hm⟩ := Finset.mem_filter.mp (Finset.mem_coe.mp hm)
    rw [Finset.mem_Ico] at hico hico'
    obtain ⟨hkp, hkx⟩ := hslot k (hico.2.trans_le hc) hk
    obtain ⟨hmp, -⟩ := hslot m (hico'.2.trans_le hc) hm
    rw [← heq] at hmp
    obtain ⟨j, -, huniq⟩ := h.once c (slot k) hc (hkx ▸ hx)
    have hj := huniq (k - c) ⟨by unfold roundLength at hico; omega, by
      rwa [Nat.add_sub_cancel' hico.1]⟩
    have hj' := huniq (m - c) ⟨by unfold roundLength at hico'; omega, by
      rwa [Nat.add_sub_cancel' hico'.1]⟩
    omega

/-- A granted soft slot makes a slack cycle. -/
theorem slackCycle_of_soft {s : SchedulerState conf} {inp : SchedulerIn conf} {p : Fin 8}
    (hinv : SchedulerInv s) (hgranted : SlotGranted s inp p) (hsoft : inp.slots p = slotS) :
    slackCycle s inp = true := by
  have hvalid : slotGrantValid s inp = true := anyOf_eq_true_iff.mpr ⟨p, hgranted⟩
  obtain ⟨q, hq⟩ := hinv.slotOH.oneHot_of_anyOf hvalid
  obtain rfl : p = q := (hq p).mp hgranted
  have hsel : slotSelected s inp = slotS := (mux1H_oneHot hq _).trans hsoft
  rw [slackCycle, hvalid, hsel]
  simp

end round

/-! ## Section 3: Service -/

/-- The slots are `slots` from cycle `a` until cycle `b`. -/
def SlotsStay (sys : Nat → SystemState conf) (slots : Fin 8 → BitVec 4) (a b : Nat) : Prop :=
  ∀ c, a ≤ c → c < b → (sys c).core.csr.regSlots = slots

/-- Thread `t` is in mode `mode` from cycle `a` until cycle `b`. -/
def ModeStays (sys : Nat → SystemState conf) (t : conf.Tid) (mode : BitVec 2) (a b : Nat) : Prop :=
  ∀ c, a ≤ c → c < b → (sys c).core.csr.regTmodes t = mode

/-- The soft threads that are awake are those of `M` from cycle `a` until cycle `b`. -/
def SoftStays (sys : Nat → SystemState conf) (M : Finset conf.Tid) (a b : Nat) : Prop :=
  ∀ c, a ≤ c → c < b → softThreads (sys c).schedIn = M

section service

variable {D : DecodeLogic conf} {sys : Nat → SystemState conf} {pins : Nat → Pins conf}
  {slots : Fin 8 → BitVec 4} {a n : Nat}

/-- The scheduler of a run, from a cycle on. -/
theorem SystemRun.sched_trace (h : SystemRun D sys pins) (a c : Nat) :
    (sys (a + c)).sched =
      Machine.trace schedulerNext (sys a).sched (fun k => (sys (a + k)).schedIn) c := by
  induction c with
  | zero => rfl
  | succ c ih =>
    rw [Machine.trace_succ, ← ih, ← Nat.add_assoc, h.next]
    rfl

theorem issueCount_shift (sys : Nat → SystemState conf) (t : conf.Tid) (a b c : Nat) :
    issueCount sys t (a + b) (a + c) = issueCount (fun k => sys (a + k)) t b c := by
  rw [issueCount, issueCount, ← Finset.image_add_left_Ico, Finset.filter_image]
  exact Finset.card_image_of_injective _ (add_right_injective a)

variable (h : SystemRun D sys pins) (hmt : conf.threads ≠ 1) (hflex : conf.flex = true)
  (hfields : ∀ p, SlotField conf (slots p))

include h hmt hflex hfields

/-- The scheduler's window of a stretch of the run. -/
theorem SystemRun.window (hslots : SlotsStay sys slots a (a + n)) :
    SlotWindow slots n (Machine.trace schedulerNext (sys a).sched fun k => (sys (a + k)).schedIn)
      fun k => (sys (a + k)).schedIn :=
  slotWindow hmt hflex (h.schedulerInv a) hfields fun c hc =>
    hslots (a + c) (Nat.le_add_right a c) (Nat.add_lt_add_left hc a)

/-- **Hard threads** are issued once for each of their slots in every round. -/
theorem hard_service {t : conf.Tid} (hslots : SlotsStay sys slots a (a + roundLength slots))
    (hmode : ModeStays sys t tmodeHA a (a + roundLength slots)) :
    issueCount sys t a (a + roundLength slots) = (fieldsWith slots (slotOf t)).card := by
  have hwindow := h.window hmt hflex hfields hslots
  have hhard : StaysHA t (roundLength slots) fun k => (sys (a + k)).schedIn :=
    fun c hc => hmode (a + c) (Nat.le_add_right a c) (Nat.add_lt_add_left hc a)
  have hissued := hwindow.hard t hhard
  have hround : (0 : Nat) + roundLength slots ≤ roundLength slots := (Nat.zero_add _).le
  have hshift := issueCount_shift sys t a 0 (roundLength slots)
  rw [Nat.add_zero] at hshift
  rw [hshift, issueCount]
  have hiff : ∀ k, (sys (a + k)).issues t = true ↔
      Issued (Machine.trace schedulerNext (sys a).sched (fun k => (sys (a + k)).schedIn) k)
        (sys (a + k)).schedIn t := by
    intro k
    rw [SystemState.issues_iff, h.sched_trace]
  have hle := round_count (fun k => (sys (a + k)).issues t = true) hwindow (slotOf_ne_slotD t)
    hround fun k p hk hgranted hp => (hiff k).mpr ((hissued k hk).mpr ⟨p, hgranted, hp⟩)
  have hge := round_count_le (fun k => (sys (a + k)).issues t = true) hwindow
    (slotOf_ne_slotD t) hround fun k hk hturn => (hissued k hk).mp ((hiff k).mp hturn)
  rw [Nat.zero_add] at hle hge
  exact le_antisymm hge hle

/-- The slack cycles of `k` rounds. -/
theorem slack_count {k : Nat} (hslots : SlotsStay sys slots a (a + k * roundLength slots)) :
    k * (fieldsWith slots slotS).card ≤
      Nat.count (fun c => slackCycle (Machine.trace schedulerNext (sys a).sched
        (fun j => (sys (a + j)).schedIn) c) (sys (a + c)).schedIn = true)
        (k * roundLength slots) := by
  induction k with
  | zero =>
    rw [Nat.zero_mul]
    exact Nat.zero_le _
  | succ k ih =>
    have hstep : (k + 1) * roundLength slots = k * roundLength slots + roundLength slots :=
      Nat.succ_mul _ _
    have hbefore := ih fun c hac hc => hslots c hac (by omega)
    have hsoft : ∀ c p, c < (k + 1) * roundLength slots →
        SlotGranted (Machine.trace schedulerNext (sys a).sched
          (fun j => (sys (a + j)).schedIn) c) (sys (a + c)).schedIn p → slots p = slotS →
        slackCycle (Machine.trace schedulerNext (sys a).sched
          (fun j => (sys (a + j)).schedIn) c) (sys (a + c)).schedIn = true := by
      intro c p hc hgranted hp
      refine slackCycle_of_soft ?_ hgranted ?_
      · rw [← h.sched_trace]
        exact h.schedulerInv _
      · rw [← hp]
        exact congrFun (hslots (a + c) (Nat.le_add_right a c) (Nat.add_lt_add_left hc a)) p
    have hround := round_count _ (h.window hmt hflex hfields hslots) (x := slotS) (by decide)
      (c := k * roundLength slots) hstep.ge hsoft
    rw [hstep, count_Ico _ (Nat.le_add_right (k * roundLength slots) (roundLength slots)),
      Nat.succ_mul]
    exact Nat.add_le_add hbefore hround

/-- **Soft threads** share the soft slots: in as many rounds as there are soft threads
    awake, each of them is issued once for each soft slot at least. -/
theorem soft_service {t : conf.Tid} {M : Finset conf.Tid} (ht : t ∈ M)
    (hslots : SlotsStay sys slots a (a + M.card * roundLength slots))
    (hsoft : SoftStays sys M a (a + M.card * roundLength slots)) :
    (fieldsWith slots slotS).card ≤ issueCount sys t a (a + M.card * roundLength slots) := by
  have hconst : ConstantSoft M (M.card * roundLength slots) fun k => (sys (a + k)).schedIn :=
    fun c hc => hsoft (a + c) (Nat.le_add_right a c) (Nat.add_lt_add_left hc a)
  obtain ⟨grant, hgrant, hwalk⟩ :=
    exists_slackWalk hmt hflex (h.schedulerInv a) ⟨t, ht⟩ hconst
  have hslack := slack_count h hmt hflex hfields hslots
  have hserved := hwalk.served ht (Nat.zero_le _) le_rfl (k := (fieldsWith slots slotS).card) (by
    rw [Nat.count_zero, Nat.zero_add, Nat.mul_comm]
    exact hslack)
  rw [Nat.count_zero, Nat.zero_add, Nat.count_eq_card_filter_range, Finset.range_eq_Ico] at hserved
  have hshift := issueCount_shift sys t a 0 (M.card * roundLength slots)
  rw [Nat.add_zero] at hshift
  rw [hshift, issueCount]
  refine hserved.trans (Finset.card_le_card ?_)
  intro c hc
  obtain ⟨hico, hturn, hgranted⟩ := Finset.mem_filter.mp hc
  refine Finset.mem_filter.mpr ⟨hico, ?_⟩
  have hissued := hgrant c (Finset.mem_Ico.mp hico).2 hturn
  rw [SystemState.issues_iff, h.sched_trace, ← hgranted]
  exact hissued

end service

end Flexpret.Core
