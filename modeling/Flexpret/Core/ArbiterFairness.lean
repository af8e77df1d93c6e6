import Flexpret.Core.SchedulerRate

/-! # The Arbiter Starves No Request

    `RRArbiterMaskMethod` for any width and any requests: it grants one request,
    the first behind the last grant, and so a position that keeps requesting waits
    for at most one round, whatever the other positions do.
-/

namespace Flexpret.Core

variable {n : Nat}

/-! ## Section 1: One invocation -/

/-- Where the cyclic order begins: behind the last grant, and at the first position
    when there was none. -/
def searchStart (lastGrantOH : Fin n → Bool) : Nat :=
  if anyOf lastGrantOH then ohToUInt lastGrantOH + 1 else 0

theorem searchStart_oneHot {v : Fin n → Bool} {i : Fin n} (h : OneHot v i) :
    searchStart v = i.val + 1 := by
  have hany : anyOf v = true := anyOf_eq_true_iff.mpr ⟨i, (h i).mpr rfl⟩
  rw [searchStart, if_pos hany, ohToUInt_oneHot h]

theorem searchStart_none {v : Fin n → Bool} (h : ∀ i, v i = false) : searchStart v = 0 := by
  have hnone : ¬ anyOf v = true := by
    intro hany
    obtain ⟨i, hi⟩ := anyOf_eq_true_iff.mp hany
    exact Bool.false_ne_true ((h i).symm.trans hi)
  rw [searchStart, if_neg hnone]

theorem searchStart_le {v : Fin n → Bool} (h : LastGrant v) : searchStart v ≤ n := by
  obtain hnone | ⟨i, hi⟩ := h
  · rw [searchStart_none hnone]
    exact Nat.zero_le n
  · rw [searchStart_oneHot hi]
    exact i.isLt

/-- **One grant**: the first request behind the last grant. -/
theorem LastGrant.exists_first {request lastGrantOH : Fin n → Bool} (h : LastGrant lastGrantOH)
    (hreq : ∃ i, request i = true) :
    ∃ g, OneHot (rrArbiterMaskMethod request lastGrantOH) g ∧
      RoundRobin.IsFirst (requestSet request) (searchStart lastGrantOH) g := by
  obtain hnone | ⟨last, hlast⟩ := h
  · obtain ⟨g, hg, hrequest, hleast⟩ := rrArbiter_least hnone hreq
    refine ⟨g, hg, mem_requestSet.mpr hrequest, fun i hi => ?_⟩
    -- from position 0 on the cyclic order is the order of the positions
    have hle : g.val ≤ i.val := hleast i (mem_requestSet.mp hi)
    rw [searchStart_none hnone, RoundRobin.ahead_eq (Nat.zero_le n),
      RoundRobin.ahead_eq (Nat.zero_le n), if_pos (Nat.zero_le _), if_pos (Nat.zero_le _)]
    exact hle
  · obtain ⟨g, hg, hnext⟩ := rrArbiter_isNext hlast hreq
    refine ⟨g, hg, ?_⟩
    rw [searchStart_oneHot hlast]
    exact hnext.isFirst

/-! ## Section 2: Runs -/

variable (n) in
/-- Invocations of the arbiter.  The grants are the next last-grant vector; where
    there is none, the vector may also stay, as `slotOH` does. -/
structure ArbiterRun where
  request : Nat → Fin n → Bool
  lastGrantOH : Nat → Fin n → Bool
  init : LastGrant (lastGrantOH 0)
  next : ∀ c, lastGrantOH (c + 1) = rrArbiterMaskMethod (request c) (lastGrantOH c) ∨
    (anyOf (rrArbiterMaskMethod (request c) (lastGrantOH c)) = false ∧
      lastGrantOH (c + 1) = lastGrantOH c)

namespace ArbiterRun

variable (r : ArbiterRun n)

/-- The grants of an invocation. -/
def grant (c : Nat) : Fin n → Bool := rrArbiterMaskMethod (r.request c) (r.lastGrantOH c)

variable {r}

/-- **The invariant**: the last-grant vector has at most one bit. -/
theorem lastGrant (c : Nat) : LastGrant (r.lastGrantOH c) := by
  induction c with
  | zero => exact r.init
  | succ c ih =>
    obtain hgrant | ⟨-, hstay⟩ := r.next c
    · rw [hgrant]
      by_cases hreq : ∃ i, r.request c i = true
      · exact .inr (ih.exists_grant hreq)
      · refine .inl fun i => Bool.eq_false_iff.mpr fun hi => ?_
        exact hreq ⟨i, rrArbiter_le hi⟩
    · rw [hstay]
      exact ih

/-- **One turn**: some request is granted, and the next search starts behind it. -/
theorem turn {c : Nat} {p : Fin n} (hp : r.request c p = true) :
    ∃ g, r.grant c g = true ∧
      RoundRobin.IsFirst (requestSet (r.request c)) (searchStart (r.lastGrantOH c)) g ∧
      searchStart (r.lastGrantOH (c + 1)) = g.val + 1 := by
  obtain ⟨g, hg, hfirst⟩ := (lastGrant c).exists_first ⟨p, hp⟩
  have hgrant : r.grant c g = true := (hg g).mpr rfl
  refine ⟨g, hgrant, hfirst, ?_⟩
  obtain hnext | ⟨hnone, -⟩ := r.next c
  · rw [hnext]
    exact searchStart_oneHot hg
  · have hany := anyOf_eq_true_iff.mpr ⟨g, hgrant⟩
    exact absurd (hnone.symm.trans hany) Bool.false_ne_true

/-- **Bounded waiting**: who requests in `n` invocations in a row is granted in one
    of them. -/
theorem granted_of_requests {p : Fin n} {k : Nat}
    (hp : ∀ c, k ≤ c → c < k + n → r.request c p = true) :
    ∃ c, k ≤ c ∧ c < k + n ∧ r.grant c p = true := by
  have hn := p.isLt
  have hahead : RoundRobin.ahead (searchStart (r.lastGrantOH k)) p ≤ n - 1 := by
    have hlt := RoundRobin.ahead_lt (searchStart (r.lastGrantOH k)) p
    omega
  have hturn : ∀ c, k ≤ c → c ≤ k + (n - 1) → ∃ g, r.grant c g = true ∧
      RoundRobin.IsFirst (requestSet (r.request c)) (searchStart (r.lastGrantOH c)) g ∧
      searchStart (r.lastGrantOH (c + 1)) = g.val + 1 :=
    fun c hlow hhigh => turn (hp c hlow (by omega))
  obtain ⟨c, hlow, hhigh, hgrant⟩ := RoundRobin.exists_granted hturn
    (fun c hlow hhigh => mem_requestSet.mpr (hp c hlow (by omega)))
    (searchStart_le (lastGrant k)) hahead
  exact ⟨c, hlow, by omega, hgrant⟩

end ArbiterRun

/-! ### The slots of the scheduler -/

section slots

variable {conf : FlexpretConfiguration} {s : Nat → SchedulerState conf}
  {inp : Nat → SchedulerIn conf}

/-- The invocations for the slots, cycle after cycle. -/
def slotRun (hinit : SchedulerInv (s 0)) (hnext : ∀ c, s (c + 1) = schedulerNext (s c) (inp c)) :
    ArbiterRun 8 where
  request := fun c i => (inp c).slots i ≠ slotD
  lastGrantOH := fun c => (s c).slotOH
  init := hinit.slotOH
  next := by
    intro c
    rw [hnext c]
    cases hvalid : slotGrantValid (s c) (inp c) with
    | true =>
      refine .inl ?_
      simp only [schedulerNext, hvalid, if_true]
      rfl
    | false =>
      refine .inr ⟨hvalid, ?_⟩
      simp only [schedulerNext, hvalid, Bool.false_eq_true, if_false]

/-- A slot that stays in use for eight cycles is granted in one of them, however
    the others are written. -/
theorem slot_granted (hinit : SchedulerInv (s 0))
    (hnext : ∀ c, s (c + 1) = schedulerNext (s c) (inp c)) {p : Fin 8} {k : Nat}
    (hused : ∀ c, k ≤ c → c < k + 8 → (inp c).slots p ≠ slotD) :
    ∃ c, k ≤ c ∧ c < k + 8 ∧ SlotGranted (s c) (inp c) p :=
  ArbiterRun.granted_of_requests (r := slotRun hinit hnext)
    fun c hlow hhigh => decide_eq_true (hused c hlow hhigh)

end slots

/-! ## Section 3: Starvation freedom -/

/-- **Starvation freedom**: one position is granted exactly when there is a request,
    and it is the first request behind the last grant; in a run a position that
    requests in `n` invocations in a row is granted in one of them. -/
theorem rrArbiter_starvation_free (n : Nat) :
    (∀ request lastGrantOH : Fin n → Bool, LastGrant lastGrantOH →
      ((∃ g, OneHot (rrArbiterMaskMethod request lastGrantOH) g) ↔ ∃ i, request i = true) ∧
      ∀ g, rrArbiterMaskMethod request lastGrantOH g = true →
        RoundRobin.IsFirst (requestSet request) (searchStart lastGrantOH) g) ∧
    ∀ (r : ArbiterRun n) (p : Fin n) (k : Nat),
      (∀ c, k ≤ c → c < k + n → r.request c p = true) →
        ∃ c, k ≤ c ∧ c < k + n ∧ r.grant c p = true := by
  constructor
  · intro request lastGrantOH hlast
    refine ⟨⟨?_, fun hreq => hlast.exists_grant hreq⟩, ?_⟩
    · rintro ⟨g, hg⟩
      exact ⟨g, rrArbiter_le ((hg g).mpr rfl)⟩
    · intro g hg
      obtain ⟨g', hg', hfirst⟩ := hlast.exists_first ⟨g, rrArbiter_le hg⟩
      obtain rfl : g = g' := (hg' g).mp hg
      exact hfirst
  · exact fun r p k hp => ArbiterRun.granted_of_requests hp

end Flexpret.Core
