import Flexpret.Core.Scheduler
import Flexpret.Lib.RoundRobin
import Flexpret.Lib.Transition
import Mathlib.Data.Fintype.Basic

/-! # Hard Threads Run at a Constant Rate

    With constant slots the flexible scheduler walks round robin through the
    slots in use, so a hard thread is issued in the cycles of its own slots
    and in no other, whatever the modes of the other threads.
-/

open Transition

namespace Flexpret.Core

/-! ## Section 1: The arbiters grant one request -/

section arbiters

variable {n : Nat}

/-- Bit `i` is the one that is set. -/
def OneHot (v : Fin n → Bool) (i : Fin n) : Prop := ∀ j, v j = true ↔ j = i

theorem OneHot.unique {v : Fin n → Bool} {i j : Fin n} (hi : OneHot v i) (hj : OneHot v j) :
    i = j :=
  (hj i).mp ((hi i).mpr rfl)

theorem anyOf_eq_true_iff {v : Fin n → Bool} : anyOf v = true ↔ ∃ i, v i = true := by
  simp [anyOf]

theorem anyBelow_eq_true_iff {v : Fin n → Bool} {i : Fin n} :
    anyBelow v i = true ↔ ∃ j, j < i ∧ v j = true := by
  simp [anyBelow]

/-- The requests as a set. -/
def requestSet (request : Fin n → Bool) : Finset (Fin n) :=
  Finset.univ.filter fun i => request i = true

@[simp] theorem mem_requestSet {request : Fin n → Bool} {i : Fin n} :
    i ∈ requestSet request ↔ request i = true := by
  simp [requestSet]

theorem exists_least_request {request : Fin n → Bool} (h : ∃ i, request i = true) :
    ∃ i, request i = true ∧ ∀ j, request j = true → i ≤ j := by
  obtain ⟨i, hi⟩ := h
  have hne : (requestSet request).Nonempty := ⟨i, mem_requestSet.mpr hi⟩
  exact ⟨(requestSet request).min' hne, mem_requestSet.mp (Finset.min'_mem _ hne),
    fun j hj => Finset.min'_le _ _ (mem_requestSet.mpr hj)⟩

/-- The priority arbiter grants the least request. -/
theorem priorityArbiter_oneHot {request : Fin n → Bool} {i : Fin n} (hi : request i = true)
    (hleast : ∀ j, request j = true → i ≤ j) : OneHot (priorityArbiter request) i := by
  intro j
  simp only [priorityArbiter, Bool.and_eq_true, Bool.not_eq_true', Bool.eq_false_iff, ne_eq,
    anyBelow_eq_true_iff, not_exists, not_and]
  constructor
  · rintro ⟨hj, hnone⟩
    exact le_antisymm (not_lt.mp fun hlt => hnone i hlt hi) (hleast j hj)
  · rintro rfl
    exact ⟨hi, fun k hk hreq => absurd hk (not_lt_of_ge (hleast k hreq))⟩

theorem priorityArbiter_le {request : Fin n → Bool} {i : Fin n}
    (h : priorityArbiter request i = true) : request i = true :=
  (Bool.and_eq_true_iff.mp h).1

/-- A grant is a request. -/
theorem rrArbiter_le {request lastGrantOH : Fin n → Bool} {i : Fin n}
    (h : rrArbiterMaskMethod request lastGrantOH i = true) : request i = true := by
  simp only [rrArbiterMaskMethod] at h
  split at h
  · exact (Bool.and_eq_true_iff.mp (priorityArbiter_le h)).1
  · exact priorityArbiter_le h

/-- After a grant to `last` the arbiter grants the next request in cyclic
    order. -/
theorem rrArbiter_isNext {request lastGrantOH : Fin n → Bool} {last : Fin n}
    (hlast : OneHot lastGrantOH last) (hreq : ∃ i, request i = true) :
    ∃ g, OneHot (rrArbiterMaskMethod request lastGrantOH) g ∧
      RoundRobin.IsNext (requestSet request) last g := by
  have hmask : ∀ i, (request i && anyBelow lastGrantOH i) = true ↔
      request i = true ∧ last < i := by
    intro i
    rw [Bool.and_eq_true_iff, anyBelow_eq_true_iff]
    refine and_congr_right fun _ => ⟨?_, fun h => ⟨last, h, (hlast last).mpr rfl⟩⟩
    rintro ⟨j, hj, hgrant⟩
    exact (hlast j).mp hgrant ▸ hj
  by_cases habove : ∃ i, request i = true ∧ last < i
  · have hmasked : ∃ i, (request i && anyBelow lastGrantOH i) = true :=
      habove.imp fun i hi => (hmask i).mpr hi
    obtain ⟨g, hg, hleast⟩ := exists_least_request hmasked
    refine ⟨g, ?_, mem_requestSet.mpr ((hmask g).mp hg).1, .inl ⟨((hmask g).mp hg).2, ?_⟩⟩
    · simp only [rrArbiterMaskMethod, anyOf_eq_true_iff.mpr hmasked, if_true]
      exact priorityArbiter_oneHot hg hleast
    · exact fun r hr hlt => hleast r ((hmask r).mpr ⟨mem_requestSet.mp hr, hlt⟩)
  · have hmasked : ¬ ∃ i, (request i && anyBelow lastGrantOH i) = true :=
      fun ⟨i, hi⟩ => habove ⟨i, (hmask i).mp hi⟩
    obtain ⟨g, hg, hleast⟩ := exists_least_request hreq
    refine ⟨g, ?_, mem_requestSet.mpr hg, .inr ⟨?_, ?_⟩⟩
    · simp only [rrArbiterMaskMethod, mt anyOf_eq_true_iff.mp hmasked]
      exact priorityArbiter_oneHot hg hleast
    · exact fun r hr => not_lt.mp fun hlt => habove ⟨r, mem_requestSet.mp hr, hlt⟩
    · exact fun r hr => hleast r (mem_requestSet.mp hr)

/-- With no grant before it, the arbiter grants the least request. -/
theorem rrArbiter_least {request lastGrantOH : Fin n → Bool}
    (hlast : ∀ i, lastGrantOH i = false) (hreq : ∃ i, request i = true) :
    ∃ g, OneHot (rrArbiterMaskMethod request lastGrantOH) g ∧ request g = true ∧
      ∀ i, request i = true → g ≤ i := by
  have hmasked : ¬ ∃ i, (request i && anyBelow lastGrantOH i) = true := by
    rintro ⟨i, hi⟩
    obtain ⟨j, -, hj⟩ := anyBelow_eq_true_iff.mp (Bool.and_eq_true_iff.mp hi).2
    exact absurd hj (by simp [hlast j])
  obtain ⟨g, hg, hleast⟩ := exists_least_request hreq
  refine ⟨g, ?_, hg, hleast⟩
  simp only [rrArbiterMaskMethod, mt anyOf_eq_true_iff.mp hmasked]
  exact priorityArbiter_oneHot hg hleast

/-- The register of a round-robin arbiter: no grant yet, or the last one. -/
def LastGrant (v : Fin n → Bool) : Prop := (∀ i, v i = false) ∨ ∃ i, OneHot v i

theorem LastGrant.exists_grant {request lastGrantOH : Fin n → Bool}
    (h : LastGrant lastGrantOH) (hreq : ∃ i, request i = true) :
    ∃ g, OneHot (rrArbiterMaskMethod request lastGrantOH) g := by
  obtain hnone | ⟨last, hlast⟩ := h
  · obtain ⟨g, hg, -⟩ := rrArbiter_least hnone hreq
    exact ⟨g, hg⟩
  · obtain ⟨g, hg, -⟩ := rrArbiter_isNext hlast hreq
    exact ⟨g, hg⟩

/-- A valid grant is a single one. -/
theorem LastGrant.oneHot_of_anyOf {request lastGrantOH : Fin n → Bool}
    (h : LastGrant lastGrantOH)
    (hany : anyOf (rrArbiterMaskMethod request lastGrantOH) = true) :
    ∃ g, OneHot (rrArbiterMaskMethod request lastGrantOH) g := by
  obtain ⟨i, hi⟩ := anyOf_eq_true_iff.mp hany
  exact h.exists_grant ⟨i, rrArbiter_le hi⟩

theorem foldr_or_of_not_mem {w : Nat} {sel : Fin n → Bool} {i : Fin n} (h : OneHot sel i)
    (inputs : Fin n → BitVec w) (l : List (Fin n)) (hi : i ∉ l) :
    l.foldr (fun j acc => (if sel j then inputs j else 0) ||| acc) 0 = 0 := by
  induction l with
  | nil => rfl
  | cons j l ih =>
    obtain ⟨hne, hl⟩ := not_or.mp (mt List.mem_cons.mpr hi)
    have hj : ¬ sel j = true := fun hsel => hne ((h j).mp hsel).symm
    rw [List.foldr_cons, ih hl, if_neg hj]
    simp

theorem mux1H_oneHot {w : Nat} {sel : Fin n → Bool} {i : Fin n} (h : OneHot sel i)
    (inputs : Fin n → BitVec w) : mux1H sel inputs = inputs i := by
  have hsplit : ∀ l : List (Fin n), l.Nodup → i ∈ l →
      l.foldr (fun j acc => (if sel j then inputs j else 0) ||| acc) 0 = inputs i := by
    intro l hnodup hi
    induction l with
    | nil => exact absurd hi List.not_mem_nil
    | cons j l ih =>
      obtain ⟨hj, hnodup⟩ := List.nodup_cons.mp hnodup
      rw [List.foldr_cons]
      by_cases hij : j = i
      · subst hij
        rw [foldr_or_of_not_mem h inputs l hj, if_pos ((h j).mpr rfl)]
        simp
      · have hsel : ¬ sel j = true := fun hs => hij ((h j).mp hs)
        rw [ih hnodup ((List.mem_cons.mp hi).resolve_left (Ne.symm hij)), if_neg hsel]
        simp
  exact hsplit _ (List.nodup_finRange n) (List.mem_finRange i)

theorem ohToUInt_oneHot {v : Fin n → Bool} {i : Fin n} (h : OneHot v i) :
    ohToUInt v = i.val := by
  have hlt : i.val < (List.finRange n).length := by simp
  rw [ohToUInt, List.findIdx_eq hlt]
  refine ⟨by simpa using (h i).mpr rfl, fun j hj => ?_⟩
  have hne : (⟨j, hj.trans i.isLt⟩ : Fin n) ≠ i := fun heq => hj.ne (congrArg Fin.val heq)
  simpa using mt (h _).mp hne

end arbiters

/-! ## Section 2: The scheduler's registers -/

variable {conf : FlexpretConfiguration}

/-- Both last-grant registers hold at most one bit. -/
structure SchedulerInv (s : SchedulerState conf) : Prop where
  slotOH : LastGrant s.slotOH
  threadModeOH : LastGrant s.threadModeOH

theorem schedulerInv_reset : SchedulerInv (schedulerReset conf) :=
  ⟨.inl fun _ => rfl, .inl fun _ => rfl⟩

theorem schedulerInv_next {s : SchedulerState conf} (h : SchedulerInv s)
    (inp : SchedulerIn conf) : SchedulerInv (schedulerNext s inp) := by
  refine ⟨?_, ?_⟩
  · simp only [schedulerNext]
    split
    · next hvalid => exact .inr (h.slotOH.oneHot_of_anyOf hvalid)
    · exact h.slotOH
  · simp only [schedulerNext]
    split
    · next hvalid =>
      exact .inr (h.threadModeOH.oneHot_of_anyOf (Bool.and_eq_true_iff.mp hvalid).2)
    · exact h.threadModeOH

/-- A state some run from reset arrives at. -/
def SchedulerReachable (s : SchedulerState conf) : Prop :=
  ∃ inp n, s = Machine.trace schedulerNext (schedulerReset conf) inp n

theorem schedulerInv_reachable {s : SchedulerState conf} (h : SchedulerReachable s) :
    SchedulerInv s := by
  obtain ⟨inp, n, rfl⟩ := h
  exact Machine.trace_invariant schedulerInv_reset (fun s i hs => schedulerInv_next hs i) n

/-! ## Section 3: What a cycle issues -/

/-- Slot position `p` is granted in the cycle. -/
def SlotGranted (s : SchedulerState conf) (inp : SchedulerIn conf) (p : Fin 8) : Prop :=
  slotGrantOH s inp p = true

/-- Thread `t` is issued: valid, with its id. -/
def Issued (s : SchedulerState conf) (inp : SchedulerIn conf) (t : conf.Tid) : Prop :=
  (schedulerOut s inp).valid = true ∧
  (schedulerOut s inp).thread = BitVec.ofNat conf.threadBits t

/-- The slot that holds thread `t`. -/
def slotOf (t : conf.Tid) : BitVec 4 := BitVec.ofNat 4 t

/-- A slot field is a thread id, `SLOT_S` or `SLOT_D`. -/
def SlotField (conf : FlexpretConfiguration) (field : BitVec 4) : Prop :=
  (∃ t : conf.Tid, field = slotOf t) ∨ field = slotS ∨ field = slotD

theorem tid_lt_eight (t : conf.Tid) : t.val < 8 := t.isLt.trans_le conf.threads_le

theorem slotOf_toNat (t : conf.Tid) : (slotOf t).toNat = t.val := by
  have ht := tid_lt_eight t
  rw [slotOf, BitVec.toNat_ofNat]
  omega

theorem slotOf_ne_slotS (t : conf.Tid) : slotOf t ≠ slotS := by
  intro h
  have ht := tid_lt_eight t
  have h' : t.val = 14 := by rw [← slotOf_toNat, h]; rfl
  omega

theorem slotOf_ne_slotD (t : conf.Tid) : slotOf t ≠ slotD := by
  intro h
  have ht := tid_lt_eight t
  have h' : t.val = 15 := by rw [← slotOf_toNat, h]; rfl
  omega

theorem threadId_toNat (t : conf.Tid) : (BitVec.ofNat conf.threadBits t).toNat = t.val := by
  rw [BitVec.toNat_ofNat, Nat.mod_eq_of_lt (conf.tid_lt_two_pow t)]

theorem threadId_injective {t u : conf.Tid}
    (h : BitVec.ofNat conf.threadBits t = BitVec.ofNat conf.threadBits u) : t = u :=
  Fin.ext (by rw [← threadId_toNat t, h, threadId_toNat])

theorem slotOf_setWidth (t : conf.Tid) :
    (slotOf t).setWidth conf.threadBits = BitVec.ofNat conf.threadBits t := by
  refine BitVec.eq_of_toNat_eq ?_
  rw [BitVec.toNat_setWidth, slotOf_toNat, BitVec.toNat_ofNat]

theorem threadActive_tid {inp : SchedulerIn conf} (t : conf.Tid) :
    inp.threadActive (BitVec.ofNat conf.threadBits t) = true ↔
      inp.threadModes t = tmodeHA ∨ inp.threadModes t = tmodeSA := by
  simp [SchedulerIn.threadActive, Nat.mod_eq_of_lt (conf.tid_lt_two_pow t)]

/-- The soft thread the second arbiter grants is there and in mode `SA`. -/
theorem softGrant_mode {s : SchedulerState conf} {inp : SchedulerIn conf}
    (hinv : SchedulerInv s) (h : threadModeGrantValid s inp = true) :
    ∃ u : conf.Tid, ohToUInt (threadModeGrantOH s inp) = u.val ∧
      inp.threadModes u = tmodeSA := by
  obtain ⟨u, hu⟩ := hinv.threadModeOH.oneHot_of_anyOf h
  exact ⟨u, ohToUInt_oneHot hu, by simpa using rrArbiter_le ((hu u).mpr rfl)⟩

/-- A slot that issues its thread names one that is there and active. -/
theorem slotIssues_cases {s : SchedulerState conf} {inp : SchedulerIn conf} {p : Fin 8}
    (hp : OneHot (slotGrantOH s inp) p) (hfield : SlotField conf (inp.slots p))
    (h : slotIssues s inp = true) :
    ∃ u : conf.Tid, inp.slots p = slotOf u ∧
      slotThread s inp = BitVec.ofNat conf.threadBits u ∧
      (inp.threadModes u = tmodeHA ∨ inp.threadModes u = tmodeSA) := by
  have hsel : slotSelected s inp = inp.slots p := mux1H_oneHot hp _
  have hrequest : inp.slots p ≠ slotD := by simpa using rrArbiter_le ((hp p).mpr rfl)
  simp only [slotIssues, hsel, Bool.and_eq_true, decide_eq_true_eq] at h
  obtain ⟨u, hu⟩ := hfield.resolve_right (not_or.mpr ⟨h.1, hrequest⟩)
  have hthread : slotThread s inp = BitVec.ofNat conf.threadBits u := by
    rw [slotThread, hsel, hu, slotOf_setWidth]
  rw [hthread] at h
  exact ⟨u, hu, hthread, (threadActive_tid u).mp h.2⟩

/-- Whatever the configuration and the slots, only an active thread is issued. -/
theorem threadActive_of_valid {s : SchedulerState conf} {inp : SchedulerIn conf}
    (hinv : SchedulerInv s) (hvalid : (schedulerOut s inp).valid = true) :
    inp.threadActive (schedulerOut s inp).thread = true := by
  unfold schedulerOut at hvalid ⊢
  split at hvalid
  · next hone =>
    rw [if_pos hone]
    exact hvalid
  · next hone =>
    rw [if_neg hone]
    split at hvalid
    · next hrr =>
      rw [if_pos hrr]
      exact hvalid
    · next hrr =>
      rw [if_neg hrr]
      split at hvalid
      · next hslot =>
        rw [if_pos hslot]
        split at hvalid
        · next hissues =>
          rw [if_pos hissues]
          exact (Bool.and_eq_true_iff.mp hissues).2
        · next hissues =>
          rw [if_neg hissues]
          split at hvalid
          · next hsoft =>
            rw [if_pos hsoft]
            obtain ⟨u, hu, hmode⟩ := softGrant_mode hinv hsoft
            show inp.threadActive (BitVec.ofNat conf.threadBits (ohToUInt _)) = true
            rw [hu]
            exact (threadActive_tid u).mpr (.inr hmode)
          · exact absurd hvalid Bool.false_ne_true
      · exact absurd hvalid Bool.false_ne_true

section flexible

variable (hmt : conf.threads ≠ 1) (hflex : conf.flex = true)

include hmt hflex

theorem schedulerOut_flex (s : SchedulerState conf) (inp : SchedulerIn conf) :
    schedulerOut s inp =
      if slotGrantValid s inp then
        if slotIssues s inp then { thread := slotThread s inp, valid := true }
        else if threadModeGrantValid s inp then
          { thread := BitVec.ofNat conf.threadBits (ohToUInt (threadModeGrantOH s inp))
            valid := true }
        else { thread := slotThread s inp, valid := false }
      else { thread := slotThread s inp, valid := false } := by
  simp [schedulerOut, hmt, FlexpretConfiguration.roundRobin, hflex]

/-- A valid cycle issues the thread of the granted slot, or the soft thread
    the second arbiter grants. -/
theorem valid_cases {s : SchedulerState conf} {inp : SchedulerIn conf}
    (hvalid : (schedulerOut s inp).valid = true) :
    (slotGrantValid s inp = true ∧ slotIssues s inp = true ∧
      (schedulerOut s inp).thread = slotThread s inp) ∨
    (threadModeGrantValid s inp = true ∧
      (schedulerOut s inp).thread =
        BitVec.ofNat conf.threadBits (ohToUInt (threadModeGrantOH s inp))) := by
  rw [schedulerOut_flex hmt hflex] at hvalid ⊢
  split at hvalid
  · next hslot =>
    rw [if_pos hslot]
    split at hvalid
    · next hissues =>
      rw [if_pos hissues]
      exact .inl ⟨hslot, hissues, rfl⟩
    · next hissues =>
      rw [if_neg hissues]
      split at hvalid
      · next hsoft =>
        rw [if_pos hsoft]
        exact .inr ⟨hsoft, rfl⟩
      · exact absurd hvalid Bool.false_ne_true
  · exact absurd hvalid Bool.false_ne_true

/-- Only active threads are issued. -/
theorem valid_active {s : SchedulerState conf} {inp : SchedulerIn conf}
    (hinv : SchedulerInv s) (hfields : ∀ p, SlotField conf (inp.slots p))
    (hvalid : (schedulerOut s inp).valid = true) :
    ∃ u : conf.Tid, Issued s inp u ∧
      (inp.threadModes u = tmodeHA ∨ inp.threadModes u = tmodeSA) := by
  obtain ⟨hslot, hissues, hthread⟩ | ⟨hsoft, hthread⟩ := valid_cases hmt hflex hvalid
  · obtain ⟨p, hp⟩ := hinv.slotOH.oneHot_of_anyOf hslot
    obtain ⟨u, -, hu, hmode⟩ := slotIssues_cases hp (hfields p) hissues
    exact ⟨u, ⟨hvalid, hthread.trans hu⟩, hmode⟩
  · obtain ⟨u, hu, hmode⟩ := softGrant_mode hinv hsoft
    exact ⟨u, ⟨hvalid, by rw [hthread, hu]⟩, .inr hmode⟩

/-- A hard active thread is issued exactly by its own slots. -/
theorem issued_iff_slot {s : SchedulerState conf} {inp : SchedulerIn conf}
    (hinv : SchedulerInv s) (hfields : ∀ p, SlotField conf (inp.slots p)) {t : conf.Tid}
    (hard : inp.threadModes t = tmodeHA) :
    Issued s inp t ↔ ∃ p, SlotGranted s inp p ∧ inp.slots p = slotOf t := by
  constructor
  · rintro ⟨hvalid, hthread⟩
    obtain ⟨hslot, hissues, hthread'⟩ | ⟨hsoft, hthread'⟩ := valid_cases hmt hflex hvalid
    · obtain ⟨p, hp⟩ := hinv.slotOH.oneHot_of_anyOf hslot
      obtain ⟨u, hu, hid, -⟩ := slotIssues_cases hp (hfields p) hissues
      have htu : t = u := threadId_injective (by rw [← hthread, hthread', hid])
      exact ⟨p, (hp p).mpr rfl, htu ▸ hu⟩
    · obtain ⟨u, hu, hmode⟩ := softGrant_mode hinv hsoft
      have htu : t = u := threadId_injective (by rw [← hthread, hthread', hu])
      rw [htu, hmode] at hard
      exact absurd hard (by decide)
  · rintro ⟨p, hp, hslot⟩
    have hvalid : slotGrantValid s inp = true := anyOf_eq_true_iff.mpr ⟨p, hp⟩
    obtain ⟨q, hq⟩ := hinv.slotOH.oneHot_of_anyOf hvalid
    obtain rfl : p = q := (hq p).mp hp
    have hsel : slotSelected s inp = slotOf t := (mux1H_oneHot hq _).trans hslot
    have hthread : slotThread s inp = BitVec.ofNat conf.threadBits t := by
      rw [slotThread, hsel, slotOf_setWidth]
    have hissues : slotIssues s inp = true := by
      rw [slotIssues, hsel, hthread, (threadActive_tid t).mpr (.inl hard)]
      simp [slotOf_ne_slotS]
    rw [Issued, schedulerOut_flex hmt hflex, if_pos hvalid, if_pos hissues]
    exact ⟨rfl, hthread⟩

/-- Without a soft thread that is active, the thread of the granted slot is
    issued when it is active. -/
theorem schedulerOut_hard {s : SchedulerState conf} {inp : SchedulerIn conf} {p : Fin 8}
    (hinv : SchedulerInv s) (hp : OneHot (slotGrantOH s inp) p)
    (hsoft : ∀ u, inp.threadModes u ≠ tmodeSA) :
    schedulerOut s inp =
      { thread := (inp.slots p).setWidth conf.threadBits
        valid := inp.slots p ≠ slotS &&
          inp.threadActive ((inp.slots p).setWidth conf.threadBits) } := by
  have hsel : slotSelected s inp = inp.slots p := mux1H_oneHot hp _
  have hthread : slotThread s inp = (inp.slots p).setWidth conf.threadBits := by
    rw [slotThread, hsel]
  have hvalid : slotGrantValid s inp = true := anyOf_eq_true_iff.mpr ⟨p, (hp p).mpr rfl⟩
  have hnosoft : ¬ (threadModeGrantValid s inp = true) := by
    intro hgranted
    obtain ⟨u, -, hmode⟩ := softGrant_mode hinv hgranted
    exact hsoft u hmode
  have hissues : slotIssues s inp = (inp.slots p ≠ slotS &&
      inp.threadActive ((inp.slots p).setWidth conf.threadBits)) := by
    rw [slotIssues, hsel, hthread]
  rw [schedulerOut_flex hmt hflex, if_pos hvalid, if_neg hnosoft, hissues, hthread]
  split
  · next hissued => rw [hissued]
  · next hissued => rw [Bool.eq_false_iff.mpr hissued]

/-- A slot with the id of an active thread is that thread's, soft threads or not. -/
theorem schedulerOut_own {s : SchedulerState conf} {inp : SchedulerIn conf} {p : Fin 8}
    {t : conf.Tid} (hp : OneHot (slotGrantOH s inp) p) (hslot : inp.slots p = slotOf t)
    (hactive : inp.threadActive (BitVec.ofNat conf.threadBits t) = true) :
    schedulerOut s inp = { thread := BitVec.ofNat conf.threadBits t, valid := true } := by
  have hsel : slotSelected s inp = slotOf t := (mux1H_oneHot hp _).trans hslot
  have hthread : slotThread s inp = BitVec.ofNat conf.threadBits t := by
    rw [slotThread, hsel, slotOf_setWidth]
  have hvalid : slotGrantValid s inp = true := anyOf_eq_true_iff.mpr ⟨p, (hp p).mpr rfl⟩
  have hissues : slotIssues s inp = true := by
    rw [slotIssues, hsel, hthread, hactive, decide_eq_true (slotOf_ne_slotS t)]
    rfl
  rw [schedulerOut_flex hmt hflex, if_pos hvalid, if_pos hissues, hthread]

/-- A soft slot goes to the only soft thread that is active. -/
theorem schedulerOut_soft {s : SchedulerState conf} {inp : SchedulerIn conf} {p : Fin 8}
    {t : conf.Tid} (hinv : SchedulerInv s) (hp : OneHot (slotGrantOH s inp) p)
    (hslot : inp.slots p = slotS) (hsoft : ∀ u, inp.threadModes u = tmodeSA ↔ u = t) :
    schedulerOut s inp = { thread := BitVec.ofNat conf.threadBits t, valid := true } := by
  have hsel : slotSelected s inp = slotS := (mux1H_oneHot hp _).trans hslot
  have hvalid : slotGrantValid s inp = true := anyOf_eq_true_iff.mpr ⟨p, (hp p).mpr rfl⟩
  have hissues : ¬ slotIssues s inp = true := by
    rw [slotIssues, hsel, decide_eq_false (not_not_intro rfl), Bool.false_and]
    exact Bool.false_ne_true
  have hgranted : threadModeGrantValid s inp = true := by
    have hrequest : ∃ i, decide (inp.threadModes i = tmodeSA) = true :=
      ⟨t, decide_eq_true ((hsoft t).mpr rfl)⟩
    obtain ⟨g, hg⟩ := hinv.threadModeOH.exists_grant hrequest
    exact anyOf_eq_true_iff.mpr ⟨g, (hg g).mpr rfl⟩
  -- only `t` is in the mode that the grant is for
  obtain ⟨u, hu, hmode⟩ := softGrant_mode hinv hgranted
  rw [schedulerOut_flex hmt hflex, if_pos hvalid, if_neg hissues, if_pos hgranted, hu,
    (hsoft u).mp hmode]

end flexible

/-! ## Section 4: Windows of constant slots -/

/-- The slots in use. -/
def usedSlots (slots : Fin 8 → BitVec 4) : Finset (Fin 8) :=
  Finset.univ.filter fun p => slots p ≠ slotD

/-- The first `n` cycles find these slots. -/
def ConstantSlots (slots : Fin 8 → BitVec 4) (n : Nat) (inp : Nat → SchedulerIn conf) : Prop :=
  ∀ c, c < n → (inp c).slots = slots

/-- Thread `t` is hard and active in the first `n` cycles. -/
def StaysHA (t : conf.Tid) (n : Nat) (inp : Nat → SchedulerIn conf) : Prop :=
  ∀ c, c < n → (inp c).threadModes t = tmodeHA

theorem requestSet_slots {inp : SchedulerIn conf} {slots : Fin 8 → BitVec 4}
    (h : inp.slots = slots) :
    requestSet (fun i => decide (inp.slots i ≠ slotD)) = usedSlots slots := by
  ext p
  simp [usedSlots, h]

/-- The cycle grants one used slot, and the register keeps it. -/
theorem schedulerStep_grant {s : SchedulerState conf} {inp : SchedulerIn conf}
    {slots : Fin 8 → BitVec 4} (hinv : SchedulerInv s) (hslots : inp.slots = slots)
    (hused : (usedSlots slots).Nonempty) :
    ∃ g, OneHot (slotGrantOH s inp) g ∧ g ∈ usedSlots slots ∧
      (schedulerNext s inp).slotOH = slotGrantOH s inp := by
  have hreq : ∃ i, decide (inp.slots i ≠ slotD) = true := by
    obtain ⟨p, hp⟩ := hused
    rw [← requestSet_slots hslots] at hp
    exact ⟨p, mem_requestSet.mp hp⟩
  obtain ⟨g, hg⟩ := hinv.slotOH.exists_grant hreq
  refine ⟨g, hg, ?_, ?_⟩
  · rw [← requestSet_slots hslots, mem_requestSet]
    exact rrArbiter_le ((hg g).mpr rfl)
  · exact if_pos (anyOf_eq_true_iff.mpr ⟨g, (hg g).mpr rfl⟩)

/-- The grants of a window are a walk around the used slots. -/
theorem exists_slotWalk {s₀ : SchedulerState conf} (hinv : SchedulerInv s₀)
    {slots : Fin 8 → BitVec 4} {n : Nat} {inp : Nat → SchedulerIn conf}
    (hconst : ConstantSlots slots n inp) (hused : (usedSlots slots).Nonempty) :
    ∃ grant : Nat → Fin 8,
      (∀ c, c < n → OneHot
        (slotGrantOH (Machine.trace schedulerNext s₀ inp c) (inp c)) (grant c)) ∧
      RoundRobin.Walk (usedSlots slots) n grant := by
  have hinvs : ∀ c, SchedulerInv (Machine.trace schedulerNext s₀ inp c) :=
    Machine.trace_invariant hinv fun s i hs => schedulerInv_next hs i
  have hgrant : ∀ c, ∃ g, c < n →
      OneHot (slotGrantOH (Machine.trace schedulerNext s₀ inp c) (inp c)) g ∧
      g ∈ usedSlots slots ∧
      (Machine.trace schedulerNext s₀ inp (c + 1)).slotOH =
        slotGrantOH (Machine.trace schedulerNext s₀ inp c) (inp c) := by
    intro c
    by_cases hc : c < n
    · obtain ⟨g, hg⟩ := schedulerStep_grant (hinvs c) (hconst c hc) hused
      exact ⟨g, fun _ => hg⟩
    · exact ⟨0, fun hc' => absurd hc' hc⟩
  choose grant hgrant using hgrant
  refine ⟨grant, fun c hc => (hgrant c hc).1, fun c hc => (hgrant c hc).2.1, fun c hc => ?_⟩
  obtain ⟨hlast, -, hreg⟩ := hgrant c (by omega)
  obtain ⟨hnext, -, -⟩ := hgrant (c + 1) hc
  have hlast' : OneHot (Machine.trace schedulerNext s₀ inp (c + 1)).slotOH (grant c) :=
    hreg ▸ hlast
  have hreq : ∃ i, decide ((inp (c + 1)).slots i ≠ slotD) = true :=
    ⟨grant (c + 1), rrArbiter_le ((hnext _).mpr rfl)⟩
  obtain ⟨g, hg, hisNext⟩ := rrArbiter_isNext hlast' hreq
  rw [requestSet_slots (hconst (c + 1) hc)] at hisNext
  rwa [hnext.unique hg]

/-- The grants depend on the slots and on the last grant, not on the modes. -/
theorem slotOH_congr {s₀ : SchedulerState conf} {slots : Fin 8 → BitVec 4} {n : Nat}
    {inp inp' : Nat → SchedulerIn conf} (hconst : ConstantSlots slots n inp)
    (hconst' : ConstantSlots slots n inp') {c : Nat} (hc : c < n) :
    slotGrantOH (Machine.trace schedulerNext s₀ inp c) (inp c) =
      slotGrantOH (Machine.trace schedulerNext s₀ inp' c) (inp' c) := by
  have hreg : (Machine.trace schedulerNext s₀ inp c).slotOH =
      (Machine.trace schedulerNext s₀ inp' c).slotOH := by
    induction c with
    | zero => rfl
    | succ c ih =>
      have hc' : c < n := by omega
      have hgrants := ih hc'
      simp only [Machine.trace_succ, schedulerNext, slotGrantValid, slotGrantOH,
        hconst c hc', hconst' c hc', hgrants]
  rw [slotGrantOH, slotGrantOH, hreg, hconst c hc, hconst' c hc]

/-! ## Section 5: The rate of hard threads -/

/-- What `n` cycles with these slots grant and issue. -/
structure SlotWindow (slots : Fin 8 → BitVec 4) (n : Nat) (s : Nat → SchedulerState conf)
    (inp : Nat → SchedulerIn conf) : Prop where
  /-- Each used slot is granted exactly once in as many cycles as there are. -/
  once : ∀ c p, c + (usedSlots slots).card ≤ n → slots p ≠ slotD →
    ∃! j, j < (usedSlots slots).card ∧ SlotGranted (s (c + j)) (inp (c + j)) p
  single : ∀ c p q, c < n → SlotGranted (s c) (inp c) p → SlotGranted (s c) (inp c) q → p = q
  cyclic : ∀ c p q, c + 1 < n → SlotGranted (s c) (inp c) p →
    SlotGranted (s (c + 1)) (inp (c + 1)) q → RoundRobin.IsNext (usedSlots slots) p q
  hard : ∀ t, StaysHA t n inp → ∀ c, c < n →
    (Issued (s c) (inp c) t ↔ ∃ p, SlotGranted (s c) (inp c) p ∧ slots p = slotOf t)
  active : ∀ c t, c < n → Issued (s c) (inp c) t →
    (inp c).threadModes t ≠ tmodeHZ ∧ (inp c).threadModes t ≠ tmodeSZ

theorem slotGranted_used {s : SchedulerState conf} {inp : SchedulerIn conf} {p : Fin 8}
    (h : SlotGranted s inp p) : p ∈ usedSlots inp.slots := by
  rw [← requestSet_slots rfl, mem_requestSet]
  exact rrArbiter_le h

theorem slotWindow {s₀ : SchedulerState conf} (hmt : conf.threads ≠ 1)
    (hflex : conf.flex = true) (hinv : SchedulerInv s₀) {slots : Fin 8 → BitVec 4}
    (hfields : ∀ p, SlotField conf (slots p)) {n : Nat} {inp : Nat → SchedulerIn conf}
    (hconst : ConstantSlots slots n inp) :
    SlotWindow slots n (Machine.trace schedulerNext s₀ inp) inp := by
  have hinvs : ∀ c, SchedulerInv (Machine.trace schedulerNext s₀ inp c) :=
    Machine.trace_invariant hinv fun s i hs => schedulerInv_next hs i
  have hwalk := exists_slotWalk hinv hconst
  refine ⟨fun c p hc hp => ?_, fun c p q hc hpg hqg => ?_, fun c p q hc hpg hqg => ?_,
    fun t hard c hc => ?_, fun c t hc hissued => ?_⟩
  · have hmem : p ∈ usedSlots slots := by simpa [usedSlots] using hp
    obtain ⟨grant, hgrant, hwalk⟩ := hwalk ⟨p, hmem⟩
    have hiff : ∀ j, j < (usedSlots slots).card →
        (SlotGranted (Machine.trace schedulerNext s₀ inp (c + j)) (inp (c + j)) p ↔
          grant (c + j) = p) :=
      fun j hj => (hgrant (c + j) (by omega) p).trans eq_comm
    obtain ⟨j, ⟨hj, heq⟩, huniq⟩ := hwalk.existsUnique hc hmem
    refine ⟨j, ⟨hj, (hiff j hj).mpr heq⟩, ?_⟩
    rintro j' ⟨hj', hg⟩
    exact huniq j' ⟨hj', (hiff j' hj').mp hg⟩
  · obtain ⟨g, hg⟩ := (hinvs c).slotOH.oneHot_of_anyOf (anyOf_eq_true_iff.mpr ⟨p, hpg⟩)
    exact ((hg p).mp hpg).trans ((hg q).mp hqg).symm
  · have hmem := slotGranted_used hpg
    rw [hconst c (by omega)] at hmem
    obtain ⟨grant, hgrant, hwalk⟩ := hwalk ⟨p, hmem⟩
    rw [(hgrant c (by omega) p).mp hpg, (hgrant (c + 1) hc q).mp hqg]
    exact hwalk.next c hc
  · have hslots := hconst c hc
    have hiff := issued_iff_slot hmt hflex (hinvs c)
      (fun p => by rw [hslots]; exact hfields p) (hard c hc)
    rwa [hslots] at hiff
  · have hslots := hconst c hc
    obtain ⟨u, hu, hmode⟩ := valid_active hmt hflex (hinvs c)
      (fun p => by rw [hslots]; exact hfields p) hissued.1
    obtain rfl : t = u := threadId_injective (hissued.2.symm.trans hu.2)
    obtain hmode | hmode := hmode <;> rw [hmode] <;> decide

/-- **Constant rate and isolation**: a window of constant slots, from any
    reachable state and for any modes; and the cycles that issue a hard thread
    are the same for any other modes of the other threads. -/
theorem hardThread_rate (conf : FlexpretConfiguration) (hmt : conf.threads ≠ 1)
    (hflex : conf.flex = true) (s₀ : SchedulerState conf) (hreach : SchedulerReachable s₀)
    (slots : Fin 8 → BitVec 4) (hfields : ∀ p, SlotField conf (slots p)) (n : Nat)
    (inp : Nat → SchedulerIn conf) (hconst : ConstantSlots slots n inp) :
    SlotWindow slots n (Machine.trace schedulerNext s₀ inp) inp ∧
    ∀ t inp', StaysHA t n inp → StaysHA t n inp' → ConstantSlots slots n inp' →
      ∀ c, c < n →
        (Issued (Machine.trace schedulerNext s₀ inp c) (inp c) t ↔
          Issued (Machine.trace schedulerNext s₀ inp' c) (inp' c) t) := by
  have hinv := schedulerInv_reachable hreach
  have hwindow := slotWindow hmt hflex hinv hfields hconst
  refine ⟨hwindow, fun t inp' hard hard' hconst' c hc => ?_⟩
  rw [hwindow.hard t hard c hc,
    (slotWindow hmt hflex hinv hfields hconst').hard t hard' c hc]
  simp only [SlotGranted, slotOH_congr hconst hconst' hc]

/-- Threads 0 and 1 with a slot each, and one soft slot. -/
def threeSlots : Fin 8 → BitVec 4 :=
  fun p => if p = 0 then 0 else if p = 3 then 1 else if p = 5 then slotS else slotD

/-- Thread 0 stays hard and active, thread 1 falls asleep and wakes up. -/
def threeSlotsIn (c : Nat) : SchedulerIn conf4tf where
  slots := threeSlots
  threadModes := fun t => if t = 0 then tmodeHA else if c % 2 = 0 then tmodeHA else tmodeHZ

theorem threeSlots_fields (p : Fin 8) : SlotField conf4tf (threeSlots p) := by
  by_cases h0 : p = 0
  · exact .inl ⟨(0 : Fin 4), by rw [h0]; rfl⟩
  · by_cases h3 : p = 3
    · exact .inl ⟨(1 : Fin 4), by rw [h3]; rfl⟩
    · by_cases h5 : p = 5
      · exact .inr (.inl (by rw [h5]; rfl))
      · exact .inr (.inr (by simp [threeSlots, h0, h3, h5]))

theorem threeSlots_rate :
    (usedSlots threeSlots).card = 3 ∧
    SlotWindow threeSlots 30
      (Machine.trace schedulerNext (schedulerReset conf4tf) threeSlotsIn) threeSlotsIn :=
  ⟨by decide, (hardThread_rate conf4tf (by decide) rfl (schedulerReset conf4tf)
    ⟨threeSlotsIn, 0, rfl⟩ threeSlots threeSlots_fields 30 threeSlotsIn fun _ _ => rfl).1⟩

end Flexpret.Core
