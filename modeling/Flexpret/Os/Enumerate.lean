import Flexpret.Os.Schedulability

/-! # Counting and Listing the Threads

    `osThreadGetCount` counts the live threads of the whole table.
    `osThreadEnumerate` stops when it has looked at as many entries of the
    table as the caller's array has room for, whether they are live or not.
-/

namespace Flexpret.Os

variable {b : OsBuild}

/-! ## Section 1: The two calls -/

/-- `osThreadGetCount`. -/
def osThreadGetCount (s : OsState b) : Nat :=
  (List.finRange b.hwThreadsNums).foldl (fun count i => if s.live i then count + 1 else count) 0

/-- One turn of the loop of `osThreadEnumerate`: the array and `count`. -/
def enumerateTurn (s : OsState b) (r : (Nat → Option (Tid b)) × Nat) (i : Tid b) :
    (Nat → Option (Tid b)) × Nat :=
  if s.live i then (Function.update r.1 r.2 (some i), r.2 + 1) else r

/-- `osThreadEnumerate`, for an array that holds `threadArray` before.  The loop
    ends at `i = array_items`. -/
def osThreadEnumerate (s : OsState b) (threadArray : Nat → Option (Tid b))
    (arrayItems : BitVec 32) : (Nat → Option (Tid b)) × Nat :=
  ((List.finRange b.hwThreadsNums).take arrayItems.toNat).foldl (enumerateTurn s) (threadArray, 0)

/-- The live threads in increasing order. -/
def OsState.liveThreads (s : OsState b) : List (Tid b) :=
  (List.finRange b.hwThreadsNums).filter s.live

theorem mem_liveThreads {s : OsState b} {t : Tid b} : t ∈ s.liveThreads ↔ s.live t = true := by
  simp [OsState.liveThreads]

theorem liveThreads_pairwise (s : OsState b) : s.liveThreads.Pairwise (· < ·) :=
  List.Pairwise.filter _ (List.pairwise_lt_finRange _)

/-- **Agreement**: as many ids are written as there are live threads, or as
    there is room for, and they are those of the first live threads. -/
structure EnumeratesLive (s : OsState b) (threadArray : Nat → Option (Tid b))
    (arrayItems : BitVec 32) (r : (Nat → Option (Tid b)) × Nat) : Prop where
  count : r.2 = min arrayItems.toNat (osThreadGetCount s)
  ids : ∀ k, k < r.2 → ∃ t, s.liveThreads[k]? = some t ∧ r.1 k = some t
  untouched : ∀ k, r.2 ≤ k → r.1 k = threadArray k

/-- No live thread is beyond the room in the array, or only live threads are
    within it. -/
def LiveWithinRoom (s : OsState b) (arrayItems : BitVec 32) : Prop :=
  (∀ t : Tid b, arrayItems.toNat ≤ t.val → s.live t = false) ∨
    ∀ t : Tid b, t.val < arrayItems.toNat → s.live t = true

/-! ## Section 2: The loops -/

theorem foldl_count (s : OsState b) (l : List (Tid b)) (n : Nat) :
    l.foldl (fun count i => if s.live i then count + 1 else count) n =
      n + (l.filter s.live).length := by
  induction l generalizing n with
  | nil => rfl
  | cons i l ih =>
    rw [List.foldl_cons, ih, List.filter_cons]
    split
    · rw [List.length_cons]
      omega
    · rfl

theorem osThreadGetCount_eq (s : OsState b) : osThreadGetCount s = s.liveThreads.length := by
  rw [osThreadGetCount, foldl_count, Nat.zero_add]
  rfl

/-- The loop of `osThreadEnumerate` appends the live threads it visits. -/
theorem foldl_enumerateTurn (s : OsState b) (l : List (Tid b)) (array : Nat → Option (Tid b))
    (n : Nat) :
    (l.foldl (enumerateTurn s) (array, n)).2 = n + (l.filter s.live).length ∧
      ∀ k, (l.foldl (enumerateTurn s) (array, n)).1 k =
        if n ≤ k ∧ k < n + (l.filter s.live).length then (l.filter s.live)[k - n]?
        else array k := by
  induction l generalizing array n with
  | nil =>
    refine ⟨rfl, fun k => ?_⟩
    rw [if_neg (by simp)]
    rfl
  | cons i l ih =>
    rw [List.foldl_cons, enumerateTurn]
    cases hlive : s.live i with
    | false =>
      rw [if_neg Bool.false_ne_true, List.filter_cons_of_neg (by simp [hlive])]
      exact ih array n
    | true =>
      obtain ⟨hcount, harray⟩ := ih (Function.update array n (some i)) (n + 1)
      rw [if_pos rfl, List.filter_cons_of_pos hlive, List.length_cons]
      refine ⟨by rw [hcount]; omega, fun k => ?_⟩
      rw [harray]
      rcases Nat.lt_trichotomy k n with hlt | rfl | hgt
      · rw [if_neg (by omega), if_neg (by omega), Function.update_of_ne (by omega)]
      · rw [if_neg (by omega), if_pos (by omega), Function.update_self, Nat.sub_self]
        rfl
      · obtain ⟨m, rfl⟩ : ∃ m, k = n + 1 + m := ⟨k - (n + 1), by omega⟩
        have hsub : n + 1 + m - n = m + 1 := by omega
        rw [hsub, List.getElem?_cons_succ, Nat.add_sub_cancel_left,
          Function.update_of_ne (by omega)]
        by_cases hin : m < (l.filter s.live).length
        · rw [if_pos (by omega), if_pos (by omega)]
        · rw [if_neg (by omega), if_neg (by omega)]

/-! ## Section 3: When they agree -/

section room

variable (s : OsState b) (n : Nat)

/-- The live threads among the first `n`, and the others. -/
def OsState.liveBelow : List (Tid b) := ((List.finRange b.hwThreadsNums).take n).filter s.live
def OsState.liveFrom : List (Tid b) := ((List.finRange b.hwThreadsNums).drop n).filter s.live

theorem liveThreads_split : s.liveThreads = s.liveBelow n ++ s.liveFrom n := by
  rw [OsState.liveThreads, OsState.liveBelow, OsState.liveFrom, ← List.filter_append,
    List.take_append_drop]

theorem mem_take_finRange {t : Tid b} :
    t ∈ (List.finRange b.hwThreadsNums).take n ↔ t.val < n := by
  rw [List.mem_take_iff_getElem]
  constructor
  · rintro ⟨i, hi, rfl⟩
    simp at hi ⊢
    omega
  · intro ht
    have hlt := t.isLt
    exact ⟨t.val, by simp; omega, by simp⟩

theorem mem_drop_finRange {t : Tid b} :
    t ∈ (List.finRange b.hwThreadsNums).drop n ↔ n ≤ t.val := by
  rw [List.mem_drop_iff_getElem]
  constructor
  · rintro ⟨i, hi, rfl⟩
    simp
  · intro ht
    have hlt := t.isLt
    refine ⟨t.val - n, by simp; omega, Fin.ext ?_⟩
    simp only [List.getElem_finRange, Fin.val_cast]
    omega

theorem liveFrom_eq_nil_iff :
    s.liveFrom n = [] ↔ ∀ t : Tid b, n ≤ t.val → s.live t = false := by
  simp only [OsState.liveFrom, List.filter_eq_nil_iff, mem_drop_finRange, Bool.not_eq_true]

theorem length_liveBelow_le : (s.liveBelow n).length ≤ min n b.hwThreadsNums := by
  have hle := List.length_filter_le s.live ((List.finRange b.hwThreadsNums).take n)
  rwa [List.length_take, List.length_finRange] at hle

theorem length_liveBelow_iff :
    (s.liveBelow n).length = min n b.hwThreadsNums ↔
      ∀ t : Tid b, t.val < n → s.live t = true := by
  have hlen : ((List.finRange b.hwThreadsNums).take n).length = min n b.hwThreadsNums := by
    rw [List.length_take, List.length_finRange]
  rw [OsState.liveBelow, ← hlen, List.length_filter_eq_length_iff]
  simp only [mem_take_finRange]

end room

theorem osThreadEnumerate_count (s : OsState b) (threadArray : Nat → Option (Tid b))
    (arrayItems : BitVec 32) :
    (osThreadEnumerate s threadArray arrayItems).2 = (s.liveBelow arrayItems.toNat).length := by
  rw [osThreadEnumerate, (foldl_enumerateTurn s _ threadArray 0).1, Nat.zero_add]
  rfl

/-- What is written is always right. -/
theorem osThreadEnumerate_ids (s : OsState b) (threadArray : Nat → Option (Tid b))
    (arrayItems : BitVec 32) (k : Nat) :
    (osThreadEnumerate s threadArray arrayItems).1 k =
      if k < (s.liveBelow arrayItems.toNat).length then s.liveThreads[k]? else threadArray k := by
  rw [osThreadEnumerate, (foldl_enumerateTurn s _ threadArray 0).2]
  simp only [Nat.zero_le, true_and, Nat.zero_add, Nat.sub_zero]
  show (if k < (s.liveBelow _).length then (s.liveBelow _)[k]? else _) = _
  split
  · next hk => rw [liveThreads_split s arrayItems.toNat, List.getElem?_append_left hk]
  · rfl

/-- **osThreadEnumerate** agrees with `osThreadGetCount` exactly when no live
    thread is beyond the room in the array or only live ones are within it. -/
theorem osThreadEnumerate_agrees_iff (s : OsState b) (threadArray : Nat → Option (Tid b))
    (arrayItems : BitVec 32) :
    EnumeratesLive s threadArray arrayItems (osThreadEnumerate s threadArray arrayItems) ↔
      LiveWithinRoom s arrayItems := by
  have hcount := osThreadEnumerate_count s threadArray arrayItems
  have hids := osThreadEnumerate_ids s threadArray arrayItems
  have htotal : osThreadGetCount s =
      (s.liveBelow arrayItems.toNat).length + (s.liveFrom arrayItems.toNat).length := by
    rw [osThreadGetCount_eq, liveThreads_split s arrayItems.toNat, List.length_append]
  have hle := length_liveBelow_le s arrayItems.toNat
  have hbelow := length_liveBelow_iff s arrayItems.toNat
  have hfrom := liveFrom_eq_nil_iff s arrayItems.toNat
  constructor
  · intro h
    have hmin := h.count
    rw [hcount, htotal] at hmin
    by_cases hnil : s.liveFrom arrayItems.toNat = []
    · exact .inl (hfrom.mp hnil)
    · have hpos := List.length_pos_iff.mpr hnil
      exact .inr (hbelow.mp (by omega))
  · intro h
    constructor
    case count =>
      rw [hcount, htotal]
      rcases h with hdead | hlive
      · rw [hfrom.mpr hdead, List.length_nil]
        omega
      · have hfull := hbelow.mpr hlive
        by_cases hroom : arrayItems.toNat ≤ b.hwThreadsNums
        · omega
        · -- the whole table fits
          have hnil := hfrom.mpr fun t ht => absurd t.isLt (by omega)
          rw [hnil, List.length_nil]
          omega
    case ids =>
      intro k hk
      rw [hcount] at hk
      have hlt : k < s.liveThreads.length := by
        rw [← osThreadGetCount_eq, htotal]
        omega
      refine ⟨s.liveThreads[k], List.getElem?_eq_getElem hlt, ?_⟩
      rw [hids, if_pos hk, List.getElem?_eq_getElem hlt]
    case untouched =>
      intro k hk
      rw [hcount] at hk
      rw [hids, if_neg (Nat.not_lt.mpr hk)]

/-- Thread 1 has ended, the threads 0 and 2 are live. -/
def holeState : OsState .threads4Dspm12 :=
  let s := initialized .threads4Dspm12
  { s with thread := fun t => if t.val = 2 then { s.thread 0 with func := 0x800 } else s.thread t }

/-- Room for two ids, two live threads, and one id returned. -/
theorem holeState_not_enumerated :
    (holeState.liveThreads = [0, 2] ∧ (osThreadEnumerate holeState (fun _ => none) 2).2 = 1) ∧
      ¬ EnumeratesLive holeState (fun _ => none) 2
        (osThreadEnumerate holeState (fun _ => none) 2) := by
  have hlive : holeState.liveThreads = [0, 2] := by decide
  have hcount : (osThreadEnumerate holeState (fun _ => none) 2).2 = 1 := by decide
  refine ⟨⟨hlive, hcount⟩, fun h => ?_⟩
  have hmin := h.count
  rw [hcount, osThreadGetCount_eq, hlive] at hmin
  exact absurd hmin (by decide)

end Flexpret.Os
