import Mathlib.Data.Finset.Max
import Mathlib.Data.Nat.ModEq
import Mathlib.Data.Nat.Nth
import Mathlib.Order.Interval.Finset.Nat
import Mathlib.Tactic.Common

/-! # Round Robin

    Grants that walk cyclically through a finite set of requests of a linear
    order: the next grant is the least request above the last one, or the
    least of all when there is none.  A walk over `k` requests grants each of
    them exactly once in any `k` consecutive turns, whatever comes between the
    turns; and a position that stays requested among changing requests waits at
    most one round.
-/

namespace RoundRobin

variable {α : Type*} [LinearOrder α]

/-! ## Section 1: The next grant -/

/-- `g` is the request that follows `last` in cyclic order. -/
structure IsNext (R : Finset α) (last g : α) : Prop where
  mem : g ∈ R
  above_or_wrap :
    (last < g ∧ ∀ r ∈ R, last < r → g ≤ r) ∨
    ((∀ r ∈ R, r ≤ last) ∧ ∀ r ∈ R, g ≤ r)

theorem isNext_iff {R : Finset α} {last g : α} :
    IsNext R last g ↔ g ∈ R ∧
      ((last < g ∧ ∀ r ∈ R, last < r → g ≤ r) ∨ ((∀ r ∈ R, r ≤ last) ∧ ∀ r ∈ R, g ≤ r)) := by
  constructor
  · intro h
    exact ⟨h.mem, h.above_or_wrap⟩
  · rintro ⟨hmem, hcases⟩
    exact ⟨hmem, hcases⟩

instance (R : Finset α) (last g : α) : Decidable (IsNext R last g) :=
  decidable_of_iff _ isNext_iff.symm

/-- The next grant is unique. -/
theorem IsNext.unique {R : Finset α} {last g g' : α} (h : IsNext R last g)
    (h' : IsNext R last g') : g = g' := by
  obtain ⟨hlt, hleast⟩ | ⟨hall, hleast⟩ := h.above_or_wrap
  · obtain ⟨hlt', hleast'⟩ | ⟨hall', -⟩ := h'.above_or_wrap
    · exact le_antisymm (hleast g' h'.mem hlt') (hleast' g h.mem hlt)
    · exact absurd hlt (not_lt_of_ge (hall' g h.mem))
  · obtain ⟨hlt', -⟩ | ⟨-, hleast'⟩ := h'.above_or_wrap
    · exact absurd hlt' (not_lt_of_ge (hall g' h'.mem))
    · exact le_antisymm (hleast g' h'.mem) (hleast' g h.mem)

/-! ## Section 2: Ranks -/

/-- How many requests lie below `a`. -/
def rank (R : Finset α) (a : α) : Nat := (R.filter (· < a)).card

theorem rank_lt_card {R : Finset α} {a : α} (ha : a ∈ R) : rank R a < R.card := by
  refine Finset.card_lt_card (Finset.filter_ssubset.mpr ⟨a, ha, lt_irrefl a⟩)

theorem rank_lt_rank {R : Finset α} {a a' : α} (ha : a ∈ R) (h : a < a') :
    rank R a < rank R a' := by
  refine Finset.card_lt_card ((Finset.ssubset_iff_of_subset ?_).mpr ⟨a, ?_, ?_⟩)
  · exact Finset.monotone_filter_right R fun r _ hr => lt_trans hr h
  · exact Finset.mem_filter.mpr ⟨ha, h⟩
  · exact fun hmem => lt_irrefl a (Finset.mem_filter.mp hmem).2

theorem rank_injective {R : Finset α} {a a' : α} (ha : a ∈ R) (ha' : a' ∈ R)
    (h : rank R a = rank R a') : a = a' := by
  obtain hlt | heq | hgt := lt_trichotomy a a'
  · exact absurd h (rank_lt_rank ha hlt).ne
  · exact heq
  · exact absurd h (rank_lt_rank ha' hgt).ne'

/-- The next grant is one rank further, around the set. -/
theorem IsNext.rank_eq {R : Finset α} {last g : α} (h : IsNext R last g) (hlast : last ∈ R) :
    rank R g = (rank R last + 1) % R.card := by
  obtain ⟨hlt, hleast⟩ | ⟨hall, hleast⟩ := h.above_or_wrap
  · have hbelow : R.filter (· < g) = insert last (R.filter (· < last)) := by
      ext r
      simp only [Finset.mem_filter, Finset.mem_insert]
      constructor
      · rintro ⟨hr, hrg⟩
        obtain hlt' | heq | hgt := lt_trichotomy r last
        · exact .inr ⟨hr, hlt'⟩
        · exact .inl heq
        · exact absurd hrg (not_lt_of_ge (hleast r hr hgt))
      · rintro (rfl | ⟨hr, hrl⟩)
        · exact ⟨hlast, hlt⟩
        · exact ⟨hr, hrl.trans hlt⟩
    have hcard : rank R g = rank R last + 1 := by
      rw [rank, hbelow, Finset.card_insert_of_notMem (by simp), rank]
    rw [← hcard, Nat.mod_eq_of_lt (rank_lt_card h.mem)]
  · have hzero : rank R g = 0 := by
      rw [rank, Finset.card_eq_zero, Finset.filter_eq_empty_iff]
      exact fun r hr => not_lt_of_ge (hleast r hr)
    have htop : rank R last + 1 = R.card := by
      have hrest : R.filter (· < last) = R.erase last := by
        ext r
        simp only [Finset.mem_filter, Finset.mem_erase]
        exact ⟨fun ⟨hr, hlt⟩ => ⟨hlt.ne, hr⟩, fun ⟨hne, hr⟩ => ⟨hr, lt_of_le_of_ne (hall r hr) hne⟩⟩
      rw [rank, hrest, Finset.card_erase_add_one hlast]
    rw [hzero, htop, Nat.mod_self]

/-! ## Section 3: Walks -/

/-- A walk of `n` grants, each the next after the one before. -/
structure Walk (R : Finset α) (n : Nat) (grant : Nat → α) : Prop where
  mem : ∀ c, c < n → grant c ∈ R
  next : ∀ c, c + 1 < n → IsNext R (grant c) (grant (c + 1))

theorem Walk.rank_eq {R : Finset α} {n : Nat} {grant : Nat → α} (h : Walk R n grant) {c : Nat}
    (j : Nat) (hj : c + j < n) :
    rank R (grant (c + j)) = (rank R (grant c) + j) % R.card := by
  induction j with
  | zero => exact (Nat.mod_eq_of_lt (rank_lt_card (h.mem c hj))).symm
  | succ j ih =>
    have hlast := h.mem (c + j) (by omega)
    rw [← Nat.add_assoc, (h.next (c + j) hj).rank_eq hlast, ih (by omega), Nat.mod_add_mod,
      Nat.add_assoc]

/-- **Fairness**: in any `R.card` consecutive turns every request is granted
    exactly once. -/
theorem Walk.existsUnique {R : Finset α} {n : Nat} {grant : Nat → α} (h : Walk R n grant)
    {c : Nat} (hc : c + R.card ≤ n) {p : α} (hp : p ∈ R) :
    ∃! j, j < R.card ∧ grant (c + j) = p := by
  have hcard : 0 < R.card := Finset.card_pos.mpr ⟨p, hp⟩
  have hstart := rank_lt_card (h.mem c (by omega))
  have hrank := rank_lt_card hp
  have hgrant : ∀ j, j < R.card →
      (grant (c + j) = p ↔ (rank R (grant c) + j) % R.card = rank R p) := by
    intro j hj
    rw [← h.rank_eq j (by omega)]
    exact ⟨fun heq => heq ▸ rfl, rank_injective (h.mem _ (by omega)) hp⟩
  -- The turn is the distance from the rank of the first grant to that of `p`.
  refine ⟨(R.card + rank R p - rank R (grant c)) % R.card, ⟨Nat.mod_lt _ hcard, ?_⟩, ?_⟩
  · rw [hgrant _ (Nat.mod_lt _ hcard), Nat.add_mod_mod,
      show rank R (grant c) + (R.card + rank R p - rank R (grant c)) = R.card + rank R p by omega,
      Nat.add_mod_left, Nat.mod_eq_of_lt hrank]
  · rintro j ⟨hj, hgj⟩
    rw [hgrant j hj] at hgj
    rw [← hgj]
    obtain hlt | hge := lt_or_ge (rank R (grant c) + j) R.card
    · rw [Nat.mod_eq_of_lt hlt,
        show R.card + (rank R (grant c) + j) - rank R (grant c) = R.card + j by omega,
        Nat.add_mod_left, Nat.mod_eq_of_lt hj]
    · have hwrap : (rank R (grant c) + j) % R.card = rank R (grant c) + j - R.card := by
        rw [Nat.mod_eq_sub_mod hge, Nat.mod_eq_of_lt (by omega)]
      rw [hwrap, show R.card + (rank R (grant c) + j - R.card) - rank R (grant c) = j by omega,
        Nat.mod_eq_of_lt hj]

/-! ## Section 4: Walks with pauses -/

/-- In `n` cycles, some of which are turns, each turn grants the request that
    follows the grant of the turn before. -/
structure TurnWalk (R : Finset α) (n : Nat) (turn : Nat → Prop) (grant : Nat → α) : Prop where
  mem : ∀ c, c < n → turn c → grant c ∈ R
  next : ∀ c c', c < c' → c' < n → turn c → turn c' → (∀ d, c < d → d < c' → ¬ turn d) →
    IsNext R (grant c) (grant c')

section turns

variable {turn : Nat → Prop} [DecidablePred turn]

/-- The turn before which there were `k` turns. -/
theorem exists_turn {k n : Nat} (h : k < Nat.count turn n) :
    ∃ c, c < n ∧ turn c ∧ Nat.count turn c = k := by
  induction n with
  | zero => exact absurd h (Nat.not_lt_zero k)
  | succ n ih =>
    rw [Nat.count_succ] at h
    by_cases hlt : k < Nat.count turn n
    · obtain ⟨c, hc, hturn⟩ := ih hlt
      exact ⟨c, Nat.lt_succ_of_lt hc, hturn⟩
    · by_cases hn : turn n
      · rw [if_pos hn] at h
        exact ⟨n, Nat.lt_succ_self n, hn, by omega⟩
      · rw [if_neg hn] at h
        exact absurd h hlt

theorem count_lt_of_turn {c b : Nat} (hturn : turn c) (hc : c < b) :
    Nat.count turn c < Nat.count turn b :=
  calc Nat.count turn c < Nat.count turn (c + 1) := by simp [Nat.count_succ, hturn]
    _ ≤ Nat.count turn b := Nat.count_monotone turn hc

/-- The turns by themselves are a walk. -/
theorem TurnWalk.walk {R : Finset α} {n : Nat} {grant : Nat → α}
    (h : TurnWalk R n turn grant) :
    Walk R (Nat.count turn n) fun k => grant (Nat.nth turn k) := by
  constructor
  · intro k hk
    obtain ⟨c, hc, hturn, rfl⟩ := exists_turn hk
    rw [Nat.nth_count hturn]
    exact h.mem c hc hturn
  · intro k hk
    obtain ⟨c, hc, hturn, hcount⟩ := exists_turn (Nat.lt_of_succ_lt hk)
    obtain ⟨c', hc', hturn', hcount'⟩ := exists_turn hk
    have hlt : c < c' := by
      by_contra hle
      have hmono := Nat.count_monotone turn (not_lt.mp hle)
      omega
    have hbetween : ∀ d, c < d → d < c' → ¬ turn d := by
      intro d hcd hdc hd
      have hlow := count_lt_of_turn hturn hcd
      have hhigh := count_lt_of_turn hd hdc
      omega
    have hnext := h.next c c' hlt hc' hturn hturn' hbetween
    rwa [← Nat.nth_count hturn, ← Nat.nth_count hturn', hcount, hcount'] at hnext

/-- **Fairness with pauses**: in any stretch of `R.card` turns every request is
    granted exactly once. -/
theorem TurnWalk.existsUnique {R : Finset α} {n : Nat} {grant : Nat → α}
    (h : TurnWalk R n turn grant) {a b : Nat} (hb : b ≤ n)
    (hcount : Nat.count turn b = Nat.count turn a + R.card) {p : α} (hp : p ∈ R) :
    ∃! c, (a ≤ c ∧ c < b ∧ turn c) ∧ grant c = p := by
  have hn := Nat.count_monotone turn hb
  obtain ⟨j, ⟨hj, hgrant⟩, huniq⟩ := h.walk.existsUnique (hcount ▸ hn) hp
  obtain ⟨c, hc, hturn, hcj⟩ : ∃ c, c < b ∧ turn c ∧ Nat.count turn c = Nat.count turn a + j :=
    exists_turn (by omega)
  have hac : a ≤ c := by
    by_contra hlt
    have hbelow := count_lt_of_turn hturn (not_le.mp hlt)
    omega
  refine ⟨c, ⟨⟨hac, hc, hturn⟩, ?_⟩, ?_⟩
  · rw [← hcj, Nat.nth_count hturn] at hgrant
    exact hgrant
  · intro c' ⟨⟨hac', hc', hturn'⟩, hgrant'⟩
    have hlow := Nat.count_monotone turn hac'
    have hhigh := count_lt_of_turn hturn' hc'
    have hindex : Nat.count turn a + (Nat.count turn c' - Nat.count turn a) =
        Nat.count turn c' := by omega
    have hj' : Nat.count turn c' - Nat.count turn a = j := by
      refine huniq _ ⟨by omega, ?_⟩
      show grant (Nat.nth turn (Nat.count turn a + (Nat.count turn c' - Nat.count turn a))) = p
      rw [hindex, Nat.nth_count hturn']
      exact hgrant'
    calc c' = Nat.nth turn (Nat.count turn c') := (Nat.nth_count hturn').symm
      _ = Nat.nth turn (Nat.count turn c) := by rw [← hindex, hj', hcj]
      _ = c := Nat.nth_count hturn

/-- Where the turns reach a count. -/
theorem exists_count_eq {a b k : Nat} (hab : a ≤ b)
    (h : Nat.count turn a + k ≤ Nat.count turn b) :
    ∃ m, a ≤ m ∧ m ≤ b ∧ Nat.count turn m = Nat.count turn a + k := by
  obtain hlt | heq := Nat.lt_or_eq_of_le h
  · obtain ⟨m, hm, -, hcount⟩ := exists_turn hlt
    obtain hle | hlt := Nat.lt_or_ge m a
    · have hmono := Nat.count_monotone turn hle.le
      exact ⟨a, le_rfl, hab, by omega⟩
    · exact ⟨m, hlt, hm.le, hcount⟩
  · exact ⟨b, hab, le_rfl, heq.symm⟩

/-- **A fair share**: in a stretch with `k` turns for each request, every request is
    granted `k` times at least. -/
theorem TurnWalk.served {R : Finset α} {n : Nat} {grant : Nat → α} (h : TurnWalk R n turn grant)
    {p : α} (hp : p ∈ R) {a b k : Nat} (hab : a ≤ b) (hb : b ≤ n)
    (hcount : Nat.count turn a + k * R.card ≤ Nat.count turn b) :
    Nat.count (fun c => turn c ∧ grant c = p) a + k ≤
      Nat.count (fun c => turn c ∧ grant c = p) b := by
  induction k generalizing a with
  | zero => exact Nat.count_monotone _ hab
  | succ k ih =>
    rw [Nat.succ_mul] at hcount
    obtain ⟨m, ham, hmb, hm⟩ : ∃ m, a ≤ m ∧ m ≤ b ∧
        Nat.count turn m = Nat.count turn a + R.card := exists_count_eq hab (by omega)
    obtain ⟨c, ⟨⟨hac, hcm, hturn⟩, hgrant⟩, -⟩ := h.existsUnique (hmb.trans hb) hm hp
    have hone : Nat.count (fun c => turn c ∧ grant c = p) a <
        Nat.count (fun c => turn c ∧ grant c = p) m :=
      (Nat.count_monotone _ hac).trans_lt (count_lt_of_turn ⟨hturn, hgrant⟩ hcm)
    have hrest := ih hmb (by omega)
    omega

end turns

/-! ## Section 5: Changing requests -/

section ahead

variable {n start : Nat} {R : Finset (Fin n)} {g p : Fin n}

/-- How many positions come before `i` in the cyclic order from `start` on. -/
def ahead (start : Nat) (i : Fin n) : Nat := (i.val + n - start) % n

theorem ahead_eq (h : start ≤ n) (i : Fin n) :
    ahead start i = if start ≤ i.val then i.val - start else i.val + n - start := by
  have hi := i.isLt
  unfold ahead
  split
  · rw [show i.val + n - start = i.val - start + n by omega, Nat.add_mod_right,
      Nat.mod_eq_of_lt (by omega)]
  · rw [Nat.mod_eq_of_lt (by omega)]

theorem ahead_lt (start : Nat) (i : Fin n) : ahead start i < n :=
  Nat.mod_lt _ (Nat.lt_of_le_of_lt (Nat.zero_le _) i.isLt)

/-- `g` is the first request from `start` on. -/
structure IsFirst (R : Finset (Fin n)) (start : Nat) (g : Fin n) : Prop where
  mem : g ∈ R
  first : ∀ i ∈ R, ahead start g ≤ ahead start i

/-- The request that follows `last` is the first behind it. -/
theorem IsNext.isFirst {last : Fin n} (h : IsNext R last g) : IsFirst R (last.val + 1) g := by
  have hlast := last.isLt
  refine ⟨h.mem, fun i hi => ?_⟩
  have hi' := i.isLt
  have hg := g.isLt
  rw [ahead_eq (by omega), ahead_eq (by omega)]
  obtain ⟨hlt, hleast⟩ | ⟨hall, hleast⟩ := h.above_or_wrap
  · have habove : last.val < i.val → g.val ≤ i.val := hleast i hi
    have hlt : last.val < g.val := hlt
    split <;> split <;> omega
  · have hle : i.val ≤ last.val := hall i hi
    have hgle : g.val ≤ last.val := hall g h.mem
    have hleast : g.val ≤ i.val := hleast i hi
    split <;> split <;> omega

/-- **Closer**: a request that is passed over has fewer positions before it in the
    next turn. -/
theorem IsFirst.ahead_lt_ahead (h : IsFirst R start g) (hstart : start ≤ n) (hp : p ∈ R)
    (hne : g ≠ p) : ahead (g.val + 1) p < ahead start p := by
  have hg := g.isLt
  have hp' := p.isLt
  have hne' : g.val ≠ p.val := fun heq => hne (Fin.ext heq)
  have hfirst := h.first p hp
  rw [ahead_eq hstart, ahead_eq hstart] at hfirst
  rw [ahead_eq (by omega), ahead_eq hstart]
  by_cases hbehind : start ≤ p.val
  · rw [if_pos hbehind] at hfirst ⊢
    split at hfirst <;> split <;> omega
  · rw [if_neg hbehind] at hfirst ⊢
    split at hfirst <;> split <;> omega

/-- **Bounded waiting**: as long as `p` is requested in every turn, it is granted
    before as many turns as there are positions before it, however the other
    requests change. -/
theorem exists_granted {R : Nat → Finset (Fin n)} {start : Nat → Nat}
    {granted : Nat → Fin n → Prop} {k d : Nat}
    (hgrant : ∀ c, k ≤ c → c ≤ k + d →
      ∃ g, granted c g ∧ IsFirst (R c) (start c) g ∧ start (c + 1) = g.val + 1)
    (hp : ∀ c, k ≤ c → c ≤ k + d → p ∈ R c) (hstart : start k ≤ n)
    (hahead : ahead (start k) p ≤ d) : ∃ c, k ≤ c ∧ c ≤ k + d ∧ granted c p := by
  induction d generalizing k with
  | zero =>
    obtain ⟨g, hg, hfirst, -⟩ := hgrant k (Nat.le_refl k) (Nat.le_refl k)
    by_cases hgp : g = p
    · exact ⟨k, Nat.le_refl k, Nat.le_refl k, hgp ▸ hg⟩
    · have hcloser := hfirst.ahead_lt_ahead hstart (hp k (Nat.le_refl k) (Nat.le_refl k)) hgp
      omega
  | succ d ih =>
    obtain ⟨g, hg, hfirst, hnext⟩ := hgrant k (Nat.le_refl k) (by omega)
    by_cases hgp : g = p
    · exact ⟨k, Nat.le_refl k, by omega, hgp ▸ hg⟩
    · have hcloser := hfirst.ahead_lt_ahead hstart (hp k (Nat.le_refl k) (by omega)) hgp
      rw [← hnext] at hcloser
      have hg := g.isLt
      obtain ⟨c, hlow, hhigh, hc⟩ := ih (k := k + 1)
        (fun c hlow hhigh => hgrant c (by omega) (by omega))
        (fun c hlow hhigh => hp c (by omega) (by omega)) (by omega) (by omega)
      exact ⟨c, by omega, by omega, hc⟩

end ahead

end RoundRobin
