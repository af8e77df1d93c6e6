import Flexpret.Lib.BitCount
import Flexpret.Lib.Numerals
import Mathlib.Data.List.Dedup
import Mathlib.Data.List.Sort

/-! # Two-Level Simplification

    The minimiser behind the decode logic: from the words on which an output is to be
    set and those on which it may be, it finds the prime implicants by merging terms
    that differ in a bit, drops what is dominated, and chooses a cover.
-/

open BitCount

namespace Flexpret.Core

/-! ## Section 1: Terms -/

/-- A product term: the bits under the mask are free. -/
structure Term (bits : Nat) where
  value : BitVec bits
  mask : BitVec bits
  free : value &&& mask = 0#(bits)
  deriving DecidableEq

namespace Term

variable {bits : Nat} (t x : Term bits)

def covers : Bool := (t.value ^^^ x.value) &&& ~~~t.mask ||| x.mask &&& ~~~t.mask = 0#(bits)

def intersects : Bool := (t.value ^^^ x.value) &&& ~~~t.mask &&& ~~~x.mask = 0#(bits)

/-- `<` of terms. -/
def less : Bool := t.value < x.value || t.value = x.value && t.mask < x.mask

/-- The values differ by a power of two. -/
def similar : Bool :=
  let diff := t.value - x.value
  t.mask = x.mask && t.value > x.value && diff &&& (diff - 1) = 0#(bits)

theorem merge_free (bit : BitVec bits) : (t.value &&& ~~~bit) &&& (t.mask ||| bit) = 0#(bits) := by
  have hfree := t.free
  apply BitVec.eq_of_getLsbD_eq
  intro i hi
  have hbit := congrArg (fun word => word.getLsbD i) hfree
  simp only [BitVec.getLsbD_and, BitVec.getLsbD_or, BitVec.getLsbD_not, BitVec.getLsbD_zero]
    at hbit ⊢
  grind

/-- The bit in which the terms differ becomes free. -/
def merge : Term bits :=
  let bit := t.value - x.value
  ⟨t.value &&& ~~~bit, t.mask ||| bit, t.merge_free bit⟩

/-! ## Section 2: The words of a term -/

/-- The comparison that `logic` makes with an address. -/
def Matches (a : BitVec bits) : Prop := a &&& ~~~t.mask = t.value

instance (a : BitVec bits) : Decidable (t.Matches a) := inferInstanceAs (Decidable (_ = _))

variable {t x}

theorem free_bit (t : Term bits) {i : Nat} (h : t.mask.getLsbD i = true) :
    t.value.getLsbD i = false := by
  have hbit := congrArg (fun word => word.getLsbD i) t.free
  simp only [BitVec.getLsbD_and, BitVec.getLsbD_zero, h, Bool.and_true] at hbit
  exact hbit

/-- A word agrees with the value where the mask is clear. -/
theorem matches_iff {a : BitVec bits} :
    t.Matches a ↔ ∀ i, i < bits → t.mask.getLsbD i = false → a.getLsbD i = t.value.getLsbD i := by
  constructor
  · intro h i hi hmask
    have hbit := congrArg (fun word => word.getLsbD i) (h : a &&& ~~~t.mask = t.value)
    simp only [BitVec.getLsbD_and, BitVec.getLsbD_not, hi, hmask] at hbit
    simpa using hbit
  · intro h
    apply BitVec.eq_of_getLsbD_eq
    intro i hi
    rw [BitVec.getLsbD_and, BitVec.getLsbD_not]
    cases hmask : t.mask.getLsbD i with
    | false => rw [h i hi hmask, Bool.not_false, Bool.and_true, decide_eq_true hi, Bool.and_true]
    | true => rw [Bool.not_true, Bool.and_false, Bool.and_false, t.free_bit hmask]

theorem matches_value (t : Term bits) : t.Matches t.value :=
  matches_iff.mpr fun _ _ _ => rfl

theorem covers_bits : t.covers x = true ↔ ∀ i, i < bits → t.mask.getLsbD i = false →
    x.mask.getLsbD i = false ∧ x.value.getLsbD i = t.value.getLsbD i := by
  rw [covers, decide_eq_true_iff, BitVec.eq_of_getLsbD_eq_iff]
  apply forall₂_congr
  intro i hi
  simp only [BitVec.getLsbD_or, BitVec.getLsbD_and, BitVec.getLsbD_xor, BitVec.getLsbD_not, hi]
  cases t.mask.getLsbD i <;> cases x.mask.getLsbD i <;> cases t.value.getLsbD i <;>
    cases x.value.getLsbD i <;> simp

theorem intersects_bits : t.intersects x = true ↔ ∀ i, i < bits → t.mask.getLsbD i = false →
    x.mask.getLsbD i = false → t.value.getLsbD i = x.value.getLsbD i := by
  rw [intersects, decide_eq_true_iff, BitVec.eq_of_getLsbD_eq_iff]
  apply forall₂_congr
  intro i hi
  simp only [BitVec.getLsbD_and, BitVec.getLsbD_xor, BitVec.getLsbD_not, hi]
  cases t.mask.getLsbD i <;> cases x.mask.getLsbD i <;> cases t.value.getLsbD i <;>
    cases x.value.getLsbD i <;> simp

/-- **Covering** is inclusion. -/
theorem covers_iff : t.covers x = true ↔ ∀ a, x.Matches a → t.Matches a := by
  rw [covers_bits]
  constructor
  · intro h a ha
    rw [matches_iff] at ha ⊢
    intro i hi hmask
    obtain ⟨hx, hvalue⟩ := h i hi hmask
    exact (ha i hi hx).trans hvalue
  · intro h i hi hmask
    have hlow := matches_iff.mp (h _ x.matches_value) i hi hmask
    refine ⟨?_, hlow⟩
    -- a free bit of `x` could be set as well
    rw [← Bool.not_eq_true]
    intro hx
    have hmatch : x.Matches (x.value ||| x.mask) := by
      rw [matches_iff]
      intro j hj hclear
      rw [BitVec.getLsbD_or, hclear, Bool.or_false]
    have hhigh := matches_iff.mp (h _ hmatch) i hi hmask
    rw [BitVec.getLsbD_or, hx, Bool.or_true] at hhigh
    rw [x.free_bit hx, ← hhigh] at hlow
    exact Bool.noConfusion hlow

/-- **Intersecting** is having a word in common. -/
theorem intersects_iff : t.intersects x = true ↔ ∃ a, t.Matches a ∧ x.Matches a := by
  rw [intersects_bits]
  constructor
  · intro h
    refine ⟨t.value ||| x.value, matches_iff.mpr ?_, matches_iff.mpr ?_⟩
    · intro i hi hmask
      rw [BitVec.getLsbD_or]
      cases hx : x.mask.getLsbD i with
      | false => rw [h i hi hmask hx, Bool.or_self]
      | true => rw [x.free_bit hx, Bool.or_false]
    · intro i hi hmask
      rw [BitVec.getLsbD_or]
      cases ht : t.mask.getLsbD i with
      | false => rw [h i hi ht hmask, Bool.or_self]
      | true => rw [t.free_bit ht, Bool.false_or]
  · rintro ⟨a, hta, hxa⟩ i hi ht hx
    exact (matches_iff.mp hta i hi ht).symm.trans (matches_iff.mp hxa i hi hx)

theorem covers_trans {y : Term bits} (h : t.covers x = true) (h' : x.covers y = true) :
    t.covers y = true :=
  covers_iff.mpr fun a ha => covers_iff.mp h a (covers_iff.mp h' a ha)

theorem covers_self (t : Term bits) : t.covers t = true := covers_iff.mpr fun _ ha => ha

/-! ## Section 3: Merging -/

/-- `t` has bit `k` set, which is clear in `x`, and else they are alike. -/
structure Adjacent (k : Nat) (t x : Term bits) : Prop where
  lt : k < bits
  mask : t.mask = x.mask
  value : t.value = x.value ||| BitVec.twoPow bits k
  clear : x.value.getLsbD k = false

theorem similar_adjacent (h : t.similar x = true)
    (hcount : bitCount t.value = bitCount x.value + 1) : ∃ k, Adjacent k t x := by
  unfold similar at h
  simp only [Bool.and_eq_true, decide_eq_true_iff] at h
  obtain ⟨⟨hmask, hlt⟩, hpow⟩ := h
  obtain ⟨k, hk, -, hvalue, hclear⟩ := eq_or_twoPow (BitVec.lt_def.mp hlt) hpow hcount
  exact ⟨k, hk, hmask, hvalue, hclear⟩

namespace Adjacent

variable {k : Nat} (h : Adjacent k t x)

include h

theorem mask_clear : x.mask.getLsbD k = false := by
  rw [← h.mask, ← Bool.not_eq_true]
  intro hset
  have hvalue := t.free_bit hset
  rw [h.value, BitVec.getLsbD_or, BitVec.getLsbD_twoPow, decide_eq_true h.lt] at hvalue
  simp at hvalue

/-- The merged term is that of `x` with bit `k` free. -/
theorem merge_eq : (t.merge x).value = x.value ∧
    (t.merge x).mask = x.mask ||| BitVec.twoPow bits k := by
  have hdiff : t.value - x.value = BitVec.twoPow bits k := by
    rw [h.value, ← BitVec.add_eq_or_of_and_eq_zero _ _ (and_twoPow_of_clear h.clear),
      BitVec.add_comm, BitVec.add_sub_cancel]
  constructor
  · show t.value &&& ~~~(t.value - x.value) = x.value
    rw [hdiff, h.value]
    apply BitVec.eq_of_getLsbD_eq
    intro i hi
    have hclear := h.clear
    simp only [BitVec.getLsbD_and, BitVec.getLsbD_or, BitVec.getLsbD_not, BitVec.getLsbD_twoPow]
    grind
  · show t.mask ||| (t.value - x.value) = _
    rw [hdiff, h.mask]

/-- **Merging** is union. -/
theorem merge_matches (a : BitVec bits) :
    (t.merge x).Matches a ↔ t.Matches a ∨ x.Matches a := by
  obtain ⟨hvalue, hmask⟩ := h.merge_eq
  have hclear := h.clear
  have hk := h.lt
  have hfree := h.mask_clear
  have hother : ∀ i, k ≠ i → (BitVec.twoPow bits k).getLsbD i = false := by
    intro i hik
    rw [BitVec.getLsbD_twoPow, decide_eq_false hik, Bool.and_false]
  have hbit : (BitVec.twoPow bits k).getLsbD k = true := by
    rw [BitVec.getLsbD_twoPow, decide_eq_true hk, decide_eq_true rfl, Bool.and_self]
  simp only [matches_iff, hvalue, hmask, h.value, h.mask, BitVec.getLsbD_or]
  constructor
  · intro hall
    cases hset : a.getLsbD k with
    | false =>
      right
      intro i hi hm
      by_cases hik : k = i
      · rw [← hik, hset, hclear]
      · exact hall i hi (by rw [hm, hother i hik, Bool.or_self])
    | true =>
      left
      intro i hi hm
      by_cases hik : k = i
      · rw [← hik, hset, hbit, Bool.or_true]
      · rw [hother i hik, Bool.or_false]
        exact hall i hi (by rw [hm, hother i hik, Bool.or_self])
  · rintro (hall | hall) i hi hm
    all_goals
      rw [Bool.or_eq_false_iff] at hm
      have hik : k ≠ i := by
        rintro rfl
        exact Bool.noConfusion (hbit.symm.trans hm.2)
    · rw [hall i hi hm.1, hother i hik, Bool.or_false]
    · exact hall i hi hm.1

theorem merge_covers : (t.merge x).covers t = true ∧ (t.merge x).covers x = true :=
  ⟨covers_iff.mpr fun a ha => (h.merge_matches a).mpr (.inl ha),
    covers_iff.mpr fun a ha => (h.merge_matches a).mpr (.inr ha)⟩

/-- A merged term has one more free bit. -/
theorem merge_count : bitCount (t.merge x).value = bitCount x.value ∧
    bitCount (t.merge x).mask = bitCount x.mask + 1 := by
  obtain ⟨hvalue, hmask⟩ := h.merge_eq
  rw [hvalue, hmask]
  exact ⟨rfl, bitCount_or_twoPow h.lt h.mask_clear⟩

end Adjacent

end Term

/-! ## Section 4: Tables -/

/-- `table`, with the terms whose `prime` is false. -/
structure Table (bits : Nat) where
  terms : Nat → Nat → List (Term bits)
  merged : List (Term bits)

namespace Table

variable {bits : Nat}

/-- Terms by the bits that are free and by those that are set. -/
def ofTerms (implicants : List (Term bits)) : Table bits where
  terms := fun i j => ((implicants.filter fun t => i = bitCount t.mask).filter
    fun t => j = bitCount t.value).dedup
  merged := []

/-- `table(i+1)(j) += u`, where `u` was merged from `ts`. -/
def add (s : Table bits) (i j : Nat) (u : Term bits) (ts : List (Term bits)) : Table bits where
  terms := fun i' j' =>
    if i' = i + 1 ∧ j' = j then (s.terms i' j').insert u else s.terms i' j'
  merged := ts ++ s.merged

/-- The terms of a column that are prime still. -/
def primes (s : Table bits) (i j : Nat) : List (Term bits) :=
  (s.terms i j).filter fun p => p ∉ s.merged

/-- Every two similar terms of neighbouring columns are merged. -/
def mergeSimilar (s : Table bits) (i j : Nat) : Table bits :=
  (s.terms i j).foldl (fun s a => ((s.terms i (j + 1)).filter (·.similar a)).foldl
    (fun s x => s.add i j (x.merge a) [x, a]) s) s

/-- The loop over the levels, which collects `prime`. -/
def loop (level : Table bits → Nat → Table bits) (table : Table bits) :
    Nat → Table bits × List (Term bits)
  | 0 => (table, [])
  | i + 1 =>
    let s := level (loop level table i).1 i
    (s, ((List.range (bits + 1)).flatMap (s.primes i)).reverse ++ (loop level table i).2)

/-- `prime.sortWith(_<_)` after the loop. -/
def getPrimes (level : Table bits → Nat → Table bits) (implicants : List (Term bits)) :
    List (Term bits) :=
  (loop level (ofTerms implicants) (bits + 1)).2.mergeSort fun a b => !b.less a

/-- A term lies where its counts say, is as `P` asks, and if it is merged, one of the
    next level covers it. -/
structure Inv (P : Term bits → Prop) (s : Table bits) : Prop where
  mask : ∀ {i j t}, t ∈ s.terms i j → bitCount t.mask = i
  value : ∀ {i j t}, t ∈ s.terms i j → bitCount t.value = j
  allowed : ∀ {i j t}, t ∈ s.terms i j → P t
  merged : ∀ {t}, t ∈ s.merged → ∃ u j, u ∈ s.terms (bitCount t.mask + 1) j ∧ u.covers t = true

/-- **A level**: terms with `i` free bits are merged into terms that cover them. -/
inductive Merges (P : Term bits → Prop) (i : Nat) (s : Table bits) : Table bits → Prop where
  | refl : Merges P i s s
  | add {s' : Table bits} {j : Nat} {u : Term bits} {ts : List (Term bits)} :
      Merges P i s s' → (∀ t ∈ ts, bitCount t.mask = i ∧ u.covers t = true) →
      bitCount u.mask = i + 1 → bitCount u.value = j → P u → Merges P i s (s'.add i j u ts)

variable {P : Term bits → Prop} {i : Nat} {s s' : Table bits}

theorem mem_add {i' j' j : Nat} {u t : Term bits} {ts : List (Term bits)} :
    t ∈ (s.add i j u ts).terms i' j' ↔ t ∈ s.terms i' j' ∨ (i' = i + 1 ∧ j' = j ∧ t = u) := by
  unfold add
  dsimp only
  split
  · next h => rw [List.mem_insert_iff]; grind
  · next h => grind

theorem inv_ofTerms {implicants : List (Term bits)} (h : ∀ t ∈ implicants, P t) :
    (ofTerms implicants).Inv P := by
  have hmem : ∀ {i j t}, t ∈ (ofTerms implicants).terms i j →
      t ∈ implicants ∧ i = bitCount t.mask ∧ j = bitCount t.value := by
    intro i j t ht
    have ht := List.mem_dedup.mp ht
    simp only [List.mem_filter, decide_eq_true_iff] at ht
    exact ⟨ht.1.1, ht.1.2, ht.2⟩
  constructor
  case mask => exact fun ht => (hmem ht).2.1.symm
  case value => exact fun ht => (hmem ht).2.2.symm
  case allowed => exact fun ht => h _ (hmem ht).1
  case merged => exact fun ht => absurd ht List.not_mem_nil

theorem mem_ofTerms {implicants : List (Term bits)} {t : Term bits} (h : t ∈ implicants) :
    t ∈ (ofTerms implicants).terms (bitCount t.mask) (bitCount t.value) := by
  apply List.mem_dedup.mpr
  simp only [List.mem_filter, decide_true, and_true]
  exact h

namespace Merges

variable (h : Merges P i s s')

include h

theorem grows {i' j : Nat} {t : Term bits} (ht : t ∈ s.terms i' j) : t ∈ s'.terms i' j := by
  induction h with
  | refl => exact ht
  | add _ _ _ _ _ ih => exact mem_add.mpr (.inl ih)

/-- The level itself and those before stay as they are. -/
theorem terms_eq {i' : Nat} (j : Nat) (hne : i' ≠ i + 1) : s'.terms i' j = s.terms i' j := by
  induction h with
  | refl => rfl
  | add _ _ _ _ _ ih => exact (if_neg fun hand => hne hand.1).trans ih

theorem mem_merged {t : Term bits} (hne : bitCount t.mask ≠ i) :
    t ∈ s'.merged ↔ t ∈ s.merged := by
  induction h with
  | refl => exact Iff.rfl
  | add _ hts _ _ _ ih =>
    refine Iff.trans ?_ ih
    show t ∈ _ ++ _ ↔ _
    rw [List.mem_append]
    exact or_iff_right fun ht => hne (hts t ht).1

theorem inv (hinv : s.Inv P) : s'.Inv P := by
  induction h with
  | refl => exact hinv
  | @add s' j u ts _ hts hmask hvalue hP ih =>
    constructor
    case mask =>
      intro i' j' t ht
      obtain ht | ⟨rfl, -, rfl⟩ := mem_add.mp ht
      · exact ih.mask ht
      · exact hmask
    case value =>
      intro i' j' t ht
      obtain ht | ⟨-, rfl, rfl⟩ := mem_add.mp ht
      · exact ih.value ht
      · exact hvalue
    case allowed =>
      intro i' j' t ht
      obtain ht | ⟨-, -, rfl⟩ := mem_add.mp ht
      · exact ih.allowed ht
      · exact hP
    case merged =>
      intro t ht
      obtain ht | ht := List.mem_append.mp ht
      · obtain ⟨hcount, hcovers⟩ := hts t ht
        exact ⟨u, j, mem_add.mpr (.inr ⟨by rw [hcount], rfl, rfl⟩), hcovers⟩
      · obtain ⟨u', j', hu', hcovers⟩ := ih.merged ht
        exact ⟨u', j', mem_add.mpr (.inl hu'), hcovers⟩

theorem trans {s'' : Table bits} (h' : Merges P i s' s'') : Merges P i s s'' := by
  induction h' with
  | refl => exact h
  | add _ hts hmask hvalue hP ih => exact ih.add hts hmask hvalue hP

end Merges

/-- Merging two neighbours. -/
theorem Merges.addNeighbours {j : Nat} {t x : Term bits} {ts : List (Term bits)} {k : Nat}
    (h : Merges P i s s') (hadj : t.Adjacent k x) (hmask : bitCount x.mask = i)
    (hvalue : bitCount x.value = j) (hts : ∀ y ∈ ts, y = t ∨ y = x) (hP : P (t.merge x)) :
    Merges P i s (s'.add i j (t.merge x) ts) := by
  obtain ⟨hcount, hfree⟩ := hadj.merge_count
  obtain ⟨hleft, hright⟩ := hadj.merge_covers
  refine h.add ?_ (by rw [hfree, hmask]) (by rw [hcount, hvalue]) hP
  intro y hy
  obtain rfl | rfl := hts y hy
  · exact ⟨by rw [hadj.mask, hmask], hleft⟩
  · exact ⟨hmask, hright⟩

/-- Similar terms of neighbouring columns are neighbours. -/
theorem Inv.adjacent {j : Nat} {a x : Term bits} (h : s.Inv P) (ha : a ∈ s.terms i j)
    (hx : x ∈ s.terms i (j + 1)) (hsimilar : x.similar a = true) : ∃ k, x.Adjacent k a :=
  Term.similar_adjacent hsimilar (by rw [h.value hx, h.value ha])

/-- What may be in the table is closed under merging. -/
def MergeClosed (P : Term bits → Prop) : Prop :=
  ∀ ⦃t x : Term bits⦄ ⦃k : Nat⦄, t.Adjacent k x → P t → P x → P (t.merge x)

theorem merges_mergeSimilar (hP : MergeClosed P) (h : s.Inv P) (i j : Nat) :
    Merges P i s (s.mergeSimilar i j) := by
  unfold mergeSimilar
  refine List.foldlRecOn (motive := fun s' => Merges P i s s') _ _ .refl ?_
  intro s' hs' a ha
  refine List.foldlRecOn (motive := fun s' => Merges P i s s') _ _ hs' ?_
  intro s'' hs'' x hx
  obtain ⟨hx, hsimilar⟩ := List.mem_filter.mp hx
  rw [hs'.terms_eq (j + 1) (Nat.ne_of_lt (Nat.lt_succ_self i))] at hx
  obtain ⟨k, hadj⟩ := h.adjacent ha hx hsimilar
  refine hs''.addNeighbours hadj (h.mask ha) (h.value ha) ?_
    (hP hadj (h.allowed hx) (h.allowed ha))
  intro y hy
  simpa only [List.mem_cons, List.not_mem_nil, or_false] using hy

/-! ## Section 5: The loop over the levels -/

section loop

variable {level : Table bits → Nat → Table bits} {table : Table bits} {n : Nat}

/-- A level merges. -/
def LevelMerges (P : Term bits → Prop) (level : Table bits → Nat → Table bits) : Prop :=
  ∀ (s : Table bits) (i : Nat), s.Inv P → Merges P i s (level s i)

theorem loop_inv (hlevel : LevelMerges P level) (h : table.Inv P) (n : Nat) :
    (loop level table n).1.Inv P := by
  induction n with
  | zero => exact h
  | succ n ih => exact (hlevel _ n ih).inv ih

theorem loop_merges (hlevel : LevelMerges P level) (h : table.Inv P) (n : Nat) :
    Merges P n (loop level table n).1 (loop level table (n + 1)).1 :=
  hlevel _ n (loop_inv hlevel h n)

theorem loop_grows (hlevel : LevelMerges P level) (h : table.Inv P) {i j : Nat} {t : Term bits}
    (ht : t ∈ table.terms i j) (n : Nat) : t ∈ (loop level table n).1.terms i j := by
  induction n with
  | zero => exact ht
  | succ n ih => exact (loop_merges hlevel h n).grows ih

/-- What is collected are the terms of the levels before that have not been merged. -/
theorem mem_loop (hlevel : LevelMerges P level) (h : table.Inv P) {p : Term bits} :
    p ∈ (loop level table n).2 ↔ ∃ i j, i < n ∧ j ≤ bits ∧
      p ∈ (loop level table n).1.terms i j ∧ p ∉ (loop level table n).1.merged := by
  induction n with
  | zero =>
    constructor
    · exact fun hp => absurd hp List.not_mem_nil
    · rintro ⟨i, j, hi, -⟩
      exact absurd hi (Nat.not_lt_zero i)
  | succ n ih =>
    have hmerges := loop_merges hlevel h n
    have hinv := loop_inv hlevel h (n + 1)
    have hsplit : p ∈ (loop level table (n + 1)).2 ↔
        (∃ j, j ≤ bits ∧ p ∈ (loop level table (n + 1)).1.terms n j ∧
          p ∉ (loop level table (n + 1)).1.merged) ∨ p ∈ (loop level table n).2 := by
      show p ∈ (List.flatMap (primes (loop level table (n + 1)).1 n) _).reverse ++ _ ↔ _
      rw [List.mem_append, List.mem_reverse, List.mem_flatMap]
      apply or_congr_left
      apply exists_congr
      intro j
      rw [List.mem_range, Nat.lt_succ_iff, primes, List.mem_filter, decide_eq_true_iff]
    rw [hsplit, ih]
    constructor
    · rintro (⟨j, hj, hp, hprime⟩ | ⟨i, j, hi, hj, hp, hprime⟩)
      · exact ⟨n, j, Nat.lt_succ_self n, hj, hp, hprime⟩
      · refine ⟨i, j, Nat.lt_succ_of_lt hi, hj, hmerges.grows hp, ?_⟩
        rw [hmerges.mem_merged]
        · exact hprime
        · rw [(loop_inv hlevel h n).mask hp]
          exact hi.ne
    · rintro ⟨i, j, hi, hj, hp, hprime⟩
      obtain rfl | hlt := Nat.eq_or_lt_of_le (Nat.le_of_lt_succ hi)
      · exact .inl ⟨j, hj, hp, hprime⟩
      · refine .inr ⟨i, j, hlt, hj, ?_, ?_⟩
        · rwa [hmerges.terms_eq j (by omega)] at hp
        · rwa [hmerges.mem_merged] at hprime
          rw [hinv.mask hp]
          exact hlt.ne

/-- **Levels**: every term is covered by one that has not been merged. -/
theorem loop_covers (hlevel : LevelMerges P level) (h : table.Inv P) {i j : Nat} {t : Term bits}
    (ht : t ∈ (loop level table (bits + 1)).1.terms i j) :
    ∃ p ∈ (loop level table (bits + 1)).2, p.covers t = true := by
  have hinv := loop_inv hlevel h (bits + 1)
  -- there is no level above `bits`
  induction hk : bits - i generalizing i j t with
  | zero =>
    by_cases hmerged : t ∈ (loop level table (bits + 1)).1.merged
    · obtain ⟨u, j', hu, -⟩ := hinv.merged hmerged
      have hu_le : bitCount u.mask ≤ bits := bitCount_le u.mask
      rw [hinv.mask hu, hinv.mask ht] at hu_le
      omega
    · have hi : bitCount t.mask ≤ bits := bitCount_le t.mask
      have hj : bitCount t.value ≤ bits := bitCount_le t.value
      rw [hinv.mask ht] at hi
      rw [hinv.value ht] at hj
      exact ⟨t, (mem_loop hlevel h).mpr ⟨i, j, by omega, hj, ht, hmerged⟩, t.covers_self⟩
  | succ k ih =>
    by_cases hmerged : t ∈ (loop level table (bits + 1)).1.merged
    · obtain ⟨u, j', hu, hcovers⟩ := hinv.merged hmerged
      rw [hinv.mask ht] at hu
      obtain ⟨p, hp, hpu⟩ := ih hu (by omega)
      exact ⟨p, hp, Term.covers_trans hpu hcovers⟩
    · have hj : bitCount t.value ≤ bits := bitCount_le t.value
      rw [hinv.value ht] at hj
      exact ⟨t, (mem_loop hlevel h).mpr ⟨i, j, by omega, hj, ht, hmerged⟩, t.covers_self⟩

variable {implicants : List (Term bits)}

theorem getPrimes_allowed (hlevel : LevelMerges P level) (h : ∀ t ∈ implicants, P t)
    {p : Term bits} (hp : p ∈ getPrimes level implicants) : P p := by
  have hinv := inv_ofTerms h
  obtain ⟨i, j, -, -, hmem, -⟩ := (mem_loop hlevel hinv).mp (List.mem_mergeSort.mp hp)
  exact (loop_inv hlevel hinv (bits + 1)).allowed hmem

theorem getPrimes_covers (hlevel : LevelMerges P level) (h : ∀ t ∈ implicants, P t)
    {t : Term bits} (ht : t ∈ implicants) :
    ∃ p ∈ getPrimes level implicants, p.covers t = true := by
  have hinv := inv_ofTerms h
  obtain ⟨p, hp, hcovers⟩ := loop_covers hlevel hinv (loop_grows hlevel hinv (mem_ofTerms ht) _)
  exact ⟨p, List.mem_mergeSort.mpr hp, hcovers⟩

end loop

/-- Merging neighbouring columns one after the other. -/
theorem merges_foldl {f : Table bits → Nat → Table bits}
    (hf : ∀ (s : Table bits) (j : Nat), s.Inv P → Merges P i s (f s j)) (h : s.Inv P)
    (js : List Nat) : Merges P i s (js.foldl f s) := by
  refine List.foldlRecOn (motive := fun s' => Merges P i s s') _ _ .refl ?_
  intro s' hs' j _
  exact hs'.trans (hf s' j (hs'.inv h))

end Table

/-! ## Section 6: Covers -/

namespace Simplify

variable {bits : Nat}

def level (s : Table bits) (i : Nat) : Table bits :=
  (List.range (bits - i)).foldl (fun s j => s.mergeSimilar i j) s

def getPrimeImplicants (implicants : List (Term bits)) : List (Term bits) :=
  Table.getPrimes level implicants

/-- The minterms that a term covers. -/
def coverOf (p : Term bits) (minterms : List (Term bits)) : List (Term bits) :=
  minterms.filter p.covers

/-- The first two primes of which one covers what the other does, and more. -/
def dominated (prime minterms : List (Term bits)) : Option (Term bits × Term bits) :=
  (prime.flatMap fun p => prime.map fun q => (p, q)).find? fun pq =>
    (coverOf pq.1 minterms).length > (coverOf pq.2 minterms).length &&
      (coverOf pq.2 minterms).all pq.1.covers

def essentiallyCovered (prime minterms : List (Term bits)) : List (Term bits) :=
  minterms.filter fun t => prime.countP (·.covers t) = 1

def essentialOf (prime minterms : List (Term bits)) : List (Term bits) :=
  prime.filter fun p => (essentiallyCovered prime minterms).any p.covers

def nonessentialOf (prime minterms : List (Term bits)) : List (Term bits) :=
  prime.filter fun p => p ∉ essentialOf prime minterms

def uncoveredOf (prime minterms : List (Term bits)) : List (Term bits) :=
  minterms.filter fun t => !(essentialOf prime minterms).any (·.covers t)

variable {prime minterms : List (Term bits)}

theorem dominated_spec {p q : Term bits} (h : dominated prime minterms = some (p, q)) :
    p ∈ prime ∧ q ∈ prime ∧ p ≠ q ∧ ∀ m ∈ minterms, q.covers m = true → p.covers m = true := by
  have hmem := List.mem_of_find?_eq_some h
  have hfound := List.find?_some h
  simp only [List.mem_flatMap, List.mem_map] at hmem
  obtain ⟨p', hp', q', hq', heq⟩ := hmem
  obtain ⟨rfl, rfl⟩ := Prod.mk.inj heq
  simp only [Bool.and_eq_true, decide_eq_true_iff, List.all_eq_true] at hfound
  refine ⟨hp', hq', ?_, ?_⟩
  · rintro rfl
    exact lt_irrefl _ hfound.1
  · intro m hm hcovers
    exact hfound.2 m (List.mem_filter.mpr ⟨hm, hcovers⟩)

/-- `prime.filter(_ != prime(j))`. -/
def without (prime : List (Term bits)) (q : Term bits) : List (Term bits) :=
  prime.filter (· ≠ q)

theorem length_without {q : Term bits} (h : q ∈ prime) :
    (without prime q).length < prime.length := by
  apply List.length_filter_lt_length_iff_exists.mpr
  exact ⟨q, h, by simp⟩

theorem length_nonessentialOf (h : essentialOf prime minterms ≠ []) :
    (nonessentialOf prime minterms).length < prime.length := by
  obtain ⟨p, hp⟩ := List.exists_mem_of_ne_nil _ h
  apply List.length_filter_lt_length_iff_exists.mpr
  exact ⟨p, (List.mem_filter.mp hp).1, by simp [hp]⟩

/-- Essential primes, the others that are left, and what is left to be covered. -/
def getEssentialPrimeImplicants (prime minterms : List (Term bits)) :
    List (Term bits) × List (Term bits) × List (Term bits) :=
  match _hdominated : dominated prime minterms with
  | some (_, q) => getEssentialPrimeImplicants (without prime q) minterms
  | none =>
    let essential := essentialOf prime minterms
    let nonessential := nonessentialOf prime minterms
    let uncovered := uncoveredOf prime minterms
    if _hstop : essential = [] ∨ uncovered = [] then (essential, nonessential, uncovered)
    else
      let abc := getEssentialPrimeImplicants nonessential uncovered
      (essential ++ abc.1, abc.2.1, abc.2.2)
termination_by prime.length
decreasing_by
  · exact length_without (dominated_spec _hdominated).2.1
  · exact length_nonessentialOf fun hempty => _hstop (.inl hempty)

/-- The cost of a cover: the bits that its terms compare. -/
def getCost (cover : List (Term bits)) : Nat := (cover.map fun t => bits - bitCount t.mask).sum

def listLess : List (Term bits) → List (Term bits) → Bool
  | _, [] => false
  | [], _ :: _ => true
  | a :: as, b :: bs => a.less b || a = b && listLess as bs

def sorted (a : List (Term bits)) : List (Term bits) := a.mergeSort fun x y => !y.less x

def cheaper (a b : List (Term bits)) : Bool :=
  getCost a < getCost b || getCost a = getCost b && listLess (sorted a) (sorted b)

/-- `reduceLeft`, which fails without an element. -/
def reduceLeft {α : Type} (f : α → α → Option α) : List α → Option α
  | [] => none
  | x :: xs => xs.foldlM f x

/-- Every choice of one side with every choice of the other. -/
def product (c0 c1 : List (List (Term bits))) : Option (List (List (Term bits))) :=
  reduceLeft (fun a b => some (a ++ b)) (c0.map fun a => c1.map fun c => c ∪ a)

def getCover (implicants minterms : List (Term bits)) : Option (List (Term bits)) :=
  if minterms ≠ [] then do
    let all ← reduceLeft product
      (minterms.map fun m => (implicants.filter (·.covers m)).map fun i => [i])
    reduceLeft (fun a b => some (if cheaper a b then a else b)) all
  else some []

/-- `eprime ++ getCover(prime2, uncovered, bits)`. -/
def coverBy (prime minterms : List (Term bits)) : Option (List (Term bits)) :=
  let split := getEssentialPrimeImplicants prime minterms
  (getCover split.2.1 split.2.2).map fun chosen => split.1 ++ chosen

/-- `Simplify`: a cover of the minterms. -/
def apply (minterms dontcares : List (Term bits)) : Option (List (Term bits)) := do
  let prime := getPrimeImplicants (minterms ++ dontcares)
  guard (minterms.all fun t => prime.any (·.covers t))
  let cover ← coverBy prime minterms
  guard (minterms.all fun t => cover.any (·.covers t))
  return cover

/-! ## Section 7: What a cover keeps -/

/-- The minterms are covered by `cover`. -/
def Covered (cover minterms : List (Term bits)) : Prop :=
  ∀ m ∈ minterms, ∃ p ∈ cover, p.covers m = true

/-- **A split** of primes: what is left uncovered is covered by the primes left. -/
structure Split (prime minterms : List (Term bits))
    (r : List (Term bits) × List (Term bits) × List (Term bits)) : Prop where
  essential : ∀ p ∈ r.1, p ∈ prime
  nonessential : ∀ p ∈ r.2.1, p ∈ prime
  uncovered : Covered r.2.1 r.2.2
  covered : ∀ m ∈ minterms, m ∈ r.2.2 ∨ ∃ p ∈ r.1, p.covers m = true

theorem covered_without {p q : Term bits} (hdom : dominated prime minterms = some (p, q))
    (h : Covered prime minterms) : Covered (without prime q) minterms := by
  obtain ⟨hp, -, hne, hcovers⟩ := dominated_spec hdom
  intro m hm
  obtain ⟨r, hr, hrm⟩ := h m hm
  by_cases hrq : r = q
  · -- what the dominated prime covers is covered by the other
    subst hrq
    exact ⟨p, List.mem_filter.mpr ⟨hp, decide_eq_true hne⟩, hcovers m hm hrm⟩
  · exact ⟨r, List.mem_filter.mpr ⟨hr, decide_eq_true hrq⟩, hrm⟩

theorem split_essential (h : Covered prime minterms) :
    Split prime minterms (essentialOf prime minterms, nonessentialOf prime minterms,
      uncoveredOf prime minterms) := by
  constructor
  case essential => exact fun p hp => (List.mem_filter.mp hp).1
  case nonessential => exact fun p hp => (List.mem_filter.mp hp).1
  case uncovered =>
    intro m hm
    obtain ⟨hm, hnone⟩ := List.mem_filter.mp hm
    simp only [Bool.not_eq_true', List.any_eq_false] at hnone
    obtain ⟨p, hp, hcovers⟩ := h m hm
    refine ⟨p, List.mem_filter.mpr ⟨hp, decide_eq_true fun hess => ?_⟩, hcovers⟩
    exact hnone p hess hcovers
  case covered =>
    intro m hm
    by_cases hess : ∃ p ∈ essentialOf prime minterms, p.covers m = true
    · exact .inr hess
    · refine .inl (List.mem_filter.mpr ⟨hm, ?_⟩)
      simp only [Bool.not_eq_true', List.any_eq_false]
      exact fun p hp hcovers => hess ⟨p, hp, hcovers⟩

theorem split_getEssentialPrimeImplicants (h : Covered prime minterms) :
    Split prime minterms (getEssentialPrimeImplicants prime minterms) := by
  induction hn : prime.length using Nat.strong_induction_on generalizing prime minterms with
  | _ n ih =>
    subst hn
    unfold getEssentialPrimeImplicants
    split
    · next p q hdom =>
      have hsplit := ih _ (length_without (dominated_spec hdom).2.1) (covered_without hdom h) rfl
      constructor
      case essential => exact fun p hp => (List.mem_filter.mp (hsplit.essential p hp)).1
      case nonessential => exact fun p hp => (List.mem_filter.mp (hsplit.nonessential p hp)).1
      case uncovered => exact hsplit.uncovered
      case covered => exact hsplit.covered
    · have hfirst := split_essential h
      dsimp only
      split
      · exact hfirst
      · next hstop =>
        have hsplit := ih _ (length_nonessentialOf fun hempty => hstop (.inl hempty))
          hfirst.uncovered rfl
        constructor
        case essential =>
          intro p hp
          obtain hp | hp := List.mem_append.mp hp
          · exact hfirst.essential p hp
          · exact hfirst.nonessential p (hsplit.essential p hp)
        case nonessential =>
          exact fun p hp => hfirst.nonessential p (hsplit.nonessential p hp)
        case uncovered => exact hsplit.uncovered
        case covered =>
          intro m hm
          obtain hleft | ⟨p, hp, hcovers⟩ := hfirst.covered m hm
          · obtain hleft | ⟨p, hp, hcovers⟩ := hsplit.covered m hleft
            · exact .inl hleft
            · exact .inr ⟨p, List.mem_append_right _ hp, hcovers⟩
          · exact .inr ⟨p, List.mem_append_left _ hp, hcovers⟩

theorem reduceLeft_append {α : Type} {l : List (List α)} (hl : l ≠ []) :
    reduceLeft (fun a b => some (a ++ b)) l = some l.flatten := by
  have hfold : ∀ (xs : List (List α)) (x : List α),
      xs.foldlM (fun a b => some (a ++ b)) x = some (x ++ xs.flatten) := by
    intro xs
    induction xs with
    | nil => simp
    | cons y ys ih =>
      intro x
      rw [List.foldlM_cons, List.flatten_cons, ← List.append_assoc]
      exact ih (x ++ y)
  cases l with
  | nil => contradiction
  | cons x xs => exact hfold xs x

/-- A choice is one of the candidates. -/
theorem reduceLeft_choice {α : Type} (better : α → α → Bool) {l : List α} (hl : l ≠ []) :
    ∃ r ∈ l, reduceLeft (fun a b => some (if better a b then a else b)) l = some r := by
  have hfold : ∀ (xs : List α) (x : α), ∃ r ∈ x :: xs,
      xs.foldlM (fun a b => some (if better a b then a else b)) x = some r := by
    intro xs
    induction xs with
    | nil => exact fun x => ⟨x, List.mem_cons_self, rfl⟩
    | cons y ys ih =>
      intro x
      obtain ⟨r, hr, hfold⟩ := ih (if better x y then x else y)
      refine ⟨r, ?_, hfold⟩
      obtain rfl | hr := List.mem_cons.mp hr
      · split
        · exact List.mem_cons_self
        · exact List.mem_cons_of_mem _ List.mem_cons_self
      · exact List.mem_cons_of_mem _ (List.mem_cons_of_mem _ hr)
  cases l with
  | nil => contradiction
  | cons x xs => exact hfold xs x

/-- Candidates for a cover. -/
structure Candidates (implicants minterms : List (Term bits)) (all : List (List (Term bits))) :
    Prop where
  nonempty : all ≠ []
  among : ∀ c ∈ all, ∀ p ∈ c, p ∈ implicants
  covered : ∀ c ∈ all, Covered c minterms

variable {implicants : List (Term bits)}

/-- The sets of one implicant that covers a minterm. -/
theorem candidates_one {m : Term bits} (h : ∃ p ∈ implicants, p.covers m = true) :
    Candidates implicants [m] ((implicants.filter (·.covers m)).map fun i => [i]) := by
  have hmem : ∀ c ∈ (implicants.filter (·.covers m)).map fun i => [i],
      ∃ p ∈ implicants, p.covers m = true ∧ c = [p] := by
    intro c hc
    obtain ⟨p, hp, rfl⟩ := List.mem_map.mp hc
    obtain ⟨hp, hcovers⟩ := List.mem_filter.mp hp
    exact ⟨p, hp, hcovers, rfl⟩
  constructor
  case nonempty =>
    obtain ⟨p, hp, hcovers⟩ := h
    exact List.ne_nil_of_mem (List.mem_map_of_mem (List.mem_filter.mpr ⟨hp, hcovers⟩))
  case among =>
    intro c hc q hq
    obtain ⟨p, hp, -, rfl⟩ := hmem c hc
    rwa [List.mem_singleton.mp hq]
  case covered =>
    intro c hc m' hm'
    obtain ⟨p, -, hcovers, rfl⟩ := hmem c hc
    rw [List.mem_singleton.mp hm']
    exact ⟨p, List.mem_singleton_self p, hcovers⟩

/-- **Choices** for some minterms and for others are choices for all. -/
theorem Candidates.product {ms ms' : List (Term bits)} {c0 c1 : List (List (Term bits))}
    (h0 : Candidates implicants ms c0) (h1 : Candidates implicants ms' c1) :
    ∃ all, Simplify.product c0 c1 = some all ∧ Candidates implicants (ms ++ ms') all := by
  have hne : (c0.map fun a => c1.map fun c => c ∪ a) ≠ [] := by
    rw [Ne, List.map_eq_nil_iff]
    exact h0.nonempty
  have hmem : ∀ x ∈ (c0.map fun a => c1.map fun c => c ∪ a).flatten,
      ∃ a ∈ c0, ∃ c ∈ c1, x = c ∪ a := by
    intro x hx
    obtain ⟨l, hl, hx⟩ := List.mem_flatten.mp hx
    obtain ⟨a, ha, rfl⟩ := List.mem_map.mp hl
    obtain ⟨c, hc, rfl⟩ := List.mem_map.mp hx
    exact ⟨a, ha, c, hc, rfl⟩
  refine ⟨_, reduceLeft_append hne, ?_⟩
  constructor
  case nonempty =>
    obtain ⟨a, ha⟩ := List.exists_mem_of_ne_nil _ h0.nonempty
    obtain ⟨c, hc⟩ := List.exists_mem_of_ne_nil _ h1.nonempty
    have hin : (c ∪ a) ∈ c1.map fun c => c ∪ a := List.mem_map_of_mem hc
    exact List.ne_nil_of_mem (List.mem_flatten.mpr
      ⟨_, List.mem_map_of_mem (f := fun a => c1.map fun c => c ∪ a) ha, hin⟩)
  case among =>
    intro x hx p hp
    obtain ⟨a, ha, c, hc, rfl⟩ := hmem x hx
    obtain hp | hp := List.mem_union_iff.mp hp
    · exact h1.among c hc p hp
    · exact h0.among a ha p hp
  case covered =>
    intro x hx m hm
    obtain ⟨a, ha, c, hc, rfl⟩ := hmem x hx
    obtain hm | hm := List.mem_append.mp hm
    · obtain ⟨p, hp, hcovers⟩ := h0.covered a ha m hm
      exact ⟨p, List.mem_union_iff.mpr (.inr hp), hcovers⟩
    · obtain ⟨p, hp, hcovers⟩ := h1.covered c hc m hm
      exact ⟨p, List.mem_union_iff.mpr (.inl hp), hcovers⟩

/-- The candidates for all minterms. -/
theorem candidates_all {m : Term bits} {ms : List (Term bits)}
    (h : Covered implicants (m :: ms)) :
    ∃ all, reduceLeft product
        ((m :: ms).map fun m => (implicants.filter (·.covers m)).map fun i => [i]) = some all ∧
      Candidates implicants (m :: ms) all := by
  have hfold : ∀ (ms done : List (Term bits)) (c0 : List (List (Term bits))),
      Covered implicants ms → Candidates implicants done c0 →
      ∃ all, (ms.map fun m => (implicants.filter (·.covers m)).map fun i => [i]).foldlM
        product c0 = some all ∧ Candidates implicants (done ++ ms) all := by
    intro ms
    induction ms with
    | nil =>
      intro done c0 _ h0
      rw [List.append_nil]
      exact ⟨c0, rfl, h0⟩
    | cons m ms ih =>
      intro done c0 hcovered h0
      obtain ⟨c, hc, hcand⟩ := h0.product (candidates_one (hcovered m List.mem_cons_self))
      obtain ⟨all, hall, hcands⟩ :=
        ih (done ++ [m]) c (fun m' hm' => hcovered m' (List.mem_cons_of_mem _ hm')) hcand
      refine ⟨all, ?_, by rwa [List.append_assoc] at hcands⟩
      rw [List.map_cons, List.foldlM_cons, hc]
      exact hall
  exact hfold ms [m] _ (fun m' hm' => h m' (List.mem_cons_of_mem _ hm'))
    (candidates_one (h m List.mem_cons_self))

theorem getCover_spec (h : Covered implicants minterms) :
    ∃ cover, getCover implicants minterms = some cover ∧ (∀ p ∈ cover, p ∈ implicants) ∧
      Covered cover minterms := by
  unfold getCover
  cases minterms with
  | nil =>
    refine ⟨[], rfl, fun p hp => ?_, fun m hm => ?_⟩
    · exact absurd hp List.not_mem_nil
    · exact absurd hm List.not_mem_nil
  | cons m ms =>
    obtain ⟨all, hall, hcands⟩ := candidates_all h
    obtain ⟨cover, hmem, hcover⟩ := reduceLeft_choice cheaper hcands.nonempty
    refine ⟨cover, ?_, hcands.among cover hmem, hcands.covered cover hmem⟩
    rw [if_pos (List.cons_ne_nil m ms), hall]
    exact hcover

/-- **Covers** by primes that cover the minterms. -/
theorem coverBy_spec (h : Covered prime minterms) :
    ∃ cover, coverBy prime minterms = some cover ∧ (∀ p ∈ cover, p ∈ prime) ∧
      Covered cover minterms := by
  have hsplit := split_getEssentialPrimeImplicants h
  obtain ⟨chosen, hchosen, hamong, hcovered⟩ := getCover_spec hsplit.uncovered
  refine ⟨(getEssentialPrimeImplicants prime minterms).1 ++ chosen, ?_, ?_, ?_⟩
  · rw [coverBy, hchosen]
    rfl
  · intro p hp
    obtain hp | hp := List.mem_append.mp hp
    · exact hsplit.essential p hp
    · exact hsplit.nonessential p (hamong p hp)
  · intro m hm
    obtain hleft | ⟨p, hp, hcovers⟩ := hsplit.covered m hm
    · obtain ⟨p, hp, hcovers⟩ := hcovered m hleft
      exact ⟨p, List.mem_append_right _ hp, hcovers⟩
    · exact ⟨p, List.mem_append_left _ hp, hcovers⟩

/-! ## Section 8: Exactness -/

/-- The words of a term are words of the implicants. -/
def Within (implicants : List (Term bits)) (t : Term bits) : Prop :=
  ∀ a, t.Matches a → ∃ m ∈ implicants, m.Matches a

theorem within_mergeClosed (implicants : List (Term bits)) :
    Table.MergeClosed (Within implicants) := by
  intro t x k hadj ht hx a ha
  obtain ha | ha := (hadj.merge_matches a).mp ha
  · exact ht a ha
  · exact hx a ha

theorem level_merges (implicants : List (Term bits)) :
    Table.LevelMerges (Within implicants) level := by
  intro s i hs
  exact Table.merges_foldl
    (fun s j hs => Table.merges_mergeSimilar (within_mergeClosed implicants) hs i j) hs _

theorem within_self {t : Term bits} (h : t ∈ implicants) : Within implicants t :=
  fun _ ha => ⟨t, h, ha⟩

theorem getPrimeImplicants_covered (hle : ∀ t ∈ minterms, t ∈ implicants) :
    Covered (getPrimeImplicants implicants) minterms := by
  intro t ht
  exact Table.getPrimes_covers (level_merges implicants) (fun _ => within_self) (hle t ht)

theorem all_any_covers {cover : List (Term bits)} :
    (minterms.all fun t => cover.any (·.covers t)) = true ↔ Covered cover minterms := by
  simp only [List.all_eq_true, List.any_eq_true, Covered]

end Simplify

/-- **Simplification**: `Simplify` passes its assertions on whatever minterms and
    don't-cares, and its cover has every word of a minterm and no other but those of a
    don't-care. -/
theorem simplify_exact {bits : Nat} (minterms dontcares : List (Term bits)) :
    ∃ cover, Simplify.apply minterms dontcares = some cover ∧
      (∀ a, (∃ t ∈ minterms, t.Matches a) → ∃ p ∈ cover, p.Matches a) ∧
      ∀ a, (∃ p ∈ cover, p.Matches a) → ∃ t ∈ minterms ++ dontcares, t.Matches a := by
  have hprime : Simplify.Covered (Simplify.getPrimeImplicants (minterms ++ dontcares)) minterms :=
    Simplify.getPrimeImplicants_covered fun t ht => List.mem_append_left _ ht
  obtain ⟨cover, hcover, hamong, hcovered⟩ := Simplify.coverBy_spec hprime
  refine ⟨cover, ?_, ?_, ?_⟩
  · rw [Simplify.apply, Simplify.all_any_covers.mpr hprime, hcover]
    show (guard ((minterms.all fun t => cover.any (·.covers t)) = true) >>= fun _ =>
      some cover) = _
    rw [Simplify.all_any_covers.mpr hcovered]
    rfl
  · rintro a ⟨t, ht, ha⟩
    obtain ⟨p, hp, hcovers⟩ := hcovered t ht
    exact ⟨p, hp, Term.covers_iff.mp hcovers a ha⟩
  · rintro a ⟨p, hp, ha⟩
    exact Table.getPrimes_allowed (Simplify.level_merges _) (fun _ => Simplify.within_self)
      (hamong p hp) a ha

end Flexpret.Core
