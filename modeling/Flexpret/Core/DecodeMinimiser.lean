import Flexpret.Core.Decode
import Flexpret.Core.Simplify
import Mathlib.Data.List.Pairwise

/-! # The Generated Decode Logic

    `DecodeLogic` turns a table of keys into gates, one output bit after the other: with
    `Simplify` where the default fixes the bit, and with `SimplifyDC`, which looks for
    don't-cares as it merges, where it does not.  The gates agree with the table on every
    word, and so do those of the control unit with `decode_table`.
-/

open BitCount

namespace Flexpret.Core

/-! ## Section 1: Implicit don't-cares -/

section neighbours

variable {bits : Nat}

/-- `1L << i`: a `Long` is shifted modulo 64, and its bit 63 is the sign. -/
def longBit (bits i : Nat) : BitVec bits := BitVec.ofInt bits (1#(64) <<< (i % 64)).toInt

/-- Below the sign it is the bit that is meant. -/
theorem longBit_eq {i : Nat} (hi : i < bits) (hbits : bits ≤ 63) :
    longBit bits i = BitVec.twoPow bits i := by
  have hpow : 2 ^ i < 2 ^ 63 := Nat.pow_lt_pow_right Nat.one_lt_two (hi.trans_le hbits)
  have hnat : (1#(64) <<< (i % 64)).toNat = 2 ^ i := by
    rw [Nat.mod_eq_of_lt (by omega), BitVec.toNat_shiftLeft, BitVec.toNat_ofNat,
      Nat.shiftLeft_eq]
    omega
  apply BitVec.eq_of_toNat_eq
  rw [longBit, BitVec.toInt_eq_toNat_of_lt (by omega), hnat, BitVec.toNat_twoPow]
  exact congrArg BitVec.toNat (BitVec.ofInt_natCast bits (2 ^ i)) |>.trans (BitVec.toNat_ofNat ..)

theorem Term.above_free (t : Term bits) {bit : BitVec bits}
    (h : (t.value ||| t.mask) &&& bit = 0#(bits)) : (t.value ||| bit) &&& t.mask = 0#(bits) := by
  apply BitVec.eq_of_getLsbD_eq
  intro j hj
  have hbit := congrArg (fun word => word.getLsbD j) h
  have hfree := congrArg (fun word => word.getLsbD j) t.free
  simp only [BitVec.getLsbD_and, BitVec.getLsbD_or, BitVec.getLsbD_zero] at hbit hfree ⊢
  grind

theorem Term.below_free (t : Term bits) (bit : BitVec bits) :
    (t.value &&& ~~~bit) &&& t.mask = 0#(bits) := by
  apply BitVec.eq_of_getLsbD_eq
  intro j hj
  have hfree := congrArg (fun word => word.getLsbD j) t.free
  simp only [BitVec.getLsbD_and, BitVec.getLsbD_not, BitVec.getLsbD_zero] at hfree ⊢
  grind

/-- The term with bit `i` set, or with it clear, if it is neither so nor free.  Keys have
    at most 63 bits: with the sign of a `Long` a value would become negative. -/
def Term.neighbour (t : Term bits) (i : Nat) (above : Bool) : Option (Term bits) :=
  if above then
    if h : (t.value ||| t.mask) &&& longBit bits i = 0#(bits) then
      some ⟨t.value ||| longBit bits i, t.mask, t.above_free h⟩
    else none
  else if t.value &&& longBit bits i ≠ 0#(bits) then
    some ⟨t.value &&& ~~~longBit bits i, t.mask, t.below_free _⟩
  else none

theorem Term.adjacent_above {t dc : Term bits} {i : Nat} (hi : i < bits) (hbits : bits ≤ 63)
    (h : t.neighbour i true = some dc) : dc.Adjacent i t := by
  unfold neighbour at h
  rw [if_pos rfl] at h
  split at h
  · next hclear =>
    obtain rfl := Option.some.inj h
    rw [longBit_eq hi hbits] at hclear
    constructor
    case lt => exact hi
    case mask => rfl
    case value => exact congrArg (t.value ||| ·) (longBit_eq hi hbits)
    case clear =>
      have hbit := congrArg (fun word => word.getLsbD i) hclear
      simp only [BitVec.getLsbD_and, BitVec.getLsbD_or, BitVec.getLsbD_zero,
        BitVec.getLsbD_twoPow, decide_eq_true hi, decide_true, Bool.and_true,
        Bool.or_eq_false_iff] at hbit
      exact hbit.1
  · contradiction

theorem Term.adjacent_below {t dc : Term bits} {i : Nat} (hi : i < bits) (hbits : bits ≤ 63)
    (h : t.neighbour i false = some dc) : t.Adjacent i dc := by
  unfold neighbour at h
  rw [if_neg Bool.false_ne_true] at h
  simp only [longBit_eq hi hbits] at h
  split at h
  · next hset =>
    obtain rfl := Option.some.inj h
    have hbit : t.value.getLsbD i = true := by
      rw [← Bool.not_eq_false]
      exact fun hclear => hset (and_twoPow_of_clear hclear)
    constructor
    case lt => exact hi
    case mask => rfl
    case value =>
      apply BitVec.eq_of_getLsbD_eq
      intro j hj
      simp only [BitVec.getLsbD_and, BitVec.getLsbD_or, BitVec.getLsbD_not,
        BitVec.getLsbD_twoPow]
      grind
    case clear =>
      simp [hi]
  · contradiction

end neighbours

namespace SimplifyDC

variable {bits : Nat}

/-- The first neighbour of a term on which no output is asked to be clear. -/
def getImplicitDC (maxterms : List (Term bits)) (term : Term bits) (above : Bool) :
    Option (Term bits) :=
  (List.range bits).findSome? fun i =>
    (term.neighbour i above).filter fun t => !maxterms.any (·.intersects t)

/-- The primes of a column are merged with don't-cares of the next. -/
def mergeAbove (maxterms : List (Term bits)) (s : Table bits) (i j : Nat) : Table bits :=
  (s.primes i j).foldl (fun s a =>
    match getImplicitDC maxterms a true with
    | some dc => s.add i j (dc.merge a) [a]
    | none => s) s

/-- The primes of the next column are merged with don't-cares of this one. -/
def mergeBelow (maxterms : List (Term bits)) (s : Table bits) (i j : Nat) : Table bits :=
  (s.primes i (j + 1)).foldl (fun s a =>
    match getImplicitDC maxterms a false with
    | some dc => s.add i j (a.merge dc) [a]
    | none => s) s

def level (maxterms : List (Term bits)) (s : Table bits) (i : Nat) : Table bits :=
  (List.range (bits - i)).foldl
    (fun s j => mergeBelow maxterms (mergeAbove maxterms s i j) i j)
    ((List.range (bits - i)).foldl (fun s j => s.mergeSimilar i j) s)

def getPrimeImplicants (minterms maxterms : List (Term bits)) : List (Term bits) :=
  Table.getPrimes (level maxterms) minterms

/-- `SimplifyDC`: a cover of the minterms that no maxterm intersects. -/
def apply (minterms maxterms : List (Term bits)) : Option (List (Term bits)) := do
  let cover ← Simplify.coverBy (getPrimeImplicants minterms maxterms) minterms
  guard (minterms.all fun t => cover.any (·.covers t))
  guard (maxterms.all fun t => !cover.any (·.intersects t))
  return cover

variable {minterms maxterms : List (Term bits)}

/-- No word of the term is one of a maxterm. -/
def Avoids (maxterms : List (Term bits)) (t : Term bits) : Prop :=
  ∀ m ∈ maxterms, ∀ a, m.Matches a → ¬ t.Matches a

theorem avoids_mergeClosed (maxterms : List (Term bits)) :
    Table.MergeClosed (Avoids maxterms) := by
  intro t x k hadj ht hx m hm a hma ha
  obtain ha | ha := (hadj.merge_matches a).mp ha
  · exact ht m hm a hma ha
  · exact hx m hm a hma ha

theorem getImplicitDC_spec {term dc : Term bits} {above : Bool}
    (h : getImplicitDC maxterms term above = some dc) :
    ∃ i, i < bits ∧ term.neighbour i above = some dc ∧ Avoids maxterms dc := by
  obtain ⟨i, hi, hfound⟩ := List.exists_of_findSome?_eq_some h
  obtain ⟨hneighbour, hnone⟩ := Option.filter_eq_some_iff.mp hfound
  refine ⟨i, List.mem_range.mp hi, hneighbour, ?_⟩
  intro m hm a hma ha
  simp only [Bool.not_eq_true', List.any_eq_false] at hnone
  exact hnone m hm (Term.intersects_iff.mpr ⟨a, hma, ha⟩)

open Table in
theorem merges_mergeAbove (hbits : bits ≤ 63) {s : Table bits} (h : s.Inv (Avoids maxterms))
    (i j : Nat) :
    Merges (Avoids maxterms) i s (mergeAbove maxterms s i j) := by
  unfold mergeAbove
  refine List.foldlRecOn (motive := fun s' => Merges (Avoids maxterms) i s s') _ _ .refl ?_
  intro s' hs' a ha
  have ha : a ∈ s.terms i j := (List.mem_filter.mp ha).1
  split
  · next dc hdc =>
    obtain ⟨k, hk, hneighbour, havoids⟩ := getImplicitDC_spec hdc
    have hadj := Term.adjacent_above hk hbits hneighbour
    refine hs'.addNeighbours hadj (h.mask ha) (h.value ha) ?_
      (avoids_mergeClosed maxterms hadj havoids (h.allowed ha))
    exact fun y hy => .inr (List.mem_singleton.mp hy)
  · exact hs'

open Table in
theorem merges_mergeBelow (hbits : bits ≤ 63) {s : Table bits} (h : s.Inv (Avoids maxterms))
    (i j : Nat) :
    Merges (Avoids maxterms) i s (mergeBelow maxterms s i j) := by
  unfold mergeBelow
  refine List.foldlRecOn (motive := fun s' => Merges (Avoids maxterms) i s s') _ _ .refl ?_
  intro s' hs' a ha
  have ha : a ∈ s.terms i (j + 1) := (List.mem_filter.mp ha).1
  split
  · next dc hdc =>
    obtain ⟨k, hk, hneighbour, havoids⟩ := getImplicitDC_spec hdc
    have hadj := Term.adjacent_below hk hbits hneighbour
    -- the don't-care has one bit less
    have hcount : bitCount dc.value = j := by
      have hone := bitCount_or_twoPow hk hadj.clear
      rw [← hadj.value, h.value ha] at hone
      omega
    refine hs'.addNeighbours hadj (by rw [← hadj.mask, h.mask ha]) hcount ?_
      (avoids_mergeClosed maxterms hadj (h.allowed ha) havoids)
    exact fun y hy => .inl (List.mem_singleton.mp hy)
  · exact hs'

theorem level_merges (hbits : bits ≤ 63) (maxterms : List (Term bits)) :
    Table.LevelMerges (Avoids maxterms) (level maxterms) := by
  intro s i hs
  have hsimilar := Table.merges_foldl
    (fun s j hs => Table.merges_mergeSimilar (avoids_mergeClosed maxterms) hs i j) hs
    (List.range (bits - i))
  refine hsimilar.trans (Table.merges_foldl ?_ (hsimilar.inv hs) _)
  intro s j hs
  have habove := merges_mergeAbove hbits hs i j
  exact habove.trans (merges_mergeBelow hbits (habove.inv hs) i j)

end SimplifyDC

/-- **Simplification with implicit don't-cares**: `SimplifyDC` passes its assertions if no
    minterm has a word of a maxterm, and its cover has every word of a minterm and none of
    a maxterm. -/
theorem simplifyDC_exact {bits : Nat} (hbits : bits ≤ 63) {minterms maxterms : List (Term bits)}
    (h : ∀ t ∈ minterms, SimplifyDC.Avoids maxterms t) :
    ∃ cover, SimplifyDC.apply minterms maxterms = some cover ∧
      (∀ a, (∃ t ∈ minterms, t.Matches a) → ∃ p ∈ cover, p.Matches a) ∧
      ∀ a, (∃ t ∈ maxterms, t.Matches a) → ¬ ∃ p ∈ cover, p.Matches a := by
  have hprime : Simplify.Covered (SimplifyDC.getPrimeImplicants minterms maxterms) minterms :=
    fun t ht => Table.getPrimes_covers (SimplifyDC.level_merges hbits maxterms) h ht
  obtain ⟨cover, hcover, hamong, hcovered⟩ := Simplify.coverBy_spec hprime
  have havoids : ∀ p ∈ cover, SimplifyDC.Avoids maxterms p := fun p hp =>
    Table.getPrimes_allowed (SimplifyDC.level_merges hbits maxterms) h (hamong p hp)
  have hverify : (maxterms.all fun t => !cover.any (·.intersects t)) = true := by
    simp only [List.all_eq_true, Bool.not_eq_true', List.any_eq_false]
    intro m hm p hp hintersects
    obtain ⟨a, hpa, hma⟩ := Term.intersects_iff.mp hintersects
    exact havoids p hp m hm a hma hpa
  refine ⟨cover, ?_, ?_, ?_⟩
  · rw [SimplifyDC.apply, hcover]
    show (guard ((minterms.all fun t => cover.any (·.covers t)) = true) >>= fun _ =>
      guard ((maxterms.all fun t => !cover.any (·.intersects t)) = true) >>= fun _ =>
        some cover) = _
    rw [Simplify.all_any_covers.mpr hcovered, hverify]
    rfl
  · rintro a ⟨t, ht, ha⟩
    obtain ⟨p, hp, hcovers⟩ := hcovered t ht
    exact ⟨p, hp, Term.covers_iff.mp hcovers a ha⟩
  · rintro a ⟨m, hm, hma⟩ ⟨p, hp, ha⟩
    exact havoids p hp m hm a hma ha

/-! ## Section 2: Gates for a table -/

namespace DecodeLogic

section apply

variable {bits w : Nat}

/-- The sum of products of a cover. -/
def logic (terms : List (Term bits)) (addr : BitVec bits) : Bool :=
  terms.foldl (fun b t =>
    b || (if t.mask = 0#(bits) then addr else addr &&& ~~~t.mask) = t.value) false

/-- The keys of the rows that fix bit `i` to be `b`. -/
def fixing (termvalues : List (Term bits × Term w)) (i : Nat) (b : Bool) : List (Term bits) :=
  (termvalues.filter fun kt => !kt.2.mask.getLsbD i && kt.2.value.getLsbD i = b).map Prod.fst

/-- The keys of the rows that leave bit `i` open. -/
def dontCares (termvalues : List (Term bits × Term w)) (i : Nat) : List (Term bits) :=
  (termvalues.filter fun kt => kt.2.mask.getLsbD i).map Prod.fst

/-- `(value.toInt >> i) & 1`: an `Int` has 32 bits and is shifted modulo 32. -/
def intBit (value : BitVec w) (i : Nat) : Bool := (value.setWidth 32).getLsbD (i % 32)

theorem intBit_eq (value : BitVec w) {i : Nat} (hi : i < 32) :
    intBit value i = value.getLsbD i := by
  rw [intBit, Nat.mod_eq_of_lt hi, BitVec.getLsbD_setWidth, decide_eq_true hi, Bool.true_and]

/-- The gates of bit `i`. -/
def bit (default : Term w) (termvalues : List (Term bits × Term w)) (i : Nat) :
    Option (BitVec bits → Bool) :=
  let mint := fixing termvalues i true
  let maxt := fixing termvalues i false
  let dc := dontCares termvalues i
  if default.mask.getLsbD i then (SimplifyDC.apply mint maxt).map logic
  else
    let defbit := intBit default.value i
    let t := if defbit = false then mint else maxt
    (Simplify.apply t dc).map fun cover addr =>
      if defbit = false then logic cover addr else !logic cover addr

/-- `DecodeLogic`: the gates of all bits, if no two keys overlap. -/
def apply (default : Term w) (mapping : List (Term bits × Term w)) :
    Option (BitVec bits → BitVec w) := do
  guard ((mapping.map Prod.fst).Pairwise fun k u => k.intersects u = false)
  let result ← (List.range w).mapM (bit default mapping)
  return fun addr => (BitVec.ofBoolListLE (result.map fun gates => gates addr)).setWidth w

theorem logic_iff {terms : List (Term bits)} {addr : BitVec bits} :
    logic terms addr = true ↔ ∃ t ∈ terms, t.Matches addr := by
  have hmatches : ∀ t : Term bits,
      (if t.mask = 0#(bits) then addr else addr &&& ~~~t.mask) = t.value ↔ t.Matches addr := by
    intro t
    split
    · next hmask =>
      rw [Term.Matches, hmask, BitVec.not_zero, BitVec.and_allOnes]
    · rfl
  have hfold : ∀ (terms : List (Term bits)) (b : Bool),
      terms.foldl (fun b t =>
        b || (if t.mask = 0#(bits) then addr else addr &&& ~~~t.mask) = t.value) b = true ↔
      b = true ∨ ∃ t ∈ terms, t.Matches addr := by
    intro terms
    induction terms with
    | nil => simp
    | cons t ts ih =>
      intro b
      rw [List.foldl_cons, ih, Bool.or_eq_true, decide_eq_true_iff, hmatches, or_assoc]
      simp only [List.mem_cons, exists_eq_or_imp]
  rw [logic, hfold]
  simp

/-! ## Section 3: Agreement with the table -/

section agreement

variable {default : Term w} {mapping : List (Term bits × Term w)} {i : Nat} {b : Bool}

/-- **Keys** of a table do not overlap. -/
def Disjoint (mapping : List (Term bits × Term w)) : Prop :=
  (mapping.map Prod.fst).Pairwise fun k u => k.intersects u = false

theorem mem_fixing {t : Term bits} : t ∈ fixing mapping i b ↔
    ∃ v, (t, v) ∈ mapping ∧ v.mask.getLsbD i = false ∧ v.value.getLsbD i = b := by
  simp [fixing]

theorem mem_dontCares {t : Term bits} :
    t ∈ dontCares mapping i ↔ ∃ v, (t, v) ∈ mapping ∧ v.mask.getLsbD i = true := by
  simp [dontCares]

/-- A word has one row at most. -/
theorem Disjoint.unique (h : Disjoint mapping) {k k' : Term bits} {v v' : Term w}
    (hk : (k, v) ∈ mapping) (hk' : (k', v') ∈ mapping) {addr : BitVec bits}
    (hmatches : k.Matches addr) (hmatches' : k'.Matches addr) : v = v' := by
  by_contra hne
  rw [Disjoint, List.pairwise_map] at h
  have : Std.Symm fun a b : Term bits × Term w => a.1.intersects b.1 = false := by
    constructor
    intro a b hab
    rw [← Bool.not_eq_true, Term.intersects_iff] at hab ⊢
    exact fun hcommon => hab (hcommon.imp fun _ hand => hand.symm)
  have hdisjoint := h.forall hk hk' fun heq => hne (congrArg Prod.snd heq)
  rw [← Bool.not_eq_true, Term.intersects_iff] at hdisjoint
  exact hdisjoint ⟨addr, hmatches, hmatches'⟩

/-- The gates `g` of bit `i` are right. -/
structure BitAgrees (default : Term w) (mapping : List (Term bits × Term w)) (i : Nat)
    (g : BitVec bits → Bool) : Prop where
  row : ∀ {k v addr}, (k, v) ∈ mapping → k.Matches addr → v.mask.getLsbD i = false →
    g addr = v.value.getLsbD i
  default : ∀ {addr}, (∀ kv ∈ mapping, ¬ kv.1.Matches addr) → default.mask.getLsbD i = false →
    g addr = default.value.getLsbD i

/-- **A bit that the default leaves open**. -/
theorem bit_implicit (hbits : bits ≤ 63) (h : Disjoint mapping)
    (hmask : default.mask.getLsbD i = true) :
    ∃ g, bit default mapping i = some g ∧ BitAgrees default mapping i g := by
  have havoids : ∀ t ∈ fixing mapping i true,
      SimplifyDC.Avoids (fixing mapping i false) t := by
    intro t ht m hm a hma hta
    obtain ⟨v, hv, -, hvalue⟩ := mem_fixing.mp ht
    obtain ⟨v', hv', -, hvalue'⟩ := mem_fixing.mp hm
    rw [h.unique hv hv' hta hma, hvalue'] at hvalue
    exact Bool.noConfusion hvalue
  obtain ⟨cover, hcover, hon, hoff⟩ := simplifyDC_exact hbits havoids
  refine ⟨logic cover, ?_, ?_⟩
  · unfold bit
    rw [if_pos hmask, hcover]
    rfl
  · constructor
    case row =>
      intro k v addr hkv hmatches hfixed
      cases hvalue : v.value.getLsbD i with
      | true =>
        exact logic_iff.mpr (hon addr ⟨k, mem_fixing.mpr ⟨v, hkv, hfixed, hvalue⟩, hmatches⟩)
      | false =>
        rw [← Bool.not_eq_true, logic_iff]
        exact hoff addr ⟨k, mem_fixing.mpr ⟨v, hkv, hfixed, hvalue⟩, hmatches⟩
    case default =>
      intro addr _ hclear
      rw [hmask] at hclear
      exact Bool.noConfusion hclear

/-- **A bit that the default fixes**: the gates are on where the bit is not the default's. -/
theorem bit_fixed (hi : i < 32) (h : Disjoint mapping)
    (hmask : default.mask.getLsbD i = false) :
    ∃ g, bit default mapping i = some g ∧ BitAgrees default mapping i g := by
  obtain ⟨d, hd⟩ : ∃ d, default.value.getLsbD i = d := ⟨_, rfl⟩
  obtain ⟨cover, hcover, hon, hwithin⟩ :=
    simplify_exact (fixing mapping i (!d)) (dontCares mapping i)
  have hbit : bit default mapping i = some fun addr => logic cover addr ^^ d := by
    unfold bit
    rw [if_neg (by rw [hmask]; exact Bool.false_ne_true), intBit_eq _ hi, hd]
    cases d with
    | false =>
      rw [Bool.not_false] at hcover
      simp [hcover]
    | true =>
      rw [Bool.not_true] at hcover
      simp [hcover]
  refine ⟨_, hbit, ?_⟩
  constructor
  case row =>
    intro k v addr hkv hmatches hfixed
    by_cases hvalue : v.value.getLsbD i = d
    · have hoff : logic cover addr = false := by
        rw [← Bool.not_eq_true, logic_iff]
        intro hcovered
        obtain ⟨t, ht, hta⟩ := hwithin addr hcovered
        obtain ht | ht := List.mem_append.mp ht
        · obtain ⟨v', hv', -, hvalue'⟩ := mem_fixing.mp ht
          rw [← h.unique hkv hv' hmatches hta, hvalue] at hvalue'
          exact (Bool.not_ne_self d) hvalue'.symm
        · obtain ⟨v', hv', hopen⟩ := mem_dontCares.mp ht
          rw [← h.unique hkv hv' hmatches hta, hfixed] at hopen
          exact Bool.noConfusion hopen
      rw [hoff, hvalue, Bool.false_xor]
    · have hnot : v.value.getLsbD i = !d := Bool.eq_not_of_ne hvalue
      have hset : logic cover addr = true :=
        logic_iff.mpr (hon addr ⟨k, mem_fixing.mpr ⟨v, hkv, hfixed, hnot⟩, hmatches⟩)
      rw [hset, hnot, Bool.true_xor]
  case default =>
    intro addr hnone _
    have hoff : logic cover addr = false := by
      rw [← Bool.not_eq_true, logic_iff]
      intro hcovered
      obtain ⟨t, ht, hta⟩ := hwithin addr hcovered
      obtain ht | ht := List.mem_append.mp ht
      · obtain ⟨v, hv, -⟩ := mem_fixing.mp ht
        exact hnone _ hv hta
      · obtain ⟨v, hv, -⟩ := mem_dontCares.mp ht
        exact hnone _ hv hta
    rw [hoff, hd, Bool.false_xor]

theorem bit_agrees (hbits : bits ≤ 63) (h : Disjoint mapping) (hi : i < 32) :
    ∃ g, bit default mapping i = some g ∧ BitAgrees default mapping i g := by
  cases hmask : default.mask.getLsbD i with
  | true => exact bit_implicit hbits h hmask
  | false => exact bit_fixed hi h hmask

/-- The gates `out` give every word the output of its row, or the default. -/
structure Agrees (default : Term w) (mapping : List (Term bits × Term w))
    (out : BitVec bits → BitVec w) : Prop where
  row : ∀ {k v addr}, (k, v) ∈ mapping → k.Matches addr → v.Matches (out addr)
  default : ∀ {addr}, (∀ kv ∈ mapping, ¬ kv.1.Matches addr) → default.Matches (out addr)

theorem mapM_eq_map {α β : Type} {f : α → Option β} {g : α → β} {l : List α}
    (h : ∀ x ∈ l, f x = some (g x)) : l.mapM f = some (l.map g) := by
  induction l with
  | nil => rfl
  | cons x xs ih =>
    rw [List.mapM_cons, h x List.mem_cons_self, ih fun y hy => h y (List.mem_cons_of_mem x hy)]
    rfl

theorem apply_agrees (hbits : bits ≤ 63) (hw : w ≤ 32) (default : Term w)
    (h : Disjoint mapping) :
    ∃ out, apply default mapping = some out ∧ Agrees default mapping out := by
  -- a gate for each bit of the output, where `intBit` reads what is meant
  have hgates : ∀ i, ∃ g : BitVec bits → Bool, i < w →
      bit default mapping i = some g ∧ BitAgrees default mapping i g := by
    intro i
    by_cases hi : i < w
    · have hbit : ∃ g, bit default mapping i = some g ∧ BitAgrees default mapping i g :=
        bit_agrees hbits h (hi.trans_le hw)
      obtain ⟨g, hg⟩ := hbit
      exact ⟨g, fun _ => hg⟩
    · exact ⟨fun _ => false, fun hlt => absurd hlt hi⟩
  choose g hg using hgates
  have hout : apply default mapping =
      some fun addr => (BitVec.ofBoolListLE
        (((List.range w).map g).map fun gates => gates addr)).setWidth w := by
    unfold apply
    rw [mapM_eq_map fun i hi => (hg i (List.mem_range.mp hi)).1]
    have hguard : guard ((mapping.map Prod.fst).Pairwise fun k u => k.intersects u = false) =
        some () := if_pos h
    rw [hguard]
    rfl
  have hgate : ∀ (addr : BitVec bits) (i : Nat), i < w →
      ((BitVec.ofBoolListLE (((List.range w).map g).map fun gates => gates addr)).setWidth
        w).getLsbD i = g i addr := by
    intro addr i hi
    rw [BitVec.getLsbD_setWidth, decide_eq_true hi, Bool.true_and, BitVec.getLsbD_ofBoolListLE,
      List.getD_eq_getElem?_getD, List.getElem?_map, List.getElem?_map, List.getElem?_range hi]
    rfl
  refine ⟨_, hout, ?_⟩
  constructor
  case row =>
    intro k v addr hkv hmatches
    rw [Term.matches_iff]
    intro i hi hfixed
    rw [hgate addr i hi]
    exact (hg i hi).2.row hkv hmatches hfixed
  case default =>
    intro addr hnone
    rw [Term.matches_iff]
    intro i hi hfixed
    rw [hgate addr i hi]
    exact (hg i hi).2.default hnone hfixed

end agreement

end apply

end DecodeLogic

/-- **Generated logic**: for keys of at most 63 bits and outputs of at most 32 `DecodeLogic`
    generates gates for a table exactly if no two keys overlap, and the gates then give
    every word that matches a key an output that agrees with the row in the bits that the
    row fixes, and every other word one that agrees with the default. -/
theorem decodeLogic_exact {bits w : Nat} (hbits : bits ≤ 63) (hw : w ≤ 32) (default : Term w)
    (mapping : List (Term bits × Term w)) :
    ((DecodeLogic.apply default mapping).isSome = true ↔ DecodeLogic.Disjoint mapping) ∧
      ∀ out, DecodeLogic.apply default mapping = some out →
        DecodeLogic.Agrees default mapping out := by
  by_cases h : DecodeLogic.Disjoint mapping
  · obtain ⟨out, hout, hagrees⟩ := DecodeLogic.apply_agrees hbits hw default h
    rw [hout]
    refine ⟨iff_of_true rfl h, fun out' hout' => ?_⟩
    rwa [← Option.some.inj hout']
  · have hnone : DecodeLogic.apply default mapping = none := by
      have hguard : guard ((mapping.map Prod.fst).Pairwise fun k u => k.intersects u = false) =
          (none : Option Unit) := if_neg h
      rw [DecodeLogic.apply, hguard]
      rfl
    rw [hnone]
    refine ⟨iff_of_false Bool.false_ne_true h, fun out hout => ?_⟩
    contradiction

/-- Keys `0?` and `11` with outputs `?1` and `10`, and nothing for `10`. -/
def smallTable : List (Term 2 × Term 2) :=
  [(⟨0b00, 0b01, rfl⟩, ⟨0b01, 0b10, rfl⟩), (⟨0b11, 0b00, rfl⟩, ⟨0b10, 0b00, rfl⟩)]

theorem smallTable_exact : ∃ out, DecodeLogic.apply ⟨0b00, 0b01, rfl⟩ smallTable = some out ∧
    DecodeLogic.Agrees ⟨0b00, 0b01, rfl⟩ smallTable out := by
  have hdisjoint : DecodeLogic.Disjoint smallTable := by
    unfold DecodeLogic.Disjoint smallTable
    decide
  have hexact := decodeLogic_exact (by decide) (by decide) ⟨0b00, 0b01, rfl⟩ smallTable
  obtain ⟨out, hout⟩ := Option.isSome_iff_exists.mp (hexact.1.mpr hdisjoint)
  exact ⟨out, hout, hexact.2 out hout⟩

/-! ## Section 4: The decode table -/

/-- `term` of a pattern: what it does not fix is free. -/
def BitPat.term (p : BitPat) : Term 32 where
  value := p.value &&& p.mask
  mask := ~~~p.mask
  free := by
    apply BitVec.eq_of_getLsbD_eq
    intro i hi
    simp [hi]

/-- `term` of a signal that a row fixes, or leaves open. -/
def signalTerm {w : Nat} (v : Option (BitVec w)) : Term w :=
  match v with
  | some v => ⟨v, 0#w, BitVec.and_zero⟩
  | none => ⟨0#w, BitVec.allOnes w, BitVec.zero_and⟩

/-- The gates of one column of `decode_table`. -/
def tableColumn (conf : FlexpretConfiguration) {w : Nat} (signal : DecodeRow → Option (BitVec w)) :
    Option (BitVec 32 → BitVec w) :=
  DecodeLogic.apply (signalTerm (signal defaultRow))
    (decodeTable.map fun k => (k.pattern.term, signalTerm (signal (k.row conf))))

/-- A column of one bit that every row fixes. -/
def flagColumn (conf : FlexpretConfiguration) (flag : Flags → Bool) :
    Option (BitVec 32 → BitVec 1) :=
  tableColumn conf fun row => some (BitVec.ofBool (flag row.toFlags))

/-- `decoded_inst`: the gates of all columns. -/
def decodedInst (conf : FlexpretConfiguration) : Option (BitVec 32 → Decoded) := do
  let legal ← flagColumn conf (·.legal)
  let immSel ← tableColumn conf (·.immSel)
  let op1Sel ← tableColumn conf (·.op1Sel)
  let op2Sel ← tableColumn conf (·.op2Sel)
  let aluType ← tableColumn conf (·.aluType)
  let brType ← tableColumn conf (·.brType)
  let csrType ← tableColumn conf (·.csrType)
  let mulType ← tableColumn conf (·.mulType)
  let exeRdDataSel ← tableColumn conf (·.exeRdDataSel)
  let memType ← tableColumn conf (·.memType)
  let memRdDataSel ← tableColumn conf (·.memRdDataSel)
  let rdEn ← flagColumn conf (·.rdEn)
  let branch ← flagColumn conf (·.branch)
  let jump ← flagColumn conf (·.jump)
  let csr ← flagColumn conf (·.csr)
  let load ← flagColumn conf (·.load)
  let store ← flagColumn conf (·.store)
  let fence ← flagColumn conf (·.fence)
  let fenceI ← flagColumn conf (·.fenceI)
  let scall ← flagColumn conf (·.scall)
  let sret ← flagColumn conf (·.sret)
  let du ← flagColumn conf (·.du)
  let ie ← flagColumn conf (·.ie)
  let mtReg ← flagColumn conf (·.mtReg)
  let mtImm ← flagColumn conf (·.mtImm)
  let fd ← flagColumn conf (·.fd)
  return fun inst =>
    { legal := (legal inst).getLsbD 0, rdEn := (rdEn inst).getLsbD 0
      branch := (branch inst).getLsbD 0, jump := (jump inst).getLsbD 0
      csr := (csr inst).getLsbD 0, load := (load inst).getLsbD 0
      store := (store inst).getLsbD 0, fence := (fence inst).getLsbD 0
      fenceI := (fenceI inst).getLsbD 0, scall := (scall inst).getLsbD 0
      sret := (sret inst).getLsbD 0, du := (du inst).getLsbD 0, ie := (ie inst).getLsbD 0
      mtReg := (mtReg inst).getLsbD 0, mtImm := (mtImm inst).getLsbD 0
      fd := (fd inst).getLsbD 0
      immSel := immSel inst, op1Sel := op1Sel inst, op2Sel := op2Sel inst
      aluType := aluType inst, brType := brType inst, csrType := csrType inst
      mulType := mulType inst, exeRdDataSel := exeRdDataSel inst, memType := memType inst
      memRdDataSel := memRdDataSel inst }

theorem pattern_value (k : Instr) : k.pattern.value &&& k.pattern.mask = k.pattern.value := by
  cases k
  all_goals decide

theorem pattern_term_matches (k : Instr) (inst : BitVec 32) :
    k.pattern.term.Matches inst ↔ k.pattern.matches inst = true := by
  show inst &&& ~~~(~~~k.pattern.mask) = k.pattern.value &&& k.pattern.mask ↔ _
  rw [BitVec.not_not, pattern_value, BitPat.matches, decide_eq_true_iff]

/-- The patterns of the table do not overlap. -/
theorem decodeTable_pairwise :
    (decodeTable.map fun k => k.pattern.term).Pairwise fun k u => k.intersects u = false := by
  decide +kernel

section columns

variable {conf : FlexpretConfiguration} {w : Nat}

/-- **A column** gives every word the signal of its row. -/
theorem tableColumn_agrees (conf : FlexpretConfiguration) (hw : w ≤ 32)
    (signal : DecodeRow → Option (BitVec w)) :
    ∃ out, tableColumn conf signal = some out ∧
      ∀ inst, ∀ v ∈ signal (decodeRow conf inst), out inst = v := by
  have hdisjoint : DecodeLogic.Disjoint
      (decodeTable.map fun k => (k.pattern.term, signalTerm (signal (k.row conf)))) := by
    rw [DecodeLogic.Disjoint, List.map_map]
    exact decodeTable_pairwise
  obtain ⟨out, hout, hagrees⟩ :=
    DecodeLogic.apply_agrees (by decide) hw (signalTerm (signal defaultRow)) hdisjoint
  refine ⟨out, hout, fun inst v hv => ?_⟩
  have hmatches : (signalTerm (signal (decodeRow conf inst))).Matches (out inst) := by
    unfold decodeRow
    cases hentry : instrOf inst with
    | none =>
      apply hagrees.default
      intro kv hkv hmatch
      obtain ⟨k, hk, rfl⟩ := List.mem_map.mp hkv
      have hnone := List.find?_eq_none.mp hentry k hk
      exact hnone ((pattern_term_matches k inst).mp hmatch)
    | some k =>
      have hfound : k.pattern.matches inst = true :=
        List.find?_some (p := fun k : Instr => k.pattern.matches inst) hentry
      apply hagrees.row (k := k.pattern.term)
      · exact List.mem_map_of_mem (List.mem_of_find?_eq_some hentry)
      · exact (pattern_term_matches k inst).mpr hfound
  rw [Option.mem_def.mp hv] at hmatches
  have hvalue : out inst &&& ~~~0#w = v := hmatches
  rwa [BitVec.not_zero, BitVec.and_allOnes] at hvalue

end columns

/-- **The decode logic of the core**: in every configuration the minimiser passes all its
    assertions on `decode_table`, and the gates that it generates agree with the table on
    every word. -/
theorem decodedInst_agrees (conf : FlexpretConfiguration) :
    ∃ D : DecodeLogic conf, decodedInst conf = some D.decode := by
  choose! gates hgates hagrees using fun (w : Nat) => @tableColumn_agrees w conf
  have hflag : ∀ (flag : Flags → Bool) (inst : BitVec 32),
      (gates 1 (fun row => some (BitVec.ofBool (flag row.toFlags))) inst).getLsbD 0 =
        flag (decodeRow conf inst).toFlags := by
    intro flag inst
    rw [hagrees 1 (by decide) _ inst _ rfl]
    simp
  have hdecoded : ∃ decode, decodedInst conf = some decode ∧
      ∀ inst, (decodeRow conf inst).Agrees (decode inst) := by
    refine ⟨?decode, ?some, ?agrees⟩
    case some =>
      unfold decodedInst flagColumn
      simp (disch := decide) only [hgates]
      rfl
    case agrees =>
      intro inst
      constructor
      case flags => simp only [hflag]
      -- every other signal of the decoder is a column of at most four bits
      all_goals exact hagrees _ (by decide) _ inst
  obtain ⟨decode, hsome, hall⟩ := hdecoded
  exact ⟨⟨decode, hall⟩, hsome⟩

end Flexpret.Core
