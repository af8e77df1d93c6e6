import Mathlib.Data.Nat.Bitwise
import Mathlib.Tactic.Ring

/-! # Counting Bits

    The number of bits of a word that are set, and words that differ in one bit: a word
    that is larger by a power of two and has one more bit set has just that bit set
    besides.
-/

namespace BitCount

/-- The bits below `w` that are set in `n`. -/
def count : Nat → Nat → Nat
  | 0, _ => 0
  | w + 1, n => n % 2 + count w (n / 2)

theorem count_le (w n : Nat) : count w n ≤ w := by
  induction w generalizing n with
  | zero => exact le_rfl
  | succ w ih =>
    have hrest := ih (n / 2)
    rw [count]
    omega

/-- One more sets at most one more bit: a carry clears the bits that it goes through. -/
theorem count_succ_le (w n : Nat) : count w (n + 1) ≤ count w n + 1 := by
  induction w generalizing n with
  | zero => exact Nat.zero_le _
  | succ w ih =>
    have hrest := ih (n / 2)
    rw [count, count]
    obtain heven | hodd := Nat.mod_two_eq_zero_or_one n
    · rw [show (n + 1) / 2 = n / 2 by omega]
      omega
    · rw [show (n + 1) / 2 = n / 2 + 1 by omega]
      omega

/-- **No carry**: one more bit is set only where there was none. -/
theorem testBit_of_count_add {w n k : Nat} (h : count w (n + 2 ^ k) = count w n + 1) :
    n.testBit k = false := by
  induction k generalizing w n with
  | zero =>
    rw [Nat.testBit_zero, decide_eq_false_iff_not]
    intro hodd
    cases w with
    | zero => exact Nat.noConfusion h
    | succ w =>
      have hcarry := count_succ_le w (n / 2)
      rw [count, count, Nat.pow_zero, show (n + 1) / 2 = n / 2 + 1 by omega] at h
      omega
  | succ k ih =>
    cases w with
    | zero => exact Nat.noConfusion h
    | succ w =>
      have hdouble : 2 ^ (k + 1) = 2 * 2 ^ k := by ring
      rw [count, count, show (n + 2 ^ (k + 1)) / 2 = n / 2 + 2 ^ k by omega,
        show (n + 2 ^ (k + 1)) % 2 = n % 2 by omega] at h
      rw [Nat.testBit_succ]
      exact ih (w := w) (by omega)

theorem count_add_of_testBit {w n k : Nat} (hk : k < w) (h : n.testBit k = false) :
    count w (n + 2 ^ k) = count w n + 1 := by
  induction k generalizing w n with
  | zero =>
    obtain ⟨w, rfl⟩ := Nat.exists_eq_succ_of_ne_zero hk.ne'
    rw [Nat.testBit_zero, decide_eq_false_iff_not] at h
    rw [count, count, Nat.pow_zero, show (n + 1) / 2 = n / 2 by omega]
    omega
  | succ k ih =>
    obtain ⟨w, rfl⟩ := Nat.exists_eq_succ_of_ne_zero (Nat.ne_of_gt (Nat.zero_lt_of_lt hk))
    have hdouble : 2 ^ (k + 1) = 2 * 2 ^ k := by ring
    rw [Nat.testBit_succ] at h
    rw [count, count, show (n + 2 ^ (k + 1)) / 2 = n / 2 + 2 ^ k by omega,
      show (n + 2 ^ (k + 1)) % 2 = n % 2 by omega, ih (Nat.lt_of_succ_lt_succ hk) h]
    omega

/-- The bits that are set in a word. -/
def bitCount {w : Nat} (x : BitVec w) : Nat := count w x.toNat

variable {w : Nat} {x y : BitVec w}

theorem bitCount_le (x : BitVec w) : bitCount x ≤ w := count_le w x.toNat

/-- A bit that is clear is added without a carry. -/
theorem and_twoPow_of_clear {k : Nat} (hbit : y.getLsbD k = false) :
    y &&& BitVec.twoPow w k = 0#w := by
  apply BitVec.eq_of_getLsbD_eq
  intro i hi
  rw [BitVec.getLsbD_and, BitVec.getLsbD_twoPow, BitVec.getLsbD_zero]
  by_cases hik : k = i
  · rw [← hik, hbit, Bool.false_and]
  · rw [decide_eq_false hik, Bool.and_false, Bool.and_false]

/-- Setting a bit counts one more. -/
theorem bitCount_or_twoPow {k : Nat} (hk : k < w) (hbit : y.getLsbD k = false) :
    bitCount (y ||| BitVec.twoPow w k) = bitCount y + 1 := by
  have hsum : (y ||| BitVec.twoPow w k).toNat = y.toNat + 2 ^ k := by
    rw [← BitVec.add_eq_or_of_and_eq_zero _ _ (and_twoPow_of_clear hbit),
      BitVec.toNat_add_of_and_eq_zero (and_twoPow_of_clear hbit), BitVec.toNat_twoPow,
      Nat.mod_eq_of_lt ((Nat.pow_lt_pow_iff_right (by decide)).mpr hk)]
  rw [bitCount, hsum]
  exact count_add_of_testBit hk hbit

/-- **One bit**: a larger word with one more bit set that differs by a power of two. -/
theorem eq_or_twoPow (hlt : y.toNat < x.toNat) (hpow : (x - y) &&& (x - y - 1) = 0)
    (hcount : bitCount x = bitCount y + 1) :
    ∃ k, k < w ∧ x - y = BitVec.twoPow w k ∧ x = y ||| BitVec.twoPow w k ∧
      y.getLsbD k = false := by
  have hdiff : (x - y).toNat = x.toNat - y.toNat := by
    rw [BitVec.toNat_sub_of_le (BitVec.le_def.mpr hlt.le)]
  have hne : x.toNat - y.toNat ≠ 0 := by omega
  have hand : (x.toNat - y.toNat) &&& (x.toNat - y.toNat - 1) = 0 := by
    have hnat := congrArg BitVec.toNat hpow
    have hone : (x - y - 1).toNat = x.toNat - y.toNat - 1 := by
      have hw : 1 % 2 ^ w = 1 := by
        apply Nat.mod_eq_of_lt
        have hx := x.isLt
        omega
      rw [BitVec.toNat_sub_of_le, hdiff]
      · show _ - 1 % 2 ^ w = _
        rw [hw]
      · rw [BitVec.le_def, hdiff]
        show 1 % 2 ^ w ≤ _
        omega
    rwa [BitVec.toNat_and, hone, hdiff] at hnat
  obtain ⟨k, hk⟩ := (Nat.and_sub_one_eq_zero_iff_isPowerOfTwo hne).mp hand
  have hkw : k < w := by
    have hx := x.isLt
    exact (Nat.pow_lt_pow_iff_right (by decide)).mp (by omega : 2 ^ k < 2 ^ w)
  have hsum : x.toNat = y.toNat + 2 ^ k := by omega
  have hbit : y.getLsbD k = false := by
    refine testBit_of_count_add (w := w) ?_
    rw [← hsum]
    exact hcount
  have htwo : x - y = BitVec.twoPow w k := by
    apply BitVec.eq_of_toNat_eq
    rw [hdiff, hk, BitVec.toNat_twoPow, Nat.mod_eq_of_lt]
    exact (Nat.pow_lt_pow_iff_right (by decide)).mpr hkw
  refine ⟨k, hkw, htwo, ?_, hbit⟩
  have hadd : x = y + BitVec.twoPow w k := by
    rw [← htwo, BitVec.add_comm, BitVec.sub_add_cancel]
  rw [hadd]
  exact BitVec.add_eq_or_of_and_eq_zero _ _ (and_twoPow_of_clear hbit)

end BitCount
