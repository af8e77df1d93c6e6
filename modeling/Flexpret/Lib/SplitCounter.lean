import Mathlib.Data.Nat.ModEq
import Mathlib.Tactic.Common

/-! # Counters Read in Two Words

    A counter of `2w` bits that is read a word of `w` bits at a time, while it counts.
    When the upper word is the same before and after the lower word is read, the two
    words are the counter at the moment of the lower one; and of two attempts in a row one
    succeeds, unless the counter passes `2^w` counts meanwhile.
-/

namespace SplitCounter

/-- The upper word of a counter that has counted `n`. -/
def high (w n : Nat) : Nat := n / 2 ^ w % 2 ^ w

/-- The lower word. -/
def low (w n : Nat) : Nat := n % 2 ^ w

theorem high_mul_add_low (w n : Nat) : high w n * 2 ^ w + low w n = n % 2 ^ (w + w) := by
  rw [high, low, Nat.pow_add, Nat.mod_mul, Nat.add_comm, Nat.mul_comm]

/-- **No torn reading**: between two readings of the same upper word it has not changed,
    as long as the counter does not go all the way around. -/
theorem high_between {w l m n : Nat} (hlm : l ≤ m) (hmn : m ≤ n)
    (hslow : n + 2 ^ w ≤ l + 2 ^ (w + w)) (hsame : high w l = high w n) :
    high w m = high w l := by
  have hpos : 0 < 2 ^ w := Nat.two_pow_pos w
  have hlow : l / 2 ^ w ≤ m / 2 ^ w := Nat.div_le_div_right hlm
  have hhigh : m / 2 ^ w ≤ n / 2 ^ w := Nat.div_le_div_right hmn
  have hwrap : n / 2 ^ w + 1 ≤ l / 2 ^ w + 2 ^ w := by
    have hdiv := Nat.div_le_div_right (c := 2 ^ w) hslow
    rwa [Nat.pow_add, Nat.add_div_right _ hpos, Nat.add_mul_div_left _ _ hpos] at hdiv
  -- less than a whole round apart, so the same words are the same quotients
  have hquot : l / 2 ^ w = n / 2 ^ w := by
    have hmod : l / 2 ^ w ≡ n / 2 ^ w [MOD 2 ^ w] := hsame
    have hdvd := (Nat.modEq_iff_dvd' (hlow.trans hhigh)).mp hmod
    have hzero := Nat.eq_zero_of_dvd_of_lt hdvd (by omega)
    omega
  have hmid : m / 2 ^ w = l / 2 ^ w := by omega
  rw [high, hmid, high]

/-- **Two attempts**: of two stretches one after the other, the upper word stays the same
    in one. -/
theorem high_steady {w a b c d : Nat} (hab : a ≤ b) (hbc : b ≤ c) (hcd : c ≤ d)
    (hslow : d < a + 2 ^ w) : high w a = high w b ∨ high w c = high w d := by
  have hpos : 0 < 2 ^ w := Nat.two_pow_pos w
  have hfirst : a / 2 ^ w ≤ b / 2 ^ w := Nat.div_le_div_right hab
  have hgap : b / 2 ^ w ≤ c / 2 ^ w := Nat.div_le_div_right hbc
  have hsecond : c / 2 ^ w ≤ d / 2 ^ w := Nat.div_le_div_right hcd
  have hlast : d / 2 ^ w ≤ a / 2 ^ w + 1 := by
    have hdiv := Nat.div_le_div_right (c := 2 ^ w) hslow.le
    rwa [Nat.add_div_right _ hpos] at hdiv
  by_cases hsame : a / 2 ^ w = b / 2 ^ w
  · left
    rw [high, hsame, high]
  · right
    have hrest : c / 2 ^ w = d / 2 ^ w := by omega
    rw [high, hrest, high]

/-- **Three attempts** at two counters: one of them spoils neither. -/
theorem exists_attempt {p q : Nat → Prop} (hp : ∀ i j, i < j → j < 3 → p i ∨ p j)
    (hq : ∀ i j, i < j → j < 3 → q i ∨ q j) : ∃ m, m < 3 ∧ p m ∧ q m := by
  have htwo : ∀ {r : Nat → Prop}, (∀ i j, i < j → j < 3 → r i ∨ r j) →
      (r 0 ∨ r 1) ∧ (r 0 ∨ r 2) ∧ (r 1 ∨ r 2) := fun h =>
    ⟨h 0 1 (by omega) (by omega), h 0 2 (by omega) (by omega), h 1 2 (by omega) (by omega)⟩
  obtain ⟨hp₀₁, hp₀₂, hp₁₂⟩ := htwo hp
  obtain ⟨hq₀₁, hq₀₂, hq₁₂⟩ := htwo hq
  by_cases h₀ : p 0 ∧ q 0
  · exact ⟨0, by omega, h₀⟩
  · -- the first one is spoilt, so its counter spoils no other
    rcases not_and_or.mp h₀ with hnp | hnq
    · rcases hq₁₂ with hq₁ | hq₂
      · exact ⟨1, by omega, hp₀₁.resolve_left hnp, hq₁⟩
      · exact ⟨2, by omega, hp₀₂.resolve_left hnp, hq₂⟩
    · rcases hp₁₂ with hp₁ | hp₂
      · exact ⟨1, by omega, hp₁, hq₀₁.resolve_left hnq⟩
      · exact ⟨2, by omega, hp₂, hq₀₂.resolve_left hnq⟩

end SplitCounter
