import Mathlib.Logic.Function.Basic

/-! # Byte-Addressed Memory

    Memory by bytes, in which words lie in little-endian order: storing the low
    bytes of a word, and the bytes of a word apart and together.
-/

namespace ByteMemory

/-! ## Section 1: The bytes of a word -/

/-- Byte `k` of a word. -/
def byte (v : BitVec 32) (k : Nat) : BitVec 8 := v.extractLsb' (8 * k) 8

/-- The word of four bytes. -/
def ofBytes (b : Nat → BitVec 8) : BitVec 32 := b 3 ++ b 2 ++ b 1 ++ b 0

theorem byte_ofBytes (b : Nat → BitVec 8) {k : Nat} (hk : k < 4) : byte (ofBytes b) k = b k := by
  apply BitVec.eq_of_getLsbD_eq
  intro i hi
  obtain rfl | rfl | rfl | rfl : k = 0 ∨ k = 1 ∨ k = 2 ∨ k = 3 := by omega
  all_goals
    simp only [byte, ofBytes, BitVec.getLsbD_extractLsb', BitVec.getLsbD_append, hi, decide_true,
      Bool.true_and]
    grind

/-- A word is its bytes. -/
theorem ofBytes_byte (v : BitVec 32) : ofBytes (byte v) = v := by
  apply BitVec.eq_of_getLsbD_eq
  intro i hi
  simp only [byte, ofBytes, BitVec.getLsbD_extractLsb', BitVec.getLsbD_append]
  grind

/-- The low half of a shifted word is two of its bytes. -/
theorem half_eq (v : BitVec 32) (k : Nat) :
    (v >>> (8 * k)).setWidth 16 = byte v (k + 1) ++ byte v k := by
  apply BitVec.eq_of_getLsbD_eq
  intro i hi
  simp only [byte, BitVec.getLsbD_extractLsb', BitVec.getLsbD_append, BitVec.getLsbD_setWidth,
    BitVec.getLsbD_ushiftRight]
  grind

/-- The low byte of a shifted word is one of its bytes. -/
theorem low_eq (v : BitVec 32) (k : Nat) : (v >>> (8 * k)).setWidth 8 = byte v k := by
  apply BitVec.eq_of_getLsbD_eq
  intro i hi
  simp only [byte, BitVec.getLsbD_extractLsb', BitVec.getLsbD_setWidth,
    BitVec.getLsbD_ushiftRight]

/-! ## Section 2: The memory -/

/-- The bytes by their address. -/
abbrev Bytes : Type := BitVec 32 → BitVec 8

/-- The `n` low bytes of `v` become the bytes from `a` on; the others stay. -/
def store (mem : Bytes) (a : BitVec 32) (n : Nat) (v : BitVec 32) : Bytes := fun k =>
  if a.toNat ≤ k.toNat ∧ k.toNat < a.toNat + n then byte v (k.toNat - a.toNat) else mem k

/-- Bytes that agree where it matters still do after the same store. -/
theorem store_congr {P : BitVec 32 → Prop} {mem mem' : Bytes} (h : ∀ k, P k → mem k = mem' k)
    (a : BitVec 32) (n : Nat) (v : BitVec 32) {k : BitVec 32} (hk : P k) :
    store mem a n v k = store mem' a n v k := by
  unfold store
  split
  · rfl
  · exact h k hk

end ByteMemory
