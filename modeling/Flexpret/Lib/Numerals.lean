import Mathlib.Algebra.GroupWithZero.Nat

/-! # Numerals

    The small finite types that have numerals: one instance for each size.
-/

namespace Numerals

instance four : NeZero 4 := ⟨by decide⟩

instance five : NeZero 5 := ⟨by decide⟩

instance eight : NeZero 8 := ⟨by decide⟩

instance thirtyTwo : NeZero 32 := ⟨by decide⟩

end Numerals
