import Mathlib.Data.List.TakeWhile
import Mathlib.Logic.Function.Basic

/-! # Buffers

    Cells that are stored to one by one, with a record of the places, and the
    strings in them, which end before the first `nul`.
-/

namespace Buffers

variable {α : Type}

/-! ## Section 1: Cells -/

/-- The cells, and where something has been stored. -/
structure Buffer (α : Type) where
  cell : Nat → α
  written : List Nat

namespace Buffer

/-- Nothing has been stored. -/
def fresh (cell : Nat → α) : Buffer α := ⟨cell, []⟩

/-- The cell at `i` becomes `v`. -/
def store (b : Buffer α) (i : Nat) (v : α) : Buffer α where
  cell := Function.update b.cell i v
  written := i :: b.written

/-- A list, stored from `i` on. -/
def storeAll : Buffer α → Nat → List α → Buffer α
  | b, _, [] => b
  | b, i, v :: l => (b.store i v).storeAll (i + 1) l

variable {b : Buffer α} {i k : Nat} {v : α} {l : List α}

@[simp] theorem store_self : (b.store i v).cell i = v := Function.update_self ..

theorem store_of_ne (h : k ≠ i) : (b.store i v).cell k = b.cell k := Function.update_of_ne h ..

@[simp] theorem mem_store_written : k ∈ (b.store i v).written ↔ k = i ∨ k ∈ b.written :=
  List.mem_cons

/-- Other cells stay. -/
theorem storeAll_outside (h : k < i ∨ i + l.length ≤ k) :
    (b.storeAll i l).cell k = b.cell k := by
  induction l generalizing b i with
  | nil => rfl
  | cons v l ih =>
    rw [List.length_cons] at h
    rw [storeAll, ih (by omega), store_of_ne (by omega)]

/-- **Stored**: each cell has its element. -/
theorem storeAll_cell (h : k < l.length) : (b.storeAll i l).cell (i + k) = l[k] := by
  induction l generalizing b i k with
  | nil => exact absurd h (Nat.not_lt_zero k)
  | cons v l ih =>
    cases k with
    | zero =>
      rw [storeAll, storeAll_outside (by omega)]
      exact store_self
    | succ k =>
      rw [storeAll, show i + (k + 1) = i + 1 + k by omega, ih (Nat.lt_of_succ_lt_succ h)]
      rfl

theorem mem_storeAll_written :
    k ∈ (b.storeAll i l).written ↔ k ∈ b.written ∨ (i ≤ k ∧ k < i + l.length) := by
  induction l generalizing b i with
  | nil =>
    rw [storeAll, List.length_nil]
    exact ⟨.inl, fun h => h.resolve_right (by omega)⟩
  | cons v l ih =>
    rw [storeAll, ih, mem_store_written, List.length_cons]
    constructor
    · rintro ((rfl | h) | h)
      · exact .inr (by omega)
      · exact .inl h
      · exact .inr (by omega)
    · rintro (h | h)
      · exact .inl (.inr h)
      · by_cases hk : k = i
        · exact .inl (.inl hk)
        · exact .inr (by omega)

end Buffer

/-! ## Section 2: Strings -/

/-- The cells from `i` on begin with `l`. -/
def Starts (b : Buffer α) (i : Nat) (l : List α) : Prop :=
  ∀ k (h : k < l.length), b.cell (i + k) = l[k]

/-- The string at `i` is `l`: its elements, none of which is `nul`, and then `nul`. -/
structure StringAt (nul : α) (b : Buffer α) (i : Nat) (l : List α) : Prop where
  starts : Starts b i l
  ends : b.cell (i + l.length) = nul
  noNul : ∀ v ∈ l, v ≠ nul

section strings

variable {nul : α} {b b' : Buffer α} {i : Nat} {l l' : List α}

/-- A string behind other cells. -/
theorem StringAt.append (h : Starts b i l) (hno : ∀ v ∈ l, v ≠ nul)
    (h' : StringAt nul b (i + l.length) l') : StringAt nul b i (l ++ l') := by
  constructor
  case starts =>
    intro k hk
    rw [List.length_append] at hk
    by_cases hlt : k < l.length
    · rw [List.getElem_append_left hlt]
      exact h k hlt
    · rw [List.getElem_append_right (Nat.not_lt.mp hlt), ← h'.starts (k - l.length) (by omega)]
      congr 1
      omega
  case ends =>
    rw [List.length_append, ← Nat.add_assoc]
    exact h'.ends
  case noNul =>
    intro v hv
    obtain hv | hv := List.mem_append.mp hv
    · exact hno v hv
    · exact h'.noNul v hv

/-- Only the cells of a list matter for it. -/
theorem Starts.congr (h : Starts b i l)
    (hcell : ∀ k, i ≤ k → k < i + l.length → b'.cell k = b.cell k) : Starts b' i l := by
  intro k hk
  rw [hcell (i + k) (by omega) (by omega)]
  exact h k hk

variable [DecidableEq α]

/-- The string at `i`, of at most `size` elements. -/
def Buffer.string (nul : α) (b : Buffer α) (i size : Nat) : List α :=
  ((List.range size).map fun k => b.cell (i + k)).takeWhile (· ≠ nul)

/-- **Reading a string** that is there. -/
theorem StringAt.string_eq (h : StringAt nul b i l) {size : Nat} (hsize : l.length < size) :
    b.string nul i size = l := by
  have hcells : (List.range size).map (fun k => b.cell (i + k)) =
      l ++ nul :: ((List.range size).map fun k => b.cell (i + k)).drop (l.length + 1) := by
    apply List.ext_getElem
    · simp only [List.length_map, List.length_range, List.length_append, List.length_cons,
        List.length_drop]
      omega
    · intro k hk hk'
      rw [List.getElem_map, List.getElem_range]
      by_cases hlt : k < l.length
      · rw [List.getElem_append_left hlt]
        exact h.starts k hlt
      · rw [List.getElem_append_right (Nat.not_lt.mp hlt)]
        obtain rfl | hgt : k = l.length ∨ l.length < k := by omega
        · simp only [Nat.sub_self, List.getElem_cons_zero]
          exact h.ends
        · obtain ⟨d, rfl⟩ := Nat.exists_eq_add_of_lt hgt
          have hindex : l.length + d + 1 - l.length = d + 1 := by omega
          simp only [hindex, List.getElem_cons_succ, List.getElem_drop, List.getElem_map,
            List.getElem_range]
          congr 1
          omega
  rw [Buffer.string, hcells, List.takeWhile_append_of_pos]
  · simp
  · intro v hv
    exact decide_eq_true (h.noNul v hv)

end strings

end Buffers
