import Mathlib.Data.List.Perm.Subperm
import Mathlib.Logic.Function.Basic

/-! # Tickets

    Callers take numbers from a counter, and give them away some time later.
    Where taking a number and advancing the counter is one action, no number
    is given away twice, and never more than have been taken.
-/

namespace Ticket

/-- The counter, the number each caller holds, and those given away. -/
structure Office (Caller : Type*) where
  next : Nat
  held : Caller → Option Nat
  given : List Nat

variable {Caller : Type*} {first : Nat} {o : Office Caller}

/-- The numbers are handed out from `first` on, each one once. -/
structure Office.Sound (first : Nat) (o : Office Caller) : Prop where
  start : first ≤ o.next
  held : ∀ c n, o.held c = some n → first ≤ n ∧ n < o.next
  given : ∀ n ∈ o.given, first ≤ n ∧ n < o.next
  notGiven : ∀ c n, o.held c = some n → n ∉ o.given
  once : ∀ c c' n, o.held c = some n → o.held c' = some n → c = c'
  nodup : o.given.Nodup

theorem Office.sound_start (h : ∀ c, o.held c = none) (hgiven : o.given = [])
    (hfirst : first ≤ o.next) : o.Sound first where
  start := hfirst
  held := fun c n hc => absurd ((h c).symm.trans hc) nofun
  given := by
    rw [hgiven]
    exact fun n hn => absurd hn List.not_mem_nil
  notGiven := fun c n hc => absurd ((h c).symm.trans hc) nofun
  once := fun c _ n hc => absurd ((h c).symm.trans hc) nofun
  nodup := by
    rw [hgiven]
    exact List.nodup_nil

/-- No more numbers have been given away than the counter has advanced. -/
theorem Office.Sound.length_le (h : o.Sound first) : o.given.length ≤ o.next - first := by
  have hsub : o.given ⊆ List.range' first (o.next - first) := by
    intro n hn
    obtain ⟨hlow, hhigh⟩ := h.given n hn
    rw [List.mem_range'_1]
    omega
  have hlen := (h.nodup.subperm hsub).length_le
  rwa [List.length_range'] at hlen

section actions

variable [DecidableEq Caller]

/-- Caller `c` takes the next number. -/
def Office.take (o : Office Caller) (c : Caller) : Office Caller where
  next := o.next + 1
  held := Function.update o.held c (some o.next)
  given := o.given

/-- Caller `c` gives number `n` away. -/
def Office.give (o : Office Caller) (c : Caller) (n : Nat) : Office Caller where
  next := o.next
  held := Function.update o.held c none
  given := n :: o.given

/-- **Taking a number** keeps the office sound. -/
theorem Office.Sound.take (h : o.Sound first) (c : Caller) : (o.take c).Sound first := by
  have hnew : ∀ c' n, (o.take c).held c' = some n → c' = c ∧ n = o.next ∨ o.held c' = some n := by
    intro c' n hc'
    by_cases hcc : c' = c
    · subst hcc
      refine .inl ⟨rfl, ?_⟩
      exact Option.some.inj (hc'.symm.trans (Function.update_self ..))
    · exact .inr ((Function.update_of_ne hcc ..).symm.trans hc')
  constructor
  case start => exact Nat.le_succ_of_le h.start
  case held =>
    intro c' n hc'
    rcases hnew c' n hc' with ⟨_, rfl⟩ | hold
    · exact ⟨h.start, Nat.lt_succ_self _⟩
    · exact ⟨(h.held c' n hold).1, Nat.lt_succ_of_lt (h.held c' n hold).2⟩
  case given => exact fun n hn => ⟨(h.given n hn).1, Nat.lt_succ_of_lt (h.given n hn).2⟩
  case notGiven =>
    intro c' n hc' hn
    rcases hnew c' n hc' with ⟨_, rfl⟩ | hold
    · exact Nat.lt_irrefl _ (h.given _ hn).2
    · exact h.notGiven c' n hold hn
  case once =>
    intro c₁ c₂ n h₁ h₂
    rcases hnew c₁ n h₁ with ⟨rfl, rfl⟩ | hold₁
    · rcases hnew c₂ _ h₂ with ⟨rfl, _⟩ | hold₂
      · rfl
      · exact absurd (h.held c₂ _ hold₂).2 (Nat.lt_irrefl _)
    · rcases hnew c₂ n h₂ with ⟨rfl, rfl⟩ | hold₂
      · exact absurd (h.held c₁ _ hold₁).2 (Nat.lt_irrefl _)
      · exact h.once c₁ c₂ n hold₁ hold₂
  case nodup => exact h.nodup

/-- **Giving a number away** keeps the office sound. -/
theorem Office.Sound.give (h : o.Sound first) {c : Caller} {n : Nat} (hc : o.held c = some n) :
    (o.give c n).Sound first := by
  have hold : ∀ c' m, (o.give c n).held c' = some m → c' ≠ c ∧ o.held c' = some m := by
    intro c' m hc'
    by_cases hcc : c' = c
    · subst hcc
      exact absurd ((Function.update_self ..).symm.trans hc') nofun
    · exact ⟨hcc, (Function.update_of_ne hcc ..).symm.trans hc'⟩
  constructor
  case start => exact h.start
  case held => exact fun c' m hc' => h.held c' m (hold c' m hc').2
  case given =>
    intro m hm
    rcases List.mem_cons.mp hm with rfl | hm
    · exact h.held c m hc
    · exact h.given m hm
  case notGiven =>
    intro c' m hc' hm
    obtain ⟨hne, hheld⟩ := hold c' m hc'
    rcases List.mem_cons.mp hm with rfl | hm
    · exact hne (h.once c' c m hheld hc)
    · exact h.notGiven c' m hheld hm
  case once => exact fun c₁ c₂ m h₁ h₂ => h.once c₁ c₂ m (hold c₁ m h₁).2 (hold c₂ m h₂).2
  case nodup => exact List.nodup_cons.mpr ⟨h.notGiven c n hc, h.nodup⟩

end actions

end Ticket
