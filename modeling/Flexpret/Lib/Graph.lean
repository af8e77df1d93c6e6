import Mathlib.Data.Finset.Card
import Mathlib.Logic.Relation
import Mathlib.Order.Bounds.Basic

/-! # Paths to a First Arrival

    Directed graphs given by lists of successors, with a target: what can be
    reached without passing through the target, and the paths that stop where
    they first meet it.
-/

namespace Graph

open Relation

variable {α : Type*}

/-! ## Section 1: The region before the target -/

section region

variable (succ : α → List α) (target : α)

def Edge (a b : α) : Prop := b ∈ succ a

instance [DecidableEq α] (a b : α) : Decidable (Edge succ a b) :=
  inferInstanceAs (Decidable (b ∈ succ a))

/-- An edge that neither leaves nor enters the target. -/
structure Inner (a b : α) : Prop where
  edge : b ∈ succ a
  left : a ≠ target
  right : b ≠ target

/-- `b` can be reached from `a` without passing through the target. -/
def Reaches (a b : α) : Prop := ReflTransGen (Inner succ target) a b

/-- Some cycle can be reached from `a` without passing through the target. -/
def CyclicFrom (a : α) : Prop :=
  ∃ b, Reaches succ target a b ∧ TransGen (Inner succ target) b b

/-- No successor of a node that can be reached from `a` is in the set. -/
def FreeFrom (marked : α → Bool) (a : α) : Prop :=
  ∀ b, Reaches succ target a b → ∀ c ∈ succ b, marked c = false

variable {succ target} {a b c : α}

theorem Reaches.head (h : Inner succ target a b) (hb : Reaches succ target b c) :
    Reaches succ target a c :=
  ReflTransGen.head h hb

/-- What is reached is the start or is reached from one of its successors. -/
theorem reaches_cases (h : Reaches succ target a c) :
    c = a ∨ ∃ b, Inner succ target a b ∧ Reaches succ target b c := by
  rcases ReflTransGen.cases_head h with heq | ⟨b, hab, hbc⟩
  · exact Or.inl heq.symm
  · exact Or.inr ⟨b, hab, hbc⟩

theorem not_cyclicFrom_of_inner (h : ¬ CyclicFrom succ target a) (hab : Inner succ target a b) :
    ¬ CyclicFrom succ target b := by
  rintro ⟨c, hbc, hcc⟩
  exact h ⟨c, Reaches.head hab hbc, hcc⟩

/-- Without a cycle the start is not among the successors of what it leads to. -/
theorem ne_of_not_cyclicFrom (h : ¬ CyclicFrom succ target a) (hab : Inner succ target a b)
    {x : α} (hbx : Reaches succ target b x) (hx : x ≠ target) (hc : c ∈ succ x) : c ≠ a := by
  rintro rfl
  exact h ⟨c, ReflTransGen.refl, TransGen.head' hab (hbx.tail ⟨hc, hx, hab.left⟩)⟩

theorem reaches_ne_target (ha : a ≠ target) (h : Reaches succ target a b) : b ≠ target := by
  rcases ReflTransGen.cases_tail h with heq | ⟨c, -, hcb⟩
  · exact heq ▸ ha
  · exact hcb.right

/-- No cycle passes through a target that is also the start. -/
theorem not_cyclicFrom_target : ¬ CyclicFrom succ target target := by
  rintro ⟨b, hb, hcycle⟩
  rcases reaches_cases hb with rfl | ⟨c, hinner, -⟩
  · obtain ⟨c, hinner, -⟩ := TransGen.head'_iff.mp hcycle
    exact hinner.left rfl
  · exact hinner.left rfl

end region

/-! ## Section 2: Paths -/

section paths

variable (succ : α → List α) (target : α)

/-- A path that meets the target at its end only. -/
inductive Arrives : α → List α → Prop
  | last {a : α} (ha : a ≠ target) (hmem : target ∈ succ a) : Arrives a [a, target]
  | step {a b : α} {p : List α} (ha : a ≠ target) (hmem : b ∈ succ a) (hp : Arrives b p) :
      Arrives a (a :: p)

variable {succ target} {a b : α} {p : List α}

theorem Arrives.ne (h : Arrives succ target a p) : a ≠ target := by
  cases h with
  | last ha _ => exact ha
  | step ha _ _ => exact ha

/-- A path starts at its first node and ends at the target. -/
theorem Arrives.shape (h : Arrives succ target a p) : ∃ q, p = a :: (q ++ [target]) := by
  induction h with
  | last _ _ => exact ⟨[], rfl⟩
  | step _ _ _ ih =>
    obtain ⟨q, rfl⟩ := ih
    exact ⟨_ :: q, rfl⟩

/-- The target of a path can be reached. -/
theorem Arrives.reachable (h : Arrives succ target a p) : ReflTransGen (Edge succ) a target := by
  induction h with
  | last _ hmem => exact ReflTransGen.single hmem
  | step _ hmem _ ih => exact ReflTransGen.head hmem ih

theorem arrives_iff (ha : a ≠ target) : Arrives succ target a p ↔
    (target ∈ succ a ∧ p = [a, target]) ∨
      ∃ b ∈ succ a, ∃ q, Arrives succ target b q ∧ p = a :: q := by
  constructor
  · intro h
    cases h with
    | last _ hmem => exact Or.inl ⟨hmem, rfl⟩
    | step _ hmem hp => exact Or.inr ⟨_, hmem, _, hp, rfl⟩
  · rintro (⟨hmem, rfl⟩ | ⟨b, hmem, q, hq, rfl⟩)
    · exact Arrives.last ha hmem
    · exact Arrives.step ha hmem hq

/-- A path to the target can be cut where it first meets it. -/
theorem exists_arrives (h : ReflTransGen (Edge succ) a target) (ha : a ≠ target) :
    ∃ p, Arrives succ target a p := by
  induction h using ReflTransGen.head_induction_on with
  | refl => exact absurd rfl ha
  | @head a b hab _ ih =>
    by_cases hb : b = target
    · exact ⟨_, Arrives.last ha (hb ▸ hab)⟩
    · obtain ⟨p, hp⟩ := ih hb
      exact ⟨_, Arrives.step ha hab hp⟩

end paths

/-! ## Section 3: Maxima collected one part at a time -/

section maxima

variable {β : Type*} [Preorder β] {A B : Set β} {m m₁ m₂ : β}

/-- The maximum of a first part carried over to a second one. -/
theorem isGreatest_insert_union (h₁ : IsGreatest (insert m A) m₁)
    (h₂ : IsGreatest (insert m₁ B) m₂) : IsGreatest (insert m (A ∪ B)) m₂ := by
  have hle : m₁ ≤ m₂ := h₂.2 (Set.mem_insert _ _)
  constructor
  · rcases h₂.1 with rfl | hB
    · rcases h₁.1 with rfl | hA
      · exact Set.mem_insert _ _
      · exact Set.mem_insert_of_mem _ (Or.inl hA)
    · exact Set.mem_insert_of_mem _ (Or.inr hB)
  · intro v hv
    rcases hv with rfl | hA | hB
    · exact le_trans (h₁.2 (Set.mem_insert _ _)) hle
    · exact le_trans (h₁.2 (Set.mem_insert_of_mem _ hA)) hle
    · exact h₂.2 (Set.mem_insert_of_mem _ hB)

/-- A lower start does not show in the maximum of a set that is not empty. -/
theorem isGreatest_of_insert {γ : Type*} [PartialOrder γ] {C : Set γ} {bot top : γ}
    (h : IsGreatest (insert bot C) top) (hne : C.Nonempty) (hbot : ∀ v ∈ C, bot ≤ v) :
    IsGreatest C top := by
  refine ⟨?_, fun v hv => h.2 (Set.mem_insert_of_mem _ hv)⟩
  rcases h.1 with rfl | hC
  · obtain ⟨v, hv⟩ := hne
    have hle : v ≤ top := h.2 (Set.mem_insert_of_mem _ hv)
    rwa [le_antisymm (hbot v hv) hle]
  · exact hC

end maxima

end Graph
