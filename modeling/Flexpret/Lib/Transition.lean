import Mathlib.Data.Nat.Find
import Mathlib.Logic.Function.Basic

/-! # Transition Systems and Synchronous Machines

    Two notions of a running system, shared by every model below:

    * `System`: a labelled transition system, for parties that interleave.
      Reachability, finite runs, and the invariant rule.
    * `Machine.trace`: a clocked machine, one state per cycle, driven by a
      stream of inputs.  The invariant rule, and the rule that relates two
      traces cycle by cycle.
-/

namespace Transition

/-! ## Section 1: Labelled transition systems -/

/-- A labelled transition system: initial states and labelled steps. -/
structure System (State : Type*) (Label : Type*) where
  init : State → Prop
  step : State → Label → State → Prop

namespace System

variable {State Label : Type*}

/-- States reachable from an initial state. -/
inductive Reachable (sys : System State Label) : State → Prop where
  | init : ∀ {s}, sys.init s → Reachable sys s
  | step : ∀ {s s'} l, Reachable sys s → sys.step s l s' → Reachable sys s'

/-- **Invariant rule**: what holds initially and is preserved by every step
    out of a reachable state holds of every reachable state. -/
theorem Reachable.invariant {sys : System State Label} {s : State} (h : sys.Reachable s)
    (inv : State → Prop) (hinit : ∀ s, sys.init s → inv s)
    (hstep : ∀ s l s', sys.Reachable s → inv s → sys.step s l s' → inv s') : inv s := by
  induction h with
  | init h0 => exact hinit _ h0
  | step l hreach hl ih => exact hstep _ l _ hreach ih hl

/-- The system whose steps also meet the condition `P` on the state before
    the step and the label. -/
def restrict (sys : System State Label) (P : State → Label → Prop) :
    System State Label where
  init := sys.init
  step := fun s l s' => P s l ∧ sys.step s l s'

/-- A run: the labels taken from one state to another, in order. -/
inductive Run (sys : System State Label) : State → List Label → State → Prop where
  | nil : ∀ s, Run sys s [] s
  | cons : ∀ {s s' s''} (l : Label) (ls : List Label),
      sys.step s l s' → Run sys s' ls s'' → Run sys s (l :: ls) s''

theorem Run.append {sys : System State Label} {s s' s'' : State} {ls ls' : List Label}
    (h : sys.Run s ls s') (h' : sys.Run s' ls' s'') : sys.Run s (ls ++ ls') s'' := by
  induction h with
  | nil s => exact h'
  | cons l ls hl _ ih => exact Run.cons l (ls ++ ls') hl (ih h')

theorem Reachable.run {sys : System State Label} {s s' : State} {ls : List Label}
    (h : sys.Reachable s) (hrun : sys.Run s ls s') : sys.Reachable s' := by
  induction hrun with
  | nil s => exact h
  | cons l ls hl _ ih => exact ih (Reachable.step l h hl)

/-- **Invariant rule for runs**: what every step keeps of the labels so far and
    the state holds at the end of a run. -/
theorem Run.history {sys : System State Label} {s s' : State} {ls : List Label}
    (h : sys.Run s ls s') (inv : List Label → State → Prop) {done : List Label} (h₀ : inv done s)
    (hstep : ∀ done s l s', inv done s → sys.step s l s' → inv (done ++ [l]) s') :
    inv (done ++ ls) s' := by
  induction h generalizing done with
  | nil s => rwa [List.append_nil]
  | cons l ls hl _ ih =>
    have hrest := ih (hstep done _ l _ h₀ hl)
    rwa [List.append_assoc, List.singleton_append] at hrest

/-- A run whose labels meet the condition in every state is a run of the
    restricted system. -/
theorem Run.restrict {sys : System State Label} {P : State → Label → Prop} {s s' : State}
    {ls : List Label} (h : sys.Run s ls s') (hP : ∀ l ∈ ls, ∀ s, P s l) :
    (sys.restrict P).Run s ls s' := by
  induction h with
  | nil s => exact Run.nil s
  | cons l ls hl _ ih =>
    exact Run.cons l ls ⟨hP l (List.mem_cons_self ..) _, hl⟩
      (ih fun l' hl' => hP l' (List.mem_cons_of_mem _ hl'))

/-! ### Systems with a step function -/

/-- The system of a partial step function: a label leads nowhere where the
    function is undefined. -/
def ofStep (init : State → Prop) (step : State → Label → Option State) :
    System State Label where
  init := init
  step := fun s l s' => step s l = some s'

/-- Take the steps of a list of labels, as long as they are defined. -/
def execute (step : State → Label → Option State) (s : State) : List Label → Option State
  | [] => some s
  | l :: ls => (step s l).bind fun s' => execute step s' ls

theorem execute_cons {step : State → Label → Option State} {s s' : State} {l : Label}
    (h : step s l = some s') (ls : List Label) :
    execute step s (l :: ls) = execute step s' ls := by
  rw [execute, h, Option.bind_some]

theorem run_of_execute {init : State → Prop} {step : State → Label → Option State} :
    ∀ {s s' : State} {ls : List Label}, execute step s ls = some s' →
      (ofStep init step).Run s ls s'
  | s, s', [], h => by
    obtain rfl : s = s' := Option.some.inj h
    exact Run.nil s
  | s, s', l :: ls, h => by
    obtain ⟨s₁, hl, hls⟩ := Option.bind_eq_some_iff.mp h
    exact Run.cons l ls hl (run_of_execute hls)

/-- The step function, defined only where the test `ok` succeeds. -/
def guarded (ok : State → Label → Bool) (step : State → Label → Option State) (s : State)
    (l : Label) : Option State :=
  if ok s l = true then step s l else none

/-- What a guarded step function executes is a run of the restricted system. -/
theorem run_restrict_of_execute {init : State → Prop} {step : State → Label → Option State}
    {P : State → Label → Prop} {ok : State → Label → Bool} (hok : ∀ s l, ok s l = true → P s l) :
    ∀ {s s' : State} {ls : List Label}, execute (guarded ok step) s ls = some s' →
      ((ofStep init step).restrict P).Run s ls s'
  | s, s', [], h => by
    obtain rfl : s = s' := Option.some.inj h
    exact Run.nil s
  | s, s', l :: ls, h => by
    obtain ⟨s₁, hl, hls⟩ := Option.bind_eq_some_iff.mp h
    rw [guarded] at hl
    split at hl
    · next hsl => exact Run.cons l ls ⟨hok s l hsl, hl⟩ (run_restrict_of_execute hok hls)
    · exact absurd hl nofun

end System

/-! ## Section 2: Clocked machines -/

namespace Machine

variable {State Input : Type*}

/-- The state at every cycle of a clocked machine started in `s₀`, whose
    registers take `next s i` at the end of a cycle with input `i`. -/
def trace (next : State → Input → State) (s₀ : State) (inp : Nat → Input) : Nat → State
  | 0 => s₀
  | c + 1 => next (trace next s₀ inp c) (inp c)

@[simp] theorem trace_zero (next : State → Input → State) (s₀ : State) (inp : Nat → Input) :
    trace next s₀ inp 0 = s₀ := rfl

theorem trace_succ (next : State → Input → State) (s₀ : State) (inp : Nat → Input) (c : Nat) :
    trace next s₀ inp (c + 1) = next (trace next s₀ inp c) (inp c) := rfl

/-- A run goes on from the state it has reached. -/
theorem trace_add (next : State → Input → State) (s₀ : State) (inp : Nat → Input) (c n : Nat) :
    trace next s₀ inp (c + n) =
      trace next (trace next s₀ inp c) (fun k => inp (c + k)) n := by
  induction n with
  | zero => rfl
  | succ n ih => rw [← Nat.add_assoc, trace_succ, trace_succ, ih]

/-- **Invariant rule** for a clocked machine. -/
theorem trace_invariant {next : State → Input → State} {s₀ : State} {inp : Nat → Input}
    {inv : State → Prop} (h0 : inv s₀) (hstep : ∀ s i, inv s → inv (next s i)) (c : Nat) :
    inv (trace next s₀ inp c) := by
  induction c with
  | zero => exact h0
  | succ c ih => exact hstep _ _ ih

/-- **Relational rule**: two runs of one machine stay related for `n` cycles
    when every pair of cycles before that agrees as `ok` says and so preserves
    the relation. -/
theorem trace_relate {next : State → Input → State} {s₁ s₂ : State} {i₁ i₂ : Nat → Input}
    (rel : State → State → Prop) (ok : State → Input → State → Input → Prop)
    (h0 : rel s₁ s₂) {n : Nat}
    (hok : ∀ c, c < n → ok (trace next s₁ i₁ c) (i₁ c) (trace next s₂ i₂ c) (i₂ c))
    (hstep : ∀ s i s' i', ok s i s' i' → rel s s' → rel (next s i) (next s' i')) :
    rel (trace next s₁ i₁ n) (trace next s₂ i₂ n) := by
  induction n with
  | zero => exact h0
  | succ n ih =>
    exact hstep _ _ _ _ (hok n (Nat.lt_succ_self n))
      (ih fun c hc => hok c (Nat.lt_succ_of_lt hc))

/-- The first cycle of a window in which something holds. -/
theorem exists_firstCycle {P : Nat → Prop} {a b : Nat} (h : ∃ n, a ≤ n ∧ n < b ∧ P n) :
    ∃ n, a ≤ n ∧ n < b ∧ P n ∧ ∀ j, a ≤ j → j < n → ¬ P j := by
  classical
  obtain ⟨hlow, hhigh, hholds⟩ := Nat.find_spec h
  refine ⟨Nat.find h, hlow, hhigh, hholds, fun j hj hj' hholds' => ?_⟩
  exact Nat.find_min h hj' ⟨hj, Nat.lt_trans hj' hhigh, hholds'⟩

end Machine

/-! ## Section 3: Loops over a list -/

/-- **Loop rule**: a property of the elements visited and the state, kept by
    each turn on an element not visited before, holds when a loop over
    distinct elements ends. -/
theorem foldl_visited {Elem State : Type*} {turn : State → Elem → State}
    {inv : List Elem → State → Prop} :
    ∀ (l done : List Elem) (s : State), inv done s → l.Nodup → (∀ i ∈ l, i ∉ done) →
      (∀ done s, ∀ i ∈ l, inv done s → i ∉ done → inv (i :: done) (turn s i)) →
      inv (l.reverse ++ done) (l.foldl turn s)
  | [], _, _, h, _, _, _ => h
  | i :: l, done, s, h, hnodup, hnew, hturn => by
    obtain ⟨hil, hnodup⟩ := List.nodup_cons.mp hnodup
    have hfirst := hturn done s i List.mem_cons_self h (hnew i List.mem_cons_self)
    have hrest := foldl_visited l (i :: done) (turn s i) hfirst hnodup
      (fun j hj hmem => by
        obtain rfl | hmem := List.mem_cons.mp hmem
        · exact hil hj
        · exact hnew j (List.mem_cons_of_mem _ hj) hmem)
      (fun done s j hj => hturn done s j (List.mem_cons_of_mem _ hj))
    simpa using hrest

end Transition
