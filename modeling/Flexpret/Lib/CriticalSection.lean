import Flexpret.Lib.Transition

/-! # Critical Sections

    Threads call the operations of a shared object.  An operation takes a lock,
    makes its accesses to the shared state one at a time, and gives the lock
    back.  However the accesses interleave, the calls are serializable: state
    and results are those of the same calls made one after the other.
-/

namespace CriticalSection

/-! ## Section 1: Programs of atomic accesses -/

/-- A program over a shared state: it ends with a result, or makes one atomic
    access and goes on with what that has read. -/
inductive Prog (State Result : Type) where
  | ret (r : Result)
  | access (write : State → State) (next : State → Prog State Result)

namespace Prog

variable {State α β : Type}

/-- One program after the other. -/
protected def bind : Prog State α → (α → Prog State β) → Prog State β
  | .ret r, k => k r
  | .access write next, k => .access write fun s => (next s).bind k

instance : Monad (Prog State) where
  pure := .ret
  bind := .bind

/-- One access that only reads. -/
def read (f : State → α) : Prog State α := .access id fun s => .ret (f s)

/-- One access that writes. -/
def modify (f : State → State) : Prog State Unit := .access f fun _ => .ret ()

/-- The program without anybody in between. -/
def run : Prog State α → State → State × α
  | .ret r, s => (s, r)
  | .access write next, s => (next s).run (write s)

@[simp] theorem run_pure (r : α) (s : State) : (pure r : Prog State α).run s = (s, r) := rfl

@[simp] theorem run_read (f : State → α) (s : State) : (read f).run s = (s, f s) := rfl

@[simp] theorem run_modify (f : State → State) (s : State) : (modify f).run s = (f s, ()) := rfl

@[simp] theorem run_bind (p : Prog State α) (k : α → Prog State β) (s : State) :
    (p >>= k).run s = (k (p.run s).2).run (p.run s).1 := by
  show (p.bind k).run s = _
  induction p generalizing s with
  | ret r => rfl
  | access write next ih => exact ih s (write s)

@[simp] theorem run_ite {c : Prop} [Decidable c] (p q : Prog State α) (s : State) :
    (if c then p else q).run s = if c then p.run s else q.run s :=
  apply_ite (fun p : Prog State α => p.run s) c p q

end Prog

/-! ## Section 2: Calls, one after the other -/

/-- A shared object: a call may be turned down before it asks for the lock. -/
structure LockedObject (Call State Result : Type) where
  refuse : Call → Option Result
  body : Call → Prog State Result

section serial

variable {Thread Call State Result : Type}

/-- A call that nobody disturbs. -/
def LockedObject.exec (o : LockedObject Call State Result) (s : State) (c : Call) :
    State × Result :=
  match o.refuse c with
  | some r => (s, r)
  | none => (o.body c).run s

theorem LockedObject.exec_of_refuse {o : LockedObject Call State Result} {c : Call} {r : Result}
    (h : o.refuse c = some r) (s : State) : o.exec s c = (s, r) := by
  rw [exec, h]

theorem LockedObject.exec_of_accept {o : LockedObject Call State Result} {c : Call}
    (h : o.refuse c = none) (s : State) : o.exec s c = (o.body c).run s := by
  rw [exec, h]

/-- The calls of a list, made one after the other. -/
def serial (exec : State → Call → State × Result) :
    State → List (Thread × Call) → State × List (Thread × Result)
  | s, [] => (s, [])
  | s, (t, c) :: order =>
      let rest := serial exec (exec s c).1 order
      (rest.1, (t, (exec s c).2) :: rest.2)

theorem serial_append (exec : State → Call → State × Result) (order : List (Thread × Call))
    (s : State) (t : Thread) (c : Call) :
    serial exec s (order ++ [(t, c)]) =
      ((exec (serial exec s order).1 c).1,
        (serial exec s order).2 ++ [(t, (exec (serial exec s order).1 c).2)]) := by
  induction order generalizing s with
  | nil => rfl
  | cons x order ih =>
    obtain ⟨u, d⟩ := x
    simp only [List.cons_append, serial, ih]

variable [DecidableEq Thread] {α : Type}

/-- What belongs to thread `t`, in order. -/
def ofThread (t : Thread) : List (Thread × α) → List α
  | [] => []
  | x :: l => if x.1 = t then x.2 :: ofThread t l else ofThread t l

theorem ofThread_append (t u : Thread) (l : List (Thread × α)) (a : α) :
    ofThread t (l ++ [(u, a)]) = ofThread t l ++ if u = t then [a] else [] := by
  induction l with
  | nil =>
    show (if u = t then [a] else []) = _
    rw [show ofThread t ([] : List (Thread × α)) = [] from rfl, List.nil_append]
  | cons x l ih =>
    show (if x.1 = t then x.2 :: ofThread t (l ++ [(u, a)]) else ofThread t (l ++ [(u, a)])) =
      (if x.1 = t then x.2 :: ofThread t l else ofThread t l) ++ _
    rw [ih]
    split
    · rw [List.cons_append]
    · rfl

end serial

/-! ## Section 3: Calls that interleave -/

/-- Where a thread is in its call. -/
inductive Place (Call State Result : Type) where
  | outside
  | waiting (c : Call)
  | inside (c : Call) (rest : Prog State Result)
  | leaving (c : Call) (r : Result)

/-- The thread has the lock. -/
def Place.holds {Call State Result : Type} : Place Call State Result → Bool
  | .outside | .waiting _ => false
  | .inside .. | .leaving .. => true

/-- The call that the thread has not returned from. -/
def Place.pending {Call State Result : Type} : Place Call State Result → List Call
  | .outside => []
  | .waiting c | .inside c _ | .leaving c _ => [c]

/-- The shared state, where every thread is, and as history the calls it made
    and the results it got. -/
structure Sections (Thread Call State Result : Type) where
  shared : State
  place : Thread → Place Call State Result
  called : Thread → List Call
  returned : Thread → List Result

section sections

variable {Thread Call State Result : Type} [DecidableEq Thread]

namespace Sections

def moveTo (s : Sections Thread Call State Result) (t : Thread)
    (p : Place Call State Result) : Sections Thread Call State Result :=
  { s with place := Function.update s.place t p }

/-- Thread `t` makes call `c`. -/
def record (s : Sections Thread Call State Result) (t : Thread) (c : Call) :
    Sections Thread Call State Result :=
  { s with called := Function.update s.called t (s.called t ++ [c]) }

/-- Thread `t` gets result `r`. -/
def deliver (s : Sections Thread Call State Result) (t : Thread) (r : Result) :
    Sections Thread Call State Result :=
  { s with returned := Function.update s.returned t (s.returned t ++ [r]) }

theorem moveTo_self {s : Sections Thread Call State Result} {t : Thread}
    {p : Place Call State Result} (h : s.place t = p) : s.moveTo t p = s := by
  rw [moveTo, ← h, Function.update_eq_self]

@[simp] theorem moveTo_place (s : Sections Thread Call State Result) (t : Thread)
    (p : Place Call State Result) : (s.moveTo t p).place t = p :=
  Function.update_self ..

theorem moveTo_place_ne (s : Sections Thread Call State Result) {t u : Thread} (h : u ≠ t)
    (p : Place Call State Result) : (s.moveTo t p).place u = s.place u :=
  Function.update_of_ne h ..

end Sections

/-- **A step** of thread `t`: a thread takes the lock while nobody has it. -/
inductive Step (o : LockedObject Call State Result) :
    Sections Thread Call State Result → Thread → Sections Thread Call State Result → Prop where
  | refuse {s t c r} : s.place t = .outside → o.refuse c = some r →
      Step o s t ((s.record t c).deliver t r)
  | call {s t c} : s.place t = .outside → o.refuse c = none →
      Step o s t ((s.record t c).moveTo t (.waiting c))
  | enter {s t c} : s.place t = .waiting c → (∀ u, (s.place u).holds = false) →
      Step o s t (s.moveTo t (.inside c (o.body c)))
  | access {s t c write next} : s.place t = .inside c (.access write next) →
      Step o s t ({ s with shared := write s.shared }.moveTo t (.inside c (next s.shared)))
  | finish {s t c r} : s.place t = .inside c (.ret r) → Step o s t (s.moveTo t (.leaving c r))
  | leave {s t c r} : s.place t = .leaving c r →
      Step o s t ((s.deliver t r).moveTo t .outside)

/-! ## Section 4: Serializability -/

/-- A thread in its section goes on to what its call would have done to the
    state `before`. -/
def Place.Resumes (o : LockedObject Call State Result) (before shared : State) :
    Place Call State Result → Prop
  | .inside c rest => rest.run shared = (o.body c).run before
  | .leaving c r => (shared, r) = (o.body c).run before
  | _ => False

/-- The shared state is the one of the calls in `order`, or a thread in its
    section is on the way from there. -/
def SharedAt (o : LockedObject Call State Result) (before : State)
    (s : Sections Thread Call State Result) : Prop :=
  ((∀ u, (s.place u).holds = false) ∧ s.shared = before) ∨
  ∃ t, (∀ u, u ≠ t → (s.place u).holds = false) ∧ (s.place t).Resumes o before s.shared

/-- **The invariant**: the calls that have returned are those of `order`, with
    the results they have one after the other. -/
structure Serialized (o : LockedObject Call State Result) (s₀ : State)
    (order : List (Thread × Call)) (s : Sections Thread Call State Result) : Prop where
  calls : ∀ t, s.called t = ofThread t order ++ (s.place t).pending
  accepted : ∀ t, ∀ c ∈ (s.place t).pending, o.refuse c = none
  results : ∀ t, s.returned t = ofThread t (serial o.exec s₀ order).2
  shared : SharedAt o (serial o.exec s₀ order).1 s

section invariant

variable {o : LockedObject Call State Result} {s s' : Sections Thread Call State Result}
  {t : Thread} {before : State} {order : List (Thread × Call)} {s₀ : State}

omit [DecidableEq Thread] in
theorem Place.Resumes.holds {shared : State} {p : Place Call State Result}
    (h : p.Resumes o before shared) : p.holds = true := by
  cases p with
  | outside => exact h.elim
  | waiting c => exact h.elim
  | inside c rest => rfl
  | leaving c r => rfl

omit [DecidableEq Thread] in
/-- While nobody has the lock, the state is the one of the calls so far. -/
theorem SharedAt.free (h : SharedAt o before s) (hfree : ∀ u, (s.place u).holds = false) :
    s.shared = before := by
  obtain ⟨-, hshared⟩ | ⟨t, -, hresumes⟩ := h
  · exact hshared
  · have hholds := hresumes.holds
    rw [hfree t] at hholds
    exact Bool.noConfusion hholds

omit [DecidableEq Thread] in
/-- The thread that has the lock is the one on its way. -/
theorem SharedAt.held (h : SharedAt o before s) (ht : (s.place t).holds = true) :
    (∀ u, u ≠ t → (s.place u).holds = false) ∧ (s.place t).Resumes o before s.shared := by
  obtain ⟨hfree, -⟩ | ⟨t', hothers, hresumes⟩ := h
  · rw [hfree t] at ht
    exact Bool.noConfusion ht
  · by_cases heq : t = t'
    · subst heq
      exact ⟨hothers, hresumes⟩
    · rw [hothers t heq] at ht
      exact Bool.noConfusion ht

/-- A thread without the lock moves to where it does not have it either. -/
theorem SharedAt.moveTo (h : SharedAt o before s) (ht : (s.place t).holds = false)
    {p : Place Call State Result} (hp : p.holds = false) : SharedAt o before (s.moveTo t p) := by
  have hkeep : ∀ u, (s.place u).holds = false → ((s.moveTo t p).place u).holds = false := by
    intro u hu
    by_cases hut : u = t
    · rw [hut, Sections.moveTo_place, hp]
    · rw [Sections.moveTo_place_ne s hut, hu]
  obtain ⟨hfree, hshared⟩ | ⟨t', hothers, hresumes⟩ := h
  · exact .inl ⟨fun u => hkeep u (hfree u), hshared⟩
  · have hne : t' ≠ t := by
      intro heq
      have hholds := hresumes.holds
      rw [heq, ht] at hholds
      exact Bool.noConfusion hholds
    refine .inr ⟨t', fun u hu => hkeep u (hothers u hu), ?_⟩
    rw [Sections.moveTo_place_ne s hne]
    exact hresumes

/-- The thread that has the lock goes on. -/
theorem SharedAt.resume {shared : State} (hothers : ∀ u, u ≠ t → (s.place u).holds = false)
    {p : Place Call State Result} (hp : p.Resumes o before shared) :
    SharedAt o before ({ s with shared := shared }.moveTo t p) := by
  refine .inr ⟨t, ?_, ?_⟩
  · intro u hu
    rw [Sections.moveTo_place_ne _ hu]
    exact hothers u hu
  · rw [Sections.moveTo_place]
    exact hp

/-- A thread moves on within its call. -/
theorem Serialized.moveTo (h : Serialized o s₀ order s) (shared : State)
    {p : Place Call State Result} (hp : p.pending = (s.place t).pending)
    (hshared : SharedAt o (serial o.exec s₀ order).1 ({ s with shared := shared }.moveTo t p)) :
    Serialized o s₀ order ({ s with shared := shared }.moveTo t p) := by
  have hpending : ∀ u, (({ s with shared := shared }.moveTo t p).place u).pending =
      (s.place u).pending := by
    intro u
    by_cases hut : u = t
    · rw [hut, Sections.moveTo_place, hp]
    · rw [Sections.moveTo_place_ne _ hut]
  constructor
  case calls =>
    intro u
    rw [hpending]
    exact h.calls u
  case accepted =>
    intro u
    rw [hpending]
    exact h.accepted u
  case results => exact h.results
  case shared => exact hshared

/-- The call of a thread outside returns at once. -/
theorem Serialized.refuse (h : Serialized o s₀ order s) {c : Call} {r : Result}
    (hplace : s.place t = .outside) (hrefuse : o.refuse c = some r) :
    Serialized o s₀ (order ++ [(t, c)]) ((s.record t c).deliver t r) := by
  have hserial := serial_append o.exec order s₀ t c
  rw [LockedObject.exec_of_refuse hrefuse] at hserial
  constructor
  case calls =>
    intro u
    have hcalls := h.calls u
    rw [ofThread_append]
    show Function.update s.called t (s.called t ++ [c]) u = _ ++ (s.place u).pending
    by_cases hut : u = t
    · subst hut
      rw [Function.update_self, hcalls, hplace, if_pos rfl]
      simp [Place.pending]
    · rw [Function.update_of_ne hut, hcalls, if_neg (Ne.symm hut), List.append_nil]
  case accepted => exact h.accepted
  case results =>
    intro u
    rw [hserial, ofThread_append, ← h.results u]
    show Function.update s.returned t (s.returned t ++ [r]) u = _
    by_cases hut : u = t
    · subst hut
      rw [Function.update_self, if_pos rfl]
    · rw [Function.update_of_ne hut, if_neg (Ne.symm hut), List.append_nil]
  case shared =>
    rw [hserial]
    exact h.shared

theorem Serialized.call (h : Serialized o s₀ order s) {c : Call} (hplace : s.place t = .outside)
    (haccept : o.refuse c = none) :
    Serialized o s₀ order ((s.record t c).moveTo t (.waiting c)) := by
  constructor
  case calls =>
    intro u
    have hcalls := h.calls u
    show Function.update s.called t (s.called t ++ [c]) u = _
    by_cases hut : u = t
    · subst hut
      rw [Function.update_self, Sections.moveTo_place, hcalls, hplace]
      simp [Place.pending]
    · rw [Function.update_of_ne hut, Sections.moveTo_place_ne _ hut, hcalls]
      rfl
  case accepted =>
    intro u d hd
    by_cases hut : u = t
    · subst hut
      rw [Sections.moveTo_place] at hd
      obtain rfl := List.mem_singleton.mp hd
      exact haccept
    · rw [Sections.moveTo_place_ne _ hut] at hd
      exact h.accepted u d hd
  case results => exact h.results
  case shared =>
    have hout : (s.place t).holds = false := by
      rw [hplace]
      rfl
    exact SharedAt.moveTo (s := s.record t c) h.shared hout rfl

/-- **The lock is given back**: only then the call counts. -/
theorem Serialized.leave (h : Serialized o s₀ order s) {c : Call} {r : Result}
    (hplace : s.place t = .leaving c r) :
    Serialized o s₀ (order ++ [(t, c)]) ((s.deliver t r).moveTo t .outside) := by
  have haccept : o.refuse c = none := by
    refine h.accepted t c ?_
    rw [hplace]
    exact List.mem_singleton_self c
  have hholds : (s.place t).holds = true := by
    rw [hplace]
    rfl
  obtain ⟨hothers, hresumes⟩ := h.shared.held hholds
  rw [hplace] at hresumes
  have hexec : o.exec (serial o.exec s₀ order).1 c = (s.shared, r) := by
    rw [LockedObject.exec_of_accept haccept]
    exact hresumes.symm
  have hserial := serial_append o.exec order s₀ t c
  rw [hexec] at hserial
  constructor
  case calls =>
    intro u
    have hcalls := h.calls u
    rw [ofThread_append]
    show s.called u = _
    by_cases hut : u = t
    · subst hut
      rw [Sections.moveTo_place, hcalls, hplace, if_pos rfl]
      simp [Place.pending]
    · rw [Sections.moveTo_place_ne _ hut, hcalls, if_neg (Ne.symm hut), List.append_nil]
      rfl
  case accepted =>
    intro u d hd
    by_cases hut : u = t
    · subst hut
      rw [Sections.moveTo_place] at hd
      exact absurd hd List.not_mem_nil
    · rw [Sections.moveTo_place_ne _ hut] at hd
      exact h.accepted u d hd
  case results =>
    intro u
    rw [hserial, ofThread_append, ← h.results u]
    show Function.update s.returned t (s.returned t ++ [r]) u = _
    by_cases hut : u = t
    · subst hut
      rw [Function.update_self, if_pos rfl]
    · rw [Function.update_of_ne hut, if_neg (Ne.symm hut), List.append_nil]
  case shared =>
    rw [hserial]
    refine .inl ⟨?_, rfl⟩
    intro u
    by_cases hut : u = t
    · rw [hut, Sections.moveTo_place]
      rfl
    · rw [Sections.moveTo_place_ne _ hut]
      exact hothers u hut

/-- **Step lemma**: every step keeps the calls serialized, in the order in which
    they return. -/
theorem Serialized.step (h : Serialized o s₀ order s) (hstep : Step o s t s') :
    ∃ order', Serialized o s₀ order' s' := by
  cases hstep with
  | @refuse c r hplace hrefuse => exact ⟨order ++ [(t, c)], h.refuse hplace hrefuse⟩
  | call hplace haccept => exact ⟨order, h.call hplace haccept⟩
  | @enter c hplace hfree =>
    refine ⟨order, h.moveTo s.shared ?_ ?_⟩
    · rw [hplace]
      rfl
    · refine SharedAt.resume (fun u _ => hfree u) ?_
      show (o.body c).run s.shared = _
      rw [h.shared.free hfree]
  | @access c write next hplace =>
    have hheld := h.shared.held (t := t) (by rw [hplace]; rfl)
    rw [hplace] at hheld
    refine ⟨order, h.moveTo _ ?_ (SharedAt.resume hheld.1 hheld.2)⟩
    rw [hplace]
    rfl
  | @finish c r hplace =>
    have hheld := h.shared.held (t := t) (by rw [hplace]; rfl)
    rw [hplace] at hheld
    refine ⟨order, h.moveTo s.shared ?_ (SharedAt.resume hheld.1 hheld.2)⟩
    rw [hplace]
    rfl
  | @leave c r hplace => exact ⟨order ++ [(t, c)], h.leave hplace⟩

/-- Nobody has called anything yet. -/
structure Fresh (s : Sections Thread Call State Result) : Prop where
  place : ∀ t, s.place t = .outside
  called : ∀ t, s.called t = []
  returned : ∀ t, s.returned t = []

theorem serialized_fresh (h : Fresh s) : Serialized o s.shared [] s := by
  constructor
  case calls =>
    intro t
    rw [h.called, h.place]
    rfl
  case accepted =>
    intro t c hc
    rw [h.place] at hc
    exact absurd hc List.not_mem_nil
  case results =>
    intro t
    rw [h.returned]
    rfl
  case shared =>
    refine .inl ⟨?_, rfl⟩
    intro u
    rw [h.place]
    rfl

/-- **Serializability**: when all calls have returned, they could have been made
    one after the other. -/
theorem Serialized.serializable (h : Serialized o s₀ order s)
    (hout : ∀ t, s.place t = .outside) :
    (∀ t, ofThread t order = s.called t) ∧
    (∀ t, ofThread t (serial o.exec s₀ order).2 = s.returned t) ∧
    (serial o.exec s₀ order).1 = s.shared := by
  refine ⟨?_, ?_, ?_⟩
  · intro t
    rw [h.calls t, hout t]
    exact (List.append_nil _).symm
  · intro t
    exact (h.results t).symm
  · refine (h.shared.free ?_).symm
    intro u
    rw [hout u]
    rfl

end invariant

end sections

end CriticalSection
