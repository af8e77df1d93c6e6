import Flexpret.Os.Kernel
import Mathlib.Order.Interval.Set.Disjoint

/-! # Attribute Objects

    `flexpret_thread_attr_entry` holds pointers.  `osThreadNew` stores the
    pointer the caller passes and writes the defaults into the object behind
    it, so that two threads created with one object share it.

    The state below adds the objects and the entries to the OS state.  Where no
    object is shared it is the state of the other modules.
-/

open Transition

namespace Flexpret.Os

/-! ## Section 1: Objects and entries -/

/-- What an entry points to: `flexpret_thread_attr[tid]`, or an object of the
    user. -/
inductive AttrPtr (b : OsBuild) (Obj : Type) where
  | own (tid : Tid b)
  | user (obj : Obj)
  deriving DecidableEq

/-- The OS state with the attribute objects.  What `attr` says of a thread is
    what its entry points to. -/
structure SharedState (b : OsBuild) (Obj : Type) extends OsState b where
  /-- `flexpret_thread_attr_entry`. -/
  entry : Tid b → AttrPtr b Obj
  object : AttrPtr b Obj → OsThreadAttr
  attr_eq : attr = fun t => object (entry t)

namespace SharedState

variable {b : OsBuild} {Obj : Type}

theorem attr_apply (s : SharedState b Obj) (t : Tid b) : s.attr t = s.object (s.entry t) :=
  congrFun s.attr_eq t

/-- No entry but that of `tid` points to the object. -/
def Unshared (s : SharedState b Obj) (p : AttrPtr b Obj) (tid : Tid b) : Prop :=
  ∀ u, u ≠ tid → s.entry u ≠ p

/-- A function of the OS that only reads the attributes. -/
def lift (s : SharedState b Obj) (f : OsState b → OsState b) : SharedState b Obj where
  toOsState := { f s.toOsState with attr := s.attr }
  entry := s.entry
  object := s.object
  attr_eq := s.attr_eq

theorem lift_toOsState {s : SharedState b Obj} {f : OsState b → OsState b}
    (h : (f s.toOsState).attr = s.attr) : (s.lift f).toOsState = f s.toOsState := by
  show { f s.toOsState with attr := s.attr } = f s.toOsState
  rw [← h]

section write

variable [DecidableEq Obj]

/-- `*p = attr`. -/
def write (s : SharedState b Obj) (p : AttrPtr b Obj) (attr : OsThreadAttr) :
    SharedState b Obj where
  toOsState := { s.toOsState with attr := fun t => Function.update s.object p attr (s.entry t) }
  entry := s.entry
  object := Function.update s.object p attr
  attr_eq := rfl

/-- A write is seen through every entry that points to the object. -/
theorem write_attr (s : SharedState b Obj) (p : AttrPtr b Obj) (attr : OsThreadAttr)
    (u : Tid b) : (s.write p attr).attr u = if s.entry u = p then attr else s.attr u := by
  rw [attr_apply s u]
  exact Function.update_apply ..

/-- Where the object is not shared, only the thread's own attributes change. -/
theorem write_toOsState {s : SharedState b Obj} {tid : Tid b} (h : s.Unshared (s.entry tid) tid)
    (attr : OsThreadAttr) :
    (s.write (s.entry tid) attr).toOsState =
      { s.toOsState with attr := Function.update s.attr tid attr } := by
  have hattr : (s.write (s.entry tid) attr).attr = Function.update s.attr tid attr := by
    funext u
    rw [write_attr, Function.update_apply]
    by_cases hu : u = tid
    · rw [if_pos hu, hu, if_pos rfl]
    · rw [if_neg hu, if_neg (h u hu)]
  rw [← hattr]
  rfl

end write

/-! ## Section 2: osThreadNew -/

/-- The entry `osThreadNew` leaves for the thread it creates. -/
def newEntry (s : SharedState b Obj) (tid : Tid b) : Option Obj → AttrPtr b Obj
  | none => s.entry tid
  | some obj => .user obj

variable [DecidableEq Obj]

/-- `osThreadNew` up to the check whether the kernel runs. -/
def createThread (s : SharedState b Obj) (tid : Tid b) (func argument : Ptr)
    (attr : Option Obj) : SharedState b Obj :=
  let old := attr.map fun obj => s.object (.user obj)
  let entry := Function.update s.entry tid (s.newEntry tid attr)
  let object := Function.update s.object (s.newEntry tid attr) (osThreadNewAttr tid old)
  { toOsState :=
      { Os.createThread s.toOsState tid func argument old with attr := fun t => object (entry t) }
    entry := entry
    object := object
    attr_eq := rfl }

/-- `osThreadNew`. -/
def osThreadNew (s : SharedState b Obj) (func argument : Ptr) (attr : Option Obj) :
    SharedState b Obj × Option (Tid b) :=
  if func = NULL then (s, none)
  else if h : s.flexpretThreadNum < b.hwThreadsNums then
    if ∃ obj ∈ attr, (s.object (.user obj)).priority ≠ osPriorityRealtime ∧
        (s.object (.user obj)).priority ≠ osPriorityNormal then (s, none)
    else
      let tid : Tid b := ⟨s.flexpretThreadNum, h⟩
      let s := s.createThread tid func argument attr
      let s := if s.kernelState = .osKernelRunning then s.lift (threadAfterCreate · tid) else s
      (s, some tid)
  else (s, none)

theorem threadAfterCreate_attr (s : OsState b) (tid : Tid b) :
    (threadAfterCreate s tid).attr = s.attr ∧ (threadAfterCreate s tid).thread = s.thread ∧
      (threadAfterCreate s tid).flexpretThreadNum = s.flexpretThreadNum := by
  unfold threadAfterCreate
  split
  · exact ⟨rfl, rfl, rfl⟩
  · split
    · exact ⟨rfl, rfl, rfl⟩
    · exact ⟨rfl, rfl, rfl⟩

/-- What a successful call has done. -/
theorem osThreadNew_cases {s s' : SharedState b Obj} {func argument : Ptr} {attr : Option Obj}
    {tid : Tid b} (h : s.osThreadNew func argument attr = (s', some tid)) :
    tid.val = s.flexpretThreadNum ∧
      (s' = s.createThread tid func argument attr ∨
        s' = (s.createThread tid func argument attr).lift (threadAfterCreate · tid)) := by
  unfold osThreadNew at h
  split at h
  · exact absurd (congrArg Prod.snd h) nofun
  · split at h
    · split at h
      · exact absurd (congrArg Prod.snd h) nofun
      · obtain ⟨hs, ht⟩ := Prod.ext_iff.mp h
        obtain rfl := Option.some.inj ht
        refine ⟨rfl, ?_⟩
        simp only at hs
        split at hs
        · exact .inr hs.symm
        · exact .inl hs.symm
    · exact absurd (congrArg Prod.snd h) nofun

theorem createThread_attr (s : SharedState b Obj) (tid u : Tid b) (func argument : Ptr)
    (attr : Option Obj) : (s.createThread tid func argument attr).attr u =
      if (s.createThread tid func argument attr).entry u = s.newEntry tid attr then
        osThreadNewAttr tid (attr.map fun obj => s.object (.user obj))
      else s.object ((s.createThread tid func argument attr).entry u) :=
  Function.update_apply ..

/-- With an object no other thread has, the thread is created with attributes of
    its own. -/
theorem createThread_toOsState {s : SharedState b Obj} {tid : Tid b} {attr : Option Obj}
    (h : s.Unshared (s.newEntry tid attr) tid) (func argument : Ptr) :
    (s.createThread tid func argument attr).toOsState =
      Os.createThread s.toOsState tid func argument
        (attr.map fun obj => s.object (.user obj)) := by
  have hattr : (s.createThread tid func argument attr).attr =
      Function.update s.attr tid
        (osThreadNewAttr tid (attr.map fun obj => s.object (.user obj))) := by
    funext u
    rw [createThread_attr, Function.update_apply]
    show (if Function.update s.entry tid _ u = _ then _ else
      s.object (Function.update s.entry tid _ u)) = _
    by_cases hu : u = tid
    · rw [hu, Function.update_self, if_pos rfl, if_pos rfl]
    · rw [Function.update_of_ne hu, if_neg (h u hu), if_neg hu, attr_apply]
  rw [Os.createThread, ← hattr]
  rfl

/-- **Refinement**: with an object no thread has been created with, the call
    is the one on attributes of the thread's own. -/
theorem osThreadNew_toOsState {s : SharedState b Obj} {attr : Option Obj}
    (h : ∀ tid : Tid b, tid.val = s.flexpretThreadNum → s.Unshared (s.newEntry tid attr) tid)
    (func argument : Ptr) :
    ((s.osThreadNew func argument attr).1.toOsState, (s.osThreadNew func argument attr).2) =
      Os.osThreadNew s.toOsState func argument (attr.map fun obj => s.object (.user obj)) := by
  have hbad : (∃ obj ∈ attr, (s.object (.user obj)).priority ≠ osPriorityRealtime ∧
        (s.object (.user obj)).priority ≠ osPriorityNormal) ↔
      ∃ a ∈ attr.map fun obj => s.object (.user obj),
        a.priority ≠ osPriorityRealtime ∧ a.priority ≠ osPriorityNormal := by
    cases attr <;> simp
  unfold osThreadNew Os.osThreadNew
  by_cases hfunc : func = NULL
  · rw [if_pos hfunc, if_pos hfunc]
  rw [if_neg hfunc, if_neg hfunc]
  by_cases hnum : s.flexpretThreadNum < b.hwThreadsNums
  · rw [dif_pos hnum, dif_pos hnum]
    by_cases hp : ∃ obj ∈ attr, (s.object (.user obj)).priority ≠ osPriorityRealtime ∧
        (s.object (.user obj)).priority ≠ osPriorityNormal
    · rw [if_pos hp, if_pos (hbad.mp hp)]
    · rw [if_neg hp, if_neg (fun hp' => hp (hbad.mpr hp'))]
      have hcreate := createThread_toOsState (h ⟨_, hnum⟩ rfl) func argument
      refine Prod.ext ?_ rfl
      simp only
      rw [← hcreate]
      split
      · exact lift_toOsState (threadAfterCreate_attr _ _).1
      · rfl
  · rw [dif_neg hnum, dif_neg hnum]

end SharedState

end Flexpret.Os
