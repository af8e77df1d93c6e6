import Flexpret.Os.DefaultStacks

/-! # Thread Control

    `osThreadSetPriority`, `osThreadDetach`, `osThreadSuspend`,
    `osThreadResume` and `osSchedulerSetTmodes` on one thread, and what they
    leave of the others.  The slot and mode CSRs keep the fields of every other
    thread.  The attributes are kept if the thread does not share its object,
    or nothing new is written to it.
-/

namespace Flexpret.Os

variable {b : OsBuild} {Obj : Type}

/-! ## Section 1: The operations -/

namespace SharedState

variable [DecidableEq Obj]

/-- `flexpret_thread_attr_entry[tid]->priority = priority`. -/
def setPriority (s : SharedState b Obj) (tid : Tid b) (priority : OsPriority) :
    SharedState b Obj :=
  s.write (s.entry tid) { s.attr tid with priority := priority }

/-- `osThreadSetPriority`. -/
def osThreadSetPriority (s : SharedState b Obj) (threadId : Option (Tid b))
    (priority : OsPriority) : SharedState b Obj × OsStatus :=
  match threadId with
  | none => (s, .osErrorParameter)
  | some tid =>
      if (s.attr tid).priority = priority then (s, .osOK)
      else if priority = osPriorityRealtime then
        ((s.lift (changeSrttToHrtt · tid)).setPriority tid osPriorityRealtime, .osOK)
      else if priority = osPriorityNormal then
        ((s.lift (changeHrttToSrtt · tid)).setPriority tid osPriorityNormal, .osOK)
      else (s, .osError)

/-- `osThreadDetach`. -/
def osThreadDetach (s : SharedState b Obj) (tid : Tid b) : SharedState b Obj × OsStatus :=
  (s.write (s.entry tid) { s.attr tid with attrBits := osThreadDetached }, .osOK)

/-- `osThreadSuspend`. -/
def osThreadSuspend (s : SharedState b Obj) (tid : Tid b) : SharedState b Obj × OsStatus :=
  (s.lift fun os => (Os.osThreadSuspend os tid).1, .osOK)

/-- `osThreadResume`. -/
def osThreadResume (s : SharedState b Obj) (tid : Tid b) : SharedState b Obj × OsStatus :=
  (s.lift fun os => (Os.osThreadResume os tid).1, .osOK)

/-- `osSchedulerSetTmodes`; `none` is a value `set_thread_mode` does not know. -/
def osSchedulerSetTmodes (s : SharedState b Obj) (tid : Tid b) (tmode : Option TmodeRequest) :
    SharedState b Obj × OsStatus :=
  match tmode with
  | none => (s, .osOK)
  | some tmode => (s.lift (setThreadMode · tid tmode), .osOK)

/-- **Refinement**: on a thread with an object of its own, the call is the one
    of the model without objects. -/
theorem osThreadSetPriority_toOsState {s : SharedState b Obj} {tid : Tid b}
    (h : s.Unshared (s.entry tid) tid) (priority : OsPriority) :
    (s.osThreadSetPriority (some tid) priority).1.toOsState =
      (Os.osThreadSetPriority s.toOsState (some tid) priority).1 := by
  simp only [osThreadSetPriority, Os.osThreadSetPriority]
  split
  · rfl
  · split
    · exact write_toOsState (s := s.lift (changeSrttToHrtt · tid)) h _
    · split
      · exact write_toOsState (s := s.lift (changeHrttToSrtt · tid)) h _
      · rfl

end SharedState

/-- The operations on one thread. -/
inductive ControlOp where
  | setPriority (priority : OsPriority)
  | detach
  | suspend
  | resume
  | setTmodes (tmode : Option TmodeRequest)

/-- The operation on thread `t`. -/
def ControlOp.exec [DecidableEq Obj] (s : SharedState b Obj) (t : Tid b) :
    ControlOp → SharedState b Obj × OsStatus
  | .setPriority priority => s.osThreadSetPriority (some t) priority
  | .detach => s.osThreadDetach t
  | .suspend => s.osThreadSuspend t
  | .resume => s.osThreadResume t
  | .setTmodes tmode => s.osSchedulerSetTmodes t tmode

/-! ## Section 2: The property and its condition -/

/-- What the OS keeps of a thread besides its attributes: its state, its mode
    and its own slots. -/
structure Kept (u : Tid b) (s s' : OsState b) : Prop where
  state : (s'.thread u).state = (s.thread u).state
  tmode : s'.tmodes u = s.tmodes u
  slots : ∀ i : Fin 8, s'.slots.get i = slotT u ↔ s.slots.get i = slotT u

/-- The branch `thread_terminate` and `osThreadSetPriority` take by the priority
    is that of the thread's mode. -/
structure TakesOwnBranch (s : OsState b) (u : Tid b) : Prop where
  realtime : (s.attr u).priority = osPriorityRealtime → (s.tmodes u).soft = false
  normal : (s.attr u).priority = osPriorityNormal → (s.tmodes u).soft = true

/-- Thread `u` is as it was. -/
structure Untouched (u : Tid b) (s s' : OsState b) : Prop extends Kept u s s' where
  priority : (s'.attr u).priority = (s.attr u).priority
  attrBits : (s'.attr u).attrBits = (s.attr u).attrBits
  stackSize : (s'.attr u).stackSize = (s.attr u).stackSize
  branch : TakesOwnBranch s u → TakesOwnBranch s' u

/-- The operation writes something new to the object of `t`. -/
def ControlOp.WritesObject (s : OsState b) (t : Tid b) : ControlOp → Prop
  | .setPriority priority => (s.attr t).priority ≠ priority ∧
      (priority = osPriorityRealtime ∨ priority = osPriorityNormal)
  | .detach => (s.attr t).attrBits ≠ osThreadDetached
  | _ => False

/-! ## Section 3: Slots and modes of the other threads -/

theorem Kept.refl (u : Tid b) (s : OsState b) : Kept u s s := ⟨rfl, rfl, fun _ => Iff.rfl⟩

theorem Kept.trans {u : Tid b} {s s' s'' : OsState b} (h : Kept u s s') (h' : Kept u s' s'') :
    Kept u s s'' :=
  ⟨h'.state.trans h.state, h'.tmode.trans h.tmode, fun i => (h'.slots i).trans (h.slots i)⟩

/-- A third value stays in the fields it is in. -/
theorem replaceFirst_field_of_ne {old new x : BitVec 4} (hold : x ≠ old) (hnew : x ≠ new) (n : Nat)
    (slots : List (BitVec 4)) (i : Nat) :
    (replaceFirst old new n slots)[i]? = some x ↔ slots[i]? = some x := by
  fun_induction replaceFirst old new n slots generalizing i with
  | case1 => rfl
  | case2 => rfl
  | case3 n slots ih =>
    cases i with
    | zero => simp [hold.symm, hnew.symm]
    | succ i => exact ih i
  | case4 n s slots _ ih =>
    cases i with
    | zero => rfl
    | succ i => exact ih i

theorem Slots.replace_field_of_ne {slots : Slots} {old new x : BitVec 4} (hold : x ≠ old)
    (hnew : x ≠ new) (n : Nat) (i : Fin 8) :
    (slots.replace old new n).get i = x ↔ slots.get i = x := by
  have h := replaceFirst_field_of_ne hold hnew n slots.toList i
  have hnew' : (replaceFirst old new n slots.toList)[i.val]? =
      some ((slots.replace old new n).get i) := by
    rw [List.getElem?_eq_getElem (by simp)]
    rfl
  have hold' : slots.toList[i.val]? = some (slots.get i) := by
    rw [List.getElem?_eq_getElem (by simp)]
    rfl
  rw [hnew', hold', Option.some_inj, Option.some_inj] at h
  exact h

theorem setSlotNum_field_of_ne {slots : Slots} {tid x : BitVec 4} (hx : x ≠ tid) (hd : x ≠ slotD)
    (count : Nat) (i : Fin 8) : (setSlotNum slots tid count).1.get i = x ↔ slots.get i = x := by
  simp only [setSlotNum]
  split
  · rfl
  · split
    · split
      · rfl
      · exact Slots.replace_field_of_ne hd hx _ i
    · exact Slots.replace_field_of_ne hx hd _ i

theorem kept_setThreadMode {s : OsState b} {t u : Tid b} (h : u ≠ t) (tmode : TmodeRequest) :
    Kept u s (setThreadMode s t tmode) :=
  ⟨rfl, Function.update_of_ne h .., fun _ => Iff.rfl⟩

theorem kept_setState {s : OsState b} {t u : Tid b} (h : u ≠ t) (state : HwthreadStateType) :
    Kept u s (setState s t state) := by
  refine ⟨?_, rfl, fun _ => Iff.rfl⟩
  show (Function.update s.thread t _ u).state = _
  rw [Function.update_of_ne h]

/-- Two calls of `set_slot_num`, each made or not, for ids other than `x`. -/
theorem setSlotNum_twice {slots : Slots} {first second x : BitVec 4} (hfirst : x ≠ first)
    (hsecond : x ≠ second) (hd : x ≠ slotD) (p q : Prop) [Decidable p] [Decidable q] (n m : Nat)
    (i : Fin 8) :
    (if q then (setSlotNum (if p then (setSlotNum slots first n).1 else slots) second m).1
      else if p then (setSlotNum slots first n).1 else slots).get i = x ↔ slots.get i = x := by
  have hinner : (if p then (setSlotNum slots first n).1 else slots).get i = x ↔
      slots.get i = x := by
    split
    · exact setSlotNum_field_of_ne hfirst hd n i
    · rfl
  split
  · exact (setSlotNum_field_of_ne hsecond hd m i).trans hinner
  · exact hinner

theorem kept_changeSrttToHrtt {s : OsState b} {t u : Tid b} (h : u ≠ t) :
    Kept u s (changeSrttToHrtt s t) :=
  ⟨rfl, Function.update_of_ne h .., setSlotNum_twice (fun heq => h (slotT_injective heq))
    (slotT_ne_slotS u) (slotT_ne_slotD u) _ _ 1 0⟩

theorem kept_changeHrttToSrtt {s : OsState b} {t u : Tid b} (h : u ≠ t) :
    Kept u s (changeHrttToSrtt s t) :=
  ⟨rfl, Function.update_of_ne h .., setSlotNum_twice (slotT_ne_slotS u)
    (fun heq => h (slotT_injective heq)) (slotT_ne_slotD u) _ _ 1 0⟩

theorem Kept.untouched {u : Tid b} {s s' : OsState b} (h : Kept u s s')
    (hattr : s'.attr u = s.attr u) : Untouched u s s' where
  toKept := h
  priority := by rw [hattr]
  attrBits := by rw [hattr]
  stackSize := by rw [hattr]
  branch := by
    intro hbranch
    constructor
    case realtime =>
      rw [hattr, h.tmode]
      exact hbranch.realtime
    case normal =>
      rw [hattr, h.tmode]
      exact hbranch.normal

theorem Untouched.refl (u : Tid b) (s : OsState b) : Untouched u s s :=
  (Kept.refl u s).untouched rfl

/-! ## Section 4: The attributes of the other threads -/

/-- A function of the OS keeps what it keeps. -/
theorem untouched_lift {s : SharedState b Obj} {u : Tid b} {f : OsState b → OsState b}
    (h : Kept u s.toOsState (f s.toOsState)) : Untouched u s.toOsState (s.lift f).toOsState :=
  Kept.untouched ⟨h.state, h.tmode, h.slots⟩ rfl

theorem SharedState.attr_congr {s : SharedState b Obj} {t u : Tid b}
    (hentry : s.entry u = s.entry t) : s.attr u = s.attr t := by
  rw [s.attr_apply, s.attr_apply, hentry]

variable [DecidableEq Obj]

/-- A write to the object of `t` after it does too, unless `u` has that object. -/
theorem untouched_write {s : SharedState b Obj} {t u : Tid b} {f : OsState b → OsState b}
    (h : Kept u s.toOsState (f s.toOsState)) (hentry : s.entry u ≠ s.entry t)
    (attr : OsThreadAttr) :
    Untouched u s.toOsState ((s.lift f).write (s.entry t) attr).toOsState := by
  refine Kept.untouched ⟨h.state, h.tmode, h.slots⟩ ?_
  rw [SharedState.write_attr]
  exact if_neg hentry

/-- A write is seen by a thread with the same object. -/
theorem write_seen {s : SharedState b Obj} {t u : Tid b} (hentry : s.entry u = s.entry t)
    (attr : OsThreadAttr) : (s.write (s.entry t) attr).attr u = attr := by
  rw [SharedState.write_attr, if_pos hentry]

/-- A new priority is seen by a thread with the same object. -/
theorem osThreadSetPriority_seen {s : SharedState b Obj} {t u : Tid b} {priority : OsPriority}
    (hentry : s.entry u = s.entry t)
    (hwrites : (ControlOp.setPriority priority).WritesObject s.toOsState t) :
    ((s.osThreadSetPriority (some t) priority).1.attr u).priority = priority := by
  obtain ⟨hne, hp⟩ := hwrites
  simp only [SharedState.osThreadSetPriority]
  rw [if_neg hne]
  split
  · next hrealtime =>
    rw [hrealtime]
    exact congrArg OsThreadAttr.priority (write_seen (s := s.lift _) hentry _)
  · next hrealtime =>
    have hnormal := hp.resolve_left hrealtime
    rw [if_pos hnormal, hnormal]
    exact congrArg OsThreadAttr.priority (write_seen (s := s.lift _) hentry _)

/-- Writing what is there changes nothing. -/
theorem untouched_write_same {s : SharedState b Obj} (t u : Tid b) {attr : OsThreadAttr}
    (h : attr = s.attr t) :
    Untouched u s.toOsState (s.write (s.entry t) attr).toOsState := by
  refine Kept.untouched ⟨rfl, rfl, fun _ => Iff.rfl⟩ ?_
  rw [SharedState.write_attr, h]
  split
  · next hentry => exact (SharedState.attr_congr hentry).symm
  · rfl

/-- **Thread control touches one thread** if and only if the operation writes
    nothing new to the thread's attribute object, or no other thread has it. -/
theorem control_untouched_iff (s : SharedState b Obj) (t : Tid b) (op : ControlOp) :
    (∀ u, u ≠ t → Untouched u s.toOsState (op.exec s t).1.toOsState) ↔
      (op.WritesObject s.toOsState t → s.Unshared (s.entry t) t) := by
  constructor
  · intro h hwrites u hu hentry
    have huntouched := h u hu
    have hsame := SharedState.attr_congr hentry
    cases op with
    | setPriority priority =>
      have hpriority := huntouched.priority
      rw [ControlOp.exec, osThreadSetPriority_seen hentry hwrites, hsame] at hpriority
      exact hwrites.1 hpriority.symm
    | detach =>
      have hbits := huntouched.attrBits
      rw [show (ControlOp.detach.exec s t).1 = s.write (s.entry t) _ from rfl,
        write_seen hentry, hsame] at hbits
      exact hwrites hbits.symm
    | suspend => exact hwrites
    | resume => exact hwrites
    | setTmodes tmode => exact hwrites
  · intro h u hu
    cases op with
    | setPriority priority =>
      simp only [ControlOp.exec, SharedState.osThreadSetPriority]
      split
      · exact Untouched.refl u _
      · next hne =>
        split
        · next hp =>
          exact untouched_write (kept_changeSrttToHrtt hu) (h ⟨hne, .inl hp⟩ u hu) _
        · split
          · next hp => exact untouched_write (kept_changeHrttToSrtt hu) (h ⟨hne, .inr hp⟩ u hu) _
          · exact Untouched.refl u _
    | detach =>
      by_cases hwrites : (s.attr t).attrBits = osThreadDetached
      · refine untouched_write_same t u ?_
        rw [← hwrites]
      · exact untouched_write (f := id) (Kept.refl u _) (h hwrites u hu) _
    | suspend =>
      exact untouched_lift ((kept_setState hu .blocked).trans (kept_setThreadMode hu .zombie))
    | resume =>
      exact untouched_lift ((kept_setThreadMode hu .active).trans (kept_setState hu .active))
    | setTmodes tmode =>
      cases tmode with
      | none => exact Untouched.refl u _
      | some tmode => exact untouched_lift (kept_setThreadMode hu tmode)

/-- The kernel runs, and two normal threads share an object. -/
def sharingThreads : SharedState .threads4Dspm12 Bool :=
  ((twoObjects.lift fun os => (osKernelStart os).1).osThreadNew 0x900 NULL (some true)).1
    |>.osThreadNew 0xA00 NULL (some true) |>.1

/-- Thread 1 becomes hard, and the OS takes thread 2 for a hard thread too. -/
theorem sharingThreads_touched :
    sharingThreads.flexpretThreadNum = 3 ∧ TakesOwnBranch sharingThreads.toOsState 2 ∧
      ¬ (∀ u, u ≠ 1 → Untouched u sharingThreads.toOsState
        ((ControlOp.setPriority osPriorityRealtime).exec sharingThreads 1).1.toOsState) := by
  refine ⟨by decide, ⟨by decide, by decide⟩, ?_⟩
  intro h
  have hbranch := (h 2 (by decide)).branch ⟨by decide, by decide⟩
  have hsoft := hbranch.realtime (by decide)
  revert hsoft
  decide

end Flexpret.Os
