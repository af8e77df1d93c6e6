import Mathlib.Order.CompletePartialOrder
import Flexpret.Os.AttrObjects
import Flexpret.Os.Schedulability

/-! # Default Stacks

    A sequence of `osThreadNew` calls whose attribute objects leave the stack
    to the OS.  The stacks are the default ones, and apart from each other, if
    and only if no object is passed to two of the calls and no object asks for
    more room than there is between two default stacks.
-/

open Transition

namespace Flexpret.Os

variable {b : OsBuild} {Obj : Type}

/-! ## Section 1: Sequences of calls -/

/-- A call of `osThreadNew`, and the thread it has returned. -/
structure Creation (b : OsBuild) (Obj : Type) where
  func : Ptr
  argument : Ptr
  attr : Option Obj
  tid : Tid b

/-- Before the first call: the entries point to the OS's own objects, and the
    stack addresses are those of `startup.S`. -/
structure AtCreation (s : SharedState b Obj) : Prop where
  threadNum : s.flexpretThreadNum = 1
  entry : ∀ t, s.entry t = .own t
  stack : ∀ t, (s.thread t).stackAddress = b.flexpretThreadInitStackAddr t

/-- The sequences of calls that all return a thread. -/
def creationSystem (b : OsBuild) (Obj : Type) [DecidableEq Obj] :
    System (SharedState b Obj) (Creation b Obj) where
  init := AtCreation
  step := fun s c s' => s.osThreadNew c.func c.argument c.attr = (s', some c.tid)

/-- The objects of the user next to a state of the other modules. -/
def SharedState.ofOs (s : OsState b) (user : Obj → OsThreadAttr) : SharedState b Obj where
  toOsState := s
  entry := .own
  object := fun
    | .own t => s.attr t
    | .user obj => user obj
  attr_eq := rfl

/-- `osKernelInitialize` leaves such a state. -/
theorem osKernelInitialize_atCreation {s : OsState b} (h : AtReset s)
    (hstack : ∀ t, (s.thread t).stackAddress = b.flexpretThreadInitStackAddr t) (bssEnd : Ptr)
    (flexpretThreadAttr : Tid b → OsThreadAttr) (user : Obj → OsThreadAttr) :
    AtCreation (SharedState.ofOs (osKernelInitialize bssEnd flexpretThreadAttr s) user) := by
  refine ⟨?_, fun _ => rfl, fun t => ?_⟩
  · show (newSlotMutex _).flexpretThreadNum = 1
    rw [(newSlotMutex_frame _).2.2.2.2]
    exact h.threadNum
  · show (Function.update (newSlotMutex _).thread 0 _ t).stackAddress = _
    rw [(newSlotMutex_frame _).1]
    by_cases ht : t = 0
    · rw [ht, Function.update_self]
      exact hstack 0
    · rw [Function.update_of_ne ht]
      exact hstack t

/-! ## Section 2: The property and its condition -/

/-- The addresses of a stack.  `sp` starts at `stack_mem` and goes down before
    anything is stored. -/
def stackRegion (attr : OsThreadAttr) : Set Nat :=
  Set.Ico (attr.stackMem.toNat - attr.stackSize.toNat) attr.stackMem.toNat

/-- The property of the threads of a sequence of calls. -/
structure StacksDisjoint (s : SharedState b Obj) (log : List (Creation b Obj)) : Prop where
  stack : ∀ c ∈ log, (s.thread c.tid).stackAddress = b.flexpretThreadInitStackAddr c.tid
  entry : ∀ c ∈ log, (s.attr c.tid).stackMem = b.flexpretThreadInitStackAddr c.tid
  different : log.Pairwise fun c c' =>
    (s.thread c.tid).stackAddress ≠ (s.thread c'.tid).stackAddress ∧
      (s.attr c.tid).stackMem ≠ (s.attr c'.tid).stackMem
  apart : log.Pairwise fun c c' =>
    Disjoint (stackRegion (s.attr c.tid)) (stackRegion (s.attr c'.tid))

/-- No object is passed to two calls. -/
def NotShared (log : List (Creation b Obj)) : Prop :=
  log.Pairwise fun c c' => ∀ obj ∈ c.attr, c'.attr ≠ some obj

/-- The distance between two default stacks. -/
def OsBuild.defaultStackSize : OsBuild → BitVec 32
  | .threads4Dspm12 => 0xC00
  | .threads4Dspm64 => 0x3000
  | .threads8 => 0x1C00

/-- No object but that of the first call asks for more than this distance. -/
def SizesFit (s₀ : SharedState b Obj) (log : List (Creation b Obj)) : Prop :=
  ∀ c ∈ log.tail, ∀ obj ∈ c.attr,
    (s₀.object (.user obj)).stackSize.toNat ≤ b.defaultStackSize.toNat

/-! ### The table of default stacks -/

theorem initStackSize_eq {tid : Tid b} (h : tid ≠ 0) : initStackSize tid = b.defaultStackSize := by
  revert h tid
  cases b <;> decide

theorem initStackAddr_succ {n : Nat} (h : n + 1 < b.hwThreadsNums) :
    (b.flexpretThreadInitStackAddr (n + 1)).toNat =
      (b.flexpretThreadInitStackAddr n).toNat + b.defaultStackSize.toNat := by
  have htable : ∀ i : Fin 8, i.val + 1 < b.hwThreadsNums →
      (b.flexpretThreadInitStackAddr (i.val + 1)).toNat =
        (b.flexpretThreadInitStackAddr i.val).toNat + b.defaultStackSize.toNat := by
    cases b <;> decide
  exact htable ⟨n, by have := b.hwThreadsNums_le; omega⟩ h

theorem initStackAddr_ne_null (tid : Tid b) : b.flexpretThreadInitStackAddr tid ≠ NULL := by
  revert tid
  cases b <;> decide

theorem defaultStackSize_pos (b : OsBuild) : 0 < b.defaultStackSize.toNat := by
  cases b <;> decide

/-- The next default stack starts at or below the previous stack's end. -/
theorem initStackAddr_le {n m : Nat} (hnm : n < m) (hm : m < b.hwThreadsNums) :
    (b.flexpretThreadInitStackAddr n).toNat + b.defaultStackSize.toNat ≤
      (b.flexpretThreadInitStackAddr m).toNat := by
  induction m with
  | zero => exact absurd hnm (Nat.not_lt_zero n)
  | succ m ih =>
    rw [initStackAddr_succ hm]
    by_cases heq : n = m
    · rw [heq]
    · have hprev := ih (by omega) (by omega)
      omega

/-! ## Section 3: Runs -/

/-- The entry a call leaves. -/
def Creation.entry (c : Creation b Obj) : AttrPtr b Obj :=
  match c.attr with
  | none => .own c.tid
  | some obj => .user obj

/-- The attributes a call leaves if its object has not been used before. -/
def Creation.fresh (s₀ : SharedState b Obj) (c : Creation b Obj) : OsThreadAttr :=
  osThreadNewAttr c.tid (c.attr.map fun obj => s₀.object (.user obj))

/-- **The invariant** of a sequence of calls. -/
structure CreationInv (s₀ : SharedState b Obj) (log : List (Creation b Obj))
    (s : SharedState b Obj) : Prop where
  threadNum : s.flexpretThreadNum = log.length + 1
  tids : ∀ i (h : i < log.length), log[i].tid.val = i + 1
  entry : ∀ c ∈ log, s.entry c.tid = c.entry
  unused : ∀ t : Tid b, s.flexpretThreadNum ≤ t.val →
    s.entry t = .own t ∧ (s.thread t).stackAddress = b.flexpretThreadInitStackAddr t
  untouched : ∀ obj, (∀ c ∈ log, c.attr ≠ some obj) → s.object (.user obj) = s₀.object (.user obj)
  fresh : NotShared log → ∀ c ∈ log, s.attr c.tid = c.fresh s₀ ∧
    (s.thread c.tid).stackAddress = osThreadNewStackAddress c.tid
      (b.flexpretThreadInitStackAddr c.tid) (c.attr.map fun obj => s₀.object (.user obj))

theorem creationInv_init {s : SharedState b Obj} (h : AtCreation s) : CreationInv s [] s where
  threadNum := h.threadNum
  tids := fun i hi => absurd hi (Nat.not_lt_zero i)
  entry := fun _ hc => absurd hc List.not_mem_nil
  unused := fun t _ => ⟨h.entry t, h.stack t⟩
  untouched := fun _ _ => rfl
  fresh := fun _ _ hc => absurd hc List.not_mem_nil

theorem CreationInv.tid_lt {s₀ s : SharedState b Obj} {log : List (Creation b Obj)}
    (h : CreationInv s₀ log s) {c : Creation b Obj} (hc : c ∈ log) :
    c.tid.val < s.flexpretThreadNum := by
  obtain ⟨i, hi, rfl⟩ := List.getElem_of_mem hc
  rw [h.tids i hi, h.threadNum]
  omega

/-- Calls with different objects leave different entries. -/
theorem Creation.entry_ne {c c' : Creation b Obj} (htid : c.tid ≠ c'.tid)
    (h : ∀ obj ∈ c.attr, c'.attr ≠ some obj) : c.entry ≠ c'.entry := by
  unfold Creation.entry
  split
  · split
    · exact fun heq => htid (AttrPtr.own.inj heq)
    · exact nofun
  · next obj hattr =>
    split
    · exact nofun
    · next obj' hattr' =>
      intro heq
      rw [AttrPtr.user.inj heq] at hattr
      exact h obj' hattr hattr'

/-- The variables of a state the invariant looks at, after a call. -/
structure AfterCall (s : SharedState b Obj) (c : Creation b Obj) (s' : SharedState b Obj)
    [DecidableEq Obj] : Prop where
  tid : c.tid.val = s.flexpretThreadNum
  threadNum : s'.flexpretThreadNum = s.flexpretThreadNum + 1
  entry : s'.entry = Function.update s.entry c.tid (s.newEntry c.tid c.attr)
  object : s'.object = Function.update s.object (s.newEntry c.tid c.attr)
    (osThreadNewAttr c.tid (c.attr.map fun obj => s.object (.user obj)))
  stack : ∀ t, (s'.thread t).stackAddress = if t = c.tid then
    osThreadNewStackAddress c.tid (s.thread c.tid).stackAddress
      (c.attr.map fun obj => s.object (.user obj)) else (s.thread t).stackAddress

section calls

variable [DecidableEq Obj]

theorem afterCall_of_step {s s' : SharedState b Obj} {c : Creation b Obj}
    (h : (creationSystem b Obj).step s c s') : AfterCall s c s' := by
  obtain ⟨htid, hs⟩ := SharedState.osThreadNew_cases h
  have hstack : ∀ t, ((s.createThread c.tid c.func c.argument c.attr).thread t).stackAddress =
      if t = c.tid then osThreadNewStackAddress c.tid (s.thread c.tid).stackAddress
        (c.attr.map fun obj => s.object (.user obj)) else (s.thread t).stackAddress := by
    intro t
    show (Function.update s.thread c.tid _ t).stackAddress = _
    rw [Function.update_apply]
    split <;> rfl
  rcases hs with rfl | rfl
  · exact ⟨htid, rfl, rfl, rfl, hstack⟩
  · have hframe := SharedState.threadAfterCreate_attr
      (s.createThread c.tid c.func c.argument c.attr).toOsState c.tid
    refine ⟨htid, hframe.2.2, rfl, rfl, fun t => ?_⟩
    show ((threadAfterCreate _ c.tid).thread t).stackAddress = _
    rw [hframe.2.1]
    exact hstack t

theorem creationInv_step {s₀ s s' : SharedState b Obj} {log : List (Creation b Obj)}
    {c : Creation b Obj} (h : CreationInv s₀ log s)
    (hstep : (creationSystem b Obj).step s c s') : CreationInv s₀ (log ++ [c]) s' := by
  have hafter := afterCall_of_step hstep
  have hunused := h.unused c.tid hafter.tid.ge
  have hne : ∀ c' ∈ log, c'.tid ≠ c.tid := by
    intro c' hc' heq
    have hlt := h.tid_lt hc'
    rw [heq, hafter.tid] at hlt
    exact Nat.lt_irrefl _ hlt
  have hentry : s.newEntry c.tid c.attr = c.entry := by
    cases hattr : c.attr with
    | none => simp only [SharedState.newEntry, Creation.entry, hattr, hunused.1]
    | some obj => simp only [SharedState.newEntry, Creation.entry, hattr]
  constructor
  case threadNum => rw [hafter.threadNum, h.threadNum, List.length_append, List.length_singleton]
  case tids =>
    intro i hi
    rw [List.length_append, List.length_singleton] at hi
    by_cases hlast : i = log.length
    · subst hlast
      rw [List.getElem_concat_length rfl, hafter.tid, h.threadNum]
    · rw [List.getElem_append_left (by omega)]
      exact h.tids i (by omega)
  case entry =>
    intro c' hc'
    rw [hafter.entry]
    rcases List.mem_append.mp hc' with hold | hnew
    · rw [Function.update_of_ne (hne c' hold)]
      exact h.entry c' hold
    · obtain rfl := List.mem_singleton.mp hnew
      rw [Function.update_self, hentry]
  case unused =>
    intro t ht
    rw [hafter.threadNum] at ht
    have htc : t ≠ c.tid := by
      intro heq
      rw [heq, hafter.tid] at ht
      omega
    rw [hafter.entry, Function.update_of_ne htc, hafter.stack, if_neg htc]
    exact h.unused t (by omega)
  case untouched =>
    intro obj hobj
    have hother : AttrPtr.user obj ≠ s.newEntry c.tid c.attr := by
      rw [hentry]
      intro heq
      refine hobj c (List.mem_append_right _ (List.mem_singleton_self c)) ?_
      unfold Creation.entry at heq
      split at heq
      · cases heq
      · next hattr => rw [hattr, AttrPtr.user.inj heq]
    rw [hafter.object, Function.update_of_ne hother]
    exact h.untouched obj fun c' hc' => hobj c' (List.mem_append_left _ hc')
  case fresh =>
    intro hshared
    obtain ⟨hlog, _, hnew⟩ := List.pairwise_append.mp hshared
    intro c' hc'
    rcases List.mem_append.mp hc' with hold | hlast
    · -- An earlier thread's object is not the one written now.
      have hdiff : c'.entry ≠ c.entry :=
        Creation.entry_ne (hne c' hold) (hnew c' hold c (List.mem_singleton_self c))
      have hattr : s'.attr c'.tid = s.attr c'.tid := by
        rw [s'.attr_apply, s.attr_apply, hafter.entry, Function.update_of_ne (hne c' hold),
          hafter.object, hentry, h.entry c' hold, Function.update_of_ne hdiff]
      rw [hattr, hafter.stack, if_neg (hne c' hold)]
      exact h.fresh hlog c' hold
    · obtain rfl := List.mem_singleton.mp hlast
      -- The object is as the user has prepared it.
      have hold : (c'.attr.map fun obj => s.object (.user obj)) =
          c'.attr.map fun obj => s₀.object (.user obj) := by
        refine Option.map_congr fun obj hobj => h.untouched obj fun c₁ hc₁ heq => ?_
        exact hnew c₁ hc₁ c' (List.mem_singleton_self c') obj heq hobj
      constructor
      · rw [s'.attr_apply, hafter.entry, Function.update_self, hafter.object,
          Function.update_self, hold, Creation.fresh]
      · rw [hafter.stack, if_pos rfl, hold, hunused.2]

theorem creationInv_run {s₀ s : SharedState b Obj} {log : List (Creation b Obj)}
    (h₀ : AtCreation s₀) (hrun : (creationSystem b Obj).Run s₀ log s) : CreationInv s₀ log s :=
  hrun.history (CreationInv s₀) (creationInv_init h₀) fun _ _ _ _ => creationInv_step

end calls

/-! ## Section 4: When default stacks are disjoint -/

/-- The user leaves the stack to the OS. -/
def Prepared (s₀ : SharedState b Obj) (log : List (Creation b Obj)) : Prop :=
  ∀ c ∈ log, ∀ obj ∈ c.attr, (s₀.object (.user obj)).stackMem = NULL

theorem Prepared.stackAddress {s₀ : SharedState b Obj} {log : List (Creation b Obj)}
    (h : Prepared s₀ log) {c : Creation b Obj} (hc : c ∈ log) :
    (c.fresh s₀).stackMem = b.flexpretThreadInitStackAddr c.tid ∧
      osThreadNewStackAddress c.tid (b.flexpretThreadInitStackAddr c.tid)
        (c.attr.map fun obj => s₀.object (.user obj)) = b.flexpretThreadInitStackAddr c.tid := by
  unfold Creation.fresh
  cases hattr : c.attr with
  | none => exact ⟨rfl, rfl⟩
  | some obj => exact ⟨if_pos (h c hc obj hattr), if_pos (h c hc obj hattr)⟩

/-- The size of a stack is what the object asks for, if it does. -/
theorem Creation.fresh_stackSize (s₀ : SharedState b Obj) {c : Creation b Obj} (h : c.tid ≠ 0) :
    0 < (c.fresh s₀).stackSize.toNat ∧
      ((∀ obj ∈ c.attr, (s₀.object (.user obj)).stackSize.toNat ≤ b.defaultStackSize.toNat) ↔
        (c.fresh s₀).stackSize.toNat ≤ b.defaultStackSize.toNat) := by
  have hpos := defaultStackSize_pos b
  unfold Creation.fresh
  cases hattr : c.attr with
  | none =>
    show 0 < (initStackSize c.tid).toNat ∧ (_ ↔ (initStackSize c.tid).toNat ≤ _)
    rw [initStackSize_eq h]
    exact ⟨hpos, fun _ => le_rfl, fun _ _ hobj => absurd hobj nofun⟩
  | some obj =>
    show 0 < (if (s₀.object (.user obj)).stackSize = 0 then _ else _ : BitVec 32).toNat ∧
      (_ ↔ (if (s₀.object (.user obj)).stackSize = 0 then _ else _ : BitVec 32).toNat ≤ _)
    rw [initStackSize_eq h]
    split
    · next hzero =>
      refine ⟨hpos, fun _ => le_rfl, fun _ obj' hobj' => ?_⟩
      rw [← Option.some.inj hobj', hzero]
      exact Nat.zero_le _
    · next hzero =>
      refine ⟨?_, fun hfit => hfit obj rfl, fun hle obj' hobj' => ?_⟩
      · exact Nat.pos_of_ne_zero fun h0 => hzero (BitVec.eq_of_toNat_eq h0)
      · rw [← Option.some.inj hobj']
        exact hle

theorem CreationInv.tid_ne_zero {s₀ s : SharedState b Obj} {log : List (Creation b Obj)}
    (h : CreationInv s₀ log s) {c : Creation b Obj} (hc : c ∈ log) : c.tid ≠ 0 := by
  obtain ⟨i, hi, rfl⟩ := List.getElem_of_mem hc
  intro heq
  have hval := h.tids i hi
  rw [heq] at hval
  exact absurd hval (Nat.succ_ne_zero i).symm

/-- Ids are handed out in order. -/
theorem CreationInv.ascending {s₀ s : SharedState b Obj} {log : List (Creation b Obj)}
    (h : CreationInv s₀ log s) : log.Pairwise fun c c' => c.tid.val < c'.tid.val := by
  rw [List.pairwise_iff_getElem]
  intro i j hi hj hij
  rw [h.tids i hi, h.tids j hj]
  omega

theorem CreationInv.notShared {s₀ s : SharedState b Obj} {log : List (Creation b Obj)}
    (h : CreationInv s₀ log s) (hdisjoint : StacksDisjoint s log) : NotShared log := by
  refine hdisjoint.different.imp_of_mem fun {c c'} hc hc' hdiff obj hobj hobj' => ?_
  -- Both entries point to the one object.
  have hentry : c.entry = c'.entry := by
    unfold Creation.entry
    rw [Option.mem_def.mp hobj, hobj']
  refine hdiff.2 ?_
  rw [s.attr_apply, s.attr_apply, h.entry c hc, h.entry c' hc', hentry]

theorem CreationInv.sizesFit {s₀ s : SharedState b Obj} {log : List (Creation b Obj)}
    (h : CreationInv s₀ log s) (hprep : Prepared s₀ log) (hdisjoint : StacksDisjoint s log) :
    SizesFit s₀ log := by
  intro c hc
  obtain ⟨i, hi, rfl⟩ := List.getElem_of_mem hc
  rw [List.length_tail] at hi
  have hi' : i + 1 < log.length := by omega
  rw [List.getElem_tail] at hc ⊢
  have hmem : log[i + 1] ∈ log := List.getElem_mem hi'
  have hmem₀ : log[i] ∈ log := List.getElem_mem (by omega)
  have hshared := h.notShared hdisjoint
  obtain ⟨hattr, _⟩ := h.fresh hshared _ hmem
  obtain ⟨hattr₀, _⟩ := h.fresh hshared _ hmem₀
  rw [(Creation.fresh_stackSize s₀ (h.tid_ne_zero hmem)).2]
  by_contra hbig
  have hsize₀ := (Creation.fresh_stackSize s₀ (h.tid_ne_zero hmem₀)).1
  have happart := (List.pairwise_iff_getElem.mp hdisjoint.apart) i (i + 1) (by omega) hi' (by omega)
  have hmem_lt : (b.flexpretThreadInitStackAddr (i + 1)).toNat ≠ 0 := by
    intro h0
    have hne := initStackAddr_ne_null (log[i]).tid
    rw [h.tids i (by omega)] at hne
    exact hne (BitVec.eq_of_toNat_eq h0)
  have hnext := initStackAddr_succ (b := b) (n := i + 1) (by
    have := (log[i + 1]).tid.isLt
    rw [h.tids (i + 1) hi'] at this
    exact this)
  -- The last byte of the stack below is in both.
  have hin₀ : (b.flexpretThreadInitStackAddr (i + 1)).toNat - 1 ∈
      stackRegion (s.attr log[i].tid) := by
    rw [hattr₀, stackRegion, (hprep.stackAddress hmem₀).1, h.tids i (by omega), Set.mem_Ico]
    omega
  have hin : (b.flexpretThreadInitStackAddr (i + 1)).toNat - 1 ∈
      stackRegion (s.attr log[i + 1].tid) := by
    rw [hattr, stackRegion, (hprep.stackAddress hmem).1, h.tids (i + 1) hi', Set.mem_Ico]
    omega
  exact Set.disjoint_left.mp happart hin₀ hin

theorem CreationInv.disjoint {s₀ s : SharedState b Obj} {log : List (Creation b Obj)}
    (h : CreationInv s₀ log s) (hprep : Prepared s₀ log) (hshared : NotShared log)
    (hfit : SizesFit s₀ log) : StacksDisjoint s log := by
  have hstack : ∀ c ∈ log, (s.thread c.tid).stackAddress = b.flexpretThreadInitStackAddr c.tid :=
    fun c hc => (h.fresh hshared c hc).2.trans (hprep.stackAddress hc).2
  have hentry : ∀ c ∈ log, (s.attr c.tid).stackMem = b.flexpretThreadInitStackAddr c.tid := by
    intro c hc
    rw [(h.fresh hshared c hc).1]
    exact (hprep.stackAddress hc).1
  have hbelow : ∀ c ∈ log, ∀ c' ∈ log, c.tid.val < c'.tid.val →
      (b.flexpretThreadInitStackAddr c.tid).toNat + b.defaultStackSize.toNat ≤
        (b.flexpretThreadInitStackAddr c'.tid).toNat :=
    fun c _ c' _ hlt => initStackAddr_le hlt c'.tid.isLt
  constructor
  case stack => exact hstack
  case entry => exact hentry
  case different =>
    refine h.ascending.imp_of_mem fun {c c'} hc hc' hlt => ?_
    have hle := hbelow c hc c' hc' hlt
    have hpos := defaultStackSize_pos b
    rw [hstack c hc, hstack c' hc', hentry c hc, hentry c' hc', and_self]
    intro heq
    rw [heq] at hle
    omega
  case apart =>
    rw [List.pairwise_iff_getElem]
    intro i j hi hj hij
    have hc : log[i] ∈ log := List.getElem_mem hi
    have hc' : log[j] ∈ log := List.getElem_mem hj
    have hle := hbelow _ hc _ hc' (by rw [h.tids i hi, h.tids j hj]; omega)
    have hj' : j - 1 < log.tail.length := by
      rw [List.length_tail]
      omega
    have htail : log[j] ∈ log.tail := by
      have hget : log.tail[j - 1] = log[j] := by
        rw [List.getElem_tail]
        congr 1
        omega
      rw [← hget]
      exact List.getElem_mem hj'
    have hsize := (Creation.fresh_stackSize s₀ (h.tid_ne_zero hc')).2.mp (hfit _ htail)
    refine Set.disjoint_left.mpr fun x hx hx' => ?_
    rw [stackRegion, hentry _ hc, Set.mem_Ico] at hx
    rw [stackRegion, hentry _ hc', (h.fresh hshared _ hc').1, Set.mem_Ico] at hx'
    omega

/-- **Default stacks are disjoint** if and only if no object is passed to two
    calls, and none but that of the first call asks for a stack larger than the
    distance between two default ones. -/
theorem defaultStacks_disjoint_iff [DecidableEq Obj] {s₀ s : SharedState b Obj}
    {log : List (Creation b Obj)} (h₀ : AtCreation s₀) (hprep : Prepared s₀ log)
    (hrun : (creationSystem b Obj).Run s₀ log s) :
    StacksDisjoint s log ↔ NotShared log ∧ SizesFit s₀ log := by
  have hinv := creationInv_run h₀ hrun
  constructor
  · exact fun h => ⟨hinv.notShared h, hinv.sizesFit hprep h⟩
  · exact fun h => hinv.disjoint hprep h.1 h.2

/-- Two objects, both of a normal joinable thread. -/
def twoObjects : SharedState .threads4Dspm12 Bool :=
  SharedState.ofOs (initialized .threads4Dspm12)
    fun _ => ⟨osThreadJoinable, NULL, 0, osPriorityNormal⟩

theorem twoObjects_atCreation : AtCreation twoObjects :=
  osKernelInitialize_atCreation (resetState_atReset .threads4Dspm12) (fun _ => rfl) _ _ _

/-- Two threads, created with the objects `first` and `second`. -/
def twoCreations (first second : Bool) : List (Creation .threads4Dspm12 Bool) :=
  [⟨0x900, NULL, some first, 1⟩, ⟨0xA00, NULL, some second, 2⟩]

/-- The state after them. -/
def twoCreated (first second : Bool) : SharedState .threads4Dspm12 Bool :=
  ((twoObjects.osThreadNew 0x900 NULL (some first)).1.osThreadNew 0xA00 NULL (some second)).1

theorem twoCreations_run (first second : Bool) :
    (creationSystem .threads4Dspm12 Bool).Run twoObjects (twoCreations first second)
      (twoCreated first second) := by
  refine .cons _ _ (Prod.ext rfl ?_) (.cons _ _ (Prod.ext rfl ?_) (.nil _))
  · revert first
    decide
  · revert first second
    decide

theorem twoCreations_prepared (first second : Bool) :
    Prepared twoObjects (twoCreations first second) :=
  fun _ _ _ _ => rfl

theorem twoObjects_disjoint : StacksDisjoint (twoCreated false true) (twoCreations false true) := by
  refine (defaultStacks_disjoint_iff twoObjects_atCreation (twoCreations_prepared false true)
    (twoCreations_run false true)).mpr ⟨?_, ?_⟩
  · unfold NotShared twoCreations
    decide
  · exact fun _ _ _ _ => Nat.zero_le _

/-- With one object for both, the second thread gets the stack of the first. -/
theorem oneObject_not_disjoint :
    AtCreation twoObjects ∧ Prepared twoObjects (twoCreations true true) ∧
      (creationSystem .threads4Dspm12 Bool).Run twoObjects (twoCreations true true)
        (twoCreated true true) ∧
      ¬ StacksDisjoint (twoCreated true true) (twoCreations true true) := by
  refine ⟨twoObjects_atCreation, twoCreations_prepared true true, twoCreations_run true true, ?_⟩
  intro h
  have hstack := h.stack ⟨0xA00, NULL, some true, 2⟩ (by simp [twoCreations])
  revert hstack
  decide

end Flexpret.Os
