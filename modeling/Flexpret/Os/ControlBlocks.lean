import Flexpret.Lib.Tickets
import Mathlib.Data.List.GetD
import Flexpret.Os.Schedulability

/-! # Handing Out Control Blocks

    `osThreadNew` and `osMutexNew`, cut into single accesses to the counters
    and the tables, as any number of threads run them at the same time.  The
    test of the counter, its read and its write in `++` are three accesses.

    A block is handed out once where nothing comes between them that matters:
    the counter is still below the limit when the increment reads it, and still
    what it read when it writes.
-/

open Transition

namespace Flexpret.Os

variable {b : OsBuild}

/-! ## Section 1: The calls, access by access -/

/-- A call of one of the two functions.  `none` is a `NULL` attribute. -/
inductive NewCall where
  | threadNew (func argument : Ptr) (attr : Option OsThreadAttr)
  | mutexNew (attr : Option OsMutexAttr)

/-- What a call hands out. -/
inductive Block where
  | thread
  | mutex
  deriving DecidableEq

def NewCall.block : NewCall → Block
  | .threadNew _ _ _ => .thread
  | .mutexNew _ => .mutex

/-- The length of the tables. -/
def Block.limit (b : OsBuild) : Block → Nat
  | .thread => b.hwThreadsNums
  | .mutex => flexpretMutexMaxNum

/-- The first number handed out: thread 0 is there from the start. -/
def Block.first : Block → Nat
  | .thread => 1
  | .mutex => 0

/-- `flexpret_thread_num` or `flexpret_mutex_num`. -/
def OsState.counter (os : OsState b) : Block → Nat
  | .thread => os.flexpretThreadNum
  | .mutex => os.flexpretMutexNum

def OsState.setCounter (os : OsState b) (n : Nat) : Block → OsState b
  | .thread => { os with flexpretThreadNum := n }
  | .mutex => { os with flexpretMutexNum := n }

/-- The tests before the counter is looked at. -/
def NewCall.refused : NewCall → Bool
  | .threadNew func _ _ => func = NULL
  | .mutexNew attr => attr.isNone

/-- The test of the counter, and the one of the priority after it. -/
def NewCall.fails (os : OsState b) : NewCall → Bool
  | .threadNew _ _ attr => os.flexpretThreadNum = b.hwThreadsNums ∨
      ∃ a ∈ attr, a.priority ≠ osPriorityRealtime ∧ a.priority ≠ osPriorityNormal
  | .mutexNew _ => os.flexpretMutexNum ≥ flexpretMutexMaxNum

/-- The stores of `osThreadNew` to the attribute object and the entry of
    `startup_state`. -/
def osThreadNewStores (b : OsBuild) (tid : Nat) (func argument : Ptr) (attr : Option OsThreadAttr) :
    List (OsThreadAttr × HwthreadState → OsThreadAttr × HwthreadState) :=
  let addr := b.flexpretThreadInitStackAddr tid
  let size := addr - b.flexpretThreadInitStackAddr (tid - 1)
  let attrStores : List (OsThreadAttr × HwthreadState → OsThreadAttr × HwthreadState) :=
    match attr with
    | none =>
        -- `memcpy`, then the two fields that depend on the thread.
        [fun e => ({ e.1 with attrBits := flexpretThreadInitAttr.attrBits }, e.2),
          fun e => ({ e.1 with stackMem := flexpretThreadInitAttr.stackMem }, e.2),
          fun e => ({ e.1 with stackSize := flexpretThreadInitAttr.stackSize }, e.2),
          fun e => ({ e.1 with priority := flexpretThreadInitAttr.priority }, e.2),
          fun e => ({ e.1 with stackMem := addr }, e.2),
          fun e => ({ e.1 with stackSize := size }, e.2)]
    | some attr =>
        let stackMem := if attr.stackMem = NULL then addr else attr.stackMem
        let stackSize := if attr.stackSize = 0 then size else attr.stackSize
        [fun e => (attr, e.2),
          fun e => (e.1, { e.2 with stackAddress := stackMem }),
          fun e => ({ e.1 with stackMem := stackMem }, e.2),
          fun e => ({ e.1 with stackSize := stackSize }, e.2)]
  attrStores ++
    [fun e => (e.1, { e.2 with func := func }),
      fun e => (e.1, { e.2 with state := .active }),
      fun e => (e.1, { e.2 with arg := argument })]

/-- The stores of `osMutexNew` to the entry of `startup_mutex_state`. -/
def osMutexNewStores {Tid : Type} (mid : Nat) (attr : OsMutexAttr) :
    List (MutexState Tid → MutexState Tid) :=
  [fun m => { m with csrAddr := mid },
    fun m => { m with ifRecursive := attr.osMutexRecursive },
    fun m => { m with ifRobust := attr.osMutexRobust },
    fun m => { m with ifSpin := false },
    fun m => { m with owner := none },
    fun m => { m with active := true },
    fun m => { m with count := 0 }]

/-- A store to the entries of thread `tid`.  Past the tables' end it is not
    followed. -/
def OsState.storeThread (os : OsState b) (tid : Nat)
    (store : OsThreadAttr × HwthreadState → OsThreadAttr × HwthreadState) : OsState b :=
  if h : tid < b.hwThreadsNums then
    let tid : Tid b := ⟨tid, h⟩
    let e := store (os.attr tid, os.thread tid)
    { os with
      attr := Function.update os.attr tid e.1
      thread := Function.update os.thread tid e.2 }
  else os

/-- A store to entry `mid` of `startup_mutex_state`. -/
def OsState.storeMutex (os : OsState b) (mid : Nat)
    (store : MutexState (Tid b) → MutexState (Tid b)) : OsState b :=
  if h : mid < flexpretMutexMaxNum then
    let mid : Fin flexpretMutexMaxNum := ⟨mid, h⟩
    { os with mutex := Function.update os.mutex mid (store (os.mutex mid)) }
  else os

/-- The stores of a call that has got number `id`. -/
def NewCall.stores (id : Nat) : NewCall → List (OsState b → OsState b)
  | .threadNew func argument attr =>
      (osThreadNewStores b id func argument attr).map fun store os => os.storeThread id store
  | .mutexNew attr =>
      (attr.elim [] (osMutexNewStores id)).map fun store os => os.storeMutex id store

/-- What follows the stores: `thread_after_create` where the kernel runs, and
    `write_mutex_csr`. -/
def NewCall.finish (os : OsState b) (id : Nat) : NewCall → OsState b
  | .threadNew _ _ _ =>
      if os.kernelState = .osKernelRunning then
        if h : id < b.hwThreadsNums then threadAfterCreate os ⟨id, h⟩ else os
      else os
  | .mutexNew _ => { os with csrs := writeMutexCsr os.csrs id flexpretMutexActive }

/-- The access a call makes next. -/
inductive NewPc where
  /-- The counter is compared with the limit. -/
  | check (call : NewCall)
  /-- The counter is read by `++`. -/
  | read (call : NewCall)
  /-- It is written. -/
  | write (call : NewCall) (n : Nat)
  | store (call : NewCall) (id k : Nat)
  | finish (call : NewCall) (id : Nat)

/-- The OS variables, where each thread stands, and the numbers returned. -/
structure HandOut (b : OsBuild) (Caller : Type) where
  os : OsState b
  pc : Caller → Option NewPc
  ids : Block → List Nat

/-- A thread begins a call, or makes its next access. -/
inductive NewEvent where
  | call (call : NewCall)
  | access

variable {Caller : Type}

section steps

variable [DecidableEq Caller]

def HandOut.goto (s : HandOut b Caller) (c : Caller) (pc : Option NewPc) : HandOut b Caller :=
  { s with pc := Function.update s.pc c pc }

/-- The access of caller `c`. -/
def HandOut.access (s : HandOut b Caller) (c : Caller) : NewPc → HandOut b Caller
  | .check call => s.goto c (if call.fails s.os then none else some (.read call))
  | .read call => s.goto c (some (.write call (s.os.counter call.block)))
  | .write call n =>
      { s with os := s.os.setCounter (n + 1) call.block }.goto c (some (.store call n 0))
  | .store call id k =>
      let stores : List (OsState b → OsState b) := call.stores id
      { s with os := (stores.getD k fun os => os) s.os }.goto c
        (some (if k + 1 < stores.length then .store call id (k + 1) else .finish call id))
  | .finish call id =>
      { s with
        os := call.finish s.os id
        ids := Function.update s.ids call.block (id :: s.ids call.block) }.goto c none

/-- One step of one caller. -/
def HandOut.step (s : HandOut b Caller) : Caller × NewEvent → Option (HandOut b Caller)
  | (c, .call call) =>
      match s.pc c with
      | none => some (if call.refused then s else s.goto c (some (.check call)))
      | some _ => none
  | (c, .access) => (s.pc c).map (s.access c)

end steps

/-- Only thread 0 has been created, and nobody is in a call. -/
structure HandOut.AtStart (s : HandOut b Caller) : Prop where
  threadNum : s.os.flexpretThreadNum = 1
  mutexNum : s.os.flexpretMutexNum ≤ flexpretMutexMaxNum
  idle : ∀ c, s.pc c = none
  ids : ∀ k, s.ids k = []

/-- The runs of any number of callers. -/
def handOutSystem (b : OsBuild) (Caller : Type) [DecidableEq Caller] :
    System (HandOut b Caller) (Caller × NewEvent) :=
  System.ofStep HandOut.AtStart HandOut.step

/-! ## Section 2: The property and its condition -/

/-- The tables are indexed below their length. -/
def NewPc.InRange (b : OsBuild) : NewPc → Prop
  | .store call id _ => id < call.block.limit b
  | .finish call id => id < call.block.limit b
  | _ => True

/-- **Control blocks are handed out once**. -/
structure HandedOutOnce (s : HandOut b Caller) : Prop where
  threads : (s.ids .thread).Nodup
  notMain : 0 ∉ s.ids .thread
  threadNum : (s.ids .thread).length ≤ b.hwThreadsNums - 1
  mutexes : (s.ids .mutex).Nodup
  mutexNum : (s.ids .mutex).length ≤ flexpretMutexMaxNum
  inRange : ∀ c pc, s.pc c = some pc → pc.InRange b

/-- The condition on a step. -/
structure CountsAlone (s : HandOut b Caller) (l : Caller × NewEvent) : Prop where
  /-- No other call has brought the counter to the limit since the test. -/
  read : ∀ call, l.2 = .access → s.pc l.1 = some (.read call) →
    s.os.counter call.block < call.block.limit b
  /-- No other call has advanced the counter since the read. -/
  write : ∀ call n, l.2 = .access → s.pc l.1 = some (.write call n) →
    s.os.counter call.block = n

/-! ## Section 3: Counters and numbers -/

theorem setCounter_counter (os : OsState b) (n : Nat) (k k' : Block) :
    (os.setCounter n k).counter k' = if k' = k then n else os.counter k' := by
  cases k <;> cases k' <;> rfl

theorem storeThread_counter (os : OsState b) (tid : Nat)
    (store : OsThreadAttr × HwthreadState → OsThreadAttr × HwthreadState) (k : Block) :
    (os.storeThread tid store).counter k = os.counter k := by
  unfold OsState.storeThread
  split
  · cases k <;> rfl
  · rfl

theorem storeMutex_counter (os : OsState b) (mid : Nat)
    (store : MutexState (Tid b) → MutexState (Tid b)) (k : Block) :
    (os.storeMutex mid store).counter k = os.counter k := by
  unfold OsState.storeMutex
  split
  · cases k <;> rfl
  · rfl

/-- The stores leave the counters. -/
theorem stores_counter {call : NewCall} {id : Nat} {store : OsState b → OsState b}
    (h : store ∈ call.stores id) (os : OsState b) (k : Block) :
    (store os).counter k = os.counter k := by
  cases call with
  | threadNew func argument attr =>
    obtain ⟨f, _, rfl⟩ := List.mem_map.mp h
    exact storeThread_counter os id f k
  | mutexNew attr =>
    obtain ⟨f, _, rfl⟩ := List.mem_map.mp h
    exact storeMutex_counter os id f k

theorem getD_stores_counter (call : NewCall) (id i : Nat) (os : OsState b) (k : Block) :
    (((call.stores id).getD i fun os => os) os).counter k = os.counter k := by
  by_cases hi : i < (call.stores id : List (OsState b → OsState b)).length
  · rw [List.getD_eq_getElem _ _ hi]
    exact stores_counter (List.getElem_mem hi) os k
  · rw [List.getD_eq_default _ _ (Nat.le_of_not_lt hi)]

theorem threadAfterCreate_counter (os : OsState b) (tid : Tid b) (k : Block) :
    (threadAfterCreate os tid).counter k = os.counter k := by
  unfold threadAfterCreate
  split
  · cases k <;> rfl
  · split
    · cases k <;> rfl
    · rfl

theorem finish_counter (call : NewCall) (os : OsState b) (id : Nat) (k : Block) :
    (call.finish os id).counter k = os.counter k := by
  cases call with
  | threadNew func argument attr =>
    simp only [NewCall.finish]
    split
    · split
      · exact threadAfterCreate_counter os _ k
      · rfl
    · rfl
  | mutexNew attr => cases k <;> rfl

/-- The number a call holds, which it has taken and not returned yet. -/
def NewPc.held (k : Block) : NewPc → Option Nat
  | .store call id _ => if call.block = k then some id else none
  | .finish call id => if call.block = k then some id else none
  | _ => none

/-- The counter as a ticket office. -/
def HandOut.office (s : HandOut b Caller) (k : Block) : Ticket.Office Caller where
  next := s.os.counter k
  held := fun c => (s.pc c).bind (NewPc.held k)
  given := s.ids k

/-- **The invariant**. -/
structure HandOutInv (s : HandOut b Caller) : Prop where
  sound : ∀ k, (s.office k).Sound k.first
  limit : ∀ k, s.os.counter k ≤ k.limit b
  write : ∀ c call n, s.pc c = some (.write call n) → n < call.block.limit b

theorem HandOutInv.handedOutOnce {s : HandOut b Caller} (h : HandOutInv s) : HandedOutOnce s := by
  have hlength : ∀ k, (s.ids k).length ≤ k.limit b - k.first := by
    intro k
    have hlen := (h.sound k).length_le
    have hlimit := h.limit k
    simp only [HandOut.office] at hlen
    omega
  constructor
  case threads => exact (h.sound .thread).nodup
  case notMain => exact fun h0 => absurd ((h.sound .thread).given 0 h0).1 (Nat.not_succ_le_zero 0)
  case threadNum => exact hlength .thread
  case mutexes => exact (h.sound .mutex).nodup
  case mutexNum => exact hlength .mutex
  case inRange =>
    intro c pc hpc
    have hrange : ∀ (call : NewCall) id, pc.held call.block = some id →
        id < call.block.limit b := by
      intro call id hheld
      have hhold : (s.office call.block).held c = some id := by
        show (s.pc c).bind (NewPc.held call.block) = some id
        rw [hpc]
        exact hheld
      exact Nat.lt_of_lt_of_le ((h.sound call.block).held c id hhold).2 (h.limit call.block)
    cases pc with
    | check call => trivial
    | read call => trivial
    | write call n => trivial
    | store call id k => exact hrange call id (if_pos rfl)
    | finish call id => exact hrange call id (if_pos rfl)

/-- Only the counters of the OS variables matter. -/
theorem HandOutInv.withOs {s : HandOut b Caller} (h : HandOutInv s) {os : OsState b}
    (hcounter : ∀ k, os.counter k = s.os.counter k) : HandOutInv { s with os := os } where
  sound := fun k => by
    have hoffice : ({ s with os := os } : HandOut b Caller).office k = s.office k := by
      rw [HandOut.office, HandOut.office, hcounter]
    rw [hoffice]
    exact h.sound k
  limit := fun k => by
    rw [hcounter]
    exact h.limit k
  write := h.write

/-! ## Section 4: A call alone -/

theorem storeThread_storeThread (os : OsState b) (tid : Nat)
    (store store' : OsThreadAttr × HwthreadState → OsThreadAttr × HwthreadState) :
    (os.storeThread tid store).storeThread tid store' =
      os.storeThread tid fun e => store' (store e) := by
  unfold OsState.storeThread
  split
  · simp only [Function.update_self, Function.update_idem, *]
  · rfl

theorem storeMutex_storeMutex (os : OsState b) (mid : Nat)
    (store store' : MutexState (Tid b) → MutexState (Tid b)) :
    (os.storeMutex mid store).storeMutex mid store' =
      os.storeMutex mid fun m => store' (store m) := by
  unfold OsState.storeMutex
  split
  · simp only [Function.update_self, Function.update_idem, *]
  · rfl

/-- Stores to one entry are one store. -/
theorem foldl_stores {State Entry : Type} {store : State → (Entry → Entry) → State}
    (hcomp : ∀ s f g, store (store s f) g = store s fun e => g (f e)) (fs : List (Entry → Entry))
    (s : State) (h : fs ≠ []) :
    (fs.map fun f s => store s f).foldl (fun s f => f s) s =
      store s fun e => fs.foldl (fun e f => f e) e := by
  induction fs generalizing s with
  | nil => exact absurd rfl h
  | cons f fs ih =>
    cases fs with
    | nil => rfl
    | cons g fs =>
      rw [List.map_cons, List.foldl_cons, ih _ (List.cons_ne_nil _ _), hcomp]
      rfl

theorem initStackSize_val {tid : Tid b} (h : tid ≠ 0) :
    initStackSize tid =
      b.flexpretThreadInitStackAddr tid.val - b.flexpretThreadInitStackAddr (tid.val - 1) := by
  revert h tid
  cases b <;> decide

/-- The stores of `osThreadNew` make the entry of the thread it creates. -/
theorem createThread_eq_stores (os : OsState b) {tid : Tid b} (h : tid ≠ 0)
    (func argument : Ptr) (attr : Option OsThreadAttr) :
    ((NewCall.threadNew func argument attr).stores tid.val).foldl (fun os store => store os)
        (os.setCounter (os.flexpretThreadNum + 1) .thread) =
      createThread os tid func argument attr := by
  have hne : osThreadNewStores b tid.val func argument attr ≠ [] := by
    cases attr <;> exact List.cons_ne_nil _ _
  rw [NewCall.stores, foldl_stores (fun os f g => storeThread_storeThread os tid f g) _ _ hne,
    OsState.storeThread, dif_pos tid.isLt]
  cases attr with
  | none =>
    simp only [createThread, osThreadNewAttr, initStackSize_val h]
    rfl
  | some attr =>
    simp only [createThread, osThreadNewAttr, initStackSize_val h]
    rfl

/-- Those of `osMutexNew` make the entry of the mutex. -/
theorem osMutexNew_eq_stores {os : OsState b} {mid : Fin flexpretMutexMaxNum}
    (h : os.flexpretMutexNum = mid.val) (attr : OsMutexAttr) :
    osMutexNew os attr =
      ((NewCall.mutexNew (some attr)).finish
        (((NewCall.mutexNew (some attr)).stores mid.val).foldl (fun os store => store os)
          (os.setCounter (os.flexpretMutexNum + 1) .mutex)) mid.val, some mid) := by
  rw [NewCall.stores, Option.elim_some, foldl_stores
    (fun os f g => storeMutex_storeMutex os mid f g) (osMutexNewStores mid.val attr) _
    (List.cons_ne_nil _ _), OsState.storeMutex, dif_pos mid.isLt]
  simp only [osMutexNew, h, dif_pos mid.isLt]
  rfl

section alone

variable [DecidableEq Caller]

theorem access_step {s : HandOut b Caller} {c : Caller} {pc : NewPc} (h : s.pc c = some pc) :
    s.step (c, .access) = some (s.access c pc) := by
  rw [HandOut.step, h, Option.map_some]

theorem goto_goto (s : HandOut b Caller) (c : Caller) (os : OsState b) (pc pc' : Option NewPc) :
    ({ s.goto c pc with os := os } : HandOut b Caller).goto c pc' =
      ({ s with os := os } : HandOut b Caller).goto c pc' := by
  simp only [HandOut.goto, Function.update_idem]

theorem goto_pc_self (s : HandOut b Caller) (c : Caller) (pc : Option NewPc) :
    (s.goto c pc).pc c = pc := Function.update_self ..

theorem goto_pc_ne (s : HandOut b Caller) {c c' : Caller} (h : c' ≠ c) (pc : Option NewPc) :
    (s.goto c pc).pc c' = s.pc c' := Function.update_of_ne h ..

/-- The accesses from a store to the return. -/
theorem stores_run {c : Caller} {call : NewCall} {id : Nat} (n : Nat) :
    ∀ {k : Nat} {s : HandOut b Caller}, s.pc c = some (.store call id k) →
      k + n + 1 = (call.stores id : List (OsState b → OsState b)).length →
      (handOutSystem b Caller).Run s (List.replicate (n + 1) (c, .access))
        (({ s with
          os := ((call.stores id : List (OsState b → OsState b)).drop k).foldl
            (fun (os : OsState b) store => store os) s.os } : HandOut b Caller).goto c
              (some (.finish call id))) := by
  induction n with
  | zero =>
    intro k s hpc hk
    have hlt : k < (call.stores id : List (OsState b → OsState b)).length := by omega
    have hlast : ¬ k + 1 < (call.stores id : List (OsState b → OsState b)).length := by omega
    have hstep := access_step hpc
    rw [HandOut.access, if_neg hlast, List.getD_eq_getElem _ _ hlt] at hstep
    rw [List.drop_eq_getElem_cons hlt, List.drop_eq_nil_of_le (by omega)]
    exact .cons _ _ hstep (.nil _)
  | succ n ih =>
    intro k s hpc hk
    have hlt : k < (call.stores id : List (OsState b → OsState b)).length := by omega
    have hmore : k + 1 < (call.stores id : List (OsState b → OsState b)).length := by omega
    have hstep := access_step hpc
    rw [HandOut.access, if_pos hmore, List.getD_eq_getElem _ _ hlt] at hstep
    have hrest := ih (s := ({ s with
      os := (call.stores id : List (OsState b → OsState b))[k] s.os } : HandOut b Caller).goto c
        (some (.store call id (k + 1)))) (goto_pc_self ..) (by omega)
    rw [goto_goto] at hrest
    rw [List.drop_eq_getElem_cons hlt, List.foldl_cons]
    exact .cons _ _ hstep hrest

/-- The OS variables after the increment and the stores of a call. -/
def NewCall.apply (os : OsState b) (call : NewCall) : OsState b :=
  let id := os.counter call.block
  let stores : List (OsState b → OsState b) := call.stores id
  call.finish (stores.foldl (fun os store => store os) (os.setCounter (id + 1) call.block)) id

theorem stores_length_pos {call : NewCall} (h : call.refused = false) (id : Nat) :
    0 < (call.stores id : List (OsState b → OsState b)).length := by
  cases call with
  | threadNew func argument attr =>
    rw [NewCall.stores, List.length_map]
    cases attr <;> exact Nat.succ_pos _
  | mutexNew attr =>
    cases attr with
    | none => exact absurd h nofun
    | some attr => exact Nat.succ_pos _

/-- **A call nobody interrupts** applies its accesses to the OS variables, and
    returns the number the counter showed. -/
theorem call_alone {s : HandOut b Caller} {c : Caller} {call : NewCall} (hidle : s.pc c = none)
    (hrefused : call.refused = false) (hfails : call.fails s.os = false) :
    ∃ ls, (∀ l ∈ ls, l = (c, .access)) ∧
      (handOutSystem b Caller).Run s ((c, .call call) :: ls)
        { os := call.apply s.os
          pc := s.pc
          ids := Function.update s.ids call.block
            (s.os.counter call.block :: s.ids call.block) } := by
  obtain ⟨m, hm⟩ := Nat.exists_eq_succ_of_ne_zero
    (stores_length_pos (b := b) hrefused (s.os.counter call.block)).ne'
  have hcall : s.step (c, .call call) = some (s.goto c (some (.check call))) := by
    simp only [HandOut.step, hidle, hrefused]
    rfl
  have hcheck : (s.goto c (some (.check call))).step (c, .access) =
      some (s.goto c (some (.read call))) := by
    rw [access_step (goto_pc_self ..)]
    show some ((s.goto c _).goto c (if call.fails s.os = true then none else _)) = _
    rw [hfails]
    exact congrArg some (goto_goto s c s.os _ _)
  have hread : (s.goto c (some (.read call))).step (c, .access) =
      some (s.goto c (some (.write call (s.os.counter call.block)))) := by
    rw [access_step (goto_pc_self ..)]
    exact congrArg some (goto_goto s c s.os _ _)
  have hwrite : (s.goto c (some (.write call (s.os.counter call.block)))).step (c, .access) =
      some (({ s with os := s.os.setCounter (s.os.counter call.block + 1) call.block } :
        HandOut b Caller).goto c (some (.store call (s.os.counter call.block) 0))) := by
    rw [access_step (goto_pc_self ..)]
    exact congrArg some (goto_goto s c _ _ _)
  have hstores := stores_run m (s := ({ s with
    os := s.os.setCounter (s.os.counter call.block + 1) call.block } : HandOut b Caller).goto c
      (some (.store call (s.os.counter call.block) 0))) (goto_pc_self ..) (by omega)
  rw [goto_goto] at hstores
  have hfinish := access_step (goto_pc_self ({ s with
    os := ((call.stores (s.os.counter call.block) : List (OsState b → OsState b)).drop 0).foldl
      (fun (os : OsState b) store => store os)
        (s.os.setCounter (s.os.counter call.block + 1) call.block) } : HandOut b Caller) c
    (some (.finish call (s.os.counter call.block))))
  -- Back in its own code, the caller stands where it stood.
  have hend : ∀ os : OsState b, (({ s with os := os } : HandOut b Caller).goto c
        (some (.finish call (s.os.counter call.block)))).access c
          (.finish call (s.os.counter call.block)) =
      { os := call.finish os (s.os.counter call.block)
        pc := s.pc
        ids := Function.update s.ids call.block
          (s.os.counter call.block :: s.ids call.block) } := by
    intro os
    simp only [HandOut.access, HandOut.goto, Function.update_idem]
    rw [← hidle, Function.update_eq_self]
  rw [hend] at hfinish
  refine ⟨List.replicate 3 (c, .access) ++ (List.replicate (m + 1) (c, .access) ++ [(c, .access)]),
    ?_, .cons _ _ hcall (.cons _ _ hcheck (.cons _ _ hread (.cons _ _ hwrite
      (hstores.append (.cons _ _ hfinish (.nil _))))))⟩
  intro l hl
  simp only [List.mem_append, List.mem_replicate, List.mem_singleton] at hl
  rcases hl with ⟨_, hl⟩ | ⟨_, hl⟩ | hl
  · exact hl
  · exact hl
  · exact hl

/-- **Refinement**: `osThreadNew` is the call of `threadNew` that nobody
    interrupts. -/
theorem osThreadNew_eq_apply {os os' : OsState b} {func argument : Ptr}
    {attr : Option OsThreadAttr} {tid : Tid b} (hpos : 0 < os.flexpretThreadNum)
    (h : osThreadNew os func argument attr = (os', some tid)) :
    (NewCall.threadNew func argument attr).refused = false ∧
      (NewCall.threadNew func argument attr).fails os = false ∧
      os.flexpretThreadNum = tid.val ∧ os' = (NewCall.threadNew func argument attr).apply os := by
  unfold osThreadNew at h
  split at h
  · exact absurd (congrArg Prod.snd h) nofun
  · next hfunc =>
    split at h
    · next hlt =>
      split at h
      · exact absurd (congrArg Prod.snd h) nofun
      · next hbad =>
        obtain ⟨hos, htid⟩ := Prod.ext_iff.mp h
        obtain rfl := Option.some.inj htid
        refine ⟨decide_eq_false hfunc, decide_eq_false (not_or.mpr ⟨hlt.ne, hbad⟩), rfl, ?_⟩
        have hne : (⟨os.flexpretThreadNum, hlt⟩ : Tid b) ≠ 0 := fun h0 =>
          hpos.ne' (congrArg Fin.val h0)
        have hcreate := createThread_eq_stores os hne func argument attr
        refine hos.symm.trans ?_
        simp only [NewCall.apply, NewCall.block, OsState.counter]
        rw [hcreate, NewCall.finish, dif_pos hlt]
    · exact absurd (congrArg Prod.snd h) nofun

end alone

/-! ## Section 5: Runs -/

variable [DecidableEq Caller]

/-- Where only the caller's place changes. -/
theorem goto_office (s : HandOut b Caller) (c : Caller) (pc : Option NewPc) (k : Block) :
    (s.goto c pc).office k =
      { s.office k with held := Function.update (s.office k).held c (pc.bind (NewPc.held k)) } := by
  have hheld : ((s.goto c pc).office k).held =
      Function.update (s.office k).held c (pc.bind (NewPc.held k)) := by
    funext c'
    show (Function.update s.pc c pc c').bind (NewPc.held k) = _
    rw [Function.update_apply, Function.update_apply]
    split <;> rfl
  rw [← hheld]
  rfl

theorem goto_office_same {s : HandOut b Caller} {c : Caller} {pc : Option NewPc} {k : Block}
    (h : pc.bind (NewPc.held k) = (s.pc c).bind (NewPc.held k)) :
    (s.goto c pc).office k = s.office k := by
  have hsame : Function.update (s.office k).held c (pc.bind (NewPc.held k)) =
      (s.office k).held := by
    rw [h]
    exact Function.update_eq_self c _
  rw [goto_office, hsame]

/-- A step that neither takes nor returns a number. -/
theorem HandOutInv.goto {s : HandOut b Caller} (h : HandOutInv s) {c : Caller} {pc : Option NewPc}
    (hheld : ∀ k, pc.bind (NewPc.held k) = (s.pc c).bind (NewPc.held k))
    (hwrite : ∀ call n, pc = some (.write call n) → n < call.block.limit b) :
    HandOutInv (s.goto c pc) where
  sound := fun k => by
    rw [goto_office_same (hheld k)]
    exact h.sound k
  limit := h.limit
  write := fun c' call n hc' => by
    by_cases hcc : c' = c
    · subst hcc
      exact hwrite call n ((goto_pc_self s c' pc).symm.trans hc')
    · exact h.write c' call n ((goto_pc_ne s hcc pc).symm.trans hc')

/-- **The write of the counter** takes a number. -/
theorem handOutInv_write {s : HandOut b Caller} (h : HandOutInv s) {c : Caller} {call : NewCall}
    {n : Nat} (hpc : s.pc c = some (.write call n)) (hn : s.os.counter call.block = n) :
    HandOutInv (s.access c (.write call n)) := by
  have hlt := h.write c call n hpc
  have hcounter : ∀ k, (s.os.setCounter (n + 1) call.block).counter k =
      if k = call.block then n + 1 else s.os.counter k := setCounter_counter s.os (n + 1) call.block
  constructor
  case sound =>
    intro k
    rw [HandOut.access, goto_office]
    show Ticket.Office.Sound k.first ⟨(s.os.setCounter (n + 1) call.block).counter k,
      Function.update (s.office k).held c ((some (NewPc.store call n 0)).bind (NewPc.held k)),
      s.ids k⟩
    rw [hcounter]
    by_cases hk : k = call.block
    · subst hk
      have hheld : (some (NewPc.store call n 0)).bind (NewPc.held call.block) = some n := if_pos rfl
      rw [if_pos rfl, hheld, ← hn]
      exact (h.sound call.block).take c
    · have hheld : (some (NewPc.store call n 0)).bind (NewPc.held k) = none :=
        if_neg (Ne.symm hk)
      have hnone : (s.office k).held c = none := by
        show (s.pc c).bind (NewPc.held k) = none
        rw [hpc]
        rfl
      rw [if_neg hk, hheld, ← hnone, Function.update_eq_self]
      exact h.sound k
  case limit =>
    intro k
    show (s.os.setCounter (n + 1) call.block).counter k ≤ k.limit b
    rw [hcounter]
    split
    · next hk =>
      rw [hk]
      exact hlt
    · exact h.limit k
  case write =>
    intro c' call' n' hc'
    by_cases hcc : c' = c
    · subst hcc
      exact absurd ((goto_pc_self _ c' _).symm.trans hc') nofun
    · exact h.write c' call' n' ((goto_pc_ne _ hcc _).symm.trans hc')

/-- **The return** gives it away. -/
theorem handOutInv_finish {s : HandOut b Caller} (h : HandOutInv s) {c : Caller} {call : NewCall}
    {id : Nat} (hpc : s.pc c = some (.finish call id)) :
    HandOutInv (s.access c (.finish call id)) := by
  have hheld : ∀ k, (s.office k).held c = if call.block = k then some id else none := by
    intro k
    show (s.pc c).bind (NewPc.held k) = _
    rw [hpc]
    rfl
  constructor
  case sound =>
    intro k
    rw [HandOut.access, goto_office]
    show Ticket.Office.Sound k.first ⟨(call.finish s.os id).counter k,
      Function.update (s.office k).held c none,
      Function.update s.ids call.block (id :: s.ids call.block) k⟩
    rw [finish_counter]
    by_cases hk : k = call.block
    · subst hk
      rw [Function.update_self]
      exact (h.sound call.block).give ((hheld call.block).trans (if_pos rfl))
    · have hnone : (s.office k).held c = none := (hheld k).trans (if_neg (Ne.symm hk))
      rw [Function.update_of_ne hk, ← hnone, Function.update_eq_self]
      exact h.sound k
  case limit =>
    intro k
    show (call.finish s.os id).counter k ≤ k.limit b
    rw [finish_counter]
    exact h.limit k
  case write =>
    intro c' call' n hc'
    by_cases hcc : c' = c
    · subst hcc
      exact absurd ((goto_pc_self _ c' _).symm.trans hc') nofun
    · exact h.write c' call' n ((goto_pc_ne _ hcc _).symm.trans hc')

/-- **An access** that meets the condition keeps the invariant. -/
theorem handOutInv_access {s : HandOut b Caller} (h : HandOutInv s) {c : Caller} {pc : NewPc}
    (hpc : s.pc c = some pc) (hok : CountsAlone s (c, .access)) :
    HandOutInv (s.access c pc) := by
  cases pc with
  | check call =>
    refine h.goto (fun k => ?_) (fun call' n hwrite => ?_)
    · rw [hpc]
      split <;> rfl
    · split at hwrite
      · exact absurd hwrite nofun
      · exact absurd hwrite nofun
  | read call =>
    refine h.goto (fun k => ?_) (fun call' n hwrite => ?_)
    · rw [hpc]
      rfl
    · obtain ⟨rfl, rfl⟩ := NewPc.write.inj (Option.some.inj hwrite)
      exact hok.read call rfl hpc
  | write call n => exact handOutInv_write h hpc (hok.write call n rfl hpc)
  | store call id k =>
    refine (h.withOs fun k' => getD_stores_counter call id k s.os k').goto (fun k' => ?_)
      (fun call' n hwrite => ?_)
    · show _ = (s.pc c).bind _
      rw [hpc]
      split <;> rfl
    · split at hwrite
      · exact absurd hwrite nofun
      · exact absurd hwrite nofun
  | finish call id => exact handOutInv_finish h hpc

theorem handOutInv_step {s s' : HandOut b Caller} {l : Caller × NewEvent} (h : HandOutInv s)
    (hok : CountsAlone s l) (hstep : s.step l = some s') : HandOutInv s' := by
  obtain ⟨c, ev⟩ := l
  cases ev with
  | call call =>
    simp only [HandOut.step] at hstep
    split at hstep
    · next hpc =>
      obtain rfl := Option.some.inj hstep
      split
      · exact h
      · refine h.goto (fun k => ?_) (fun call' n hwrite => absurd hwrite nofun)
        rw [hpc]
        rfl
    · exact absurd hstep nofun
  | access =>
    obtain ⟨pc, hpc, rfl⟩ := Option.map_eq_some_iff.mp hstep
    exact handOutInv_access h hpc hok

omit [DecidableEq Caller] in
theorem handOutInv_atStart {s : HandOut b Caller} (h : s.AtStart) : HandOutInv s where
  sound := fun k => by
    refine Ticket.Office.sound_start (fun c => ?_) (h.ids k) ?_
    · show (s.pc c).bind _ = none
      rw [h.idle c]
      rfl
    · cases k with
      | thread => exact h.threadNum.ge
      | mutex => exact Nat.zero_le _
  limit := fun k => by
    cases k with
    | thread =>
      show s.os.flexpretThreadNum ≤ b.hwThreadsNums
      rw [h.threadNum]
      exact b.hwThreadsNums_pos
    | mutex => exact h.mutexNum
  write := fun c call n hpc => absurd ((h.idle c).symm.trans hpc) nofun

/-- **Control blocks are handed out once** in every run where no other call
    advances a counter between a call's read and write of it, or brings it to
    the limit between the call's test and its read. -/
theorem controlBlocks_handedOutOnce {s : HandOut b Caller}
    (h : ((handOutSystem b Caller).restrict CountsAlone).Reachable s) : HandedOutOnce s := by
  have hinv : HandOutInv s :=
    h.invariant HandOutInv (fun _ => handOutInv_atStart)
      (fun _ _ _ _ hinv hstep => handOutInv_step hinv hstep.1 hstep.2)
  exact hinv.handedOutOnce

/-- Two callers, thread 0 and thread 1 of a started kernel. -/
def handOutStart : HandOut .threads4Dspm12 Bool where
  os := initialized .threads4Dspm12
  pc := fun _ => none
  ids := fun _ => []

theorem handOutStart_atStart : handOutStart.AtStart :=
  ⟨by decide, by decide, fun _ => rfl, fun _ => rfl⟩

/-- A thread for `func`, with the default attributes. -/
def newThread : NewCall := .threadNew 0x900 NULL none

/-- One caller after the other creates a thread. -/
def oneAfterTheOther : List (Bool × NewEvent) :=
  (false, .call newThread) :: List.replicate 13 (false, .access) ++
    (true, .call newThread) :: List.replicate 13 (true, .access)

/-- Both read the counter before either writes it. -/
def bothRead : List (Bool × NewEvent) :=
  [(false, .call newThread), (false, .access), (false, .access),
    (true, .call newThread), (true, .access), (true, .access)] ++
    List.replicate 11 (false, .access) ++ List.replicate 11 (true, .access)

def handOutAfter (labels : List (Bool × NewEvent)) : HandOut .threads4Dspm12 Bool :=
  (System.execute HandOut.step handOutStart labels).getD handOutStart

/-- A test of the condition. -/
def countsAlone (s : HandOut .threads4Dspm12 Bool) (l : Bool × NewEvent) : Bool :=
  match l.2, s.pc l.1 with
  | .access, some (.read call) => s.os.counter call.block < call.block.limit .threads4Dspm12
  | .access, some (.write call n) => s.os.counter call.block = n
  | _, _ => true

theorem countsAlone_of_test (s : HandOut .threads4Dspm12 Bool) (l : Bool × NewEvent)
    (h : countsAlone s l = true) : CountsAlone s l := by
  obtain ⟨c, ev⟩ := l
  constructor
  case read =>
    intro call hl hpc
    obtain rfl : ev = .access := hl
    simp only [countsAlone] at h
    rw [hpc] at h
    exact of_decide_eq_true h
  case write =>
    intro call n hl hpc
    obtain rfl : ev = .access := hl
    simp only [countsAlone] at h
    rw [hpc] at h
    exact of_decide_eq_true h

theorem oneAfterTheOther_once : HandedOutOnce (handOutAfter oneAfterTheOther) := by
  have hrun : ((handOutSystem .threads4Dspm12 Bool).restrict CountsAlone).Run handOutStart
      oneAfterTheOther (handOutAfter oneAfterTheOther) :=
    System.run_restrict_of_execute countsAlone_of_test rfl
  exact controlBlocks_handedOutOnce ((System.Reachable.init handOutStart_atStart).run hrun)

/-- Both calls return thread 1. -/
theorem bothRead_not_once :
    (handOutSystem .threads4Dspm12 Bool).Reachable (handOutAfter bothRead) ∧
      ¬ HandedOutOnce (handOutAfter bothRead) := by
  have hrun : (handOutSystem .threads4Dspm12 Bool).Run handOutStart bothRead
      (handOutAfter bothRead) := System.run_of_execute rfl
  refine ⟨(System.Reachable.init handOutStart_atStart).run hrun, ?_⟩
  intro h
  have hids : (handOutAfter bothRead).ids .thread = [1, 1] := by decide
  have hnodup := h.threads
  rw [hids] at hnodup
  exact absurd hnodup (by decide)

end Flexpret.Os
