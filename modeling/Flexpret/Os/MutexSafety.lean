import Flexpret.Lib.Transition
import Flexpret.Os.Mutex

/-! # Mutual Exclusion of `osMutexAcquire` / `osMutexRelease`

    Any number of threads call acquire and release on one mutex, and their
    atomic steps interleave freely.  The invariant names the thread that holds
    the mutex CSR, if any, and says for each of its program points what
    `owner` and `count` are; every other thread is at a program point that
    leaves all three alone.

    The recursion count is a 32-bit `int`, so the results are about runs in
    which no thread asks for the mutex while it already holds it
    `2 ^ 31 - 1` times.
-/

open Transition

namespace Flexpret.Os

/-! ## Section 1: The interleaved system -/

/-- The shared mutex, each thread's program point (`none` outside both calls)
    and, as history, how many of its calls returned `osOK`. -/
structure MutexSys (Tid : Type) where
  mutex : MutexState Tid
  csrs : MutexCsrs
  pc : Tid → Option Pc
  acquired : Tid → Nat
  released : Tid → Nat

/-- Steps of the system.  `run t now` is the next atomic step of thread `t`,
    taken when the clock shows `now`. -/
inductive MutexAction (Tid : Type) where
  | acquire (t : Tid) (timeout : BitVec 32)
  | release (t : Tid)
  | run (t : Tid) (now : BitVec 32)

/-- Program points of `osMutexRelease`. -/
def Pc.inRelease : Pc → Bool
  | .relReadNull | .relReadOwner | .relReadCount | .relWriteCount _ | .relTestCount
  | .relWriteOwner | .relWriteCsr => true
  | _ => false

section system

variable {Tid : Type}

section defs

variable [DecidableEq Tid]

/-- Record what a step of thread `t` did; `isRelease` says which call it was
    a step of. -/
def MutexSys.settle (s : MutexSys Tid) (t : Tid) (isRelease : Bool)
    (r : MutexState Tid × MutexCsrs × Outcome) : MutexSys Tid :=
  match r with
  | (m, csrs, .next p) =>
      { s with mutex := m, csrs := csrs, pc := Function.update s.pc t (some p) }
  | (m, csrs, .ret status) =>
      { mutex := m
        csrs := csrs
        pc := Function.update s.pc t none
        acquired :=
          if status = .osOK ∧ isRelease = false then
            Function.update s.acquired t (s.acquired t + 1) else s.acquired
        released :=
          if status = .osOK ∧ isRelease = true then
            Function.update s.released t (s.released t + 1) else s.released }

/-- One step of the system, when thread and program point allow it. -/
def mutexStep (s : MutexSys Tid) : MutexAction Tid → Option (MutexSys Tid)
  | .acquire t timeout =>
      if s.pc t = none then
        some (s.settle t false (s.mutex, s.csrs, startAcquire s.mutex timeout))
      else none
  | .release t =>
      if s.pc t = none then
        some (s.settle t true (s.mutex, s.csrs, startRelease s.mutex))
      else none
  | .run t now =>
      (s.pc t).map fun p => s.settle t p.inRelease (runStep t now s.mutex s.csrs p)

/-- All threads outside both calls, the mutex as `osMutexNew` leaves it in
    entry `mid` (the spin flag as `osMutexSetSpin` may have set it since). -/
def mutexInit (mid : Fin 8) (s : MutexSys Tid) : Prop :=
  (∃ attr spin, s.mutex = { osMutexNewEntry attr mid with ifSpin := spin }) ∧
  ((s.csrs mid).toNat : Int) = flexpretMutexActive ∧
  (∀ t, s.pc t = none) ∧ (∀ t, s.acquired t = 0) ∧ (∀ t, s.released t = 0)

/-- The interleavings of all threads on the mutex in entry `mid`. -/
def mutexSystem (Tid : Type) [DecidableEq Tid] (mid : Fin 8) :
    System (MutexSys Tid) (MutexAction Tid) :=
  System.ofStep (mutexInit mid) mutexStep

end defs

/-- How many times thread `t` holds the mutex. -/
def MutexSys.depth (s : MutexSys Tid) (t : Tid) : Nat := s.acquired t - s.released t

/-- Thread `t` is between a successful acquire and its matching final
    release. -/
def MutexSys.Holds (s : MutexSys Tid) (t : Tid) : Prop := s.released t < s.acquired t

/-- The least nesting depth a C `int` cannot count. -/
@[irreducible] def countLimit : Nat := 2 ^ 31

theorem countLimit_eq : countLimit = 2147483648 := by
  unfold countLimit
  rfl

/-- The condition on the calls: a thread does not ask for a mutex it already
    holds `2 ^ 31 - 1` times. -/
def NestsBelowIntMax (s : MutexSys Tid) (a : MutexAction Tid) : Prop :=
  match a with
  | .acquire t _ => s.depth t + 1 < countLimit
  | _ => True

/-- Mutual exclusion, and what the control block says about the holder. -/
structure MutexSafe (mid : Fin 8) (s : MutexSys Tid) : Prop where
  exclusive : ∀ t u, s.Holds t → s.Holds u → t = u
  free : ((s.csrs mid).toNat : Int) = flexpretMutexActive →
    s.mutex.owner = none ∧ s.mutex.count = 0
  held : ∀ t, s.Holds t → s.pc t = none →
    s.mutex.owner = some t ∧
    s.mutex.count.toInt = (s.acquired t : Int) - (s.released t : Int)
  noBadStatus : ∀ t, s.pc t ≠ some .acqBadStatus

/-! ## Section 2: The invariant -/

/-- Program points that leave `owner`, `count` and the CSR alone unless a swap
    wins.  A thread that does not hold the CSR is at one of these. -/
def outsidePc : Option Pc → Prop
  | none => True
  | some p =>
    match p with
    | .acqSwap _ | .acqReadOwner _ | .foreverSwap | .foreverDelay | .spinTime _
    | .spinSwap _ _ | .spinCheck _ _ | .timedDelay _ _ _ | .timedSwap _ _ _
    | .relReadNull | .relReadOwner => True
    | _ => False

/-- The control block of a mutex nobody owns. -/
structure Clear (m : MutexState Tid) : Prop where
  owner : m.owner = none
  count : m.count = 0

/-- The control block of a mutex thread `t` owns `d` times. -/
structure Held (m : MutexState Tid) (t : Tid) (d : Nat) : Prop where
  owner : m.owner = some t
  count : m.count = BitVec.ofNat 32 d
  pos : 0 < d
  lt : d < countLimit

/-- What the control block holds while thread `t`, which holds the CSR and has
    nesting depth `d`, stands at a program point. -/
def holderInv (m : MutexState Tid) (t : Tid) (d : Nat) : Option Pc → Prop
  | none => Held m t d
  | some p =>
    match p with
    | .acqCheckOwner | .acqWriteOwner => Clear m ∧ d = 0
    | .acqBadStatus => False
    | .acqWriteCount => m.owner = some t ∧ m.count = 0 ∧ d = 0
    | .recWriteCount c => (Held m t d ∧ d + 1 < countLimit) ∧ c = BitVec.ofNat 32 d
    | .relReadNull | .relReadOwner | .relReadCount => Held m t d
    | .relWriteCount c => Held m t d ∧ c = BitVec.ofNat 32 d
    | .relTestCount =>
        m.owner = some t ∧ m.count = BitVec.ofNat 32 (d - 1) ∧ 0 < d ∧ d < countLimit
    | .relWriteOwner => m.owner = some t ∧ m.count = 0 ∧ d = 1
    | .relWriteCsr => Clear m ∧ d = 1
    | _ => Held m t d ∧ d + 1 < countLimit

/-- The mutex fields no acquire or release writes. -/
structure MutexShape (mid : Fin 8) (m : MutexState Tid) : Prop where
  csrAddr : m.csrAddr = mid.val
  active : m.active = true

/-- A thread that has no part of the mutex. -/
structure MutexSys.Apart (s : MutexSys Tid) (u : Tid) : Prop where
  depth : s.depth u = 0
  outside : outsidePc (s.pc u)

/-- **The invariant**: nobody holds the CSR and the control block is clear, or
    one thread holds it and every other thread is apart. -/
structure MutexInv (mid : Fin 8) (s : MutexSys Tid) : Prop where
  shape : MutexShape mid s.mutex
  released_le : ∀ t, s.released t ≤ s.acquired t
  holder :
    (s.csrs mid = 0 ∧ Clear s.mutex ∧ ∀ u, s.Apart u) ∨
    (∃ t, s.csrs mid = 1 ∧ holderInv s.mutex t (s.depth t) (s.pc t) ∧
      ∀ u, u ≠ t → s.mutex.owner ≠ some u ∧ s.Apart u)

/-! ## Section 3: What one atomic step can do -/

/-- The program point after a step. -/
def Outcome.pc : Outcome → Option Pc
  | .next p => some p
  | .ret _ => none

@[simp] theorem Outcome.pc_next (p : Pc) : (Outcome.next p).pc = some p := rfl
@[simp] theorem Outcome.pc_ret (status : OsStatus) : (Outcome.ret status).pc = none := rfl

/-- The nesting depth after a step of a thread with depth `d`. -/
def Outcome.depth (d : Nat) (isRelease : Bool) : Outcome → Nat
  | .ret .osOK => if isRelease then d - 1 else d + 1
  | _ => d

/-- The step leaves its thread outside the mutex. -/
def Outcome.Outside : Outcome → Prop
  | .next p => outsidePc (some p)
  | .ret .osOK => False
  | .ret _ => True

/-- A swap on a taken mutex changes nothing and loses. -/
theorem trySwap_taken {mid : Fin 8} {m : MutexState Tid} {csrs : MutexCsrs}
    (hm : MutexShape mid m) (hcsr : csrs mid = 1) (won lost : Outcome) :
    trySwap m csrs won lost = (m, csrs, lost) := by
  simp [trySwap, hm.csrAddr, hcsr, flexpretMutexActive, flexpretMutexInactive]

/-- A swap on a free mutex takes it and wins. -/
theorem trySwap_free {mid : Fin 8} {m : MutexState Tid} {csrs : MutexCsrs}
    (hm : MutexShape mid m) (hcsr : csrs mid = 0) (won lost : Outcome) :
    trySwap m csrs won lost = (m, Function.update csrs mid 1, won) := by
  simp [trySwap, hm.csrAddr, hcsr, flexpretMutexActive, flexpretMutexInactive]

/-- The wait path never enters the critical part of the call. -/
theorem waitPath_outside (m : MutexState Tid) (timeout : BitVec 32) :
    (waitPath m timeout).Outside := by
  unfold waitPath
  split
  · trivial
  · split
    · trivial
    · split <;> trivial

/-- The wait path of a thread that already holds the mutex keeps it waiting
    or gives up; either way nothing changes hands. -/
theorem waitPath_holder {m : MutexState Tid} {t : Tid} {d : Nat}
    (h : Held m t d ∧ d + 1 < countLimit) (timeout : BitVec 32) :
    holderInv m t ((waitPath m timeout).depth d false) (waitPath m timeout).pc := by
  unfold waitPath
  split
  · exact h.1
  · split
    · exact h
    · split <;> exact h

/-- The holder is not apart: where its program point is one of those outside,
    its nesting depth is positive. -/
theorem holderInv_not_apart {s : MutexSys Tid} {m : MutexState Tid} {t : Tid}
    (h : holderInv m t (s.depth t) (s.pc t)) : ¬ s.Apart t := by
  rintro ⟨hdepth, hout⟩
  rw [hdepth] at h
  cases hpc : s.pc t with
  | none =>
    rw [hpc] at h
    exact absurd h.pos (Nat.lt_irrefl 0)
  | some p =>
    rw [hpc] at h hout
    cases p with
    | relReadNull | relReadOwner => exact absurd (Held.pos h) (Nat.lt_irrefl 0)
    | acqSwap | acqReadOwner | foreverSwap | foreverDelay | spinTime | spinSwap | spinCheck
    | timedDelay | timedSwap => exact absurd h.1.pos (Nat.lt_irrefl 0)
    | _ => exact hout

/-- The owner, where a holder's program point fixes it, is the holder. -/
theorem holderInv_owner {m : MutexState Tid} {t u : Tid} {d : Nat} {pc : Option Pc}
    (h : holderInv m t d pc) (hu : u ≠ t) : m.owner ≠ some u := by
  have hheld : ∀ {d}, Held m t d → m.owner ≠ some u := fun h' => by
    rw [h'.owner]
    exact fun heq => hu (Option.some.inj heq).symm
  have hclear : Clear m → m.owner ≠ some u := fun h' => by
    rw [h'.owner]
    nofun
  cases pc with
  | none => exact hheld h
  | some p =>
    cases p with
    | acqBadStatus => exact h.elim
    | acqCheckOwner | acqWriteOwner | relWriteCsr => exact hclear h.1
    | relReadNull | relReadOwner | relReadCount => exact hheld h
    | acqWriteCount | relTestCount | relWriteOwner =>
      rw [h.1]
      exact fun heq => hu (Option.some.inj heq).symm
    | recWriteCount c => exact hheld h.1.1
    | _ => exact hheld h.1

theorem MutexSys.Holds.depth_pos {s : MutexSys Tid} {t : Tid} (h : s.Holds t) :
    0 < s.depth t :=
  Nat.sub_pos_of_lt h

/-- A count below the limit reads back as the `int` it stands for. -/
theorem toInt_ofNat_of_lt {d : Nat} (h : d < countLimit) : (BitVec.ofNat 32 d).toInt = d := by
  rw [countLimit_eq] at h
  rw [BitVec.toInt_eq_toNat_of_lt]
  · rw [BitVec.toNat_ofNat]
    omega
  · rw [BitVec.toNat_ofNat]
    omega

section steps

variable [DecidableEq Tid]

/-- A thread outside a taken mutex changes nothing and stays outside. -/
theorem runStep_outside_taken {mid : Fin 8} {m : MutexState Tid} {csrs : MutexCsrs}
    {u : Tid} {p : Pc} (hm : MutexShape mid m) (hcsr : csrs mid = 1)
    (hown : m.owner ≠ some u) (hp : outsidePc (some p)) (now : BitVec 32) :
    ∃ o, runStep u now m csrs p = (m, csrs, o) ∧ o.Outside := by
  cases p with
  | acqSwap timeout => exact ⟨_, trySwap_taken hm hcsr _ _, trivial⟩
  | acqReadOwner timeout =>
    refine ⟨waitPath m timeout, ?_, waitPath_outside m timeout⟩
    simp [runStep, hown]
  | foreverSwap =>
    refine ⟨_, trySwap_taken hm hcsr _ _, ?_⟩
    split <;> trivial
  | foreverDelay => exact ⟨_, rfl, trivial⟩
  | spinTime timeout => exact ⟨_, rfl, trivial⟩
  | spinSwap timeout ctime => exact ⟨_, trySwap_taken hm hcsr _ _, trivial⟩
  | spinCheck timeout ctime =>
    refine ⟨_, rfl, ?_⟩
    split <;> trivial
  | timedDelay timeout timePeriod allTime => exact ⟨_, rfl, trivial⟩
  | timedSwap timeout timePeriod allTime =>
    refine ⟨_, trySwap_taken hm hcsr _ _, ?_⟩
    split <;> trivial
  | relReadNull =>
    refine ⟨_, rfl, ?_⟩
    split <;> trivial
  | relReadOwner =>
    refine ⟨.ret .osErrorResource, ?_, trivial⟩
    simp [runStep, hown]
  | _ => exact hp.elim

/-- A thread outside a free mutex changes nothing and stays outside, or its
    swap takes the CSR. -/
theorem runStep_outside_free {mid : Fin 8} {m : MutexState Tid} {csrs : MutexCsrs}
    {u : Tid} {p : Pc} (hm : MutexShape mid m) (hcsr : csrs mid = 0)
    (hclear : Clear m) (hp : outsidePc (some p)) (now : BitVec 32) :
    (∃ o, runStep u now m csrs p = (m, csrs, o) ∧ o.Outside) ∨
    (∃ p', runStep u now m csrs p = (m, Function.update csrs mid 1, .next p') ∧
      holderInv m u 0 (some p')) := by
  have hown := hclear.owner
  cases p with
  | acqSwap timeout => exact .inr ⟨_, trySwap_free hm hcsr _ _, hclear, rfl⟩
  | acqReadOwner timeout =>
    refine .inl ⟨waitPath m timeout, ?_, waitPath_outside m timeout⟩
    simp [runStep, hown]
  | foreverSwap => exact .inr ⟨_, trySwap_free hm hcsr _ _, hclear, rfl⟩
  | foreverDelay => exact .inl ⟨_, rfl, trivial⟩
  | spinTime timeout => exact .inl ⟨_, rfl, trivial⟩
  | spinSwap timeout ctime => exact .inr ⟨_, trySwap_free hm hcsr _ _, hclear, rfl⟩
  | spinCheck timeout ctime =>
    refine .inl ⟨_, rfl, ?_⟩
    split <;> trivial
  | timedDelay timeout timePeriod allTime => exact .inl ⟨_, rfl, trivial⟩
  | timedSwap timeout timePeriod allTime =>
    exact .inr ⟨_, trySwap_free hm hcsr _ _, hclear, rfl⟩
  | relReadNull =>
    refine .inl ⟨.ret .osErrorResource, ?_, trivial⟩
    simp [runStep, hown]
  | relReadOwner =>
    refine .inl ⟨.ret .osErrorResource, ?_, trivial⟩
    simp [runStep, hown]
  | _ => exact hp.elim

/-- What a step of the holder leaves behind: it still holds the CSR, or this
    was the last step of its final release. -/
structure HolderStep (mid : Fin 8) (csrs : MutexCsrs) (t : Tid) (d : Nat) (isRelease : Bool)
    (r : MutexState Tid × MutexCsrs × Outcome) : Prop where
  shape : MutexShape mid r.1
  pos : r.2.2 = .ret .osOK → isRelease = true → 0 < d
  result :
    (r.2.1 = csrs ∧ holderInv r.1 t (r.2.2.depth d isRelease) r.2.2.pc) ∨
    (r.2.1 mid = 0 ∧ Clear r.1 ∧ r.2.2.pc = none ∧ r.2.2.depth d isRelease = 0)

/-- The final decrement reaches zero exactly at depth one. -/
theorem count_pred_eq_zero_iff {d : Nat} (hpos : 0 < d) (hlt : d < countLimit) :
    BitVec.ofNat 32 (d - 1) = 0 ↔ d = 1 := by
  rw [countLimit_eq] at hlt
  constructor
  · intro h
    have h' := congrArg BitVec.toNat h
    simp only [BitVec.toNat_ofNat, BitVec.ofNat_eq_ofNat] at h'
    omega
  · rintro rfl
    rfl

/-- The holder's steps keep its invariant. -/
theorem runStep_holder {mid : Fin 8} {m : MutexState Tid} {csrs : MutexCsrs} {t : Tid}
    {d : Nat} {p : Pc} (hm : MutexShape mid m) (hcsr : csrs mid = 1)
    (hp : holderInv m t d (some p)) (now : BitVec 32) :
    HolderStep mid csrs t d p.inRelease (runStep t now m csrs p) := by
  cases p with
  | acqSwap timeout =>
    rw [runStep, trySwap_taken hm hcsr]
    exact ⟨hm, nofun, .inl ⟨rfl, hp⟩⟩
  | acqCheckOwner =>
    obtain ⟨hclear, hd⟩ := hp
    refine ⟨hm, nofun, .inl ⟨rfl, ?_⟩⟩
    simp only [runStep, hclear.owner, if_true]
    exact ⟨hclear, hd⟩
  | acqBadStatus => exact hp.elim
  | acqWriteOwner =>
    obtain ⟨hclear, hd⟩ := hp
    exact ⟨⟨hm.csrAddr, hm.active⟩, nofun, .inl ⟨rfl, rfl, hclear.count, hd⟩⟩
  | acqWriteCount =>
    obtain ⟨hown, _, hd⟩ := hp
    subst hd
    have hheld : Held { m with count := 1 } t 1 :=
      ⟨hown, rfl, Nat.one_pos, by rw [countLimit_eq]; omega⟩
    exact ⟨⟨hm.csrAddr, hm.active⟩, nofun, .inl ⟨rfl, hheld⟩⟩
  | acqReadOwner timeout =>
    refine ⟨hm, nofun, .inl ⟨rfl, ?_⟩⟩
    by_cases hrec : m.owner = some t ∧ m.ifRecursive = true
    · simp only [runStep, if_pos hrec]
      exact hp
    · simp only [runStep, if_neg hrec]
      exact waitPath_holder hp timeout
  | recReadCount => exact ⟨hm, nofun, .inl ⟨rfl, hp, hp.1.count⟩⟩
  | recWriteCount c =>
    obtain ⟨⟨hheld, hlt⟩, hc⟩ := hp
    have hcount : c + 1 = BitVec.ofNat 32 (d + 1) := by
      rw [hc, BitVec.ofNat_add]
      rfl
    have hheld' : Held { m with count := c + 1 } t (d + 1) :=
      ⟨hheld.owner, hcount, Nat.succ_pos d, hlt⟩
    exact ⟨⟨hm.csrAddr, hm.active⟩, nofun, .inl ⟨rfl, hheld'⟩⟩
  | foreverSwap =>
    rw [runStep, trySwap_taken hm hcsr]
    refine ⟨hm, nofun, .inl ⟨rfl, ?_⟩⟩
    cases m.ifSpin <;> exact hp
  | foreverDelay => exact ⟨hm, nofun, .inl ⟨rfl, hp⟩⟩
  | spinTime timeout => exact ⟨hm, nofun, .inl ⟨rfl, hp⟩⟩
  | spinSwap timeout ctime =>
    rw [runStep, trySwap_taken hm hcsr]
    exact ⟨hm, nofun, .inl ⟨rfl, hp⟩⟩
  | spinCheck timeout ctime =>
    refine ⟨hm, nofun, .inl ⟨rfl, ?_⟩⟩
    by_cases hnow : now < timeout + ctime
    · simp only [runStep, if_pos hnow]
      exact hp
    · simp only [runStep, if_neg hnow]
      exact hp.1
  | timedDelay timeout timePeriod allTime => exact ⟨hm, nofun, .inl ⟨rfl, hp⟩⟩
  | timedSwap timeout timePeriod allTime =>
    rw [runStep, trySwap_taken hm hcsr]
    refine ⟨hm, nofun, .inl ⟨rfl, ?_⟩⟩
    by_cases hmore : allTime + timePeriod < timeout
    · simp only [if_pos hmore]
      exact hp
    · simp only [if_neg hmore]
      exact hp.1
  | relReadNull =>
    have hown : m.owner ≠ none := by rw [Held.owner hp]; nofun
    simp only [runStep, if_neg hown]
    exact ⟨hm, nofun, .inl ⟨rfl, hp⟩⟩
  | relReadOwner =>
    have hown : ¬ m.owner ≠ some t := not_not_intro (Held.owner hp)
    simp only [runStep, if_neg hown]
    exact ⟨hm, nofun, .inl ⟨rfl, hp⟩⟩
  | relReadCount => exact ⟨hm, nofun, .inl ⟨rfl, hp, Held.count hp⟩⟩
  | relWriteCount c =>
    obtain ⟨hheld, hc⟩ := hp
    have hcount : c - 1 = BitVec.ofNat 32 (d - 1) := by
      obtain ⟨e, rfl⟩ : ∃ e, d = e + 1 := ⟨d - 1, by have := hheld.pos; omega⟩
      rw [hc, BitVec.ofNat_add]
      exact BitVec.add_sub_cancel _ _
    exact ⟨⟨hm.csrAddr, hm.active⟩, nofun,
      .inl ⟨rfl, hheld.owner, hcount, hheld.pos, hheld.lt⟩⟩
  | relTestCount =>
    obtain ⟨hown, hcount, hpos, hlt⟩ := hp
    by_cases hz : m.count = 0
    · have hd : d = 1 := (count_pred_eq_zero_iff hpos hlt).mp (by rw [← hcount, hz])
      simp only [runStep, if_pos hz]
      exact ⟨hm, nofun, .inl ⟨rfl, hown, hz, hd⟩⟩
    · have hd : d ≠ 1 := fun h => hz (by rw [hcount, h]; rfl)
      simp only [runStep, if_neg hz]
      have hheld : Held m t (d - 1) := ⟨hown, hcount, by omega, by omega⟩
      exact ⟨hm, fun _ _ => hpos, .inl ⟨rfl, hheld⟩⟩
  | relWriteOwner =>
    obtain ⟨_, hcount, hd⟩ := hp
    exact ⟨⟨hm.csrAddr, hm.active⟩, nofun, .inl ⟨rfl, ⟨rfl, hcount⟩, hd⟩⟩
  | relWriteCsr =>
    obtain ⟨hclear, hd⟩ := hp
    subst hd
    refine ⟨hm, fun _ _ => Nat.one_pos, .inr ⟨?_, hclear, rfl, rfl⟩⟩
    simp [runStep, hm.csrAddr, flexpretMutexActive]

/-! ## Section 4: The invariant is inductive -/

@[simp] theorem settle_mutex (s : MutexSys Tid) (t : Tid) (isRelease : Bool)
    (r : MutexState Tid × MutexCsrs × Outcome) : (s.settle t isRelease r).mutex = r.1 := by
  obtain ⟨m, csrs, o⟩ := r
  cases o <;> rfl

@[simp] theorem settle_csrs (s : MutexSys Tid) (t : Tid) (isRelease : Bool)
    (r : MutexState Tid × MutexCsrs × Outcome) : (s.settle t isRelease r).csrs = r.2.1 := by
  obtain ⟨m, csrs, o⟩ := r
  cases o <;> rfl

@[simp] theorem settle_pc_self (s : MutexSys Tid) (t : Tid) (isRelease : Bool)
    (r : MutexState Tid × MutexCsrs × Outcome) :
    (s.settle t isRelease r).pc t = r.2.2.pc := by
  obtain ⟨m, csrs, o⟩ := r
  cases o <;> simp [MutexSys.settle]

theorem settle_pc_ne {s : MutexSys Tid} {t u : Tid} (hne : u ≠ t) (isRelease : Bool)
    (r : MutexState Tid × MutexCsrs × Outcome) : (s.settle t isRelease r).pc u = s.pc u := by
  obtain ⟨m, csrs, o⟩ := r
  cases o <;> simp [MutexSys.settle, hne]

theorem settle_depth_ne {s : MutexSys Tid} {t u : Tid} (hne : u ≠ t) (isRelease : Bool)
    (r : MutexState Tid × MutexCsrs × Outcome) :
    (s.settle t isRelease r).depth u = s.depth u := by
  obtain ⟨m, csrs, o⟩ := r
  cases o with
  | next p => rfl
  | ret status =>
    cases isRelease <;> cases status <;> simp [MutexSys.settle, MutexSys.depth, hne]

theorem settle_apart_ne {s : MutexSys Tid} {t u : Tid} (hne : u ≠ t) (isRelease : Bool)
    (r : MutexState Tid × MutexCsrs × Outcome) (h : s.Apart u) :
    (s.settle t isRelease r).Apart u := by
  refine ⟨?_, ?_⟩
  · rw [settle_depth_ne hne]
    exact h.depth
  · rw [settle_pc_ne hne]
    exact h.outside

theorem settle_depth_self {s : MutexSys Tid} {t : Tid} (hle : s.released t ≤ s.acquired t)
    (isRelease : Bool) (r : MutexState Tid × MutexCsrs × Outcome) :
    (s.settle t isRelease r).depth t = r.2.2.depth (s.depth t) isRelease := by
  obtain ⟨m, csrs, o⟩ := r
  cases o with
  | next p => rfl
  | ret status =>
    cases isRelease <;> cases status <;>
      simp [MutexSys.settle, MutexSys.depth, Outcome.depth] <;> omega

theorem settle_released_le {s : MutexSys Tid} (hle : ∀ u, s.released u ≤ s.acquired u)
    (t : Tid) (isRelease : Bool) (r : MutexState Tid × MutexCsrs × Outcome)
    (hpos : r.2.2 = .ret .osOK → isRelease = true → 0 < s.depth t) (u : Tid) :
    (s.settle t isRelease r).released u ≤ (s.settle t isRelease r).acquired u := by
  obtain ⟨m, csrs, o⟩ := r
  have hu := hle u
  cases o with
  | next p => exact hu
  | ret status =>
    by_cases hut : u = t
    · subst hut
      cases isRelease with
      | false => cases status <;> simp [MutexSys.settle] <;> omega
      | true =>
        cases status with
        | osOK =>
          have hlt := hpos rfl rfl
          simp only [MutexSys.depth] at hlt
          simp [MutexSys.settle]
          omega
        | _ => simpa [MutexSys.settle] using hu
    · cases isRelease <;> cases status <;> simpa [MutexSys.settle, hut] using hu

/-- A step that stays outside changes no nesting depth. -/
theorem Outcome.Outside.depth_eq {o : Outcome} (h : o.Outside) (d : Nat) (isRelease : Bool) :
    o.depth d isRelease = d := by
  cases o with
  | next p => rfl
  | ret status =>
    cases status with
    | osOK => exact h.elim
    | _ => rfl

theorem Outcome.Outside.pc_outside {o : Outcome} (h : o.Outside) : outsidePc o.pc := by
  cases o with
  | next p => exact h
  | ret status => trivial

theorem Outcome.Outside.ne_ret_osOK {o : Outcome} (h : o.Outside) : o ≠ .ret .osOK := by
  rintro rfl
  exact h

/-- A step of a thread apart from the mutex that changes nothing keeps the
    invariant. -/
theorem mutexInv_settle_outside {mid : Fin 8} {s : MutexSys Tid} {t : Tid} {o : Outcome}
    (hinv : MutexInv mid s) (hapart : s.Apart t) (ho : o.Outside) (isRelease : Bool) :
    MutexInv mid (s.settle t isRelease (s.mutex, s.csrs, o)) := by
  have hself : (s.settle t isRelease (s.mutex, s.csrs, o)).Apart t := by
    refine ⟨?_, ?_⟩
    · rw [settle_depth_self (hinv.released_le t), ho.depth_eq, hapart.depth]
    · rw [settle_pc_self]
      exact ho.pc_outside
  have hall : ∀ u, s.Apart u → (s.settle t isRelease (s.mutex, s.csrs, o)).Apart u := by
    intro u hu
    by_cases hut : u = t
    · exact hut ▸ hself
    · exact settle_apart_ne hut _ _ hu
  refine ⟨by simpa using hinv.shape,
    settle_released_le hinv.released_le _ _ _ (fun h => absurd h ho.ne_ret_osOK), ?_⟩
  obtain ⟨hfree, hclear, hothers⟩ | ⟨h, hcsr, hheld, hothers⟩ := hinv.holder
  · exact .inl ⟨by simpa using hfree, by simpa using hclear, fun u => hall u (hothers u)⟩
  · have hht : h ≠ t := by
      rintro rfl
      exact holderInv_not_apart hheld hapart
    refine .inr ⟨h, by simpa using hcsr, ?_, fun u hu => ?_⟩
    · rw [settle_mutex, settle_depth_ne hht, settle_pc_ne hht]
      exact hheld
    · exact ⟨by simpa using (hothers u hu).1, hall u (hothers u hu).2⟩

/-- A swap that takes the free mutex keeps the invariant. -/
theorem mutexInv_settle_take {mid : Fin 8} {s : MutexSys Tid} {t : Tid} {p : Pc}
    (hinv : MutexInv mid s) (hclear : Clear s.mutex) (hapart : ∀ u, s.Apart u)
    (hp : holderInv s.mutex t 0 (some p)) (isRelease : Bool) :
    MutexInv mid
      (s.settle t isRelease (s.mutex, Function.update s.csrs mid 1, .next p)) := by
  refine ⟨by simpa using hinv.shape,
    settle_released_le hinv.released_le _ _ _ nofun, .inr ⟨t, by simp, ?_, fun u hu => ?_⟩⟩
  · rw [settle_mutex, settle_depth_self (hinv.released_le t), settle_pc_self,
      (hapart t).depth]
    exact hp
  · exact ⟨by simp [hclear.owner], settle_apart_ne hu _ _ (hapart u)⟩

/-- A step of the holder keeps the invariant. -/
theorem mutexInv_settle_holder {mid : Fin 8} {s : MutexSys Tid} {t : Tid} {isRelease : Bool}
    {r : MutexState Tid × MutexCsrs × Outcome}
    (hinv : MutexInv mid s) (hcsr : s.csrs mid = 1) (hothers : ∀ u, u ≠ t → s.Apart u)
    (hr : HolderStep mid s.csrs t (s.depth t) isRelease r) :
    MutexInv mid (s.settle t isRelease r) := by
  refine ⟨by simpa using hr.shape, settle_released_le hinv.released_le _ _ _ hr.pos, ?_⟩
  obtain ⟨hsame, hheld⟩ | ⟨hfree, hclear, hpc, hdepth⟩ := hr.result
  · refine .inr ⟨t, by simpa [hsame] using hcsr, ?_, fun u hu => ?_⟩
    · rw [settle_mutex, settle_depth_self (hinv.released_le t), settle_pc_self]
      exact hheld
    · refine ⟨?_, settle_apart_ne hu _ _ (hothers u hu)⟩
      rw [settle_mutex]
      exact holderInv_owner hheld hu
  · refine .inl ⟨by simpa using hfree, by simpa using hclear, fun u => ?_⟩
    by_cases hut : u = t
    · subst hut
      refine ⟨?_, ?_⟩
      · rw [settle_depth_self (hinv.released_le u), hdepth]
      · rw [settle_pc_self, hpc]
        trivial
    · exact settle_apart_ne hut _ _ (hothers u hut)

/-! ### Initial -/

omit [DecidableEq Tid] in
theorem mutexInv_initial {mid : Fin 8} {s : MutexSys Tid} (h : mutexInit mid s) :
    MutexInv mid s := by
  obtain ⟨⟨attr, spin, hm⟩, hcsr, hpc, hacq, hrel⟩ := h
  refine ⟨⟨by rw [hm]; rfl, by rw [hm]; rfl⟩,
    fun t => Nat.le_trans (Nat.le_of_eq (hrel t)) (Nat.zero_le _), .inl ⟨?_, ?_, ?_⟩⟩
  · rw [flexpretMutexActive] at hcsr
    have htoNat : (s.csrs mid).toNat = 0 := by omega
    exact BitVec.eq_of_toNat_eq htoNat
  · rw [hm]
    exact ⟨rfl, rfl⟩
  · intro u
    refine ⟨by simp [MutexSys.depth, hacq, hrel], ?_⟩
    rw [hpc]
    trivial

/-! ### Preserved -/

theorem mutexInv_acquire {mid : Fin 8} {s : MutexSys Tid} (hinv : MutexInv mid s) {t : Tid}
    (hpc : s.pc t = none) (hnest : s.depth t + 1 < countLimit) (timeout : BitVec 32) :
    MutexInv mid (s.settle t false (s.mutex, s.csrs, startAcquire s.mutex timeout)) := by
  have hstart : startAcquire s.mutex timeout = .next (.acqSwap timeout) := by
    simp [startAcquire, hinv.shape.active]
  have hout : (Outcome.next (.acqSwap timeout)).Outside := trivial
  rw [hstart]
  obtain ⟨_, _, hothers⟩ | ⟨h, hcsr, hheld, hothers⟩ := hinv.holder
  · exact mutexInv_settle_outside hinv (hothers t) hout _
  · by_cases hht : t = h
    · subst hht
      rw [hpc] at hheld
      exact mutexInv_settle_holder hinv hcsr (fun u hu => (hothers u hu).2)
        ⟨hinv.shape, nofun, .inl ⟨rfl, hheld, hnest⟩⟩
    · exact mutexInv_settle_outside hinv (hothers t hht).2 hout _

theorem mutexInv_release {mid : Fin 8} {s : MutexSys Tid} (hinv : MutexInv mid s) {t : Tid}
    (hpc : s.pc t = none) :
    MutexInv mid (s.settle t true (s.mutex, s.csrs, startRelease s.mutex)) := by
  have hstart : startRelease s.mutex = .next .relReadNull := by
    simp [startRelease, hinv.shape.active]
  have hout : (Outcome.next .relReadNull).Outside := trivial
  rw [hstart]
  obtain ⟨_, _, hothers⟩ | ⟨h, hcsr, hheld, hothers⟩ := hinv.holder
  · exact mutexInv_settle_outside hinv (hothers t) hout _
  · by_cases hht : t = h
    · subst hht
      rw [hpc] at hheld
      exact mutexInv_settle_holder hinv hcsr (fun u hu => (hothers u hu).2)
        ⟨hinv.shape, nofun, .inl ⟨rfl, hheld⟩⟩
    · exact mutexInv_settle_outside hinv (hothers t hht).2 hout _

theorem mutexInv_run {mid : Fin 8} {s : MutexSys Tid} (hinv : MutexInv mid s) {t : Tid}
    {p : Pc} (hpc : s.pc t = some p) (now : BitVec 32) :
    MutexInv mid (s.settle t p.inRelease (runStep t now s.mutex s.csrs p)) := by
  obtain ⟨hfree, hclear, hothers⟩ | ⟨h, hcsr, hheld, hothers⟩ := hinv.holder
  · have hout := (hothers t).outside
    rw [hpc] at hout
    obtain ⟨o, ho, hoOut⟩ | ⟨p', hp', hinv'⟩ :=
      runStep_outside_free hinv.shape hfree hclear hout now (u := t)
    · rw [ho]
      exact mutexInv_settle_outside hinv (hothers t) hoOut _
    · rw [hp']
      exact mutexInv_settle_take hinv hclear hothers hinv' _
  · by_cases hht : t = h
    · subst hht
      rw [hpc] at hheld
      exact mutexInv_settle_holder hinv hcsr (fun u hu => (hothers u hu).2)
        (runStep_holder hinv.shape hcsr hheld now)
    · obtain ⟨hown, hapart⟩ := hothers t hht
      have hout := hapart.outside
      rw [hpc] at hout
      obtain ⟨o, ho, hoOut⟩ := runStep_outside_taken hinv.shape hcsr hown hout now
      rw [ho]
      exact mutexInv_settle_outside hinv hapart hoOut _

theorem mutexInv_preserved {mid : Fin 8} {s s' : MutexSys Tid} {a : MutexAction Tid}
    (hinv : MutexInv mid s) (hnest : NestsBelowIntMax s a) (hstep : mutexStep s a = some s') :
    MutexInv mid s' := by
  cases a with
  | acquire t timeout =>
    obtain ⟨hpc, ⟨⟩⟩ := Option.ite_none_right_eq_some.mp hstep
    exact mutexInv_acquire hinv hpc hnest timeout
  | release t =>
    obtain ⟨hpc, ⟨⟩⟩ := Option.ite_none_right_eq_some.mp hstep
    exact mutexInv_release hinv hpc
  | run t now =>
    obtain ⟨p, hpc, rfl⟩ := Option.map_eq_some_iff.mp hstep
    exact mutexInv_run hinv hpc now

theorem mutexInv_reachable {mid : Fin 8} {s : MutexSys Tid}
    (h : ((mutexSystem Tid mid).restrict NestsBelowIntMax).Reachable s) : MutexInv mid s :=
  h.invariant (MutexInv mid) (fun _ => mutexInv_initial)
    (fun _ _ _ _ hinv hstep => mutexInv_preserved hinv hstep.1 hstep.2)

/-! ## Section 5: Mutual exclusion -/

/-- The invariant implies mutual exclusion and a truthful control block. -/
theorem mutexInv_safe {mid : Fin 8} {s : MutexSys Tid} (hinv : MutexInv mid s) :
    MutexSafe mid s := by
  obtain ⟨hfree, hclear, hothers⟩ | ⟨h, hcsr, hheld, hothers⟩ := hinv.holder
  · have hnobody : ∀ t, ¬ s.Holds t := fun t ht =>
      absurd (hothers t).depth (Nat.pos_iff_ne_zero.mp ht.depth_pos)
    refine ⟨fun t _ ht => absurd ht (hnobody t), fun _ => ⟨hclear.owner, hclear.count⟩,
      fun t ht => absurd ht (hnobody t), fun t hpc => ?_⟩
    have hout := (hothers t).outside
    rw [hpc] at hout
    exact hout
  · have hholder : ∀ t, s.Holds t → t = h := fun t ht => by
      by_contra hne
      exact absurd (hothers t hne).2.depth (Nat.pos_iff_ne_zero.mp ht.depth_pos)
    refine ⟨fun t u ht hu => (hholder t ht).trans (hholder u hu).symm, ?_, ?_, ?_⟩
    · intro hcsr0
      simp [hcsr, flexpretMutexActive] at hcsr0
    · intro t ht hpc
      obtain rfl := hholder t ht
      rw [hpc] at hheld
      refine ⟨hheld.owner, ?_⟩
      rw [hheld.count, toInt_ofNat_of_lt hheld.lt]
      exact Int.ofNat_sub (hinv.released_le t)
    · intro t hpc
      by_cases hht : t = h
      · subst hht
        rw [hpc] at hheld
        exact hheld
      · have hout := (hothers t hht).2.outside
        rw [hpc] at hout
        exact hout

/-! ## Section 6: One thread acquiring again and again -/

/-- The calls and steps of one acquire, with timeout zero, of a thread that
    nobody disturbs. -/
def acquireAlone (t : Tid) : List (MutexAction Tid) :=
  [.acquire t 0, .run t 0, .run t 0, .run t 0, .run t 0]

/-- Nobody has called anything yet, and the mutex in entry 0 is recursive. -/
def mutexFresh : MutexSys Tid where
  mutex := osMutexNewEntry ⟨true, false⟩ 0
  csrs := fun _ => 0
  pc := fun _ => none
  acquired := fun _ => 0
  released := fun _ => 0

omit [DecidableEq Tid] in
theorem mutexFresh_initial : mutexInit 0 (mutexFresh : MutexSys Tid) :=
  ⟨⟨⟨true, false⟩, false, rfl⟩, rfl, fun _ => rfl, fun _ => rfl, fun _ => rfl⟩

/-- Thread `t` has taken the recursive mutex `n` times and given it back
    never. -/
structure NestedTimes (t : Tid) (n : Nat) (s : MutexSys Tid) : Prop where
  shape : MutexShape 0 s.mutex
  recursive : s.mutex.ifRecursive = true
  owner : s.mutex.owner = some t
  count : s.mutex.count = BitVec.ofNat 32 n
  csr : s.csrs 0 = 1
  pc : s.pc t = none
  acquired : s.acquired t = n
  released : s.released t = 0

/-- State `s` but for thread `t`, which stands at program point `p`. -/
def MutexSys.atPc (s : MutexSys Tid) (t : Tid) (p : Pc) : MutexSys Tid :=
  { s with pc := Function.update s.pc t (some p) }

theorem mutexStep_acquire {s : MutexSys Tid} {t : Tid} (hpc : s.pc t = none)
    (hactive : s.mutex.active = true) (timeout : BitVec 32) :
    mutexStep s (.acquire t timeout) = some (s.atPc t (.acqSwap timeout)) := by
  simp [mutexStep, hpc, startAcquire, hactive, MutexSys.settle, MutexSys.atPc]

theorem mutexStep_run_next {s : MutexSys Tid} {t : Tid} {p p' : Pc} {m : MutexState Tid}
    {csrs : MutexCsrs} {now : BitVec 32}
    (h : runStep t now s.mutex s.csrs p = (m, csrs, .next p')) :
    mutexStep (s.atPc t p) (.run t now) =
      some ({ s with mutex := m, csrs := csrs }.atPc t p') := by
  simp [mutexStep, MutexSys.atPc, h, MutexSys.settle]

theorem mutexStep_run_osOK {s : MutexSys Tid} {t : Tid} {p : Pc} {m : MutexState Tid}
    {csrs : MutexCsrs} {now : BitVec 32} (hp : p.inRelease = false)
    (h : runStep t now s.mutex s.csrs p = (m, csrs, .ret .osOK)) :
    mutexStep (s.atPc t p) (.run t now) = some
      { s with
        mutex := m
        csrs := csrs
        pc := Function.update s.pc t none
        acquired := Function.update s.acquired t (s.acquired t + 1) } := by
  simp [mutexStep, MutexSys.atPc, h, hp, MutexSys.settle]

/-- The first acquire takes the free mutex. -/
theorem nestedTimes_once (t : Tid) :
    ∃ s, System.execute mutexStep mutexFresh (acquireAlone t) = some s ∧
      NestedTimes t 1 s := by
  unfold acquireAlone
  rw [System.execute_cons (mutexStep_acquire rfl rfl 0),
    System.execute_cons (mutexStep_run_next rfl), System.execute_cons (mutexStep_run_next rfl),
    System.execute_cons (mutexStep_run_next rfl),
    System.execute_cons (mutexStep_run_osOK rfl rfl)]
  refine ⟨_, rfl, ⟨⟨rfl, rfl⟩, rfl, rfl, rfl, rfl, ?_, ?_, rfl⟩⟩
  · simp
  · simp [mutexFresh]

/-- Every further acquire counts one up. -/
theorem nestedTimes_succ {t : Tid} {n : Nat} {s : MutexSys Tid} (h : NestedTimes t n s) :
    ∃ s', System.execute mutexStep s (acquireAlone t) = some s' ∧
      NestedTimes t (n + 1) s' := by
  have hrec : s.mutex.owner = some t ∧ s.mutex.ifRecursive = true := ⟨h.owner, h.recursive⟩
  have hlost : runStep t 0 s.mutex s.csrs (.acqSwap 0) =
      (s.mutex, s.csrs, .next (.acqReadOwner 0)) := trySwap_taken h.shape h.csr _ _
  have hagain : runStep t 0 s.mutex s.csrs (.acqReadOwner 0) =
      (s.mutex, s.csrs, .next .recReadCount) := by
    rw [runStep, if_pos hrec]
  unfold acquireAlone
  rw [System.execute_cons (mutexStep_acquire h.pc h.shape.active 0),
    System.execute_cons (mutexStep_run_next hlost),
    System.execute_cons (mutexStep_run_next hagain),
    System.execute_cons (mutexStep_run_next rfl),
    System.execute_cons (mutexStep_run_osOK rfl rfl)]
  refine ⟨_, rfl, ⟨⟨h.shape.csrAddr, h.shape.active⟩, h.recursive, h.owner, ?_, h.csr,
    ?_, ?_, h.released⟩⟩
  · simp [h.count, BitVec.ofNat_add]
  · simp
  · simp [h.acquired]

theorem nestedTimes_reachable (t : Tid) (n : Nat) :
    ∃ s, (mutexSystem Tid 0).Reachable s ∧ NestedTimes t (n + 1) s := by
  induction n with
  | zero =>
    obtain ⟨s, hrun, hs⟩ := nestedTimes_once t
    exact ⟨s, (System.Reachable.init mutexFresh_initial).run (System.run_of_execute hrun), hs⟩
  | succ n ih =>
    obtain ⟨s, hreach, hs⟩ := ih
    obtain ⟨s', hrun, hs'⟩ := nestedTimes_succ hs
    exact ⟨s', hreach.run (System.run_of_execute hrun), hs'⟩

/-! ## Section 7: Mutual exclusion -/

/-- **Mutual exclusion**: in every state reached by any interleaving of any
    threads' calls, none of which nests beyond what an `int` counts. -/
theorem mutexSafe_reachable (mid : Fin 8) (s : MutexSys Tid)
    (h : ((mutexSystem Tid mid).restrict NestsBelowIntMax).Reachable s) : MutexSafe mid s :=
  mutexInv_safe (mutexInv_reachable h)

/-- Thread 1 wins the first swap and thread 2 waits for it; then thread 1 gives the mutex
    back and thread 2 gets it. -/
def competition : List (MutexAction (Fin 4)) :=
  [.acquire 1 osWaitForever, .acquire 2 osWaitForever, .run 1 0, .run 2 0, .run 1 0, .run 1 0,
    .run 2 0, .run 1 0, .run 2 0, .release 1] ++
  List.replicate 7 (.run 1 0) ++ List.replicate 4 (.run 2 0)

/-- The guard on the calls, as a test. -/
def nestsBelow (s : MutexSys (Fin 4)) : MutexAction (Fin 4) → Bool
  | .acquire t _ => s.depth t + 1 < 2147483648
  | _ => true

/-- The state after `n` steps of the competition. -/
def competed (n : Nat) : MutexSys (Fin 4) :=
  (System.execute (System.guarded nestsBelow mutexStep) mutexFresh (competition.take n)).getD
    mutexFresh

theorem competed_reachable (n : Nat)
    (h : (System.execute (System.guarded nestsBelow mutexStep) mutexFresh
      (competition.take n)).isSome = true) :
    ((mutexSystem (Fin 4) 0).restrict NestsBelowIntMax).Reachable (competed n) := by
  obtain ⟨s, hs⟩ := Option.isSome_iff_exists.mp h
  have hend : competed n = s := by rw [competed, hs, Option.getD_some]
  have hguard : ∀ s a, nestsBelow s a = true → NestsBelowIntMax s a := by
    intro s a hbelow
    cases a with
    | acquire t timeout =>
      rw [NestsBelowIntMax, countLimit_eq]
      exact of_decide_eq_true hbelow
    | release t => trivial
    | run t now => trivial
  rw [hend]
  exact (System.Reachable.init mutexFresh_initial).run (System.run_restrict_of_execute hguard hs)

/-- Thread 1 holds the mutex while thread 2 waits, and in the end it is thread 2. -/
theorem competed_safe :
    (competed 9).Holds 1 ∧ (competed 9).pc 2 = some .foreverDelay ∧ MutexSafe 0 (competed 9) ∧
      (competed 21).Holds 2 ∧ MutexSafe 0 (competed 21) := by
  unfold MutexSys.Holds
  refine ⟨by decide, by decide, ?_, by decide, ?_⟩
  · exact mutexSafe_reachable 0 (competed 9) (competed_reachable 9 (by decide))
  · exact mutexSafe_reachable 0 (competed 21) (competed_reachable 21 (by decide))

/-- After `2 ^ 31` acquires by one thread `count` is negative. -/
theorem mutexSafe_overflow :
    ¬ ∀ (mid : Fin 8) (s : MutexSys (Fin 4)),
      (mutexSystem (Fin 4) mid).Reachable s → MutexSafe mid s := by
  intro hall
  obtain ⟨s, hreach, hs⟩ := nestedTimes_reachable (0 : Fin 4) (2 ^ 31 - 1)
  have hholds : s.Holds 0 := by
    rw [MutexSys.Holds, hs.acquired, hs.released]
    exact Nat.succ_pos _
  have hcount := ((hall 0 s hreach).held 0 hholds hs.pc).2
  rw [hs.count, hs.acquired, hs.released] at hcount
  exact absurd hcount (by decide)

end steps

end system

end Flexpret.Os
