import Flexpret.Os.Mutex
import Mathlib.Algebra.Order.Group.Nat
import Mathlib.Data.Nat.Find

/-! # Timeouts of osMutexAcquire

    The steps that one thread takes inside `osMutexAcquire`, while the other
    threads do whatever they do in between.  A spin mutex compares the clock
    with a deadline that may lie beyond the next wrap-around of the clock; any
    other mutex adds up the periods it has waited, in a sum that may wrap around
    as well.
-/

namespace Flexpret.Os

/-! ## Section 1: The steps of one call -/

/-- What a call finds at each of its steps, and when the step is made.  Step 0
    is the check whether the mutex is active. -/
structure CallEnv (Tid : Type) where
  entry : Nat → MutexState Tid
  csrs : Nat → MutexCsrs
  /-- Time units since reset; the clock is the low 32 bits. -/
  time : Nat → Nat

section call

variable {Tid : Type} [DecidableEq Tid] (env : CallEnv Tid) (me : Tid) (timeout : BitVec 32)

/-- The clock at step `n`. -/
def CallEnv.clock (n : Nat) : BitVec 32 := BitVec.ofNat 32 (env.time n)

/-- Step `n`, which leaves the entry, the CSRs and an outcome. -/
def ownStep (n : Nat) (pc : Pc) : MutexState Tid × MutexCsrs × Outcome :=
  runStep me (env.clock n) (env.entry n) (env.csrs n) pc

/-- Where the call stands after step `n`. -/
def acquireCall : Nat → Outcome
  | 0 => startAcquire (env.entry 0) timeout
  | n + 1 =>
      match acquireCall n with
      | .next pc => (ownStep env me (n + 1) pc).2.2
      | .ret status => .ret status

/-- A swap in step `n` finds the mutex free. -/
def CallEnv.free (n : Nat) : Prop :=
  (swapMutexCsr (env.csrs n) (env.entry n).csrAddr flexpretMutexInactive).2 = flexpretMutexActive

instance (n : Nat) : Decidable (env.free n) := inferInstanceAs (Decidable (_ = _))

/-- The call returns `status` in step `n + 1`. -/
def ReturnsAt (n : Nat) (status : OsStatus) : Prop :=
  (∃ pc, acquireCall env me timeout n = .next pc) ∧
    acquireCall env me timeout (n + 1) = .ret status

/-- The call finds the mutex taken, and not recursively by its own thread. -/
structure FindsTaken : Prop where
  active : (env.entry 0).active = true
  taken : ¬ env.free 1
  notMine : ¬ ((env.entry 2).owner = some me ∧ (env.entry 2).ifRecursive = true)

variable {env me timeout}

theorem acquireCall_next {n : Nat} {pc : Pc} (h : acquireCall env me timeout n = .next pc) :
    acquireCall env me timeout (n + 1) = (ownStep env me (n + 1) pc).2.2 := by
  rw [acquireCall, h]

theorem acquireCall_ret {n : Nat} {status : OsStatus}
    (h : acquireCall env me timeout n = .ret status) :
    acquireCall env me timeout (n + 1) = .ret status := by
  rw [acquireCall, h]

omit [DecidableEq Tid] in
/-- A swap goes on by what it finds. -/
theorem trySwap_outcome {n : Nat} (won lost : Outcome) :
    (trySwap (env.entry n) (env.csrs n) won lost).2.2 = if env.free n then won else lost := rfl

/-- After two steps the call is on its wait path. -/
theorem acquireCall_two (timeout : BitVec 32) (h : FindsTaken env me) :
    acquireCall env me timeout 2 = waitPath (env.entry 2) timeout := by
  have hzero : acquireCall env me timeout 0 = .next (.acqSwap timeout) := by
    rw [acquireCall, startAcquire, if_pos h.active]
  have hone : acquireCall env me timeout 1 = .next (.acqReadOwner timeout) := by
    rw [acquireCall_next hzero, ownStep, runStep, trySwap_outcome, if_neg h.taken]
  rw [acquireCall_next hone, ownStep, runStep, if_neg h.notMine]

/-- What has returned does not go on. -/
theorem acquireCall_of_ret {n m : Nat} {status : OsStatus}
    (h : acquireCall env me timeout n = .ret status) (hle : n ≤ m) :
    acquireCall env me timeout m = .ret status := by
  induction m, hle using Nat.le_induction with
  | base => exact h
  | succ m _ ih => exact acquireCall_ret ih

/-- After a swap that has won, the call writes `owner` and `count` and returns. -/
theorem acquireCall_won {n : Nat} (h : acquireCall env me timeout n = .next .acqWriteOwner) :
    acquireCall env me timeout (n + 1) = .next .acqWriteCount ∧
      acquireCall env me timeout (n + 2) = .ret .osOK := by
  have howner := acquireCall_next h
  exact ⟨howner, acquireCall_next howner⟩

/-! ## Section 2: Spinning -/

variable (env me timeout)

/-- The deadline of a spinning call, which reads the clock in step 3. -/
def spinDeadline : Nat := env.time 3 + timeout.toNat

/-- The call makes attempt `k` to spin for the mutex, in step `4 + 2k`. -/
def Spins (k : Nat) : Prop :=
  acquireCall env me timeout (3 + 2 * k) = .next (.spinSwap timeout (env.clock 3))

/-- The clock check after attempt `k`, in step `5 + 2k`, goes on. -/
def CheckGoesOn (k : Nat) : Prop := env.clock (5 + 2 * k) < timeout + env.clock 3

/-- The loop is over after attempt `k`: it has won, or the check has failed. -/
def SpinEnds (k : Nat) : Prop :=
  Spins env me timeout k ∧ (env.free (4 + 2 * k) ∨ ¬ CheckGoesOn env timeout k)

variable {env me timeout}

theorem spins_zero (h : FindsTaken env me) (hspin : (env.entry 2).ifSpin = true)
    (hpos : timeout ≠ 0) (hforever : timeout ≠ osWaitForever) : Spins env me timeout 0 := by
  have htwo := acquireCall_two timeout h
  rw [waitPath, if_neg hpos, if_neg hforever, if_pos hspin] at htwo
  exact acquireCall_next htwo

/-- A lost attempt is followed by a check. -/
theorem spins_lost {k : Nat} (h : Spins env me timeout k) (hlost : ¬ env.free (4 + 2 * k)) :
    acquireCall env me timeout (4 + 2 * k) = .next (.spinCheck timeout (env.clock 3)) := by
  have hstep : acquireCall env me timeout (3 + 2 * k + 1) = _ := acquireCall_next h
  have hindex : 3 + 2 * k + 1 = 4 + 2 * k := by omega
  rw [hindex] at hstep
  rw [hstep, ownStep, runStep, trySwap_outcome, if_neg hlost]

theorem spins_won {k : Nat} (h : Spins env me timeout k) (hwon : env.free (4 + 2 * k)) :
    acquireCall env me timeout (4 + 2 * k) = .next .acqWriteOwner := by
  have hstep : acquireCall env me timeout (3 + 2 * k + 1) = _ := acquireCall_next h
  have hindex : 3 + 2 * k + 1 = 4 + 2 * k := by omega
  rw [hindex] at hstep
  rw [hstep, ownStep, runStep, trySwap_outcome, if_pos hwon]

theorem spins_check {k : Nat} (h : Spins env me timeout k) (hlost : ¬ env.free (4 + 2 * k)) :
    (CheckGoesOn env timeout k → Spins env me timeout (k + 1)) ∧
      (¬ CheckGoesOn env timeout k →
        acquireCall env me timeout (5 + 2 * k) = .ret .osErrorTimeout) := by
  have hstep : acquireCall env me timeout (4 + 2 * k + 1) = _ :=
    acquireCall_next (spins_lost h hlost)
  have hindex : 4 + 2 * k + 1 = 5 + 2 * k := by omega
  rw [hindex] at hstep
  constructor
  · intro hon
    show acquireCall env me timeout (3 + 2 * (k + 1)) = _
    have hnext : 3 + 2 * (k + 1) = 5 + 2 * k := by omega
    rw [hnext, hstep, ownStep, runStep]
    exact if_pos hon
  · intro hoff
    rw [hstep, ownStep, runStep]
    exact if_neg hoff

/-- **The loop** is at attempt `k` or is over before. -/
theorem spins_or_ends (hzero : Spins env me timeout 0) (k : Nat) :
    Spins env me timeout k ∨ ∃ j, j < k ∧ SpinEnds env me timeout j := by
  induction k with
  | zero => exact .inl hzero
  | succ k ih =>
    rcases ih with hk | ⟨j, hj, hends⟩
    · by_cases hlost : env.free (4 + 2 * k)
      · exact .inr ⟨k, Nat.lt_succ_self k, hk, .inl hlost⟩
      · by_cases hon : CheckGoesOn env timeout k
        · exact .inl ((spins_check hk hlost).1 hon)
        · exact .inr ⟨k, Nat.lt_succ_self k, hk, .inr hon⟩
    · exact .inr ⟨j, Nat.lt_succ_of_lt hj, hends⟩

/-- When the loop is over the call returns in the check or writes the mutex. -/
theorem SpinEnds.outcome {k : Nat} (h : SpinEnds env me timeout k) :
    ¬ env.free (4 + 2 * k) ∧ ¬ CheckGoesOn env timeout k ∧
        acquireCall env me timeout (5 + 2 * k) = .ret .osErrorTimeout ∨
      acquireCall env me timeout (5 + 2 * k) = .next .acqWriteCount ∧
        acquireCall env me timeout (6 + 2 * k) = .ret .osOK := by
  obtain ⟨hk, hcase⟩ := h
  by_cases hfree : env.free (4 + 2 * k)
  · have hwon := acquireCall_won (spins_won hk hfree)
    have hfive : 4 + 2 * k + 1 = 5 + 2 * k := by omega
    have hsix : 4 + 2 * k + 2 = 6 + 2 * k := by omega
    rw [hfive, hsix] at hwon
    exact .inr hwon
  · have hoff := hcase.resolve_left hfree
    exact .inl ⟨hfree, hoff, (spins_check hk hfree).2 hoff⟩

/-- After the loop is over no attempt is made. -/
theorem SpinEnds.not_spins {j k : Nat} (h : SpinEnds env me timeout j) (hjk : j < k) :
    ¬ Spins env me timeout k := by
  intro hk
  rcases h.outcome with ⟨-, -, hret⟩ | ⟨hcount, hret⟩
  · have hlater := acquireCall_of_ret hret (m := 3 + 2 * k) (by omega)
    rw [Spins, hlater] at hk
    exact nomatch hk
  · by_cases hnext : k = j + 1
    · have hindex : 3 + 2 * k = 5 + 2 * j := by omega
      rw [Spins, hindex, hcount] at hk
      exact nomatch hk
    · have hlater := acquireCall_of_ret hret (m := 3 + 2 * k) (by omega)
      rw [Spins, hlater] at hk
      exact nomatch hk

/-- An attempt follows lost attempts and checks that went on. -/
theorem spins_before (hzero : Spins env me timeout 0) {j k : Nat} (hk : Spins env me timeout k)
    (hjk : j < k) :
    Spins env me timeout j ∧ ¬ env.free (4 + 2 * j) ∧ CheckGoesOn env timeout j := by
  have hj : Spins env me timeout j := by
    rcases spins_or_ends hzero j with hj | ⟨i, hi, hends⟩
    · exact hj
    · exact absurd hk (hends.not_spins (Nat.lt_trans hi hjk))
  refine ⟨hj, fun hfree => ?_, ?_⟩
  · exact SpinEnds.not_spins ⟨hj, .inl hfree⟩ hjk hk
  · by_contra hoff
    exact SpinEnds.not_spins ⟨hj, .inr hoff⟩ hjk hk

/-! ## Section 3: The deadline of a spinning call -/

/-- The program points whose step is a swap. -/
def Pc.attempts : Pc → Bool
  | .acqSwap _ | .foreverSwap | .spinSwap _ _ | .timedSwap _ _ _ => true
  | _ => false

variable (env me timeout)

/-- Successive clock checks are less than half a turn of the clock apart. -/
structure ChecksClose : Prop where
  first : env.time 5 < env.time 3 + 2 ^ 31
  next : ∀ k, env.time (5 + 2 * (k + 1)) < env.time (5 + 2 * k) + 2 ^ 31

/-- **The timeout** of a spinning call: `osErrorTimeout` is not returned before
    its time, and only when every attempt has found the mutex taken; and the
    first clock check at the deadline or later ends the loop. -/
structure SpinTimeout : Prop where
  early : ∀ n, ReturnsAt env me timeout n .osErrorTimeout →
    env.time 0 + timeout.toNat ≤ env.time (n + 1) ∧
      ∀ m pc, m ≤ n → acquireCall env me timeout m = .next pc → pc.attempts = true →
        ¬ env.free (m + 1)
  late : ChecksClose env → ∀ k, spinDeadline env timeout ≤ env.time (5 + 2 * k) →
    ¬ Spins env me timeout (k + 1)

/-- Two times lie between the same two wrap-arounds of the clock. -/
def SameTurn (x y : Nat) : Prop := x / 2 ^ 32 = y / 2 ^ 32

/-- **The condition**: when the first check comes before the deadline and the
    clock wraps around in between, the call has been under way for the timeout
    already; and the clock does not wrap around between the deadline and the
    first check after it, if the loop gets there. -/
structure DeadlineInTurn : Prop where
  early : ¬ env.free 4 → env.time 5 < spinDeadline env timeout →
    ¬ SameTurn (env.time 5) (spinDeadline env timeout) →
      env.time 0 + timeout.toNat ≤ env.time 5
  late : ChecksClose env → ∀ k, (∀ i, i ≤ k → ¬ env.free (4 + 2 * i)) →
    spinDeadline env timeout ≤ env.time (5 + 2 * k) →
    (∀ i, i < k → env.time (5 + 2 * i) < spinDeadline env timeout) →
    (env.time 5 < spinDeadline env timeout →
      SameTurn (env.time 5) (spinDeadline env timeout)) →
    SameTurn (env.time (5 + 2 * k)) (spinDeadline env timeout)

variable {env me timeout}

omit [DecidableEq Tid] in
theorem checkGoesOn_iff {k : Nat} :
    CheckGoesOn env timeout k ↔
      env.time (5 + 2 * k) % 2 ^ 32 < spinDeadline env timeout % 2 ^ 32 := by
  rw [CheckGoesOn, BitVec.lt_def, CallEnv.clock, CallEnv.clock, BitVec.toNat_add,
    BitVec.toNat_ofNat, BitVec.toNat_ofNat, spinDeadline, Nat.add_mod_mod,
    Nat.add_comm timeout.toNat]

omit [DecidableEq Tid] in
/-- The clock does not run backwards. -/
theorem time_le (hmono : ∀ n, env.time n ≤ env.time (n + 1)) {n m : Nat} (h : n ≤ m) :
    env.time n ≤ env.time m :=
  monotone_nat_of_le_succ hmono h

section turns

variable {x deadline start timeoutNat : Nat}

/-- Before the deadline, in its turn, the check goes on. -/
theorem mod_lt_of_before (hlt : x < deadline) (hturn : SameTurn x deadline) :
    x % 2 ^ 32 < deadline % 2 ^ 32 := by
  unfold SameTurn at hturn
  omega

/-- Before the deadline, in another turn, the check stops too early. -/
theorem not_mod_lt_of_before (hstart : start ≤ x) (hlt : x < start + timeoutNat)
    (htimeout : timeoutNat < 2 ^ 31) (hturn : ¬ SameTurn x (start + timeoutNat)) :
    ¬ x % 2 ^ 32 < (start + timeoutNat) % 2 ^ 32 := by
  unfold SameTurn at hturn
  omega

/-- At the deadline or later, in its turn, the check stops. -/
theorem not_mod_lt_of_after (hle : deadline ≤ x) (hturn : SameTurn x deadline) :
    ¬ x % 2 ^ 32 < deadline % 2 ^ 32 := by
  unfold SameTurn at hturn
  omega

/-- After the deadline, in the next turn, the check goes on. -/
theorem mod_lt_of_after (hle : deadline ≤ x) (hclose : x < deadline + 2 ^ 31)
    (hturn : ¬ SameTurn x deadline) : x % 2 ^ 32 < deadline % 2 ^ 32 := by
  unfold SameTurn at hturn
  omega

end turns

/-- **osErrorTimeout** is returned by a check that does not go on. -/
theorem spins_of_returns (hzero : Spins env me timeout 0) {n : Nat}
    (h : ReturnsAt env me timeout n .osErrorTimeout) :
    ∃ k, n = 4 + 2 * k ∧ Spins env me timeout k ∧ ¬ env.free (4 + 2 * k) ∧
      ¬ CheckGoesOn env timeout k := by
  obtain ⟨⟨pc, hpc⟩, hret⟩ := h
  have hthree : 3 ≤ n := by
    by_contra hlt
    have hlater := acquireCall_of_ret hret (m := 3) (by omega)
    rw [Spins, Nat.mul_zero, Nat.add_zero, hlater] at hzero
    exact nomatch hzero
  -- an earlier end of the loop is a return, or the write of `count`
  have hnone : ∀ j, 5 + 2 * j ≤ n → ¬ SpinEnds env me timeout j := by
    intro j hj hends
    rcases hends.outcome with ⟨-, -, hend⟩ | ⟨hcount, hend⟩
    · rw [acquireCall_of_ret hend hj] at hpc
      exact nomatch hpc
    · by_cases heq : n = 5 + 2 * j
      · have hsix : n + 1 = 6 + 2 * j := by omega
        rw [hsix, hend] at hret
        exact nomatch hret
      · rw [acquireCall_of_ret hend (by omega)] at hpc
        exact nomatch hpc
  obtain ⟨k, hk | hk⟩ : ∃ k, n - 3 = 2 * k ∨ n - 3 = 2 * k + 1 := ⟨(n - 3) / 2, by omega⟩
  · -- an attempt does not return
    have hn : n = 3 + 2 * k := by omega
    subst hn
    rcases spins_or_ends hzero k with hspins | ⟨j, hj, hends⟩
    · have hstep : acquireCall env me timeout (3 + 2 * k + 1) = _ := acquireCall_next hspins
      rw [ownStep, runStep, trySwap_outcome, hret] at hstep
      split at hstep
      · exact nomatch hstep
      · exact nomatch hstep
    · exact absurd hends (hnone j (by omega))
  · have hn : n = 4 + 2 * k := by omega
    subst hn
    rcases spins_or_ends hzero k with hspins | ⟨j, hj, hends⟩
    · have hlost : ¬ env.free (4 + 2 * k) := by
        intro hfree
        have hcount := (acquireCall_won (spins_won hspins hfree)).1
        rw [hret] at hcount
        exact nomatch hcount
      refine ⟨k, rfl, hspins, hlost, fun hon => ?_⟩
      have hnext : acquireCall env me timeout (3 + 2 * (k + 1)) = _ :=
        (spins_check hspins hlost).1 hon
      have hindex : 3 + 2 * (k + 1) = 4 + 2 * k + 1 := by omega
      rw [hindex, hret] at hnext
      exact nomatch hnext
    · exact absurd hends (hnone j (by omega))

/-- Every attempt before a lost one has been lost. -/
theorem attempts_lost (h : FindsTaken env me) (hspin : (env.entry 2).ifSpin = true)
    (hpos : timeout ≠ 0) (hforever : timeout ≠ osWaitForever) {k : Nat}
    (hk : Spins env me timeout k) (hlost : ¬ env.free (4 + 2 * k)) {m : Nat} {pc : Pc}
    (hm : m ≤ 4 + 2 * k) (hpc : acquireCall env me timeout m = .next pc)
    (hattempt : pc.attempts = true) : ¬ env.free (m + 1) := by
  have hzero := spins_zero h hspin hpos hforever
  have hall : ∀ j, j ≤ k → Spins env me timeout j ∧ ¬ env.free (4 + 2 * j) := by
    intro j hj
    rcases Nat.lt_or_eq_of_le hj with hlt | rfl
    · have hbefore := spins_before hzero hk hlt
      exact ⟨hbefore.1, hbefore.2.1⟩
    · exact ⟨hk, hlost⟩
  match m with
  | 0 => exact h.taken
  | 1 =>
    have hone : acquireCall env me timeout 1 = .next (.acqReadOwner timeout) := by
      have hstart : acquireCall env me timeout 0 = .next (.acqSwap timeout) := by
        rw [acquireCall, startAcquire, if_pos h.active]
      rw [acquireCall_next hstart, ownStep, runStep, trySwap_outcome, if_neg h.taken]
    obtain rfl := Outcome.next.inj (hone.symm.trans hpc)
    exact Bool.noConfusion hattempt
  | 2 =>
    have htwo := acquireCall_two timeout h
    rw [waitPath, if_neg hpos, if_neg hforever, if_pos hspin] at htwo
    obtain rfl := Outcome.next.inj (htwo.symm.trans hpc)
    exact Bool.noConfusion hattempt
  | m + 3 =>
    obtain ⟨j, hj | hj⟩ : ∃ j, m = 2 * j ∨ m = 2 * j + 1 := ⟨m / 2, by omega⟩
    · have hindex : m + 3 + 1 = 4 + 2 * j := by omega
      rw [hindex]
      exact (hall j (by omega)).2
    · have hindex : m + 3 = 4 + 2 * j := by omega
      obtain ⟨hspins, hfail⟩ := hall j (by omega)
      rw [hindex] at hpc
      obtain rfl := Outcome.next.inj ((spins_lost hspins hfail).symm.trans hpc)
      exact Bool.noConfusion hattempt

/-- Up to the deadline the loop goes on when its turn is that of the first
    check. -/
theorem spins_to_deadline (hmono : ∀ n, env.time n ≤ env.time (n + 1))
    (hzero : Spins env me timeout 0) {k : Nat}
    (hlost : ∀ i, i ≤ k → ¬ env.free (4 + 2 * i))
    (hbefore : ∀ i, i < k → env.time (5 + 2 * i) < spinDeadline env timeout)
    (hturn : env.time 5 < spinDeadline env timeout →
      SameTurn (env.time 5) (spinDeadline env timeout)) : Spins env me timeout k := by
  induction k with
  | zero => exact hzero
  | succ k ih =>
    have hk := ih (fun i hi => hlost i (Nat.le_succ_of_le hi))
      (fun i hi => hbefore i (Nat.lt_succ_of_lt hi))
    have hlt := hbefore k (Nat.lt_succ_self k)
    have hfirst : env.time 5 ≤ env.time (5 + 2 * k) := time_le hmono (by omega)
    have hsame := hturn (Nat.lt_of_le_of_lt hfirst hlt)
    have hin : SameTurn (env.time (5 + 2 * k)) (spinDeadline env timeout) := by
      unfold SameTurn at hsame ⊢
      omega
    exact (spins_check hk (hlost k (Nat.le_succ k))).1
      (checkGoesOn_iff.mpr (mod_lt_of_before hlt hin))

omit [DecidableEq Tid] in
/-- When the first check goes on before the deadline, it is in its turn. -/
theorem sameTurn_of_goesOn (hmono : ∀ n, env.time n ≤ env.time (n + 1))
    (hlt : timeout.toNat < 2 ^ 31) (hon : CheckGoesOn env timeout 0)
    (hbefore : env.time 5 < spinDeadline env timeout) :
    SameTurn (env.time 5) (spinDeadline env timeout) := by
  by_contra hturn
  exact not_mod_lt_of_before (time_le hmono (by omega)) hbefore hlt hturn
    (checkGoesOn_iff.mp hon)

/-- **Spinning with a timeout** keeps it exactly when the clock does not wrap
    around in between. -/
theorem spinTimeout_iff (env : CallEnv Tid) (me : Tid) (timeout : BitVec 32)
    (hpos : 0 < timeout.toNat) (hlt : timeout.toNat < 2 ^ 31)
    (hmono : ∀ n, env.time n ≤ env.time (n + 1)) (h : FindsTaken env me)
    (hspin : (env.entry 2).ifSpin = true) :
    SpinTimeout env me timeout ↔ DeadlineInTurn env timeout := by
  have hne : timeout ≠ 0 := by
    rintro rfl
    exact absurd hpos (by decide)
  have hforever : timeout ≠ osWaitForever := by
    rintro rfl
    exact absurd hlt (by decide)
  have hzero := spins_zero h hspin hne hforever
  have hcall : env.time 0 + timeout.toNat ≤ spinDeadline env timeout :=
    Nat.add_le_add_right (time_le hmono (by omega)) _
  constructor
  · intro hspec
    constructor
    case early =>
      intro hlost hbefore hturn
      have hoff : ¬ CheckGoesOn env timeout 0 := by
        rw [checkGoesOn_iff]
        exact not_mod_lt_of_before (time_le hmono (by omega)) hbefore hlt hturn
      exact (hspec.early 4 ⟨⟨_, spins_lost hzero hlost⟩, (spins_check hzero hlost).2 hoff⟩).1
    case late =>
      intro hclose k hlost hafter hbefore hturn
      by_contra hother
      have hk := spins_to_deadline hmono hzero hlost hbefore hturn
      have hnear : env.time (5 + 2 * k) < spinDeadline env timeout + 2 ^ 31 := by
        cases k with
        | zero =>
          have hfirst := hclose.first
          have hle : env.time 3 ≤ spinDeadline env timeout := Nat.le_add_right _ _
          simp only [Nat.mul_zero, Nat.add_zero]
          omega
        | succ k =>
          have hnext := hclose.next k
          have hprev := hbefore k (Nat.lt_succ_self k)
          omega
      have hon : CheckGoesOn env timeout k :=
        checkGoesOn_iff.mpr (mod_lt_of_after hafter hnear hother)
      exact hspec.late hclose k hafter ((spins_check hk (hlost k (Nat.le_refl k))).1 hon)
  · intro hcond
    constructor
    case early =>
      intro n hret
      obtain ⟨k, rfl, hk, hlost, hoff⟩ := spins_of_returns hzero hret
      refine ⟨?_, fun m pc hm hpc hattempt =>
        attempts_lost h hspin hne hforever hk hlost hm hpc hattempt⟩
      have hindex : 4 + 2 * k + 1 = 5 + 2 * k := by omega
      rw [hindex]
      by_cases hafter : spinDeadline env timeout ≤ env.time (5 + 2 * k)
      · exact Nat.le_trans hcall hafter
      · have hbefore : env.time (5 + 2 * k) < spinDeadline env timeout := by omega
        have hturn : ¬ SameTurn (env.time (5 + 2 * k)) (spinDeadline env timeout) :=
          fun hsame => hoff (checkGoesOn_iff.mpr (mod_lt_of_before hbefore hsame))
        cases k with
        | zero => exact hcond.early hlost hbefore hturn
        | succ k =>
          -- the first check has gone on, so its turn is that of the deadline
          have hon := (spins_before hzero hk (Nat.succ_pos k)).2.2
          have hfirst : env.time 5 ≤ env.time (5 + 2 * (k + 1)) := time_le hmono (by omega)
          have hsame := sameTurn_of_goesOn hmono hlt hon (Nat.lt_of_le_of_lt hfirst hbefore)
          unfold SameTurn at hsame hturn
          omega
    case late =>
      intro hclose k hafter hspins
      have hexists : ∃ j, spinDeadline env timeout ≤ env.time (5 + 2 * j) := ⟨k, hafter⟩
      classical
      have hle : Nat.find hexists ≤ k := Nat.find_min' hexists hafter
      generalize hj : Nat.find hexists = j at hle
      have hfind : spinDeadline env timeout ≤ env.time (5 + 2 * j) := hj ▸ Nat.find_spec hexists
      have hbefore : ∀ i, i < j → env.time (5 + 2 * i) < spinDeadline env timeout := by
        intro i hi
        exact Nat.not_le.mp (Nat.find_min hexists (hj.symm ▸ hi))
      have hall : ∀ i, i ≤ j → ¬ env.free (4 + 2 * i) ∧ CheckGoesOn env timeout i := by
        intro i hi
        exact (spins_before hzero hspins (by omega)).2
      have hsame := hcond.late hclose j (fun i hi => (hall i hi).1) hfind hbefore
        (sameTurn_of_goesOn hmono hlt (hall 0 (Nat.zero_le j)).2)
      exact not_mod_lt_of_after hfind hsame (checkGoesOn_iff.mp (hall j (Nat.le_refl j)).2)

end call

/-- Thread 1 has a spin mutex for good. -/
def takenSpinMutex : MutexState (Fin 2) where
  owner := some 1
  csrAddr := 0
  count := 1
  ifRecursive := false
  ifRobust := false
  active := true
  ifSpin := true

/-- Thread 0 asks for it at a time, and makes a step each time unit. -/
def spinEnv (start : Nat) : CallEnv (Fin 2) where
  entry := fun _ => takenSpinMutex
  csrs := fun _ _ => 1
  time := fun n => start + n

theorem spinEnv_findsTaken (start : Nat) : FindsTaken (spinEnv start) 0 := by
  constructor
  case active => rfl
  case taken =>
    show ¬ (1 : Int) = 0
    decide
  case notMine =>
    show ¬ ((some 1 : Option (Fin 2)) = some 0 ∧ false = true)
    decide

/-- Right after reset the timeout is kept. -/
theorem spinEnv_reset_timeout : SpinTimeout (spinEnv 0) (0 : Fin 2) 1000 := by
  refine (spinTimeout_iff (spinEnv 0) 0 1000 (by decide) (by decide)
    (fun n => Nat.le_succ _) (spinEnv_findsTaken 0) rfl).mpr ?_
  have htime : ∀ n, (spinEnv 0).time n = n := fun n => Nat.zero_add n
  have hdeadline : spinDeadline (spinEnv 0) 1000 = 1003 := rfl
  constructor
  case early =>
    intro _ _ hturn
    exact absurd (by rw [htime, hdeadline]; rfl) hturn
  case late =>
    intro _ k _ _ hbefore _
    rw [htime, hdeadline]
    unfold SameTurn
    cases k with
    | zero => rfl
    | succ k =>
      have hprev := hbefore k (Nat.lt_succ_self k)
      rw [htime, hdeadline] at hprev
      omega

/-- 100 units before the clock wraps around a timeout of 1000 is over after 5. -/
theorem spinEnv_wrap_early :
    FindsTaken (spinEnv 0xFFFFFF9C) 0 ∧
      ReturnsAt (spinEnv 0xFFFFFF9C) 0 1000 4 .osErrorTimeout ∧
      ¬ SpinTimeout (spinEnv 0xFFFFFF9C) 0 1000 := by
  have hfinds := spinEnv_findsTaken 0xFFFFFF9C
  have hreturns : ReturnsAt (spinEnv 0xFFFFFF9C) 0 1000 4 .osErrorTimeout := by
    have hzero : Spins (spinEnv 0xFFFFFF9C) 0 1000 0 :=
      spins_zero hfinds rfl (by decide) (by decide)
    have hlost : ¬ (spinEnv 0xFFFFFF9C).free (4 + 2 * 0) := hfinds.taken
    refine ⟨⟨_, spins_lost hzero hlost⟩, (spins_check hzero hlost).2 ?_⟩
    unfold CheckGoesOn
    decide
  refine ⟨hfinds, hreturns, fun h => ?_⟩
  have hearly := (h.early 4 hreturns).1
  exact absurd hearly (by decide)

/-! ## Section 4: Waiting period by period -/

section call

variable {Tid : Type} [DecidableEq Tid] (env : CallEnv Tid) (me : Tid) (timeout : BitVec 32)

/-- `time_period`. -/
def timePeriod : BitVec 32 :=
  if timeout > flexpretWaitPeriod then flexpretWaitPeriod else timeout

/-- The attempts that a call with this timeout has to make after the first one:
    the timeout over the period, rounded up. -/
def timedAttempts : Nat :=
  (timeout.toNat + (timePeriod timeout).toNat - 1) / (timePeriod timeout).toNat

/-- The attempts made in the steps up to `n`, but for the first. -/
def furtherAttempts : Nat → Nat
  | 0 => 0
  | n + 1 =>
      furtherAttempts n +
        match acquireCall env me timeout n with
        | .next pc => if 0 < n ∧ pc.attempts then 1 else 0
        | .ret _ => 0

/-- What a program point asks `osDelay` for. -/
def Pc.delayTicks : Pc → Nat
  | .foreverDelay => flexpretWaitPeriod.toNat
  | .timedDelay _ period _ => period.toNat
  | _ => 0

/-- The delay asked for in the steps up to `n`. -/
def requestedDelay : Nat → Nat
  | 0 => 0
  | n + 1 =>
      requestedDelay n +
        match acquireCall env me timeout n with
        | .next pc => pc.delayTicks
        | .ret _ => 0

/-- **The timeout** of a call that waits: if every attempt is lost it returns
    `osErrorTimeout` after exactly as many as it has to make and a delay of the
    timeout at least, and the first attempt that finds the mutex free makes the
    caller its owner. -/
structure TimedAcquire : Prop where
  timesOut : (∀ k, k < timedAttempts timeout → ¬ env.free (4 + 2 * k)) →
    ∃ n, ReturnsAt env me timeout n .osErrorTimeout ∧
      furtherAttempts env me timeout (n + 1) = timedAttempts timeout ∧
        timeout.toNat ≤ requestedDelay env me timeout (n + 1)
  acquires : ∀ k, k < timedAttempts timeout → (∀ i, i < k → ¬ env.free (4 + 2 * i)) →
    env.free (4 + 2 * k) →
    ∃ n, ReturnsAt env me timeout n .osOK ∧ furtherAttempts env me timeout (n + 1) = k + 1 ∧
      ∃ m, m ≤ n ∧ acquireCall env me timeout m = .next .acqWriteOwner ∧
        (ownStep env me (m + 1) .acqWriteOwner).1.owner = some me

/-- The call is about to wait for the period the `k + 1`st time, in step
    `3 + 2k`; its next attempt is in step `4 + 2k`. -/
def Waits (k : Nat) : Prop :=
  acquireCall env me timeout (2 + 2 * k) =
    .next (.timedDelay timeout (timePeriod timeout)
      (BitVec.ofNat 32 (k * (timePeriod timeout).toNat)))

variable {env me timeout}

/-! ### The periods -/

theorem timePeriod_pos (hpos : timeout ≠ 0) : 0 < (timePeriod timeout).toNat := by
  unfold timePeriod
  split
  · decide
  · exact Nat.pos_of_ne_zero fun h => hpos (BitVec.eq_of_toNat_eq h)

theorem timePeriod_le (timeout : BitVec 32) : (timePeriod timeout).toNat ≤ timeout.toNat := by
  unfold timePeriod
  split
  · next hgt => exact Nat.le_of_lt hgt
  · exact Nat.le_refl _

theorem periods_lt (hpos : timeout ≠ 0) {k : Nat} (hk : k < timedAttempts timeout) :
    k * (timePeriod timeout).toNat < timeout.toNat := by
  have hperiod := timePeriod_pos hpos
  have hle := (Nat.le_div_iff_mul_le hperiod).mp (Nat.succ_le_of_lt hk)
  rw [Nat.succ_mul] at hle
  omega

theorem le_periods (hpos : timeout ≠ 0) :
    timeout.toNat ≤ timedAttempts timeout * (timePeriod timeout).toNat := by
  have hperiod := timePeriod_pos hpos
  have hdiv := Nat.div_add_mod (timeout.toNat + (timePeriod timeout).toNat - 1)
    (timePeriod timeout).toNat
  have hmod := Nat.mod_lt (timeout.toNat + (timePeriod timeout).toNat - 1) hperiod
  rw [Nat.mul_comm] at hdiv
  unfold timedAttempts
  omega

theorem timedAttempts_pos (hpos : timeout ≠ 0) : 0 < timedAttempts timeout := by
  refine Nat.pos_of_ne_zero fun hzero => ?_
  have hle := le_periods hpos
  rw [hzero, Nat.zero_mul] at hle
  have hperiod := timePeriod_pos hpos
  have hle' := timePeriod_le timeout
  omega

/-- The sum of the periods fits when the timeout is not beyond the last multiple
    of the wait period. -/
theorem periods_fit_iff (hpos : timeout ≠ 0) :
    timedAttempts timeout * (timePeriod timeout).toNat < 2 ^ 32 ↔
      timeout.toNat ≤ 2 ^ 32 / flexpretWaitPeriod.toNat * flexpretWaitPeriod.toNat := by
  have hperiod := timePeriod_pos hpos
  have hwait : flexpretWaitPeriod.toNat = 10000 := rfl
  have hlt := timeout.isLt
  unfold timedAttempts timePeriod at *
  rw [hwait]
  split
  · rw [hwait]
    omega
  · next hle =>
    rw [if_neg hle] at hperiod
    have hsmall : timeout.toNat ≤ 10000 := Nat.not_lt.mp hle
    have hone : (timeout.toNat + timeout.toNat - 1) / timeout.toNat = 1 := by
      refine Nat.div_eq_of_lt_le ?_ ?_
      · omega
      · omega
    rw [hone]
    omega

/-! ### The rounds -/

theorem waits_zero (h : FindsTaken env me) (hspin : (env.entry 2).ifSpin = false)
    (hpos : timeout ≠ 0) (hforever : timeout ≠ osWaitForever) : Waits env me timeout 0 := by
  have hlast : ¬ (env.entry 2).ifSpin = true := by
    rw [hspin]
    exact Bool.false_ne_true
  have htwo := acquireCall_two timeout h
  rw [waitPath, if_neg hpos, if_neg hforever, if_neg hlast] at htwo
  rw [Waits, Nat.mul_zero, Nat.add_zero, htwo, Nat.zero_mul]
  rfl

/-- After the delay comes an attempt. -/
theorem waits_attempt {k : Nat} (h : Waits env me timeout k) :
    acquireCall env me timeout (3 + 2 * k) =
      .next (.timedSwap timeout (timePeriod timeout)
        (BitVec.ofNat 32 (k * (timePeriod timeout).toNat))) := by
  have hstep : acquireCall env me timeout (2 + 2 * k + 1) = _ := acquireCall_next h
  have hindex : 2 + 2 * k + 1 = 3 + 2 * k := by omega
  rw [hindex] at hstep
  exact hstep

theorem waits_won {k : Nat} (h : Waits env me timeout k) (hwon : env.free (4 + 2 * k)) :
    acquireCall env me timeout (4 + 2 * k) = .next .acqWriteOwner := by
  have hstep : acquireCall env me timeout (3 + 2 * k + 1) = _ :=
    acquireCall_next (waits_attempt h)
  have hindex : 3 + 2 * k + 1 = 4 + 2 * k := by omega
  rw [hindex] at hstep
  rw [hstep, ownStep, runStep, trySwap_outcome, if_pos hwon]

omit [DecidableEq Tid] in
/-- One more period is added to the sum. -/
theorem period_added (k : Nat) :
    BitVec.ofNat 32 (k * (timePeriod timeout).toNat) + timePeriod timeout =
      BitVec.ofNat 32 ((k + 1) * (timePeriod timeout).toNat) := by
  apply BitVec.eq_of_toNat_eq
  rw [BitVec.toNat_add, BitVec.toNat_ofNat, BitVec.toNat_ofNat, Nat.succ_mul,
    Nat.mod_add_mod]

/-- **A lost attempt** is followed by the next delay or by the return, as the
    low 32 bits of the sum say. -/
theorem waits_lost {k : Nat} (h : Waits env me timeout k) (hlost : ¬ env.free (4 + 2 * k)) :
    ((k + 1) * (timePeriod timeout).toNat % 2 ^ 32 < timeout.toNat →
        Waits env me timeout (k + 1)) ∧
      (¬ (k + 1) * (timePeriod timeout).toNat % 2 ^ 32 < timeout.toNat →
        acquireCall env me timeout (4 + 2 * k) = .ret .osErrorTimeout) := by
  have hstep : acquireCall env me timeout (3 + 2 * k + 1) = _ :=
    acquireCall_next (waits_attempt h)
  have hindex : 3 + 2 * k + 1 = 4 + 2 * k := by omega
  rw [hindex, ownStep, runStep, trySwap_outcome, if_neg hlost, period_added] at hstep
  have hsum : BitVec.ofNat 32 ((k + 1) * (timePeriod timeout).toNat) < timeout ↔
      (k + 1) * (timePeriod timeout).toNat % 2 ^ 32 < timeout.toNat := by
    rw [BitVec.lt_def, BitVec.toNat_ofNat]
  rw [← hsum]
  constructor
  · intro hmore
    rw [if_pos hmore] at hstep
    have hnext : 2 + 2 * (k + 1) = 4 + 2 * k := by omega
    rw [Waits, hnext]
    exact hstep
  · intro hover
    rw [if_neg hover] at hstep
    exact hstep

/-- As long as every attempt is lost the call makes all it has to make. -/
theorem waits_of_lost (hzero : Waits env me timeout 0) (hpos : timeout ≠ 0) {k : Nat}
    (hk : k < timedAttempts timeout) (hlost : ∀ i, i < k → ¬ env.free (4 + 2 * i)) :
    Waits env me timeout k := by
  induction k with
  | zero => exact hzero
  | succ k ih =>
    have hwaits := ih (Nat.lt_of_succ_lt hk) (fun i hi => hlost i (Nat.lt_succ_of_lt hi))
    have hsum := periods_lt hpos hk
    have hfits := Nat.mod_eq_of_lt (Nat.lt_trans hsum timeout.isLt)
    apply (waits_lost hwaits (hlost k (Nat.lt_succ_self k))).1
    rw [hfits]
    exact hsum

/-- **When the sum wraps around** after the last attempt the call goes on. -/
theorem waits_of_wrap (hzero : Waits env me timeout 0) (hpos : timeout ≠ 0)
    (hwrap : ¬ timedAttempts timeout * (timePeriod timeout).toNat < 2 ^ 32)
    (hlost : ∀ i, i < timedAttempts timeout → ¬ env.free (4 + 2 * i)) :
    Waits env me timeout (timedAttempts timeout) := by
  obtain ⟨k, hk⟩ := Nat.exists_eq_succ_of_ne_zero (Nat.ne_of_gt (timedAttempts_pos hpos))
  have hlast : k < timedAttempts timeout := hk ▸ Nat.lt_succ_self k
  have hwaits := waits_of_lost hzero hpos hlast (fun i hi => hlost i (Nat.lt_trans hi hlast))
  have hbelow := periods_lt hpos hlast
  have hperiod := timePeriod_le timeout
  have hword := timeout.isLt
  rw [hk, Nat.succ_eq_add_one] at hwrap ⊢
  apply (waits_lost hwaits (hlost k hlast)).1
  -- what is left of the sum is less than one period
  rw [Nat.succ_mul] at hwrap ⊢
  omega

/-! ### Counting attempts and delays -/

theorem furtherAttempts_next {n : Nat} {pc : Pc} (hn : 0 < n)
    (h : acquireCall env me timeout n = .next pc) :
    furtherAttempts env me timeout (n + 1) =
      furtherAttempts env me timeout n + if pc.attempts = true then 1 else 0 := by
  rw [furtherAttempts, h]
  simp only [hn, true_and]

theorem requestedDelay_next {n : Nat} {pc : Pc}
    (h : acquireCall env me timeout n = .next pc) :
    requestedDelay env me timeout (n + 1) =
      requestedDelay env me timeout n + pc.delayTicks := by
  rw [requestedDelay, h]

theorem furtherAttempts_mono {n m : Nat} (h : n ≤ m) :
    furtherAttempts env me timeout n ≤ furtherAttempts env me timeout m := by
  induction m, h using Nat.le_induction with
  | base => exact Nat.le_refl _
  | succ m _ ih => exact Nat.le_trans ih (Nat.le_add_right _ _)

/-- The first two steps neither wait nor try again. -/
theorem counts_two (h : FindsTaken env me) :
    furtherAttempts env me timeout 2 = 0 ∧ requestedDelay env me timeout 2 = 0 := by
  have hzero : acquireCall env me timeout 0 = .next (.acqSwap timeout) := by
    rw [acquireCall, startAcquire, if_pos h.active]
  have hone : acquireCall env me timeout 1 = .next (.acqReadOwner timeout) := by
    rw [acquireCall_next hzero, ownStep, runStep, trySwap_outcome, if_neg h.taken]
  constructor
  · rw [furtherAttempts_next Nat.one_pos hone, furtherAttempts, hzero]
    rfl
  · rw [requestedDelay_next hone, requestedDelay_next hzero]
    rfl

/-- A round is one delay and one attempt. -/
theorem counts_round {k : Nat} (h : Waits env me timeout k) :
    furtherAttempts env me timeout (4 + 2 * k) =
        furtherAttempts env me timeout (2 + 2 * k) + 1 ∧
      requestedDelay env me timeout (4 + 2 * k) =
        requestedDelay env me timeout (2 + 2 * k) + (timePeriod timeout).toNat := by
  have hattempt := waits_attempt h
  have hthree : 3 + 2 * k = 2 + 2 * k + 1 := by omega
  have hfour : 4 + 2 * k = 2 + 2 * k + 1 + 1 := by omega
  rw [hthree] at hattempt
  rw [hfour]
  constructor
  · rw [furtherAttempts_next (Nat.succ_pos _) hattempt, furtherAttempts_next (by omega) h]
    rfl
  · rw [requestedDelay_next hattempt, requestedDelay_next h]
    rfl

theorem counts_waits (h : FindsTaken env me) {k : Nat}
    (hwaits : ∀ i, i < k → Waits env me timeout i) :
    furtherAttempts env me timeout (2 + 2 * k) = k ∧
      requestedDelay env me timeout (2 + 2 * k) = k * (timePeriod timeout).toNat := by
  induction k with
  | zero =>
    rw [Nat.zero_mul]
    exact counts_two h
  | succ k ih =>
    obtain ⟨hattempts, hdelay⟩ := ih (fun i hi => hwaits i (Nat.lt_succ_of_lt hi))
    obtain ⟨hround, hmore⟩ := counts_round (hwaits k (Nat.lt_succ_self k))
    have hindex : 2 + 2 * (k + 1) = 4 + 2 * k := by omega
    rw [hindex, hround, hmore, hattempts, hdelay, Nat.succ_mul]
    exact ⟨rfl, rfl⟩

/-- **Timing out** after the last attempt, when the sum has not wrapped around. -/
theorem timesOut_of_fits (h : FindsTaken env me) (hzero : Waits env me timeout 0)
    (hpos : timeout ≠ 0)
    (hfits : timedAttempts timeout * (timePeriod timeout).toNat < 2 ^ 32)
    (hlost : ∀ i, i < timedAttempts timeout → ¬ env.free (4 + 2 * i)) :
    ∃ n, ReturnsAt env me timeout n .osErrorTimeout ∧
      furtherAttempts env me timeout (n + 1) = timedAttempts timeout ∧
        timeout.toNat ≤ requestedDelay env me timeout (n + 1) := by
  obtain ⟨k, hk⟩ := Nat.exists_eq_succ_of_ne_zero (Nat.ne_of_gt (timedAttempts_pos hpos))
  have hlast : k < timedAttempts timeout := hk ▸ Nat.lt_succ_self k
  have hall : ∀ i, i < k + 1 → Waits env me timeout i := by
    intro i hi
    exact waits_of_lost hzero hpos (by omega) (fun j hj => hlost j (by omega))
  have hk' : Waits env me timeout k := hall k (Nat.lt_succ_self k)
  have hover : ¬ (k + 1) * (timePeriod timeout).toNat % 2 ^ 32 < timeout.toNat := by
    have hsum := le_periods hpos
    rw [hk, Nat.succ_eq_add_one] at hsum hfits
    rw [Nat.mod_eq_of_lt hfits]
    exact Nat.not_lt.mpr hsum
  have hret := (waits_lost hk' (hlost k hlast)).2 hover
  obtain ⟨hattempts, hdelay⟩ := counts_waits h hall
  have hindex : 3 + 2 * k + 1 = 4 + 2 * k := by omega
  have hround : 2 + 2 * (k + 1) = 4 + 2 * k := by omega
  rw [hround] at hattempts hdelay
  refine ⟨3 + 2 * k, ⟨⟨_, waits_attempt hk'⟩, ?_⟩, ?_, ?_⟩
  · rw [hindex]
    exact hret
  · rw [hindex, hattempts, hk]
  · rw [hindex, hdelay, ← Nat.succ_eq_add_one, ← hk]
    exact le_periods hpos

/-- **Acquiring** in the first attempt that finds the mutex free. -/
theorem acquires_of_free (h : FindsTaken env me) (hzero : Waits env me timeout 0)
    (hpos : timeout ≠ 0) {k : Nat} (hk : k < timedAttempts timeout)
    (hlost : ∀ i, i < k → ¬ env.free (4 + 2 * i)) (hfree : env.free (4 + 2 * k)) :
    ∃ n, ReturnsAt env me timeout n .osOK ∧ furtherAttempts env me timeout (n + 1) = k + 1 ∧
      ∃ m, m ≤ n ∧ acquireCall env me timeout m = .next .acqWriteOwner ∧
        (ownStep env me (m + 1) .acqWriteOwner).1.owner = some me := by
  have hall : ∀ i, i < k + 1 → Waits env me timeout i := by
    intro i hi
    exact waits_of_lost hzero hpos (by omega) (fun j hj => hlost j (by omega))
  have howner := waits_won (hall k (Nat.lt_succ_self k)) hfree
  obtain ⟨hcount, hret⟩ := acquireCall_won howner
  have hattempts := (counts_waits h hall).1
  have hround : 2 + 2 * (k + 1) = 4 + 2 * k := by omega
  rw [hround] at hattempts
  refine ⟨4 + 2 * k + 1, ⟨⟨_, hcount⟩, hret⟩, ?_, 4 + 2 * k, Nat.le_succ _, howner, rfl⟩
  rw [furtherAttempts_next (Nat.succ_pos _) hcount, furtherAttempts_next (by omega) howner,
    hattempts]
  rfl

/-- **Not timing out**: when the sum wraps around, one attempt too many is made. -/
theorem not_timedAcquire_of_wrap (h : FindsTaken env me) (hzero : Waits env me timeout 0)
    (hpos : timeout ≠ 0)
    (hwrap : ¬ timedAttempts timeout * (timePeriod timeout).toNat < 2 ^ 32)
    (hlost : ∀ i, i < timedAttempts timeout → ¬ env.free (4 + 2 * i)) :
    ¬ TimedAcquire env me timeout := by
  intro hspec
  obtain ⟨n, ⟨⟨pc, hpc⟩, hret⟩, hattempts, -⟩ := hspec.timesOut hlost
  have hwaits := waits_of_wrap hzero hpos hwrap hlost
  have hall : ∀ i, i < timedAttempts timeout + 1 → Waits env me timeout i := by
    intro i hi
    rcases Nat.lt_or_eq_of_le (Nat.le_of_lt_succ hi) with hlt | rfl
    · exact waits_of_lost hzero hpos hlt (fun j hj => hlost j (Nat.lt_trans hj hlt))
    · exact hwaits
  -- one attempt too many has been made by the time the call returns
  have hlate : 3 + 2 * timedAttempts timeout ≤ n := by
    by_contra hearly
    have hlater := acquireCall_of_ret hret (m := 3 + 2 * timedAttempts timeout) (by omega)
    rw [waits_attempt hwaits] at hlater
    exact nomatch hlater
  have hcount := (counts_waits h hall).1
  have hmono : furtherAttempts env me timeout (2 + 2 * (timedAttempts timeout + 1)) ≤
      furtherAttempts env me timeout (n + 1) := furtherAttempts_mono (by omega)
  omega

/-- **Waiting with a timeout** ends with it exactly when the sum of the periods
    does not wrap around, or is not needed. -/
theorem timedAcquire_iff (env : CallEnv Tid) (me : Tid) (timeout : BitVec 32)
    (hpos : timeout ≠ 0) (hforever : timeout ≠ osWaitForever) (h : FindsTaken env me)
    (hspin : (env.entry 2).ifSpin = false) :
    TimedAcquire env me timeout ↔
      timeout.toNat ≤ 2 ^ 32 / flexpretWaitPeriod.toNat * flexpretWaitPeriod.toNat ∨
        ∃ k, k < timedAttempts timeout ∧ env.free (4 + 2 * k) := by
  have hzero := waits_zero h hspin hpos hforever
  rw [← periods_fit_iff hpos]
  constructor
  · intro hspec
    by_contra hnot
    obtain ⟨hwrap, hnone⟩ := not_or.mp hnot
    exact not_timedAcquire_of_wrap h hzero hpos hwrap
      (fun k hk hfree => hnone ⟨k, hk, hfree⟩) hspec
  · intro hcond
    constructor
    case timesOut =>
      intro hlost
      rcases hcond with hfits | ⟨k, hk, hfree⟩
      · exact timesOut_of_fits h hzero hpos hfits hlost
      · exact absurd hfree (hlost k hk)
    case acquires => exact fun k hk hlost hfree => acquires_of_free h hzero hpos hk hlost hfree

end call

/-- Thread 1 has a mutex for good that is not a spin mutex. -/
def takenMutex : MutexState (Fin 2) := { takenSpinMutex with ifSpin := false }

/-- Thread 0 waits for it. -/
def waitEnv : CallEnv (Fin 2) where
  entry := fun _ => takenMutex
  csrs := fun _ _ => 1
  time := fun n => n

theorem waitEnv_findsTaken : FindsTaken waitEnv 0 := by
  constructor
  case active => rfl
  case taken =>
    show ¬ (1 : Int) = 0
    decide
  case notMine =>
    show ¬ ((some 1 : Option (Fin 2)) = some 0 ∧ false = true)
    decide

/-- A timeout of 25 microseconds ends with the third attempt. -/
theorem waitEnv_timedAcquire : TimedAcquire waitEnv (0 : Fin 2) 25000 :=
  (timedAcquire_iff waitEnv 0 25000 (by decide) (by decide) waitEnv_findsTaken rfl).mpr
    (.inl (by decide))

/-- The longest timeout below `osWaitForever` does not end after its attempts. -/
theorem waitEnv_longest_not_timedAcquire :
    FindsTaken waitEnv 0 ∧ ¬ TimedAcquire waitEnv (0 : Fin 2) 0xFFFFFFFE := by
  have hpos : (0xFFFFFFFE : BitVec 32) ≠ 0 := by decide
  have hzero : Waits waitEnv (0 : Fin 2) 0xFFFFFFFE 0 :=
    waits_zero waitEnv_findsTaken rfl hpos (by decide)
  refine ⟨waitEnv_findsTaken, not_timedAcquire_of_wrap waitEnv_findsTaken hzero hpos ?_ ?_⟩
  · decide
  · exact fun _ _ => waitEnv_findsTaken.taken

end Flexpret.Os
