import Flexpret.Os.TimerStop

/-! # Delays and Timers Are Not Early

    `osDelay` and `osTimerStart` read the clock, add the ticks and write the
    compare register; from then on the hardware looks whether the clock has come
    to it.  It takes a compare value that lies more than half the range of the
    clock ahead for one that has been passed already.
-/

open Transition

namespace Flexpret.Os

/-! ## Section 1: Looking at the clock -/

/-- **Early**: before its time a compare value counts as reached exactly when it
    is more than half the range of the clock ahead. -/
theorem reached_early_iff {start now : Nat} {ticks : BitVec 32} (hstart : start ≤ now)
    (hearly : now < start + ticks.toNat) :
    Core.reached (BitVec.ofNat 32 now) (ticks + BitVec.ofNat 32 start) = true ↔
      2 ^ 31 < start + ticks.toNat - now := by
  have hticks := ticks.isLt
  have hdiff : (BitVec.ofNat 32 now - (ticks + BitVec.ofNat 32 start)).toNat =
      2 ^ 32 - (start + ticks.toNat - now) := by
    rw [BitVec.toNat_sub, BitVec.toNat_add, BitVec.toNat_ofNat, BitVec.toNat_ofNat]
    omega
  unfold Core.reached
  rw [BitVec.msb_eq_decide, hdiff, Bool.not_eq_true', decide_eq_false_iff_not]
  omega

/-- A value that is reached has come, when at most half the range was left at
    some time before. -/
theorem time_of_reached {start look now : Nat} {ticks : BitVec 32} (hstart : start ≤ look)
    (hlook : look ≤ now) (hticks : ticks.toNat ≤ 2 ^ 31 + (look - start))
    (h : Core.reached (BitVec.ofNat 32 now) (ticks + BitVec.ofNat 32 start) = true) :
    start + ticks.toNat ≤ now := by
  by_contra hearly
  have hmore := (reached_early_iff (Nat.le_trans hstart hlook) (Nat.not_le.mp hearly)).mp h
  omega

/-! ## Section 2: Runs in time -/

/-- The first `len` steps of a run and the times at which they are made.  Time
    counts the units since reset; the clock is its low 32 bits. -/
structure TimedRun (len : Nat) where
  state : Nat → TimerThread
  time : Nat → Nat
  event : Nat → TimerEvent
  reachable : timerSystem.Reachable (state 0)
  step : ∀ n, n < len →
    (state n).step (BitVec.ofNat 32 (time n), event n) = some (state (n + 1))
  later : ∀ n, time n < time (n + 1)

/-- The step at this point writes the compare register. -/
def TimerPc.writesCompare : TimerPc → Bool
  | .startCompare _ _ | .stopCompare | .deleteCompare | .setFuncCompare _ _
  | .untilCompare _ | .sleepCompare _ _ _ => true
  | _ => false

/-- The thread, its callback or its handler is about to write the compare
    register. -/
def Context.writesCompare : Context → Bool
  | .thread (.api pc) => pc.writesCompare
  | .trap _ (.callback (.api pc)) _ => pc.writesCompare
  | .trap _ (.periodicCompare _) _ => true
  | _ => false

/-- The step writes the compare register, as no interrupt is taken instead. -/
def TimerThread.writesCompare (s : TimerThread) (now : BitVec 32) : Bool :=
  !((s.checked now).ie && (s.checked now).mtie) && s.context.writesCompare

namespace TimedRun

variable {len : Nat} (r : TimedRun len)

def clock (n : Nat) : BitVec 32 := BitVec.ofNat 32 (r.time n)

def pc? (n : Nat) : Option TimerPc := (r.state n).context.pc?

/-- No step between `k` and `j` writes the compare register. -/
def CompareKept (k j : Nat) : Prop :=
  ∀ m, k < m → m < j → (r.state m).writesCompare (r.clock m) = false

/-- **A delay** of `ticks`: step `i` reads the clock, step `k` writes the compare
    register, step `c` is the first to look at it and step `j` finds it
    reached. -/
structure Delays (ticks : BitVec 32) (i k c j : Nat) : Prop where
  reads : r.pc? i = some (.sleepTime ticks 1)
  hasRead : r.pc? (i + 1) = some (.sleepCompare ticks (r.clock i) 1)
  writes : i < k ∧ r.pc? k = some (.sleepCompare ticks (r.clock i) 1)
  hasWritten : r.pc? (k + 1) = some (.sleepDu ticks 1)
  looks : k < c ∧ r.pc? c = some (.asleep ticks 1)
  looksFirst : ∀ m, k < m → m < c → r.pc? m ≠ some (.asleep ticks 1)
  ends : c ≤ j ∧ r.pc? j = some (.asleep ticks 1)
  hasEnded : j < len ∧ r.pc? (j + 1) = some (.sleepTime ticks 0)
  kept : r.CompareKept k j

/-- **A timer** of `ticks`: step `i` reads the clock, step `k` writes the compare
    register, step `a` arms the timer, so that step `a + 1` is the first to look
    at it, and step `j` enters the callback. -/
structure StartsTimer (ticks : BitVec 32) (i k a j : Nat) : Prop where
  reads : r.pc? i = some (.startTime ticks)
  hasRead : r.pc? (i + 1) = some (.startCompare ticks (r.clock i))
  writes : i < k ∧ r.pc? k = some (.startCompare ticks (r.clock i))
  hasWritten : r.pc? (k + 1) = some .startExpire
  arms : k < a ∧ r.pc? a = some .startExpire
  hasArmed : (r.state (a + 1)).context.idle = true
  enters : a < j ∧ ∃ handler back, (r.state j).context = .trap handler .call back
  hasEntered : j < len ∧
    ∃ handler back, (r.state (j + 1)).context = .trap handler (.callback .user) back
  kept : r.CompareKept k j

end TimedRun

/-- **Delays are not early**: after a delay of `ticks` that reads `clock`, and
    whose compare value the hardware looks at `d` time units later, the next
    instruction executes no earlier than `ticks` time units after the read. -/
def DelayNotEarly (clock ticks : BitVec 32) (d : Nat) : Prop :=
  ∀ {len : Nat} (r : TimedRun len) (i k c j : Nat), r.Delays ticks i k c j →
    r.clock i = clock → r.time c = r.time i + d → r.time i + ticks.toNat ≤ r.time (j + 1)

/-- **Timers are not early**: the same of the callback of a timer. -/
def TimerNotEarly (clock ticks : BitVec 32) (d : Nat) : Prop :=
  ∀ {len : Nat} (r : TimedRun len) (i k a j : Nat), r.StartsTimer ticks i k a j →
    r.clock i = clock → r.time (a + 1) = r.time i + d → r.time i + ticks.toNat ≤ r.time j

/-! ## Section 3: What a step does to the compare register -/

/-- A trap routine does not start inside a call. -/
theorem pc?_entry (handler : IeHandler) (back : Point) :
    (Context.trap handler handler.entry back).pc? = none := by
  cases handler <;> rfl

/-- **A step of a call** that stays in the call is the step of the code. -/
theorem step_of_pc? {s s' : TimerThread} {now : BitVec 32} {ev : TimerEvent} {pc : TimerPc}
    (h : s.step (now, ev) = some s') (hpc : s.context.pc? = some pc)
    (hexec : ((s.checked now).ie && (s.checked now).mtie) = false) :
    s'.cell = (timerStep now (s.checked now).cell pc).1 ∧
      s'.mtie = (s.checked now).mtie ∧
      ((∃ p, s.context = .thread p) ∧
          s'.context = .thread (timerStep now (s.checked now).cell pc).2.point ∨
        ∃ handler back p, s.context = .trap handler (.callback p) back ∧
          s'.context = .trap handler
            (.callback (timerStep now (s.checked now).cell pc).2.point) back) := by
  obtain ⟨hie, hmtie, -⟩ | ⟨-, hcase⟩ := step_cases h
  · rw [hie, hmtie] at hexec
    exact absurd hexec (by decide)
  generalize hctx : s.context = ctx at hcase hpc
  cases hcase with
  | thread hp =>
    cases hp with
    | api pc' =>
      obtain rfl : pc' = pc := Option.some.inj hpc
      exact ⟨rfl, rfl, .inl ⟨⟨_, rfl⟩, rfl⟩⟩
    | _ => exact absurd hpc nofun
  | @callback handler p back _ _ hp =>
    cases hp with
    | api pc' =>
      obtain rfl : pc' = pc := Option.some.inj hpc
      exact ⟨rfl, rfl, .inr ⟨handler, back, _, rfl, rfl⟩⟩
    | _ => exact absurd hpc nofun
  | _ => exact absurd hpc nofun

/-- Where a call goes on, or returns to the code around it, no interrupt has been
    taken. -/
theorem exec_of_context {s s' : TimerThread} {now : BitVec 32} {ev : TimerEvent}
    (h : s.step (now, ev) = some s')
    (hgoes : s'.context.pc? ≠ none ∨ s'.context.idle = true) :
    ((s.checked now).ie && (s.checked now).mtie) = false := by
  obtain ⟨-, -, p, -, rfl⟩ | ⟨hexec, -⟩ := step_cases h
  · rcases hgoes with hpc | hidle
    · exact absurd (pc?_entry _ _) hpc
    · exfalso
      revert hidle
      cases s.cell.ieHandler <;> nofun
  · exact hexec

/-- The step of a call from one of its points to another. -/
theorem timerStep_of_pc? {s s' : TimerThread} {now : BitVec 32} {ev : TimerEvent}
    {pc pc' : TimerPc} (h : s.step (now, ev) = some s') (hpc : s.context.pc? = some pc)
    (hpc' : s'.context.pc? = some pc') :
    s'.cell = (timerStep now (s.checked now).cell pc).1 ∧
      (timerStep now (s.checked now).cell pc).2 = .next pc' := by
  have hsome : s'.context.pc? ≠ none := by
    rw [hpc']
    exact Option.some_ne_none _
  obtain ⟨hcell, -, hctx⟩ := step_of_pc? h hpc (exec_of_context h (.inl hsome))
  refine ⟨hcell, ?_⟩
  have hpoint : (timerStep now (s.checked now).cell pc).2.point = .api pc' := by
    generalize (timerStep now (s.checked now).cell pc).2.point = p at hctx
    obtain ⟨-, hctx⟩ | ⟨_, _, _, -, hctx⟩ := hctx
    · rw [hctx] at hpc'
      cases p with
      | user => exact absurd hpc' nofun
      | api pc'' => exact congrArg Point.api (Option.some.inj hpc')
    · rw [hctx] at hpc'
      cases p with
      | user => exact absurd hpc' nofun
      | api pc'' => exact congrArg Point.api (Option.some.inj hpc')
  generalize (timerStep now (s.checked now).cell pc).2 = outcome at hpoint
  cases outcome with
  | next pc'' =>
    injection hpoint with hpoint
    rw [hpoint]
  | ret status => exact absurd hpoint nofun

/-- The hardware's look at the timer leaves the compare register alone. -/
theorem checked_compare (s : TimerThread) (now : BitVec 32) :
    (s.checked now).cell.compare = s.cell.compare := by
  unfold TimerThread.checked
  split <;> rfl

theorem timerStep_compare {pc : TimerPc} (h : pc.writesCompare = false) (now : BitVec 32)
    (c : TimerCell) : (timerStep now c pc).1.compare = c.compare := by
  cases pc with
  | asleep period turns =>
    simp only [timerStep]
    split <;> rfl
  | startCompare | stopCompare | deleteCompare | setFuncCompare | untilCompare | sleepCompare =>
    exact absurd h Bool.noConfusion
  | _ => rfl

/-- **Kept**: a step that does not write the compare register keeps it. -/
theorem step_compare {s s' : TimerThread} {now : BitVec 32} {ev : TimerEvent}
    (h : s.step (now, ev) = some s') (hkept : s.writesCompare now = false) :
    s'.cell.compare = s.cell.compare := by
  rw [← checked_compare s now]
  obtain ⟨-, -, p, -, rfl⟩ | ⟨hexec, hcase⟩ := step_cases h
  · rfl
  have hwrites : s.context.writesCompare = false := by
    rw [TimerThread.writesCompare, hexec, Bool.not_false, Bool.true_and] at hkept
    exact hkept
  generalize s.context = ctx at hcase hwrites
  cases hcase with
  | thread hp =>
    cases hp with
    | api pc => exact timerStep_compare hwrites now _
    | _ => rfl
  | callback hp =>
    cases hp with
    | api pc => exact timerStep_compare hwrites now _
    | _ => rfl
  | periodicCompare => exact absurd hwrites Bool.noConfusion
  | _ => rfl

namespace TimedRun

variable {len : Nat} {r : TimedRun len}

theorem time_mono {m n : Nat} (h : m ≤ n) : r.time m ≤ r.time n := by
  induction n, h using Nat.le_induction with
  | base => exact Nat.le_refl _
  | succ n _ ih => exact Nat.le_trans ih (Nat.le_of_lt (r.later n))

theorem reachable_state {n : Nat} (h : n ≤ len) : timerSystem.Reachable (r.state n) := by
  induction n with
  | zero => exact r.reachable
  | succ n ih => exact (ih (Nat.le_of_lt h)).step _ (r.step n h)

/-- What has been written to the compare register stays there. -/
theorem compare_of_kept {k j m : Nat} (hkept : r.CompareKept k j) (hlen : j ≤ len)
    (hkm : k + 1 ≤ m) (hmj : m ≤ j) :
    (r.state m).cell.compare = (r.state (k + 1)).cell.compare := by
  induction m, hkm using Nat.le_induction with
  | base => rfl
  | succ m hkm ih =>
    have hstep := r.step m (Nat.lt_of_lt_of_le hmj hlen)
    rw [step_compare hstep (hkept m hkm hmj)]
    exact ih (Nat.le_of_lt hmj)

end TimedRun

/-! ## Section 4: Half the range is enough -/

/-- A delay that has at most half the range left at the first look is not
    early. -/
theorem delayNotEarly_of_le {clock ticks : BitVec 32} {d : Nat}
    (hticks : ticks.toNat ≤ 2 ^ 31 + d) : DelayNotEarly clock ticks d := by
  intro len r i k c j hdelay _ hlook
  have hkc := hdelay.looks.1
  have hcj := hdelay.ends.1
  have hik := hdelay.writes.1
  have hlen := hdelay.hasEnded.1
  have hwritten := (timerStep_of_pc? (r.step k (by omega)) hdelay.writes.2 hdelay.hasWritten).1
  have hcompare : (r.state j).cell.compare = r.clock i + ticks := by
    rw [TimedRun.compare_of_kept hdelay.kept (Nat.le_of_lt hlen) (by omega) (Nat.le_refl j),
      hwritten]
    rfl
  -- the thread goes on because its compare value is reached
  have hreached : Core.reached (r.clock j) (r.clock i + ticks) = true := by
    have hnext := (timerStep_of_pc? (r.step j hlen) hdelay.ends.2 hdelay.hasEnded.2).2
    rw [← hcompare, ← checked_compare _ (r.clock j)]
    by_contra hnot
    have hasleep : (timerStep (r.clock j) ((r.state j).checked (r.clock j)).cell
        (.asleep ticks 1)).2 = .next (.asleep ticks 1) := by
      simp only [timerStep]
      rw [if_neg hnot]
    injection hasleep.symm.trans hnext with hpc
    cases hpc
  rw [BitVec.add_comm] at hreached
  have hstart : r.time i ≤ r.time c := TimedRun.time_mono (by omega)
  have hcome := time_of_reached hstart (TimedRun.time_mono hcj) (by omega) hreached
  exact Nat.le_trans hcome (Nat.le_of_lt (r.later j))

/-- An interrupt that a step leaves pending for the thread expires in it. -/
theorem execCase_fired {s s' : TimerThread} {now : BitVec 32} {fired : Bool} {ctx : Context}
    {ev : TimerEvent} (hctx : s.context = ctx) (h : ExecCase s now fired ctx ev s')
    (hnot : ctx.inThread = true → s.mtie = false) (hin : s'.context.inThread = true)
    (hpending : s'.mtie = true) : fired = true := by
  cases h with
  | thread hp =>
    have hmtie := hnot rfl
    cases hp <;> exact absurd (hmtie.symm.trans hpending) Bool.false_ne_true
  | callback hp =>
    cases hp with
    | user =>
      rw [hctx] at hin
      exact absurd hin Bool.false_ne_true
    | _ => exact absurd hin Bool.false_ne_true
  | trapRet => exact hpending
  | _ => exact absurd hin Bool.false_ne_true

/-- Only an interrupt leads to the point where the callback is called. -/
theorem execCase_ne_call {s s' : TimerThread} {now : BitVec 32} {fired : Bool} {ctx : Context}
    {ev : TimerEvent} {handler : IeHandler} {back : Point} (hctx : s.context = ctx)
    (h : ExecCase s now fired ctx ev s') : s'.context ≠ .trap handler .call back := by
  intro hcall
  cases h with
  | thread hp =>
    cases hp with
    | user => exact nomatch hctx.symm.trans hcall
    | _ => exact nomatch hcall
  | callback hp =>
    cases hp with
    | user => exact nomatch hctx.symm.trans hcall
    | _ => exact nomatch hcall
  | @callbackReturns handler' _ =>
    injection hcall with _ hpc _
    exact handler'.afterCallback_ne.1 hpc
  | _ => exact nomatch hcall

/-- Outside the handler interrupts are enabled, so one that is pending is
    taken. -/
theorem not_pending_of_exec {s : TimerThread} {now : BitVec 32} (hwf : s.WellFormed)
    (hctx : s.context.inThread = true)
    (hexec : ((s.checked now).ie && (s.checked now).mtie) = false) :
    (s.checked now).mtie = false := by
  rw [checked_ie, hwf.ie, hctx, Bool.true_and] at hexec
  exact hexec

/-- The timer has expired in a step after `a` and before `n`. -/
def TimedRun.FiredSince {len : Nat} (r : TimedRun len) (a n : Nat) : Prop :=
  ∃ f, a < f ∧ f < n ∧ (r.state f).fires (r.clock f) = true

/-- What holds after step `a` has armed the timer: an interrupt that is pending
    for the thread, or that has been taken for the callback, comes from a look at
    the timer since. -/
structure TimedRun.PendingFired {len : Nat} (r : TimedRun len) (a n : Nat) : Prop where
  pending : (r.state n).context.inThread = true → (r.state n).mtie = true → r.FiredSince a n
  call : ∀ handler back, (r.state n).context = .trap handler .call back → r.FiredSince a n

namespace TimedRun

variable {len : Nat} {r : TimedRun len} {a n : Nat}

theorem FiredSince.next (h : r.FiredSince a n) : r.FiredSince a (n + 1) := by
  obtain ⟨f, haf, hfn, hfires⟩ := h
  exact ⟨f, haf, Nat.lt_succ_of_lt hfn, hfires⟩

/-- **Arming** leaves no interrupt pending for the thread. -/
theorem pendingFired_armed (hlen : a < len) (hpc : r.pc? a = some .startExpire)
    (hidle : (r.state (a + 1)).context.idle = true) : r.PendingFired a (a + 1) := by
  have hstep := r.step a hlen
  have hexec := exec_of_context hstep (.inr hidle)
  have hwf := wellFormed_reachable (r.reachable_state (Nat.le_of_lt hlen))
  obtain ⟨-, hmtie, hctx⟩ := step_of_pc? hstep hpc hexec
  constructor
  case pending =>
    intro hthread hpending
    obtain ⟨⟨p, hp⟩, -⟩ | ⟨handler, back, p, -, hctx⟩ := hctx
    · have hin : (r.state a).context.inThread = true := by rw [hp, Context.inThread]
      rw [hmtie, not_pending_of_exec hwf hin hexec] at hpending
      exact Bool.noConfusion hpending
    · rw [hctx] at hthread
      exact Bool.noConfusion hthread
  case call =>
    intro handler back hcall
    rw [hcall] at hidle
    exact Bool.noConfusion hidle

/-- **One step** after the timer is armed. -/
theorem pendingFired_next (h : r.PendingFired a n) (han : a < n) (hlen : n < len) :
    r.PendingFired a (n + 1) := by
  have hwf := wellFormed_reachable (r.reachable_state (Nat.le_of_lt hlen))
  have hnow : (r.state n).fires (r.clock n) = true → r.FiredSince a (n + 1) :=
    fun hfires => ⟨n, han, Nat.lt_succ_self n, hfires⟩
  obtain ⟨-, hmtie, p, hctx, hnext⟩ | ⟨hexec, hcase⟩ := step_cases (r.step n hlen)
  · -- the interrupt is taken: the timer expires now, or it has before
    have hfired : r.FiredSince a (n + 1) := by
      cases hfires : (r.state n).fires (r.clock n) with
      | true => exact hnow hfires
      | false =>
        have hsame := checked_same hfires
        rw [clock] at hsame
        rw [hsame] at hmtie
        have hin : (r.state n).context.inThread = true := by rw [hctx, Context.inThread]
        exact (h.pending hin hmtie).next
    exact ⟨fun _ _ => hfired, fun _ _ _ => hfired⟩
  · have hthread : (r.state n).context.inThread = true →
        ((r.state n).checked (r.clock n)).mtie = false :=
      fun hin => not_pending_of_exec hwf hin hexec
    have hchecked := checked_context (r.state n) (r.clock n)
    constructor
    case pending =>
      exact fun hin hpending => hnow (execCase_fired hchecked hcase hthread hin hpending)
    case call => exact fun handler back hcall => absurd hcall (execCase_ne_call hchecked hcase)

/-- **The callback** is entered only after the timer has expired. -/
theorem fired_of_enters {ticks : BitVec 32} {i k j : Nat} (h : r.StartsTimer ticks i k a j) :
    r.FiredSince a j := by
  have haj := h.enters.1
  have hlen := h.hasEntered.1
  have hall : ∀ n, a + 1 ≤ n → n ≤ j → r.PendingFired a n := by
    intro n han
    induction n, han using Nat.le_induction with
    | base => exact fun _ => pendingFired_armed (by omega) h.arms.2 h.hasArmed
    | succ n han ih =>
      intro hnj
      exact pendingFired_next (ih (by omega)) han (by omega)
  obtain ⟨handler, back, hcall⟩ := h.enters.2
  exact (hall j haj (Nat.le_refl j)).call handler back hcall

end TimedRun

/-- A timer that has at most half the range left at the first look is not
    early. -/
theorem timerNotEarly_of_le {clock ticks : BitVec 32} {d : Nat}
    (hticks : ticks.toNat ≤ 2 ^ 31 + d) : TimerNotEarly clock ticks d := by
  intro len r i k a j hstart _ hlook
  obtain ⟨f, haf, hfj, hfires⟩ := TimedRun.fired_of_enters hstart
  have hik := hstart.writes.1
  have hka := hstart.arms.1
  have hlen := hstart.hasEntered.1
  have hwritten := (timerStep_of_pc? (r.step k (by omega)) hstart.writes.2 hstart.hasWritten).1
  have hcompare : (r.state f).cell.compare = ticks + r.clock i := by
    rw [TimedRun.compare_of_kept hstart.kept (Nat.le_of_lt hlen) (by omega) (Nat.le_of_lt hfj),
      hwritten]
    rfl
  have hreached : Core.reached (r.clock f) (ticks + r.clock i) = true := by
    rw [← hcompare]
    exact (Bool.and_eq_true_iff.mp hfires).2
  have hcome := time_of_reached (TimedRun.time_mono (show i ≤ a + 1 by omega))
    (TimedRun.time_mono haf) (by omega) hreached
  exact Nat.le_trans hcome (TimedRun.time_mono (Nat.le_of_lt hfj))

/-! ## Section 5: More than half the range is too much -/

/-- Times one unit apart, but for a pause before step `n`, which is made `d`
    units after `start`. -/
def pausedTime (start d n m : Nat) : Nat := if m < n then start + m else start + d + (m - n)

theorem pausedTime_later {start d n : Nat} (hd : n ≤ d) (m : Nat) :
    pausedTime start d n m < pausedTime start d n (m + 1) := by
  unfold pausedTime
  split
  · split <;> omega
  · rw [if_neg (by omega)]
    omega

section early

variable (start d : Nat) (ticks : BitVec 32)

/-- A thread in `osDelay`, which has read the clock at `start`, after `n`
    steps. -/
def delayState : Nat → TimerThread
  | 0 => { freshThread with context := .thread (.api (.sleepTime ticks 1)) }
  | 1 =>
      { freshThread with
        context := .thread (.api (.sleepCompare ticks (BitVec.ofNat 32 start) 1)) }
  | 2 =>
      { freshThread with
        cell := freshThread.cell.setCompare (BitVec.ofNat 32 start + ticks)
        context := .thread (.api (.sleepDu ticks 1)) }
  | 3 =>
      { freshThread with
        cell := { freshThread.cell.setCompare (BitVec.ofNat 32 start + ticks) with
          hwTimer := .duWu }
        context := .thread (.api (.asleep ticks 1)) }
  | _ =>
      { freshThread with
        cell := freshThread.cell.setCompare (BitVec.ofNat 32 start + ticks)
        context := .thread (.api (.sleepTime ticks 0)) }

/-- A thread with a one-shot timer. -/
def createdThread : TimerThread :=
  TimerThread.after (callSteps 0 (.timerNew 0x900 .osTimerOnce NULL) 6)

/-- Its cell once the compare register is written. -/
def startedCell : TimerCell :=
  ((createdThread.cell.setHandler .timerHandler).setTicks ticks).setCompare
    (ticks + BitVec.ofNat 32 start)

/-- The thread in `osTimerStart` from the point on where it reads the clock, and
    then in the handler of the timer, after `n` steps. -/
def startState : Nat → TimerThread
  | 0 =>
      { createdThread with
        cell := (createdThread.cell.setHandler .timerHandler).setTicks ticks
        context := .thread (.api (.startTime ticks)) }
  | 1 =>
      { createdThread with
        cell := (createdThread.cell.setHandler .timerHandler).setTicks ticks
        context := .thread (.api (.startCompare ticks (BitVec.ofNat 32 start))) }
  | 2 =>
      { createdThread with
        cell := startedCell start ticks
        start := BitVec.ofNat 32 start
        context := .thread (.api .startExpire) }
  | 3 =>
      { createdThread with
        cell := (startedCell start ticks).interruptExpire
        start := BitVec.ofNat 32 start
        context := .thread .user }
  | 4 =>
      { createdThread with
        cell := startedCell start ticks
        start := BitVec.ofNat 32 start
        ie := false
        mtie := true
        context := .trap .timerHandler .call .user }
  | _ =>
      { createdThread with
        cell := startedCell start ticks
        start := BitVec.ofNat 32 start
        ie := false
        mtie := true
        context := .trap .timerHandler (.callback .user) .user }

variable {start d ticks}

/-- With more than half the range left the first look finds the time reached. -/
theorem reached_of_gt (hticks : 2 ^ 31 + d < ticks.toNat) :
    Core.reached (BitVec.ofNat 32 (start + d)) (ticks + BitVec.ofNat 32 start) = true := by
  refine (reached_early_iff (Nat.le_add_right start d) ?_).mpr ?_
  · omega
  · omega

theorem freshThread_reachable : timerSystem.Reachable freshThread := .init freshThread_atStart

theorem delayState_reachable : timerSystem.Reachable (delayState start ticks 0) :=
  freshThread_reachable.step (0, .call (.delay ticks)) rfl

/-- The step of a call in the thread that no interrupt gets in the way of. -/
theorem step_thread {s : TimerThread} {now : BitVec 32} (pc : TimerPc)
    (hctx : s.context = .thread (.api pc)) (hfires : s.fires now = false) (hmtie : s.mtie = false) :
    s.step (now, .insn) =
      some { s with
        cell := (timerStep now s.cell pc).1
        start := pc.programs s.start
        context := .thread (timerStep now s.cell pc).2.point } := by
  simp only [TimerThread.step, checked_same hfires, hmtie, Bool.and_false, Bool.false_eq_true,
    if_false, TimerThread.exec, hctx, Point.step]

theorem startState_reachable (hticks : ticks ≠ 0) :
    timerSystem.Reachable (startState start ticks 0) := by
  have hcreated : timerSystem.Reachable createdThread := reachable_after (by decide)
  let called := { createdThread with context := .thread (.api (.startCheck ticks)) }
  let checked := { createdThread with
    context := .thread (.api (.startHandler ticks .timerHandler)) }
  let handled := { createdThread with
    cell := createdThread.cell.setHandler .timerHandler
    context := .thread (.api (.startTicks ticks)) }
  have hcall : createdThread.step (0, .call (.timerStart ticks)) = some called := rfl
  have hcheck : called.step (0, .insn) = some checked := by
    have houtcome : timerStep 0 createdThread.cell (.startCheck ticks) =
        (createdThread.cell, .next (.startHandler ticks .timerHandler)) := by
      simp only [timerStep, if_neg hticks]
      rfl
    rw [step_thread (.startCheck ticks) rfl rfl rfl, houtcome]
    rfl
  have hhandler : checked.step (0, .insn) = some handled := rfl
  have hticks : handled.step (0, .insn) = some (startState start ticks 0) := rfl
  exact (((hcreated.step _ hcall).step _ hcheck).step _ hhandler).step _ hticks

theorem delayState_look (hticks : 2 ^ 31 + d < ticks.toNat) :
    (delayState start ticks 3).step (BitVec.ofNat 32 (start + d), .insn) =
      some (delayState start ticks 4) := by
  have hlook : Core.reached (BitVec.ofNat 32 (start + d))
      (delayState start ticks 3).cell.compare = true := by
    show Core.reached _ (BitVec.ofNat 32 start + ticks) = true
    rw [BitVec.add_comm]
    exact reached_of_gt hticks
  rw [step_thread (.asleep ticks 1) rfl rfl rfl]
  simp only [timerStep]
  rw [if_pos hlook]
  rfl

theorem startState_look (hticks : 2 ^ 31 + d < ticks.toNat) :
    (startState start ticks 3).step (BitVec.ofNat 32 (start + d), .insn) =
      some (startState start ticks 4) := by
  have hfires : (startState start ticks 3).fires (BitVec.ofNat 32 (start + d)) = true :=
    reached_of_gt hticks
  simp only [TimerThread.step, checked_fired hfires]
  rfl

/-- A run that delays, and is early. -/
def delayRun (hd : 3 ≤ d) (hticks : 2 ^ 31 + d < ticks.toNat) : TimedRun 4 where
  state := delayState start ticks
  time := pausedTime start d 3
  event := fun _ => .insn
  reachable := delayState_reachable
  step := by
    intro n hn
    match n, hn with
    | 0, _ => rfl
    | 1, _ => rfl
    | 2, _ => rfl
    | 3, _ => exact delayState_look hticks
  later := pausedTime_later hd

theorem delayRun_delays (hd : 3 ≤ d) (hticks : 2 ^ 31 + d < ticks.toNat) :
    (@delayRun start d ticks hd hticks).Delays ticks 0 1 3 3 := by
  constructor
  case reads => rfl
  case hasRead => rfl
  case writes => exact ⟨Nat.one_pos, rfl⟩
  case hasWritten => rfl
  case looks => exact ⟨by decide, rfl⟩
  case looksFirst =>
    intro m hkm hmc
    obtain rfl : m = 2 := by omega
    exact nofun
  case ends => exact ⟨Nat.le_refl 3, rfl⟩
  case hasEnded => exact ⟨by decide, rfl⟩
  case kept =>
    intro m hkm hmj
    obtain rfl : m = 2 := by omega
    rfl

/-- A run that starts a timer, and is early. -/
def startRun (hd : 3 ≤ d) (hticks : 2 ^ 31 + d < ticks.toNat) : TimedRun 5 where
  state := startState start ticks
  time := pausedTime start d 3
  event := fun _ => .insn
  reachable := by
    refine startState_reachable fun hzero => ?_
    rw [hzero] at hticks
    exact absurd hticks (Nat.not_lt_zero _)
  step := by
    intro n hn
    match n, hn with
    | 0, _ => rfl
    | 1, _ => rfl
    | 2, _ => rfl
    | 3, _ => exact startState_look hticks
    | 4, _ => rfl
  later := pausedTime_later hd

theorem startRun_startsTimer (hd : 3 ≤ d) (hticks : 2 ^ 31 + d < ticks.toNat) :
    (@startRun start d ticks hd hticks).StartsTimer ticks 0 1 2 4 := by
  constructor
  case reads => rfl
  case hasRead => rfl
  case writes => exact ⟨Nat.one_pos, rfl⟩
  case hasWritten => rfl
  case arms => exact ⟨by decide, rfl⟩
  case hasArmed => rfl
  case enters => exact ⟨by decide, _, _, rfl⟩
  case hasEntered => exact ⟨by decide, _, _, rfl⟩
  case kept =>
    intro m hkm hmj
    obtain rfl | rfl : m = 2 ∨ m = 3 := by omega
    · rfl
    · exact Bool.and_false _

end early

/-- **Too early**: when more than half the range is left at the first look the
    delay ends with it. -/
theorem not_delayNotEarly {clock ticks : BitVec 32} {d : Nat} (hd : 3 ≤ d)
    (hticks : 2 ^ 31 + d < ticks.toNat) : ¬ DelayNotEarly clock ticks d := by
  intro hspec
  have hclock : BitVec.ofNat 32 clock.toNat = clock := by simp
  have hlate : clock.toNat + ticks.toNat ≤ clock.toNat + d + 1 :=
    hspec (delayRun hd hticks) 0 1 3 3 (delayRun_delays hd hticks) hclock rfl
  omega

/-- **Too early**: and the timer expires at it. -/
theorem not_timerNotEarly {clock ticks : BitVec 32} {d : Nat} (hd : 3 ≤ d)
    (hticks : 2 ^ 31 + d < ticks.toNat) : ¬ TimerNotEarly clock ticks d := by
  intro hspec
  have hclock : BitVec.ofNat 32 clock.toNat = clock := by simp
  have hlate : clock.toNat + ticks.toNat ≤ clock.toNat + d + 1 :=
    hspec (startRun hd hticks) 0 1 2 4 (startRun_startsTimer hd hticks) hclock rfl
  omega

/-! ## Section 6: The condition -/

/-- **Never early**: `osDelay` and `osTimerStart` keep to their ticks in every
    run exactly when at most half the range of the clock is left at the first
    look. -/
theorem notEarly_iff (clock ticks : BitVec 32) (d : Nat) (hd : 3 ≤ d) :
    (DelayNotEarly clock ticks d ↔ ticks.toNat ≤ 2 ^ 31 + d) ∧
      (TimerNotEarly clock ticks d ↔ ticks.toNat ≤ 2 ^ 31 + d) := by
  constructor
  · constructor
    · intro hspec
      by_contra hmore
      exact not_delayNotEarly hd (Nat.not_le.mp hmore) hspec
    · exact delayNotEarly_of_le
  · constructor
    · intro hspec
      by_contra hmore
      exact not_timerNotEarly hd (Nat.not_le.mp hmore) hspec
    · exact timerNotEarly_of_le

/-- One second, across the wrap-around of the clock. -/
theorem oneSecond_notEarly :
    DelayNotEarly 0xFFFFFF00 1000000000 30 ∧ TimerNotEarly 0xFFFFFF00 1000000000 30 := by
  obtain ⟨hdelay, htimer⟩ := notEarly_iff 0xFFFFFF00 1000000000 30 (by decide)
  exact ⟨hdelay.mpr (by decide), htimer.mpr (by decide)⟩

/-- Three seconds are over after 30 time units. -/
theorem threeSeconds_early :
    ¬ DelayNotEarly 1000 3000000000 30 ∧ ¬ TimerNotEarly 1000 3000000000 30 :=
  ⟨not_delayNotEarly (by decide) (by decide), not_timerNotEarly (by decide) (by decide)⟩

end Flexpret.Os
