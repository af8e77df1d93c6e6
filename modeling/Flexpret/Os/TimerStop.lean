import Flexpret.Os.TimerRuns

/-! # A Stopped Timer Stays Stopped

    After `osTimerStop` or `osTimerDelete` nothing calls the timer's function
    or arms the hardware timer again, but for two cases: the callback of a
    periodic timer stops it and the handler arms it once more, and a timer
    whose `ticks` field is zero is deleted while the hardware timer is armed.
-/

open Transition

namespace Flexpret.Os

/-! ## Section 1: Well-formed threads -/

/-- The thread is outside its trap handler. -/
def Context.inThread : Context → Bool
  | .thread _ => true
  | .trap _ _ _ => false

/-- The call a thread or its callback is in. -/
def Context.pc? : Context → Option TimerPc
  | .thread (.api pc) => some pc
  | .trap _ (.callback (.api pc)) _ => some pc
  | _ => none

/-- The thread, or its callback, executes code of its own. -/
def Context.idle : Context → Bool
  | .thread .user => true
  | .trap _ (.callback .user) _ => true
  | _ => false

theorem Context.thread_ne_trap {p : Point} {handler : IeHandler} {pc : HandlerPc}
    {back : Point} : Context.thread p ≠ .trap handler pc back := nofun

/-- What an armed timer says where the callback stands at `p`: it has been
    started and not stopped since. -/
def CallbackArmed (c : TimerCell) : Point → Prop
  | .api (.startHandler ticks _) | .api (.startTicks ticks) =>
      ticks ≠ 0 ∧ c.active = true
  | .api (.startTime _) | .api (.startCompare _ _) | .api .startExpire =>
      c.entry.ticks ≠ 0 ∧ c.active = true
  | .api .stopTicks | .api .stopCompare | .api .deleteTicks | .api .deleteCompare => True
  | .api .stopHandler | .api .deleteActive | .api .deleteFunc | .api .deleteArg
  | .api .deleteEnd | .api (.newActive _ _ _) | .api (.newFunc _ _ _) | .api (.newArg _ _)
  | .api (.newType _) | .api .newTicks | .api (.setFuncFunc _ _) | .api (.setFuncArg _)
  | .api .setFuncTicks | .api (.sleepDu _ _) | .api (.asleep _ _) => c.hwTimer ≠ .ie
  | .user | .api (.startCheck _) | .api .stopCheck | .api .deleteCheck
  | .api (.newCheck _ _ _) | .api (.setFuncCheck _ _) | .api (.setFuncCompare _ _)
  | .api (.untilCheck _) | .api (.untilCompare _) | .api (.sleepTime _ _)
  | .api (.sleepCompare _ _ _) =>
      c.hwTimer = .ie → c.entry.ticks ≠ 0 ∧ c.active = true

/-- **The invariant of every run**: interrupts are enabled outside the handler
    only, and the callback starts with the hardware timer off. -/
structure TimerThread.WellFormed (s : TimerThread) : Prop where
  ie : s.ie = s.context.inThread
  pending : ∀ p, s.context = .thread p → s.mtie = true → s.cell.hwTimer ≠ .ie
  call : ∀ h back, s.context = .trap h .call back → s.cell.hwTimer ≠ .ie
  callback : ∀ h p back, s.context = .trap h (.callback p) back → CallbackArmed s.cell p

/-- Turning the hardware timer off keeps what is said of an armed one. -/
theorem CallbackArmed.off {c : TimerCell} {p : Point} (h : CallbackArmed c p) :
    CallbackArmed { c with hwTimer := .off } p := by
  cases p with
  | user => exact fun hie => absurd hie (by simp)
  | api pc => cases pc <;> simp_all [CallbackArmed]

theorem callbackArmed_call {c : TimerCell} (h : CallbackArmed c .user) (call : TimerCall) :
    CallbackArmed c (.api call.pc) := by
  cases call <;> exact h

/-- **A step of the callback** keeps what is said of an armed timer. -/
theorem callbackArmed_step {c : TimerCell} {pc : TimerPc} (h : CallbackArmed c (.api pc))
    (now : BitVec 32) :
    CallbackArmed (timerStep now c pc).1 (timerStep now c pc).2.point := by
  cases pc with
  | startCheck ticks =>
    simp only [timerStep]
    split
    · exact h
    · next hactive =>
      split
      · exact h
      · next hticks =>
        split
        · exact h
        · exact ⟨hticks, Bool.eq_true_of_not_eq_false hactive⟩
  | stopCheck =>
    simp only [timerStep]
    split
    · exact h
    · split
      · exact h
      · trivial
  | deleteCheck =>
    simp only [timerStep]
    split
    · trivial
    · next hticks => exact fun hie => hticks (h hie).1
  | newCheck func type argument =>
    simp only [timerStep]
    split
    · exact h
    · next hactive =>
      split
      · exact h
      · exact fun hie => hactive (h hie).2
  | setFuncCheck timerFunc argument =>
    simp only [timerStep]
    split <;> exact h
  | untilCheck ticks =>
    simp only [timerStep]
    split <;> exact h
  | sleepTime period turns =>
    simp only [timerStep]
    split <;> exact h
  | asleep period turns =>
    simp only [timerStep]
    split
    · exact fun hie => absurd hie (by simp)
    · exact h
  | _ =>
    simp_all [CallbackArmed, timerStep, TimerOutcome.point, TimerCell.setHandler,
      TimerCell.setTicks, TimerCell.setCompare, TimerCell.interruptExpire, TimerCell.setFunc,
      TimerCell.setArg]

theorem wellFormed_atStart {s : TimerThread} (h : s.AtStart) : s.WellFormed := by
  constructor
  case ie => rw [h.ie, h.context, Context.inThread]
  case pending => exact fun _ _ hm => absurd (h.mtie.symm.trans hm) Bool.false_ne_true
  case call => exact fun _ _ hc => absurd (h.context.symm.trans hc) nofun
  case callback => exact fun _ _ _ hc => absurd (h.context.symm.trans hc) nofun

theorem TimerThread.WellFormed.checked {s : TimerThread} (h : s.WellFormed) (now : BitVec 32) :
    (s.checked now).WellFormed := by
  cases hfires : s.fires now with
  | false => rwa [checked_same hfires]
  | true =>
    rw [checked_fired hfires]
    constructor
    case ie => exact h.ie
    case pending => exact fun _ _ _ => nofun
    case call => exact fun _ _ _ => nofun
    case callback => exact fun handler p back hc => (h.callback handler p back hc).off

/-- Outside the handler a step is executed only when no interrupt is
    pending. -/
theorem TimerThread.WellFormed.not_pending {s : TimerThread} (h : s.WellFormed) {p : Point}
    (hctx : s.context = .thread p) (hno : (s.ie && s.mtie) = false) : s.mtie = false := by
  rw [h.ie, hctx, Context.inThread, Bool.true_and] at hno
  exact hno

/-- In the handler's own code there is nothing to say but that interrupts are
    disabled. -/
theorem wellFormed_handlerPc {s : TimerThread} {handler : IeHandler} {pc : HandlerPc}
    {back : Point} (hctx : s.context = .trap handler pc back) (hie : s.ie = false)
    (hcall : pc ≠ .call) (hcallback : ∀ p, pc ≠ .callback p) : s.WellFormed := by
  constructor
  case ie => rw [hie, hctx, Context.inThread]
  case pending => exact fun _ hc => absurd (hc.symm.trans hctx) Context.thread_ne_trap
  case call =>
    intro _ _ hc
    rw [hctx] at hc
    injection hc with _ hpc _
    exact absurd hpc hcall
  case callback =>
    intro _ p _ hc
    rw [hctx] at hc
    injection hc with _ hpc _
    exact absurd hpc (hcallback p)

theorem IeHandler.afterCallback_ne (handler : IeHandler) :
    handler.afterCallback ≠ .call ∧ ∀ p, handler.afterCallback ≠ .callback p := by
  cases handler <;> simp [IeHandler.afterCallback]

theorem wellFormed_execCase {s s' : TimerThread} {now : BitVec 32} {fired : Bool}
    {ev : TimerEvent} (h : s.WellFormed) (hno : (s.ie && s.mtie) = false)
    (hfired : fired = true → s.cell.hwTimer ≠ .ie)
    (hcase : ExecCase s now fired s.context ev s') : s'.WellFormed := by
  generalize hctx : s.context = ctx at hcase
  have hie : s.ie = ctx.inThread := hctx ▸ h.ie
  cases hcase with
  | @thread p ev s' hp =>
    have hnot := h.not_pending hctx hno
    cases hp with
    | call c =>
      exact ⟨hie, fun _ _ hm => absurd (hnot.symm.trans hm) Bool.false_ne_true,
        fun _ _ hc => absurd hc Context.thread_ne_trap,
        fun _ _ _ hc => absurd hc Context.thread_ne_trap⟩
    | user => exact h
    | api pc =>
      generalize (timerStep now s.cell pc).2.point = q
      exact ⟨hie, fun _ _ hm => absurd (hnot.symm.trans hm) Bool.false_ne_true,
        fun _ _ hc => absurd hc Context.thread_ne_trap,
        fun _ _ _ hc => absurd hc Context.thread_ne_trap⟩
  | @call handler back hfunc =>
    refine ⟨hie, nofun, nofun, fun _ p _ hc => ?_⟩
    injection hc with _ hpc _
    injection hpc with hp
    rw [← hp]
    exact fun hw => absurd hw (h.call handler back hctx)
  | @callbackReturns handler _ =>
    exact wellFormed_handlerPc rfl hie handler.afterCallback_ne.1 handler.afterCallback_ne.2
  | @callback handler p back ev s' hp =>
    have harmed := h.callback handler p back hctx
    cases hp with
    | call c =>
      refine ⟨hie, nofun, nofun, fun _ p _ hc => ?_⟩
      injection hc with _ hpc _
      injection hpc with hp
      rw [← hp]
      exact callbackArmed_call harmed c
    | user => exact h
    | api pc =>
      have hnext := callbackArmed_step harmed now
      generalize (timerStep now s.cell pc).2.point = q at hnext
      refine ⟨hie, nofun, nofun, fun _ p _ hc => ?_⟩
      injection hc with _ hpc _
      injection hpc with hp
      rw [← hp]
      exact hnext
  | onceTicks => exact wellFormed_handlerPc rfl hie (by simp) (by simp)
  | periodicTime => exact wellFormed_handlerPc rfl hie (by simp) (by simp)
  | periodicCompare => exact wellFormed_handlerPc rfl hie (by simp) (by simp)
  | periodicExpire => exact wellFormed_handlerPc rfl hie (by simp) (by simp)
  | trapRet =>
    exact ⟨rfl, fun _ _ hm => hfired hm, fun _ _ hc => absurd hc Context.thread_ne_trap,
      fun _ _ _ hc => absurd hc Context.thread_ne_trap⟩

/-- Every step keeps the thread well-formed. -/
theorem wellFormed_step {s s' : TimerThread} {l : BitVec 32 × TimerEvent} (h : s.WellFormed)
    (hstep : s.step l = some s') : s'.WellFormed := by
  have hfired : s.fires l.1 = true → (s.checked l.1).cell.hwTimer ≠ .ie := by
    intro hf
    rw [checked_fired hf]
    exact nofun
  rcases step_cases hstep with ⟨_, hmtie, p, hctx, rfl⟩ | ⟨hno, hcase⟩
  · have hchecked := h.checked l.1
    have hoff : (s.checked l.1).cell.hwTimer ≠ .ie := by
      cases hf : s.fires l.1 with
      | true => exact hfired hf
      | false =>
        rw [checked_same hf] at hmtie ⊢
        exact h.pending p hctx hmtie
    refine ⟨rfl, nofun, fun _ _ _ => hoff, fun _ _ _ hc => ?_⟩
    injection hc with _ hpc _
    exact absurd hpc (by cases s.cell.ieHandler <;> nofun)
  · have hctx : (s.checked l.1).context = s.context := by
      unfold TimerThread.checked
      split <;> rfl
    exact wellFormed_execCase (h.checked l.1) hno hfired (hctx ▸ hcase)

theorem wellFormed_reachable {s : TimerThread} (h : timerSystem.Reachable s) : s.WellFormed :=
  h.invariant TimerThread.WellFormed (fun _ => wellFormed_atStart)
    (fun _ _ _ _ hinv hstep => wellFormed_step hinv hstep)

/-! ## Section 2: Steps that cannot start the timer -/

/-- The program points of `osTimerStart`. -/
def TimerPc.starts : TimerPc → Bool
  | .startCheck _ => true
  | .startHandler _ _ => true
  | .startTicks _ => true
  | .startTime _ => true
  | .startCompare _ _ => true
  | .startExpire => true
  | _ => false

/-- The thread is not inside `osTimerStart`. -/
def NoStart (s : TimerThread) (_ : BitVec 32 × TimerEvent) : Prop :=
  ∀ pc, s.context.pc? = some pc → pc.starts = false

theorem timerStep_hwTimer {pc : TimerPc} (h : pc.starts = false) {c : TimerCell}
    {now : BitVec 32} (hie : (timerStep now c pc).1.hwTimer = .ie) : c.hwTimer = .ie := by
  cases pc with
  | asleep period turns =>
    simp only [timerStep] at hie
    split at hie
    · cases hie
    · exact hie
  | startExpire => cases h
  | stopCompare => cases hie
  | deleteCompare => cases hie
  | setFuncCompare => cases hie
  | untilCompare => cases hie
  | sleepCompare => cases hie
  | startCompare => cases hie
  | sleepDu => cases hie
  | _ => exact hie

/-- The handler stays, or becomes the default one. -/
theorem timerStep_handler {pc : TimerPc} (h : pc.starts = false) (now : BitVec 32)
    (c : TimerCell) :
    (timerStep now c pc).1.ieHandler = c.ieHandler ∨
      (timerStep now c pc).1.ieHandler = .defaultIeHandler := by
  cases pc with
  | startHandler => exact absurd h nofun
  | stopHandler => exact .inr rfl
  | asleep period turns =>
    simp only [timerStep]
    split <;> exact .inl rfl
  | _ => exact .inl rfl

/-- The timer's handlers do not run: the hardware timer is off, or another
    handler is installed. -/
def TimerCell.Disarmed (c : TimerCell) : Prop := c.hwTimer ≠ .ie ∨ c.ieHandler.entry ≠ .call

theorem timerStep_entry {pc : TimerPc} (h : pc.starts = false) (now : BitVec 32)
    {c : TimerCell} (hentry : c.ieHandler.entry ≠ .call) :
    (timerStep now c pc).1.ieHandler.entry ≠ .call := by
  rcases timerStep_handler h now c with hsame | hdefault
  · rwa [hsame]
  · rw [hdefault]
    exact nofun

theorem timerStep_disarmed {pc : TimerPc} (h : pc.starts = false) (now : BitVec 32)
    {c : TimerCell} (hc : c.Disarmed) : (timerStep now c pc).1.Disarmed := by
  rcases hc with hoff | hentry
  · exact .inl (mt (timerStep_hwTimer h) hoff)
  · exact .inr (timerStep_entry h now hentry)

/-! ## Section 3: Quiet threads -/

/-- **The invariant after a stop**: outside the handler no timer interrupt
    comes, inside it nothing arms the timer. -/
def TimerThread.Quiet (s : TimerThread) : Prop :=
  match s.context with
  | .thread _ => (s.cell.hwTimer ≠ .ie ∧ s.mtie = false) ∨ s.cell.ieHandler.entry ≠ .call
  | .trap handler (.callback _) _ => handler ≠ .timerPeriodicHandler ∧ s.cell.Disarmed
  | .trap _ .onceTicks _ => s.cell.Disarmed
  | .trap _ .trapRet _ => s.cell.Disarmed
  | _ => False

theorem checked_hwTimer {s : TimerThread} {now : BitVec 32}
    (h : (s.checked now).cell.hwTimer = .ie) : s.cell.hwTimer = .ie := by
  cases hf : s.fires now with
  | true =>
    rw [checked_fired hf] at h
    exact absurd h nofun
  | false => rwa [checked_same hf] at h

theorem checked_context (s : TimerThread) (now : BitVec 32) :
    (s.checked now).context = s.context := by
  unfold TimerThread.checked
  split <;> rfl

theorem checked_ieHandler (s : TimerThread) (now : BitVec 32) :
    (s.checked now).cell.ieHandler = s.cell.ieHandler := by
  unfold TimerThread.checked
  split <;> rfl

theorem TimerCell.Disarmed.checked {s : TimerThread} (h : s.cell.Disarmed) (now : BitVec 32) :
    (s.checked now).cell.Disarmed := by
  rcases h with hoff | hentry
  · exact .inl (mt checked_hwTimer hoff)
  · exact .inr (by rwa [checked_ieHandler])

theorem quiet_execCase {s s' : TimerThread} {now : BitVec 32} {fired : Bool} {ev : TimerEvent}
    {ctx : Context} (hctx : s.context = ctx) (h : s.Quiet)
    (hfired : fired = true → s.cell.ieHandler.entry ≠ .call)
    (hno : ∀ pc, ctx.pc? = some pc → pc.starts = false)
    (hcase : ExecCase s now fired ctx ev s') :
    s'.Quiet ∧ (s'.cell.hwTimer = .ie → s.cell.hwTimer = .ie) := by
  cases hcase with
  | @thread p ev s' hp =>
    simp only [TimerThread.Quiet, hctx] at h
    cases hp with
    | call c => exact ⟨h, id⟩
    | user =>
      refine ⟨?_, id⟩
      simp only [TimerThread.Quiet, hctx]
      exact h
    | api pc =>
      have hpc := hno pc rfl
      refine ⟨?_, timerStep_hwTimer hpc⟩
      rcases h with ⟨hoff, hmtie⟩ | hentry
      · exact .inl ⟨mt (timerStep_hwTimer hpc) hoff, hmtie⟩
      · exact .inr (timerStep_entry hpc now hentry)
  | call => simp only [TimerThread.Quiet, hctx] at h
  | @callbackReturns handler back =>
    simp only [TimerThread.Quiet, hctx] at h
    refine ⟨?_, id⟩
    cases handler with
    | timerPeriodicHandler => exact absurd rfl h.1
    | _ => exact h.2
  | @callback handler p back ev s' hp =>
    simp only [TimerThread.Quiet, hctx] at h
    cases hp with
    | call c => exact ⟨h, id⟩
    | user =>
      refine ⟨?_, id⟩
      simp only [TimerThread.Quiet, hctx]
      exact h
    | api pc =>
      have hpc := hno pc rfl
      exact ⟨⟨h.1, timerStep_disarmed hpc now h.2⟩, timerStep_hwTimer hpc⟩
  | onceTicks =>
    simp only [TimerThread.Quiet, hctx] at h
    exact ⟨h, id⟩
  | periodicTime => simp only [TimerThread.Quiet, hctx] at h
  | periodicCompare => simp only [TimerThread.Quiet, hctx] at h
  | periodicExpire => simp only [TimerThread.Quiet, hctx] at h
  | trapRet =>
    simp only [TimerThread.Quiet, hctx] at h
    refine ⟨?_, id⟩
    rcases h with hoff | hentry
    · cases fired with
      | false => exact .inl ⟨hoff, rfl⟩
      | true => exact .inr (hfired rfl)
    · exact .inr hentry

theorem TimerThread.Quiet.checked {s : TimerThread} (h : s.Quiet) (now : BitVec 32) :
    (s.checked now).Quiet := by
  cases hf : s.fires now with
  | false => rwa [checked_same hf]
  | true =>
    have hie : s.cell.hwTimer = .ie := by
      simp only [TimerThread.fires, Bool.and_eq_true, decide_eq_true_eq] at hf
      exact hf.1
    rw [checked_fired hf]
    unfold TimerThread.Quiet at h ⊢
    simp only
    split at h
    · exact .inr (h.resolve_left fun hoff => hoff.1 hie)
    · exact ⟨h.1, .inl nofun⟩
    · exact .inl nofun
    · exact .inl nofun
    · exact h

/-- A quiet thread whose timer fires has another handler installed. -/
theorem TimerThread.Quiet.entry_of_fires {s : TimerThread} (h : s.Quiet) {now : BitVec 32}
    (hf : s.fires now = true) : s.cell.ieHandler.entry ≠ .call := by
  have hie : s.cell.hwTimer = .ie := by
    simp only [TimerThread.fires, Bool.and_eq_true, decide_eq_true_eq] at hf
    exact hf.1
  unfold TimerThread.Quiet at h
  split at h
  · exact h.resolve_left fun hoff => hoff.1 hie
  · exact h.2.resolve_left fun hoff => hoff hie
  · exact h.resolve_left fun hoff => hoff hie
  · exact h.resolve_left fun hoff => hoff hie
  · exact h.elim

/-- **A quiet step**: the thread stays quiet and does not arm the timer. -/
theorem quiet_step {s s' : TimerThread} {l : BitVec 32 × TimerEvent} (h : s.Quiet)
    (hno : NoStart s l) (hstep : s.step l = some s') :
    s'.Quiet ∧ (s'.cell.hwTimer = .ie → s.cell.hwTimer = .ie) := by
  have hchecked := h.checked l.1
  rcases step_cases hstep with ⟨_, hmtie, p, hctx, rfl⟩ | ⟨_, hcase⟩
  · have hentry : (s.checked l.1).cell.ieHandler.entry ≠ .call := by
      unfold TimerThread.Quiet at hchecked
      rw [checked_context, hctx] at hchecked
      exact hchecked.resolve_left fun hoff => absurd hoff.2 (by rw [hmtie]; exact nofun)
    rw [checked_ieHandler] at hentry
    refine ⟨?_, fun hie => checked_hwTimer hie⟩
    have hret : s.cell.ieHandler.entry = .trapRet := by
      cases hh : s.cell.ieHandler with
      | timerHandler => exact absurd (by rw [hh]; rfl) hentry
      | timerPeriodicHandler => exact absurd (by rw [hh]; rfl) hentry
      | defaultIeHandler => rfl
      | user handler => rfl
    unfold TimerThread.Quiet
    simp only [hret]
    exact .inr (by rw [checked_ieHandler, hret]; exact nofun)
  · obtain ⟨hquiet, harm⟩ := quiet_execCase (checked_context s l.1) hchecked
      (fun hf => by rw [checked_ieHandler]; exact h.entry_of_fires hf) hno hcase
    exact ⟨hquiet, fun hie => checked_hwTimer (harm hie)⟩

/-- **A quiet run**. -/
theorem quiet_run {s s' : TimerThread} {ls : List (BitVec 32 × TimerEvent)} (h : s.Quiet)
    (hrun : (timerSystem.restrict NoStart).Run s ls s') : s'.Quiet := by
  induction hrun with
  | nil s => exact h
  | cons l ls hstep _ ih => exact ih (quiet_step h hstep.1 hstep.2).1

/-! ## Section 4: Stops -/

/-- `osTimerStop` or `osTimerDelete` returns `osOK` with this step. -/
structure StopReturns (s : TimerThread) (now : BitVec 32) (s' : TimerThread) : Prop where
  step : s.step (now, .insn) = some s'
  pc : s.context.pc? = some .stopHandler ∨ s.context.pc? = some .deleteEnd
  returned : s'.context.idle = true

/-- Until the thread calls `osTimerStart`, no handler comes to the call of the
    timer's function, be it `NULL` or not, and no step arms the hardware
    timer. -/
def StaysStopped (s : TimerThread) : Prop :=
  ∀ ls s₁, (timerSystem.restrict NoStart).Run s ls s₁ →
    (∀ handler back, s₁.context ≠ .trap handler .call back) ∧
    ∀ l s₂, NoStart s₁ l → s₁.step l = some s₂ → s₂.cell.hwTimer = .ie → s₁.cell.hwTimer = .ie

/-- The call is not made by the callback of a periodic timer, and one that
    ends a deletion outside the handler finds the hardware timer off. -/
structure StopsForGood (s : TimerThread) : Prop where
  callback : ∀ handler pc back, s.context = .trap handler pc back →
    handler ≠ .timerPeriodicHandler
  delete : s.context = .thread (.api .deleteEnd) → s.cell.Disarmed

theorem TimerThread.Quiet.staysStopped {s : TimerThread} (h : s.Quiet) : StaysStopped s := by
  intro ls s₁ hrun
  have hquiet := quiet_run h hrun
  refine ⟨fun handler back hctx => ?_, fun l s₂ hno hstep => (quiet_step hquiet hno hstep).2⟩
  simp only [TimerThread.Quiet, hctx] at hquiet

/-- Where the call returns: nothing else has happened in the thread's code, and
    in the callback the hardware timer may have expired. -/
theorem stopReturns_cases {s s' : TimerThread} {now : BitVec 32} (hs : s.WellFormed)
    (h : StopReturns s now s') :
    ∃ pc, (pc = .stopHandler ∨ pc = .deleteEnd) ∧
      ((s.context = .thread (.api pc) ∧ s.mtie = false ∧
        s' = { s with cell := (timerStep now s.cell pc).1, context := .thread .user }) ∨
      ∃ handler back, s.context = .trap handler (.callback (.api pc)) back ∧
        s' = { s.checked now with
          cell := (timerStep now (s.checked now).cell pc).1
          context := .trap handler (.callback .user) back }) := by
  obtain ⟨hstep, hpc, hret⟩ := h
  rcases step_cases hstep with ⟨_, _, p, _, rfl⟩ | ⟨hno, hcase⟩
  · exact absurd hret (by cases s.cell.ieHandler <;> exact nofun)
  · have hend : ∀ pc, pc = .stopHandler ∨ pc = .deleteEnd → ∀ c,
        (timerStep now c pc).2.point = .user ∧ ∀ old, pc.programs old = old := by
      intro pc hpc c
      rcases hpc with rfl | rfl <;> exact ⟨rfl, fun _ => rfl⟩
    generalize hctx : s.context = ctx at hcase hpc
    cases hcase with
    | @thread p ev s' hp =>
      cases hp with
      | user => exact absurd hpc (by simp [Context.pc?])
      | api pc =>
        have hpc' : pc = .stopHandler ∨ pc = .deleteEnd := by simpa [Context.pc?] using hpc
        have hmtie := (hs.checked now).not_pending ((checked_context s now).trans hctx) hno
        have hf : s.fires now = false := by
          by_contra hf
          rw [checked_fired (Bool.eq_true_of_not_eq_false hf)] at hmtie
          exact absurd hmtie nofun
        rw [checked_same hf] at hmtie ⊢
        refine ⟨pc, hpc', .inl ⟨rfl, hmtie, ?_⟩⟩
        rw [(hend pc hpc' s.cell).1, (hend pc hpc' s.cell).2]
    | @callback handler p back ev s' hp =>
      cases hp with
      | user => exact absurd hpc (by simp [Context.pc?])
      | api pc =>
        have hpc' : pc = .stopHandler ∨ pc = .deleteEnd := by simpa [Context.pc?] using hpc
        refine ⟨pc, hpc', .inr ⟨handler, back, rfl, ?_⟩⟩
        rw [(hend pc hpc' _).1, (hend pc hpc' s.cell).2]
    | _ => exact absurd hpc (by simp [Context.pc?])

theorem quiet_of_stopsForGood {s s' : TimerThread} {now : BitVec 32} (hs : s.WellFormed)
    (h : StopReturns s now s') (hgood : StopsForGood s) : s'.Quiet := by
  obtain ⟨pc, hpc, hcase⟩ := stopReturns_cases hs h
  rcases hcase with ⟨hctx, hmtie, rfl⟩ | ⟨handler, back, hctx, rfl⟩
  · rcases hpc with rfl | rfl
    · exact .inr nofun
    · rcases hgood.delete hctx with hoff | hentry
      · exact .inl ⟨hoff, hmtie⟩
      · exact .inr hentry
  · have hoff : s.cell.hwTimer ≠ .ie := by
      have harmed := hs.callback handler _ back hctx
      rcases hpc with rfl | rfl <;> exact harmed
    have hoff' : (s.checked now).cell.hwTimer ≠ .ie := mt checked_hwTimer hoff
    refine ⟨hgood.callback handler _ back hctx, .inl ?_⟩
    rcases hpc with rfl | rfl <;> exact hoff'

theorem checked_ie (s : TimerThread) (now : BitVec 32) : (s.checked now).ie = s.ie := by
  unfold TimerThread.checked
  split <;> rfl

/-- With interrupts disabled every step is executed. -/
theorem step_of_ie_false {s : TimerThread} (hie : s.ie = false) (now : BitVec 32)
    (ev : TimerEvent) : s.step (now, ev) = (s.checked now).exec now (s.fires now) ev := by
  simp only [TimerThread.step, checked_ie, hie, Bool.false_and, Bool.false_eq_true, if_false]

/-- A step outside the calls is none of `osTimerStart`. -/
theorem noStart_of_pc? {s : TimerThread} (h : s.context.pc? = none)
    (l : BitVec 32 × TimerEvent) : NoStart s l := by
  intro pc hpc
  rw [h] at hpc
  exact absurd hpc nofun

/-- After its callback the handler of a periodic timer arms it. -/
theorem periodic_rearms {s : TimerThread} {back : Point}
    (hctx : s.context = .trap .timerPeriodicHandler (.callback .user) back)
    (hs : s.WellFormed) : ¬ StaysStopped s := by
  have hie : s.ie = false := by rw [hs.ie, hctx, Context.inThread]
  have hreturns : ∃ s₁, s.step (0, .callbackReturns) = some s₁ ∧ s₁.ie = false ∧
      s₁.context = .trap .timerPeriodicHandler .periodicTime back := by
    rw [step_of_ie_false hie, TimerThread.exec, checked_context, hctx]
    exact ⟨_, rfl, (checked_ie s 0).trans hie, rfl⟩
  obtain ⟨s₁, hstep₁, hie₁, hctx₁⟩ := hreturns
  have htime : ∃ s₂, s₁.step (0, .insn) = some s₂ ∧ s₂.ie = false ∧
      s₂.context = .trap .timerPeriodicHandler (.periodicCompare 0) back := by
    rw [step_of_ie_false hie₁, TimerThread.exec, checked_context, hctx₁]
    exact ⟨_, rfl, (checked_ie s₁ 0).trans hie₁, rfl⟩
  obtain ⟨s₂, hstep₂, hie₂, hctx₂⟩ := htime
  have hcompare : ∃ s₃, s₂.step (0, .insn) = some s₃ ∧ s₃.ie = false ∧
      s₃.context = .trap .timerPeriodicHandler .periodicExpire back ∧
      s₃.cell.hwTimer = .off := by
    rw [step_of_ie_false hie₂, TimerThread.exec, checked_context, hctx₂]
    exact ⟨_, rfl, (checked_ie s₂ 0).trans hie₂, rfl, rfl⟩
  obtain ⟨s₃, hstep₃, hie₃, hctx₃, hoff⟩ := hcompare
  have harm : ∃ s₄, s₃.step (0, .insn) = some s₄ ∧ s₄.cell.hwTimer = .ie := by
    rw [step_of_ie_false hie₃, TimerThread.exec, checked_context, hctx₃]
    exact ⟨_, rfl, rfl⟩
  obtain ⟨s₄, hstep₄, harmed⟩ := harm
  intro h
  have hrun : (timerSystem.restrict NoStart).Run s
      [(0, .callbackReturns), (0, .insn), (0, .insn)] s₃ :=
    .cons _ _ ⟨noStart_of_pc? (by rw [hctx]; rfl) _, hstep₁⟩
      (.cons _ _ ⟨noStart_of_pc? (by rw [hctx₁]; rfl) _, hstep₂⟩
        (.cons _ _ ⟨noStart_of_pc? (by rw [hctx₂]; rfl) _, hstep₃⟩ (.nil s₃)))
  have hsame := (h _ s₃ hrun).2 _ s₄ (noStart_of_pc? (by rw [hctx₃]; rfl) _) hstep₄ harmed
  exact absurd (hoff.symm.trans hsame) nofun

theorem reached_self (t : BitVec 32) : Core.reached t t = true := by
  simp [Core.reached]

/-- An armed timer that has been deleted fires. -/
theorem armed_fires {s : TimerThread} (hctx : s.context = .thread .user) (hs : s.WellFormed)
    (harmed : ¬ s.cell.Disarmed) : ¬ StaysStopped s := by
  obtain ⟨hie, hentry⟩ := not_or.mp harmed
  have hfires : s.fires s.cell.compare = true := by
    rw [TimerThread.fires, not_not.mp hie, reached_self]
    rfl
  have hstep : ∃ s₁, s.step (s.cell.compare, .insn) = some s₁ ∧
      s₁.context = .trap s.cell.ieHandler .call .user := by
    have henabled : s.ie = true := by rw [hs.ie, hctx, Context.inThread]
    simp only [TimerThread.step, checked_fired hfires, henabled, Bool.and_self, if_true,
      TimerThread.takeTrap, hctx, not_not.mp hentry]
    exact ⟨_, rfl, rfl⟩
  obtain ⟨s₁, hstep₁, hctx₁⟩ := hstep
  intro h
  exact (h [(s.cell.compare, .insn)] s₁
    (.cons _ _ ⟨noStart_of_pc? (by rw [hctx]; rfl) _, hstep₁⟩ (.nil s₁))).1 _ _ hctx₁

/-- A thread that has just started. -/
def freshThread : TimerThread where
  cell :=
    { entry := { ticks := 0, func := NULL, arg := NULL }
      type := .osTimerOnce
      active := false
      ieHandler := .defaultIeHandler
      compare := 0
      hwTimer := .off }
  start := 0
  ie := true
  mtie := false
  context := .thread .user

theorem freshThread_atStart : freshThread.AtStart := by
  constructor <;> rfl

/-- A call and the steps it takes, all at one time. -/
def callSteps (now : BitVec 32) (c : TimerCall) (steps : Nat) :
    List (BitVec 32 × TimerEvent) :=
  (now, .call c) :: List.replicate steps (now, .insn)

/-- A timer is created and started at time 0, to expire at time 1000. -/
def startedLabels (type : OsTimerType) : List (BitVec 32 × TimerEvent) :=
  callSteps 0 (.timerNew 0x900 type NULL) 6 ++ callSteps 0 (.timerStart 1000) 6

/-- The state after these steps. -/
def TimerThread.after (labels : List (BitVec 32 × TimerEvent)) : TimerThread :=
  (System.execute TimerThread.step freshThread labels).getD freshThread

theorem reachable_after {labels : List (BitVec 32 × TimerEvent)}
    (h : (System.execute TimerThread.step freshThread labels).isSome = true) :
    timerSystem.Reachable (TimerThread.after labels) := by
  obtain ⟨s, hs⟩ := Option.isSome_iff_exists.mp h
  have hend : TimerThread.after labels = s := by rw [TimerThread.after, hs, Option.getD_some]
  rw [hend]
  exact (System.Reachable.init freshThread_atStart).run (System.run_of_execute hs)

/-- The thread stops its one-shot timer at time 500. -/
def stopLabels : List (BitVec 32 × TimerEvent) :=
  startedLabels .osTimerOnce ++ callSteps 500 .timerStop 3

theorem threadStop_reachable : timerSystem.Reachable (TimerThread.after stopLabels) :=
  reachable_after (by decide)

theorem threadStop_returns :
    StopReturns (TimerThread.after stopLabels) 500
      (TimerThread.after (stopLabels ++ [(500, .insn)])) :=
  ⟨rfl, .inl (by decide), by decide⟩

/-- A periodic timer expires, and its callback stops it. -/
def callbackStopLabels : List (BitVec 32 × TimerEvent) :=
  startedLabels .osTimerPeriodic ++ [(1000, .insn), (1000, .insn)] ++ callSteps 1010 .timerStop 3

end Flexpret.Os
