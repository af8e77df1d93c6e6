import Flexpret.Os.TrapPhases

/-! # Nested Traps

    A thread can take a trap while it is in another.  Of the places that hold the
    address to return to, the `epc` CSR, `a1`, the table and `tp`, only `a1` is
    saved for the trap it belongs to, so an inner trap leaves it alone only while
    it is there.
-/

open Assembly

namespace Flexpret.Os

variable {b : OsBuild}

/-! ## Section 1: Runs with nested traps -/

namespace TrapRun

variable {L : TrapLayout b} {S : L.Sound} (r : TrapRun L S)

/-- What a step does to the traps that its thread is in.  The last line of the
    routine returns from the innermost. -/
def stepActivations (t : Tid b) (k : Nat) (acts : List Activation) : List Activation :=
  match r.event k with
  | .trap cause => ⟨(r.state k).view t, cause, none⟩ :: acts
  | .outside => acts
  | .line =>
      if ((r.state k).hart t).pc = L.addr 101 then acts.tail
      else if ((r.state k).hart t).pc = L.addr 63 then
        match acts with
        | [] => []
        | a :: rest => { a with handler := some ((r.state (k + 1)).hart t).x } :: rest
      else acts

/-- The traps that a thread is in, the innermost first. -/
def activations (t : Tid b) : Nat → List Activation
  | 0 => []
  | k + 1 =>
      if r.thread k = t then r.stepActivations t k (activations t k) else activations t k

/-- **The conventions** in the first `n` steps: a program enters the routine only
    by traps; what runs while traps are open leaves their frames alone; a handler is
    not code of the routine, and returns with `sp` and `x8` as it was entered; there
    is room for a frame on the stack, apart from those of the traps that wait, and
    the instruction after one that faults is not code of the routine. -/
structure Conventions (t : Tid b) (n : Nat) : Prop where
  program : ∀ k, k < n → r.thread k = t → r.event k = .outside → r.activations t k = [] →
    (trapRoutine L S).Outside ((r.state (k + 1)).hart t).pc
  frames : ∀ k, k < n → r.thread k = t → r.event k = .outside → ∀ a ∈ r.activations t k,
    ∀ q, (r.state (k + 1)).mem (a.base + frameOff q) = (r.state k).mem (a.base + frameOff q)
  handlers : ∀ k, k < n → r.thread k = t → r.event k = .line → r.AtLine k t 63 →
    (trapRoutine L S).Outside ((r.state (k + 1)).hart t).pc
  returns : ∀ k, k < n → r.thread k = t → r.event k = .outside →
    ∀ a rest x, r.activations t k = a :: rest → a.handler = some x →
      r.AtLine (k + 1) t restoreEpcLine →
        ((r.state (k + 1)).hart t).x sp = x sp ∧ ((r.state (k + 1)).hart t).x s0 = x s0
  room : ∀ k, k < n → r.thread k = t → ∀ cause, r.event k = .trap cause →
    (∀ q, L.stack t (frameBase ((r.state k).view t) + frameOff q)) ∧
      ∀ a ∈ (r.activations t k).tail, ∀ q q',
        frameBase ((r.state k).view t) + frameOff q ≠ a.base + frameOff q'
  faults : ∀ k, k < n → r.thread k = t → ∀ cause, r.event k = .trap cause →
    r.activations t k = [] → (trapRoutine L S).Outside (((r.state k).hart t).pc + epcSkip cause)

/-- **The condition** in the first `n` steps: a trap that a thread takes within
    another is no fault, and takes it after the line that reads the `epc` and up to
    the one that stores it in the table.  These are lines of the source; within an
    `la` among them `a1` holds the address as well. -/
def NestedInWindow (n : Nat) : Prop :=
  ∀ k, k < n → ∀ cause, r.event k = .trap cause → r.activations (r.thread k) k ≠ [] →
    epcSkip cause = 0 ∧ ∃ i, 34 ≤ i ∧ i ≤ 40 ∧ r.AtLine k (r.thread k) i

/-- **Correct returns** in the first `n` steps: the last line of the routine resumes
    at the instruction that the innermost trap interrupted, after it for a fault,
    with all registers but `tp`. -/
def ReturnsRight (n : Nat) : Prop :=
  ∀ k, k < n → r.event k = .line → r.AtLine k (r.thread k) 101 →
    ∀ a rest, r.activations (r.thread k) k = a :: rest →
      ((r.state (k + 1)).hart (r.thread k)).pc = a.machine.pc + epcSkip a.cause ∧
        ∀ q, q ≠ tp → ((r.state (k + 1)).hart (r.thread k)).x q = a.machine.x q

end TrapRun

/-! ## Section 2: The traps of a thread -/

/-- How a trap was taken within another: in the window of the other, and not by a
    fault. -/
structure Interrupts (L : TrapLayout b) (t : Tid b) (a a' : Activation) : Prop where
  skip : epcSkip a.cause = 0
  window : ∃ i, a.machine.pc = L.addr i ∧ InWindow L t a' i a.machine.x

/-- Where the traps go on after the innermost. -/
def GoesBack {L : TrapLayout b} (S : L.Sound) (t : Tid b) : Activation → List Activation → Prop
  | a, [] => (trapRoutine L S).Outside (a.machine.pc + epcSkip a.cause)
  | a, a' :: rest => Interrupts L t a a' ∧ GoesBack S t a' rest

/-- Frames that are next to each other have no word in common. -/
theorem frame_below (base : Word) (q q' : Reg) :
    base + -128 + frameOff q ≠ base + frameOff q' := by
  intro h
  rw [BitVec.add_assoc] at h
  have hoff := congrArg BitVec.toNat ((BitVec.add_right_inj _).mp h)
  rw [frameOff, frameOff, BitVec.toNat_add, BitVec.toNat_ofNat, BitVec.toNat_ofNat,
    show (-128 : Word).toNat = 4294967168 from rfl] at hoff
  have hq := q.isLt
  have hq' := q'.isLt
  omega

/-- Frames that have no word in common. -/
def Activation.Apart (a a' : Activation) : Prop :=
  ∀ q q', a.base + frameOff q ≠ a'.base + frameOff q'

/-- **The invariant** of a thread: its innermost trap is in a phase, and the others
    wait in the window with their frames saved. -/
structure Nested {L : TrapLayout b} (S : L.Sound) (t : Tid b) (a : Activation)
    (rest : List Activation) (m : Machine HartCsrs) : Prop where
  phase : Phase S t a m
  back : GoesBack S t a rest
  frames : ∀ a' ∈ rest, a'.FrameSaved m.mem
  taken : ∀ a' ∈ a :: rest, a'.Taken L t
  apart : (a :: rest).Pairwise Activation.Apart

/-- In no trap a thread is outside the routine. -/
def ThreadInv {L : TrapLayout b} (S : L.Sound) (t : Tid b) :
    List Activation → Machine HartCsrs → Prop
  | [], m => (trapRoutine L S).Outside m.pc
  | a :: rest, m => Nested S t a rest m

section threads

variable {L : TrapLayout b} {S : L.Sound} {t : Tid b} {a : Activation} {rest : List Activation}
  {m m' : Machine HartCsrs}

/-- What a thread has for itself. -/
def TrapLayout.Own (L : TrapLayout b) (t : Tid b) (w : Word) : Prop :=
  L.stack t w ∨ w = L.epcAddr t

/-- **Others**: steps that leave a thread and what it has for itself alone. -/
theorem ThreadInv.congr {acts : List Activation} (h : ThreadInv S t acts m)
    (hagree : Agree (L.Own t) HartCsrs.butIe m m') : ThreadInv S t acts m' := by
  cases acts with
  | nil =>
    show (trapRoutine L S).Outside m'.pc
    rw [← hagree.pc]
    exact h
  | cons a rest =>
    have htaken := h.taken a List.mem_cons_self
    constructor
    case phase =>
      refine h.phase.congr ⟨hagree.x, hagree.csrs, hagree.pc, fun w hw => ?_⟩
      exact hagree.mem w (htaken.own hw)
    case back => exact h.back
    case frames =>
      intro a' ha'
      have hroom := (h.taken a' (List.mem_cons_of_mem a ha')).room
      exact (h.frames a' ha').congr fun q => (hagree.mem _ (.inl (hroom q))).symm
    case taken => exact h.taken
    case apart => exact h.apart

/-- A line leaves the frames of the traps that wait alone. -/
theorem Nested.frames_of_line (h : Nested S t a rest m)
    (hstep : (trapRoutine L S).step (csrFile t) m = some m') :
    ∀ a' ∈ rest, a'.FrameSaved m'.mem := by
  intro a' ha'
  have htaken := h.taken a' (List.mem_cons_of_mem a ha')
  have hapart : a.Apart a' := (List.pairwise_cons.mp h.apart).1 a' ha'
  obtain ⟨i, line, hline, hpc, -, rfl⟩ := Routine.step_cases hstep
  refine (h.frames a' ha').congr fun q => Line.effect_mem _ fun hstores => ?_
  obtain ⟨q', haddr⟩ | haddr := h.phase.stores (h.taken a List.mem_cons_self) hline hpc hstores
  · exact hapart q' q haddr.symm
  · exact htaken.frame_ne S q haddr

/-- A trap that is over gives the thread back to the one it interrupted, still in
    its window, or to the program. -/
theorem Nested.returned (h : Nested S t a rest m) (hback : Returned a m')
    (hframes : ∀ a' ∈ rest, a'.FrameSaved m'.mem) : ThreadInv S t rest m' := by
  cases rest with
  | nil =>
    show (trapRoutine L S).Outside m'.pc
    rw [hback.pc]
    exact h.back
  | cons a' rest =>
    obtain ⟨⟨hskip, i, hpc, hwindow⟩, hrest⟩ := h.back
    constructor
    case phase =>
      refine .window i ?_ (hwindow.congr hback.x) (hframes a' List.mem_cons_self)
      rw [hback.pc, hskip, hpc]
      exact BitVec.add_zero _
    case back => exact hrest
    case frames => exact fun a'' ha'' => hframes a'' (List.mem_cons_of_mem a' ha'')
    case taken => exact fun a'' ha'' => h.taken a'' (List.mem_cons_of_mem a ha'')
    case apart => exact (List.pairwise_cons.mp h.apart).2

/-- The registers at the entry of the handler are a note to the trap. -/
theorem Nested.enter (h : Nested S t a rest m) {m' : Machine HartCsrs} (hcalled : Called L t a m')
    (hout : (trapRoutine L S).Outside m'.pc) (hframes : ∀ a' ∈ rest, a'.FrameSaved m'.mem) :
    Nested S t { a with handler := some m'.x } rest m' := by
  constructor
  case phase =>
    exact .handling m'.x rfl hcalled.base hcalled.skip hout
      ⟨hcalled.stored.frame, hcalled.stored.epc⟩
  case back =>
    have hback := h.back
    cases rest with
    | nil => exact hback
    | cons a' rest => exact ⟨⟨hback.1.skip, hback.1.window⟩, hback.2⟩
  case frames => exact hframes
  case taken =>
    intro a' ha'
    obtain rfl | ha' := List.mem_cons.mp ha'
    · have htaken := h.taken a List.mem_cons_self
      exact ⟨htaken.evec, htaken.room⟩
    · exact h.taken a' (List.mem_cons_of_mem a ha')
  case apart =>
    have hapart := List.pairwise_cons.mp h.apart
    exact List.pairwise_cons.mpr ⟨hapart.1, hapart.2⟩

end threads

namespace TrapRun

variable {L : TrapLayout b} {S : L.Sound} {r : TrapRun L S} {t : Tid b} {k n : Nat}

/-- The traps of a thread after a step of its own. -/
theorem activations_own (h : r.thread k = t) :
    r.activations t (k + 1) = r.stepActivations t k (r.activations t k) := if_pos h

theorem activations_trap {cause : Core.Cause} (h : r.thread k = t)
    (hevent : r.event k = .trap cause) :
    r.activations t (k + 1) = ⟨(r.state k).view t, cause, none⟩ :: r.activations t k := by
  rw [activations_own h]
  unfold stepActivations
  rw [hevent]

theorem activations_outside (h : r.thread k = t) (hevent : r.event k = .outside) :
    r.activations t (k + 1) = r.activations t k := by
  rw [activations_own h]
  unfold stepActivations
  rw [hevent]

theorem activations_last (h : r.thread k = t) (hevent : r.event k = .line)
    (hpc : ((r.state k).hart t).pc = L.addr 101) :
    r.activations t (k + 1) = (r.activations t k).tail := by
  rw [activations_own h]
  unfold stepActivations
  rw [hevent]
  exact if_pos hpc

theorem activations_call {a : Activation} {rest : List Activation} (h : r.thread k = t)
    (hevent : r.event k = .line) (hpc : ((r.state k).hart t).pc = L.addr 63)
    (hacts : r.activations t k = a :: rest) :
    r.activations t (k + 1) =
      { a with handler := some ((r.state (k + 1)).hart t).x } :: rest := by
  have hnot : ((r.state k).hart t).pc ≠ L.addr 101 := by
    rw [hpc]
    exact fun haddr => absurd (line_inj S (by decide) (by decide) haddr) (by decide)
  rw [activations_own h, hacts]
  unfold stepActivations
  rw [hevent]
  simp only
  rw [if_neg hnot, if_pos hpc]

theorem activations_line (h : r.thread k = t) (hevent : r.event k = .line)
    (hcall : ((r.state k).hart t).pc ≠ L.addr 63) (hlast : ((r.state k).hart t).pc ≠ L.addr 101) :
    r.activations t (k + 1) = r.activations t k := by
  rw [activations_own h]
  unfold stepActivations
  rw [hevent]
  simp only
  rw [if_neg hlast, if_neg hcall]

theorem activations_other (h : r.thread k ≠ t) :
    r.activations t (k + 1) = r.activations t k := if_neg h

/-- **A trap** of its own. -/
theorem threadInv_trap (hconv : r.Conventions t n) (hwindow : r.NestedInWindow n) (hk : k < n)
    (hthread : r.thread k = t) {cause : Core.Cause} (hevent : r.event k = .trap cause)
    (h : ThreadInv S t (r.activations t k) ((r.state k).view t)) :
    ThreadInv S t (r.activations t (k + 1)) ((r.state (k + 1)).view t) := by
  obtain ⟨hevec, hview⟩ := (r.step k).trap cause hevent
  obtain ⟨hroom, hapart⟩ := hconv.room k hk hthread cause hevent
  have hfaults := hconv.faults k hk hthread cause hevent
  have hnested := hwindow k hk cause hevent
  rw [activations_trap hthread hevent]
  rw [hthread] at hview hevec hnested
  rw [hview]
  generalize r.activations t k = acts at h hapart hfaults hnested ⊢
  have hphase : Phase S t ⟨(r.state k).view t, cause, none⟩ (takeTrap cause ((r.state k).view t)) :=
    .saving 0 (Nat.zero_le _) (Agree.refl _)
  have htaken : Activation.Taken L t ⟨(r.state k).view t, cause, none⟩ := ⟨hevec, hroom⟩
  cases acts with
  | nil =>
    constructor
    case phase => exact hphase
    case back => exact hfaults rfl
    case frames => exact fun a' ha' => absurd ha' List.not_mem_nil
    case taken =>
      intro a' ha'
      obtain rfl := List.mem_singleton.mp ha'
      exact htaken
    case apart => exact List.pairwise_singleton _ _
  | cons a rest =>
    obtain ⟨hskip, i, hlow, hhigh, hat⟩ := hnested (List.cons_ne_nil a rest)
    obtain ⟨hregs, hframe⟩ :=
      h.phase.in_window (h.taken a List.mem_cons_self) (i := i) hat.2 hlow hhigh
    constructor
    case phase => exact hphase
    case back => exact ⟨⟨hskip, i, hat.2, hregs⟩, h.back⟩
    case frames =>
      intro a' ha'
      obtain rfl | ha' := List.mem_cons.mp ha'
      · exact hframe
      · exact h.frames a' ha'
    case taken =>
      intro a' ha'
      obtain rfl | ha' := List.mem_cons.mp ha'
      · exact htaken
      · exact h.taken a' ha'
    case apart =>
      refine List.pairwise_cons.mpr ⟨fun a' ha' => ?_, h.apart⟩
      obtain rfl | ha' := List.mem_cons.mp ha'
      · -- the stack pointer is at the frame of the trap that is interrupted
        intro q q'
        have hbase : ((r.state k).view t).x sp = a'.base := hregs.base
        show ((r.state k).view t).x sp + -128 + frameOff q ≠ a'.base + frameOff q'
        rw [hbase]
        exact frame_below a'.base q q'
      · exact hapart a' ha'

/-- **A step of a program or a handler**. -/
theorem threadInv_outside (hconv : r.Conventions t n) (hk : k < n)
    (hthread : r.thread k = t) (hevent : r.event k = .outside)
    (h : ThreadInv S t (r.activations t k) ((r.state k).view t)) :
    ThreadInv S t (r.activations t (k + 1)) ((r.state (k + 1)).view t) := by
  have hstep := (r.step k).outside hevent
  have hprogram := hconv.program k hk hthread hevent
  have hframes := hconv.frames k hk hthread hevent
  have hreturns := hconv.returns k hk hthread hevent
  rw [activations_outside hthread hevent]
  rw [hthread] at hstep
  generalize r.activations t k = acts at h hprogram hframes hreturns ⊢
  cases acts with
  | nil => exact hprogram rfl
  | cons a rest =>
    obtain ⟨x, hentered, hbase, hskip, hstored⟩ :=
      h.phase.in_handler (h.taken a List.mem_cons_self) hstep.leaves
    have hstored' : a.Stored L t (r.state (k + 1)).mem := by
      refine hstored.congr fun w hw => ?_
      obtain ⟨q, rfl⟩ | rfl := hw
      · exact hframes a List.mem_cons_self q
      · exact hstep.mem _ (.inr ⟨t, rfl⟩)
    constructor
    case phase =>
      obtain hout | hpc := hstep.enters
      · exact .handling x hentered hbase hskip hout hstored'
      · obtain ⟨hsp, hs0⟩ := hreturns a rest x rfl hentered (atLine_of_pc (by decide) hpc)
        exact .leaving _ 0 (Nat.zero_le _) hpc ⟨hsp.trans hbase, hs0.trans hskip, hstored'⟩
          (Agree.refl _)
    case back => exact h.back
    case frames =>
      intro a' ha'
      exact (h.frames a' ha').congr (hframes a' (List.mem_cons_of_mem a ha'))
    case taken => exact h.taken
    case apart => exact h.apart

/-- **A line** of its own. -/
theorem threadInv_line (hconv : r.Conventions t n) (hk : k < n)
    (hthread : r.thread k = t) (hevent : r.event k = .line)
    (h : ThreadInv S t (r.activations t k) ((r.state k).view t)) :
    ThreadInv S t (r.activations t (k + 1)) ((r.state (k + 1)).view t) ∧
      (((r.state k).view t).pc = L.addr 101 → ∀ a rest, r.activations t k = a :: rest →
        Returned a ((r.state (k + 1)).view t)) := by
  have hstep := (r.step k).line hevent
  have hhandlers := hconv.handlers k hk hthread hevent
  rw [hthread] at hstep
  cases hacts : r.activations t k with
  | nil =>
    rw [hacts] at h
    rw [Routine.step, show (trapRoutine L S).lineAt _ = none from h] at hstep
    cases hstep
  | cons a rest =>
    rw [hacts] at h
    have hframes := h.frames_of_line hstep
    obtain ⟨hcall, hlast, hphase⟩ | ⟨hcall, hcalled⟩ | ⟨hlast, hback⟩ :=
      h.phase.next (h.taken a List.mem_cons_self) hstep
    · refine ⟨?_, fun hpc => absurd hpc hlast⟩
      rw [activations_line hthread hevent hcall hlast, hacts]
      exact ⟨hphase, h.back, hframes, h.taken, h.apart⟩
    · have hnot : ((r.state k).view t).pc ≠ L.addr 101 := by
        rw [hcall]
        exact fun haddr => absurd (line_inj S (by decide) (by decide) haddr) (by decide)
      refine ⟨?_, fun hpc => absurd hpc hnot⟩
      rw [activations_call hthread hevent hcall hacts]
      exact h.enter hcalled (hhandlers (atLine_of_pc (by decide) hcall)) hframes
    · constructor
      · rw [activations_last hthread hevent hlast, hacts]
        exact h.returned hback hframes
      · intro _ a' rest' heq
        obtain ⟨rfl, rfl⟩ := List.cons.inj heq
        exact hback

/-- **A step of another thread**: what it stores to is its own. -/
theorem threadInv_other (hthread : r.thread k ≠ t)
    (hother : ThreadInv S (r.thread k) (r.activations (r.thread k) k)
      ((r.state k).view (r.thread k)))
    (h : ThreadInv S t (r.activations t k) ((r.state k).view t)) :
    ThreadInv S t (r.activations t (k + 1)) ((r.state (k + 1)).view t) := by
  have hhart := (r.step k).others t hthread.symm
  rw [activations_other hthread]
  refine h.congr ⟨?_, ?_, ?_, fun w hw => ?_⟩
  · exact ((congrArg Hart.x hhart).trans (TrapEvent.others_x _ _)).symm
  · refine ((congrArg (fun h => h.csrs.butIe) hhart).trans ?_).symm
    cases r.event k <;> rfl
  · exact ((congrArg Hart.pc hhart).trans (TrapEvent.others_pc _ _)).symm
  · show (r.state k).mem w = (r.state (k + 1)).mem w
    symm
    cases hevent : r.event k with
    | trap cause => exact congrArg (fun m => Machine.mem m w) ((r.step k).trap cause hevent).2
    | outside =>
      refine ((r.step k).outside hevent).mem w ?_
      obtain hstack | rfl := hw
      · exact .inl ⟨t, hthread.symm, hstack⟩
      · exact .inr ⟨t, rfl⟩
    | line =>
      obtain ⟨i, line, hat, hline, hview⟩ := line_cases hevent
      have hmem : (r.state (k + 1)).mem w = (line.effect (csrFile (r.thread k)) (L.addr (i + 1))
          ((r.state k).view (r.thread k))).mem w := congrArg (fun m => Machine.mem m w) hview
      rw [hmem]
      refine Line.effect_mem _ fun hstores => ?_
      generalize r.activations (r.thread k) k = acts at hother
      cases acts with
      | nil => exact hat.not_outside hother
      | cons a rest =>
        have htaken := hother.taken a List.mem_cons_self
        have hmine := htaken.own (hother.phase.stores htaken hline hat.2 hstores)
        obtain hstack | rfl := hw
        · obtain hstack' | rfl := hmine
          · exact S.stacksApart _ _ _ hthread hstack' hstack
          · exact S.tablesApart _ _ hstack
        · obtain hstack' | haddr := hmine
          · exact S.tablesApart _ _ hstack'
          · exact hthread (epcAddr_inj haddr.symm)

/-- **The invariant of a run** in which traps are nested in the window only. -/
theorem threadInv (hconv : ∀ t, r.Conventions t n) (hwindow : r.NestedInWindow n) :
    ∀ k, k ≤ n → ∀ t, ThreadInv S t (r.activations t k) ((r.state k).view t) := by
  intro k
  induction k with
  | zero => exact fun _ t => r.init t
  | succ k ih =>
    intro hk t
    specialize ih (Nat.le_of_lt hk)
    by_cases hthread : r.thread k = t
    · cases hevent : r.event k with
      | trap cause => exact threadInv_trap (hconv t) hwindow hk hthread hevent (ih t)
      | outside => exact threadInv_outside (hconv t) hk hthread hevent (ih t)
      | line => exact (threadInv_line (hconv t) hk hthread hevent (ih t)).1
    · exact threadInv_other hthread (ih (r.thread k)) (ih t)

/-- **Nested traps return correctly**, to any depth, when those that are taken
    within others are taken while the `epc` of the other is in `a1`. -/
theorem nested_returnsRight (r : TrapRun L S) (n : Nat) (hconv : ∀ t, r.Conventions t n)
    (hwindow : r.NestedInWindow n) : r.ReturnsRight n := by
  intro k hk hevent hat a rest hacts
  have hinv := threadInv hconv hwindow k (Nat.le_of_lt hk) (r.thread k)
  have hback := (threadInv_line (hconv _) hk rfl hevent hinv).2 hat.2 a rest hacts
  exact ⟨hback.pc, hback.x⟩

end TrapRun

/-! ## Section 3: A trap on the way back -/

/-- The lines of the entry: the call is the last. -/
theorem entry_lines {L : TrapLayout b} {S : L.Sound} {t : Tid b} {cause : Core.Cause}
    {m : Machine HartCsrs} (hpc : m.pc = L.addr 0) (hcause : m.csrs.cause = cause) :
    (∀ j, j + 1 < TrapRun.entrySteps cause → ∃ i, i ≤ 62 ∧
        (((trapRoutine L S).advance (csrFile t))^[j] m).pc = L.addr i) ∧
      ∀ j, j + 1 = TrapRun.entrySteps cause →
        (((trapRoutine L S).advance (csrFile t))^[j] m).pc = L.addr 63 := by
  have hsave := follows_save (S := S) (t := t) (P := fun _ => True) hpc (fun _ => trivial) trivial
  have ha0 : (saved L t m).x a0 = causeWord cause := by
    rw [savedRegs_of_saved.cause, hcause]
  generalize saved L t m = m₀ at hsave ha0
  obtain ⟨m₁, hchoose, hpc₁, -⟩ := follows_choose (S := S) (t := t)
    (m := { m₀ with pc := L.addr 41 }) rfl ha0
  have hlines := lines_of_choosing hchoose rfl
  have hafter : ∀ d, ((trapRoutine L S).advance (csrFile t))^[41 + d] m =
      ((trapRoutine L S).advance (csrFile t))^[d] { m₀ with pc := L.addr 41 } := by
    intro d
    rw [Nat.add_comm, Function.iterate_add_apply, hsave.ends]
  unfold TrapRun.entrySteps
  constructor
  · intro j hj
    by_cases hlow : j ≤ 41
    · have hstraight := pc_of_straight (S := S) (t := t) (n := 41) hpc
        (fun k _ _ => .inl (by omega)) j hlow
      rw [Nat.zero_add] at hstraight
      exact ⟨j, by omega, hstraight⟩
    · obtain ⟨d, rfl⟩ := Nat.exists_eq_add_of_le (Nat.le_of_lt (Nat.lt_of_not_le hlow))
      obtain ⟨i, -, hi, -, hat⟩ := hlines d (by omega)
      exact ⟨i, hi, by rw [hafter, hat]⟩
  · intro j hj
    obtain rfl : j = 41 + (selectSteps cause + 1) + 1 := by omega
    rw [Function.iterate_succ_apply', hafter, hchoose.ends,
      Routine.advance_line hpc₁ (show (trapEntry L)[62]? = some (.lw a5 0 a5) from rfl)]
    rfl

/-- Thread 0 of a run of two threads. -/
def machineAt (plan : Nat → Plan) (k : Nat) : Machine HartCsrs :=
  (pairAt (programMachine, idleHart) plan k).1

section machine

variable {plan : Nat → Plan} {k : Nat} {cause : Core.Cause}

theorem pc_machineAt : (((pairRun plan).state k).hart 0).pc = (machineAt plan k).pc := rfl

theorem mem_machineAt : ((pairRun plan).state k).mem = (machineAt plan k).mem := rfl

theorem atLine_machineAt {i : Nat} (hi : i < 103)
    (hpc : (machineAt plan k).pc = exampleLayout.addr i) : (pairRun plan).AtLine k 0 i :=
  ⟨hi, hpc⟩

/-- No line writes `evec`. -/
theorem evec_of_step {m m' : Machine HartCsrs}
    (h : exampleRoutine.step (csrFile (0 : Tid .threads4Dspm64)) m = some m') :
    m'.csrs.evec = m.csrs.evec := by
  obtain ⟨i, line, hline, -, -, rfl⟩ := Routine.step_cases h
  have hfits := List.all_eq_true.mp (TrapRun.trapEntry_csrFits exampleLayout) line
    (List.mem_of_getElem? hline)
  cases line with
  | csrw => exact absurd hfits Bool.noConfusion
  | csrrsi csr imm =>
    simp only [TrapRun.csrFits, Bool.and_eq_true, decide_eq_true_eq] at hfits
    obtain ⟨rfl, rfl⟩ := hfits
    rfl
  | _ => rfl

theorem evec_machineAt (plan : Nat → Plan) (k : Nat) :
    (machineAt plan k).csrs.evec = exampleLayout.addr 0 := by
  induction k with
  | zero => rfl
  | succ k ih =>
    unfold machineAt at ih ⊢
    rw [pairAt_succ]
    generalize pairAt (programMachine, idleHart) plan k = s at ih ⊢
    unfold pairNext
    cases plan k with
    | trap cause =>
      simp only
      split
      · exact ih
      · exact ih
    | otherTrap cause =>
      simp only
      split
      · exact ih
      · exact ih
    | goOn =>
      simp only
      split
      · next m' hstep => exact (evec_of_step hstep).trans ih
      · split
        · exact ih
        · exact ih

/-- Thread 0 takes a trap. -/
theorem machineAt_trap (hplan : plan k = .trap cause) :
    machineAt plan (k + 1) = takeTrap cause (machineAt plan k) ∧
      (pairRun plan).thread k = 0 ∧ (pairRun plan).event k = .trap cause := by
  have hevec := evec_machineAt plan k
  rw [pairRun_thread, pairRun_event]
  unfold machineAt at hevec ⊢
  rw [pairAt_succ]
  generalize pairAt (programMachine, idleHart) plan k = s at hevec ⊢
  rw [hplan]
  unfold pairNext
  simp only
  rw [if_pos hevec]
  exact ⟨rfl, rfl, rfl⟩

/-- Its handler returns. -/
theorem machineAt_return (hplan : plan k = .goOn) (hpc : (machineAt plan k).pc = 0x900)
    (hra : (machineAt plan k).x ra = exampleLayout.addr restoreEpcLine) :
    machineAt plan (k + 1) =
        { machineAt plan k with pc := exampleLayout.addr restoreEpcLine } ∧
      (pairRun plan).thread k = 0 ∧ (pairRun plan).event k = .outside := by
  have hnext := pairNext_return hpc hra
  rw [← hplan] at hnext
  rw [pairRun_thread, pairRun_event, ← hra]
  unfold machineAt
  rw [pairAt_succ, hnext]
  exact ⟨rfl, rfl, rfl⟩

/-- All traps are planned. -/
theorem plan_of_trap (h : (pairRun plan).event k = .trap cause) : plan k ≠ .goOn := by
  intro hplan
  rw [pairRun_event, hplan] at h
  generalize pairAt (programMachine, idleHart) plan k = s at h
  unfold pairNext at h
  simp only at h
  split at h
  · exact nomatch h
  · split at h
    · exact nomatch h
    · exact nomatch h

/-- A step of thread 0 that keeps to the conventions: a line, a handler that returns
    at once, or a trap for which there is room. -/
inductive Obeys (plan : Nat → Plan) (c : Nat) : Prop where
  | line (event : (pairRun plan).event c = .line)
      (calls : (machineAt plan c).pc = exampleLayout.addr 63 →
        exampleRoutine.Outside (machineAt plan (c + 1)).pc)
  | handler (event : (pairRun plan).event c = .outside)
      (mem : (machineAt plan (c + 1)).mem = (machineAt plan c).mem)
      (innermost : ∃ a rest, (pairRun plan).activations 0 c = a :: rest ∧
        a.handler = some (machineAt plan (c + 1)).x)
  | trap (cause : Core.Cause) (event : (pairRun plan).event c = .trap cause)
      (room : ∀ q, exampleLayout.stack 0 (frameBase (machineAt plan c) + frameOff q))
      (apart : (pairRun plan).activations 0 c ≠ [] → ((pairRun plan).activations 0 c).tail = [])
      (fault : (pairRun plan).activations 0 c = [] →
        exampleRoutine.Outside ((machineAt plan c).pc + epcSkip cause))

/-- Such steps make a run that keeps to them. -/
theorem conventions_of_obeys {n : Nat} (hthread : ∀ c, c < n → (pairRun plan).thread c = 0)
    (h : ∀ c, c < n → Obeys plan c) (t : Tid .threads4Dspm64) :
    (pairRun plan).Conventions t n := by
  have hzero : ∀ c, c < n → (pairRun plan).thread c = t → t = 0 :=
    fun c hc ht => ht.symm.trans (hthread c hc)
  have hevents : ∀ {c : Nat} {e e' : TrapEvent}, (pairRun plan).event c = e →
      (pairRun plan).event c = e' → e = e' := fun he he' => he.symm.trans he'
  constructor
  case program =>
    intro c hc ht hevent hacts
    obtain rfl := hzero c hc ht
    cases h c hc with
    | line event => exact nomatch hevents event hevent
    | handler event mem innermost =>
      obtain ⟨a, rest, hcons, -⟩ := innermost
      exact nomatch hcons.symm.trans hacts
    | trap cause event => exact nomatch hevents event hevent
  case frames =>
    intro c hc ht hevent a _ q
    obtain rfl := hzero c hc ht
    cases h c hc with
    | line event => exact nomatch hevents event hevent
    | handler event mem innermost =>
      rw [mem_machineAt, mem_machineAt, mem]
    | trap cause event => exact nomatch hevents event hevent
  case handlers =>
    intro c hc ht hevent hat
    obtain rfl := hzero c hc ht
    cases h c hc with
    | line event calls => exact calls hat.2
    | handler event => exact nomatch hevents event hevent
    | trap cause event => exact nomatch hevents event hevent
  case returns =>
    intro c hc ht hevent a rest x hacts hentered _
    obtain rfl := hzero c hc ht
    cases h c hc with
    | line event => exact nomatch hevents event hevent
    | handler event mem innermost =>
      obtain ⟨a', rest', hacts', hentered'⟩ := innermost
      obtain ⟨rfl, -⟩ := List.cons.inj (hacts.symm.trans hacts')
      obtain rfl := Option.some.inj (hentered.symm.trans hentered')
      exact ⟨rfl, rfl⟩
    | trap cause event => exact nomatch hevents event hevent
  case room =>
    intro c hc ht cause hevent
    obtain rfl := hzero c hc ht
    cases h c hc with
    | line event => exact nomatch hevents event hevent
    | handler event => exact nomatch hevents event hevent
    | trap cause' event room apart =>
      refine ⟨room, fun a ha => ?_⟩
      cases hacts : (pairRun plan).activations 0 c with
      | nil =>
        rw [hacts] at ha
        exact absurd ha List.not_mem_nil
      | cons a' rest =>
        rw [apart (by rw [hacts]; exact List.cons_ne_nil a' rest)] at ha
        exact absurd ha List.not_mem_nil
  case faults =>
    intro c hc ht cause hevent hacts
    obtain rfl := hzero c hc ht
    cases h c hc with
    | line event => exact nomatch hevents event hevent
    | handler event => exact nomatch hevents event hevent
    | trap cause' event room apart fault =>
      obtain rfl : cause' = cause := TrapEvent.trap.inj (hevents event hevent)
      exact fault hacts

/-- Lines that neither call nor return leave the traps alone. -/
theorem activations_of_lines (plan : Nat → Plan) {k k' : Nat} (hle : k ≤ k')
    (h : ∀ c, k ≤ c → c < k' → (pairRun plan).thread c = 0 ∧ (pairRun plan).event c = .line ∧
      ∃ i, i < 103 ∧ i ≠ 63 ∧ i ≠ 101 ∧ (machineAt plan c).pc = exampleLayout.addr i) :
    (pairRun plan).activations 0 k' = (pairRun plan).activations 0 k ∧
      ∀ c, k ≤ c → c < k' → (pairRun plan).thread c = 0 ∧ Obeys plan c := by
  have hne : ∀ {c i i' : Nat}, i < 103 → i' < 103 → i ≠ i' →
      (machineAt plan c).pc = exampleLayout.addr i →
        (machineAt plan c).pc ≠ exampleLayout.addr i' :=
    fun hi hi' hii' hpc hpc' => hii' (line_inj exampleLayout_sound hi hi' (hpc.symm.trans hpc'))
  constructor
  · induction k', hle using Nat.le_induction with
    | base => rfl
    | succ k' hle ih =>
      obtain ⟨hthread, hevent, i, hi, hcall, hlast, hpc⟩ := h k' hle (Nat.lt_succ_self k')
      rw [TrapRun.activations_line hthread hevent (hne hi (by decide) hcall hpc)
        (hne hi (by decide) hlast hpc)]
      exact ih fun c hlow hhigh => h c hlow (Nat.lt_succ_of_lt hhigh)
  · intro c hlow hhigh
    obtain ⟨hthread, hevent, i, hi, hcall, -, hpc⟩ := h c hlow hhigh
    exact ⟨hthread, .line hevent fun hpc' => absurd hpc' (hne hi (by decide) hcall hpc)⟩

/-- There is room for a frame, and all handlers are at 0x900. -/
structure Ready (m : Machine HartCsrs) : Prop where
  room : ∀ q, exampleLayout.stack 0 (frameBase m + frameOff q)
  aligned : ∀ q, Aligned (frameBase m + frameOff q)
  handlers : ∀ ty, m.mem (exampleLayout.handlerAddr 0 ty) = 0x900

/-- **A trap up to its last line**: where it is taken, the steps that follow, and
    what it leaves. -/
structure Passes (plan : Nat → Plan) (k : Nat) (cause : Core.Cause) (k' : Nat) : Prop where
  steps : ∀ c, k < c → c < k' → (pairRun plan).thread c = 0 ∧ Obeys plan c
  traps : ∃ x, (pairRun plan).activations 0 k' =
    ⟨machineAt plan k, cause, some x⟩ :: (pairRun plan).activations 0 k
  last : (machineAt plan k').pc = exampleLayout.addr 101
  tp : (machineAt plan k').x tp = (machineAt plan k).pc + epcSkip cause
  sp : (machineAt plan k').x sp = (machineAt plan k).x sp
  handlers : ∀ ty, (machineAt plan k').mem (exampleLayout.handlerAddr 0 ty) = 0x900

/-- **The entry**: the lines after the trap. -/
theorem passes_entry (hplan : plan k = .trap cause) (hready : Ready (machineAt plan k))
    {h : Nat} (hh : k + 1 + TrapRun.entrySteps cause = h)
    (hgo : ∀ c, k < c → c < h → plan c = .goOn) :
    (∀ c, k < c → c < h → (pairRun plan).thread c = 0 ∧ Obeys plan c) ∧
      (pairRun plan).activations 0 h =
        ⟨machineAt plan k, cause, some (machineAt plan h).x⟩ :: (pairRun plan).activations 0 k ∧
      (machineAt plan h).pc = 0x900 ∧
      (machineAt plan h).x ra = exampleLayout.addr restoreEpcLine ∧
      (machineAt plan h).x sp = frameBase (machineAt plan k) ∧
      (machineAt plan h).x s0 = epcSkip cause ∧
      (machineAt plan h).mem =
        (saved exampleLayout (0 : Tid .threads4Dspm64)
          (takeTrap cause (machineAt plan k))).mem := by
  subst hh
  obtain ⟨htaken, hthread, hevent⟩ := machineAt_trap hplan
  have hpc : (takeTrap cause (machineAt plan k)).pc = exampleLayout.addr 0 :=
    evec_machineAt plan k
  have hcause : (takeTrap cause (machineAt plan k)).csrs.cause = cause := rfl
  obtain ⟨m', hfollows, hpc', hra, hsp, hs0, hmem⟩ :=
    program_entry hpc hcause hready.room hready.aligned (hready.handlers _)
  obtain ⟨hlines, hcall⟩ := entry_lines (S := exampleLayout_sound)
    (t := (0 : Tid .threads4Dspm64)) hpc hcause
  rw [← htaken] at hfollows hlines hcall
  have hadvance := pairAt_advance (k := k + 1) (fun _ ha => ha) hfollows
    (fun c hlow hhigh => hgo c hlow hhigh)
  have hend : machineAt plan (k + 1 + TrapRun.entrySteps cause) = m' :=
    (hadvance _ (Nat.le_refl _)).1.trans hfollows.ends
  obtain ⟨n, hn⟩ : ∃ n, TrapRun.entrySteps cause = n + 1 := ⟨_, rfl⟩
  rw [hn] at hadvance hend hlines hcall ⊢
  -- all lines but the last neither call nor return
  obtain ⟨hacts, hobeys⟩ := activations_of_lines plan (Nat.le_add_right (k + 1) n)
    (fun c hlow hhigh => by
      obtain ⟨j, rfl⟩ := Nat.exists_eq_add_of_le hlow
      obtain ⟨hat, hline⟩ := hadvance j (by omega)
      obtain ⟨i, hi, hpci⟩ := hlines j (by omega)
      obtain ⟨hthread, hevent⟩ := hline (by omega)
      exact ⟨hthread, hevent, i, by omega, by omega, by omega,
        (congrArg Machine.pc hat).trans hpci⟩)
  obtain ⟨hat, hline⟩ := hadvance n (by omega)
  obtain ⟨hthread', hevent'⟩ := hline (Nat.lt_succ_self n)
  have hpcn : (machineAt plan (k + 1 + n)).pc = exampleLayout.addr 63 :=
    (congrArg Machine.pc hat).trans (hcall n rfl)
  rw [TrapRun.activations_trap hthread hevent] at hacts
  have hentered := TrapRun.activations_call hthread' hevent' hpcn hacts
  refine ⟨fun c hlow hhigh => ?_, hentered, ?_, ?_, ?_, ?_, ?_⟩
  · by_cases hc : c < k + 1 + n
    · exact hobeys c hlow hc
    · obtain rfl : c = k + 1 + n := by omega
      refine ⟨hthread', .line hevent' fun _ => ?_⟩
      rw [show k + 1 + n + 1 = k + 1 + (n + 1) from rfl, hend, hpc']
      decide
  · rw [hend, hpc']
  · rw [hend, hra]
  · rw [hend, hsp]
    rfl
  · rw [hend, hs0]
  · rw [hend, hmem]

/-- The frame is not where the `epc` is. -/
theorem Ready.frame_ne {m : Machine HartCsrs} (h : Ready m) (q : Reg) :
    frameBase m + frameOff q ≠ exampleLayout.epcAddr 0 := by
  intro haddr
  have hroom := h.room q
  rw [haddr] at hroom
  exact exampleLayout_sound.tablesApart 0 0 hroom

/-- The handlers are neither in the frame nor in the table. -/
theorem Ready.saved_handlers {m : Machine HartCsrs} (h : Ready m) (ty : OsTrapType) :
    (saved exampleLayout (0 : Tid .threads4Dspm64) (takeTrap cause m)).mem
      (exampleLayout.handlerAddr 0 ty) = 0x900 := by
  obtain ⟨-, hstack, htable⟩ := handlerAddr_aligned ty
  rw [saved_mem_of_ne]
  · exact h.handlers ty
  · intro q haddr
    have hroom := h.room q
    rw [show frameBase m + frameOff q = exampleLayout.handlerAddr 0 ty from haddr.symm] at hroom
    exact hstack hroom
  · exact htable

/-- **A trap**, up to its last line, when no other comes. -/
theorem passes_trap (hplan : plan k = .trap cause) (hready : Ready (machineAt plan k)) {k' : Nat}
    (hk' : k + 1 + TrapRun.entrySteps cause + 38 = k')
    (hgo : ∀ c, k < c → c < k' → plan c = .goOn) : Passes plan k cause k' := by
  obtain ⟨h, hh⟩ : ∃ h, k + 1 + TrapRun.entrySteps cause = h := ⟨_, rfl⟩
  obtain ⟨hentry, hentered, hpc, hra, hsp, hs0, hmem⟩ :=
    passes_entry hplan hready hh (fun c hlow hhigh => hgo c hlow (by omega))
  rw [hh] at hk'
  subst hk'
  -- the handler returns
  obtain ⟨hreturned, hthread, hevent⟩ :=
    machineAt_return (hgo h (by omega) (by omega)) hpc hra
  have hkeeps : (machineAt plan (h + 1)).x = (machineAt plan h).x ∧
      (machineAt plan (h + 1)).mem = (machineAt plan h).mem ∧
      (machineAt plan (h + 1)).pc = exampleLayout.addr restoreEpcLine := by
    rw [hreturned]
    exact ⟨rfl, rfl, rfl⟩
  obtain ⟨hx, hmem', hback⟩ := hkeeps
  have hobeys : Obeys plan h := by
    refine .handler hevent hmem' ⟨_, _, hentered, ?_⟩
    rw [hx]
  -- the lines back
  have hbase : (machineAt plan (h + 1)).x sp = frameBase (machineAt plan k) := by rw [hx, hsp]
  obtain ⟨m, hfollows, hpc', htp, hsp', -, hmem''⟩ := follows_back (S := exampleLayout_sound)
    (t := (0 : Tid .threads4Dspm64)) hback
  rw [hbase] at hfollows hsp'
  have haligned : ∀ w, exampleLayout.Kept 0 (frameBase (machineAt plan k)) w →
      w.toNat % 4 = 0 := by
    intro w hw
    obtain ⟨q, rfl⟩ | rfl := hw
    · exact hready.aligned q
    · decide
  have hadvance := pairAt_advance (k := h + 1) haligned hfollows
    (fun c hlow hhigh => hgo c (by omega) (by omega))
  have hend : machineAt plan (h + 38) = m := (hadvance 37 (Nat.le_refl _)).1.trans hfollows.ends
  have hlines := pc_of_straight (S := exampleLayout_sound) (t := (0 : Tid .threads4Dspm64))
    (n := 37) hback (fun c hlow hhigh => .inr (by simp only [restoreEpcLine] at *; omega))
  obtain ⟨hacts, hlast⟩ := activations_of_lines plan (show h + 1 ≤ h + 38 by omega)
    (fun c hlow hhigh => by
      obtain ⟨j, rfl⟩ := Nat.exists_eq_add_of_le hlow
      obtain ⟨hat, hline⟩ := hadvance j (by omega)
      obtain ⟨hthread, hevent⟩ := hline (by omega)
      have hpcj := hlines j (by omega)
      simp only [restoreEpcLine] at hpcj
      exact ⟨hthread, hevent, 64 + j, by omega, by omega, by omega,
        (congrArg Machine.pc hat).trans hpcj⟩)
  constructor
  case steps =>
    intro c hlow hhigh
    obtain hc | rfl | hc := Nat.lt_trichotomy c h
    · exact hentry c hlow hc
    · exact ⟨hthread, hobeys⟩
    · exact hlast c hc hhigh
  case traps =>
    refine ⟨(machineAt plan h).x, ?_⟩
    rw [hacts, TrapRun.activations_outside hthread hevent, hentered]
  case last => rw [hend, hpc']
  case tp =>
    have hepc := (saved_mem (L := exampleLayout) (t := (0 : Tid .threads4Dspm64))
      (m := takeTrap cause (machineAt plan k)) hready.frame_ne).1
    rw [hend, htp, hmem', hmem, hepc, hx, hs0]
    rfl
  case sp =>
    rw [hend, hsp']
    show (machineAt plan k).x sp + -128 + 128 = _
    rw [BitVec.add_assoc]
    exact BitVec.add_zero _
  case handlers =>
    intro ty
    rw [hend, hmem'', hmem', hmem]
    exact hready.saved_handlers ty

/-- The last line. -/
theorem machineAt_last {k' : Nat} (hk' : k + 1 = k') (hplan : plan k = .goOn)
    (hpc : (machineAt plan k).pc = exampleLayout.addr 101) :
    (machineAt plan k').pc = (machineAt plan k).x tp ∧
      (machineAt plan k').x = (machineAt plan k).x ∧ (pairRun plan).thread k = 0 ∧
      (pairRun plan).event k = .line ∧ Obeys plan k ∧
      (pairRun plan).activations 0 k' = ((pairRun plan).activations 0 k).tail := by
  subst hk'
  have hlast : Follows exampleRoutine (csrFile (0 : Tid .threads4Dspm64)) Aligned 1
      (machineAt plan k) _ := Follows.line _ (.jalr 0 tp) hpc rfl (fun a ha => nomatch ha)
  have hadvance := pairAt_advance (k := k) (fun _ ha => ha) hlast (fun c hlow hhigh => by
    obtain rfl : c = k := by omega
    exact hplan)
  obtain ⟨hthread, hevent⟩ := (hadvance 0 (Nat.zero_le _)).2 (by decide)
  have hend : machineAt plan (k + 1) = _ := (hadvance 1 (Nat.le_refl _)).1.trans hlast.ends
  have hx : (machineAt plan (k + 1)).x = (machineAt plan k).x := by
    rw [hend]
    rfl
  refine ⟨congrArg Machine.pc hend, hx, hthread, hevent, ?_,
    TrapRun.activations_last hthread hevent hpc⟩
  refine .line hevent fun hcall => ?_
  rw [hpc] at hcall
  exact absurd (line_inj exampleLayout_sound (by decide) (by decide) hcall) (by decide)

theorem Ready.congr {m m' : Machine HartCsrs} (h : Ready m) (hsp : m'.x sp = m.x sp)
    (hhandlers : ∀ ty, m'.mem (exampleLayout.handlerAddr 0 ty) = 0x900) : Ready m' where
  room := by
    intro q
    rw [show frameBase m' = frameBase m from congrArg (· + -128) hsp]
    exact h.room q
  aligned := by
    intro q
    rw [show frameBase m' = frameBase m from congrArg (· + -128) hsp]
    exact h.aligned q
  handlers := hhandlers

/-- There is room for another frame. -/
theorem lower_stack (q : Reg) :
    exampleLayout.stack 0 (frameBase programMachine + -128 + frameOff q) := by
  revert q
  decide

theorem lower_aligned (q : Reg) : Aligned (frameBase programMachine + -128 + frameOff q) := by
  revert q
  decide

theorem ready_program (plan : Nat → Plan) : Ready (machineAt plan 0) :=
  ⟨frame_stack, frame_aligned, fun _ => rfl⟩

/-- The first trap. -/
theorem obeys_first (hplan : plan 0 = .trap cause)
    (hfault : exampleRoutine.Outside (0x200 + epcSkip cause)) :
    (pairRun plan).thread 0 = 0 ∧ Obeys plan 0 := by
  obtain ⟨-, hthread, hevent⟩ := machineAt_trap hplan
  refine ⟨hthread, .trap cause hevent (ready_program plan).room ?_ fun _ => hfault⟩
  exact fun hne => absurd rfl hne

/-- A trap within one other. -/
theorem obeys_second {a : Activation} (hplan : plan k = .trap cause)
    (hready : Ready (machineAt plan k)) (hacts : (pairRun plan).activations 0 k = [a]) :
    (pairRun plan).thread k = 0 ∧ Obeys plan k := by
  obtain ⟨-, hthread, hevent⟩ := machineAt_trap hplan
  refine ⟨hthread, .trap cause hevent hready.room (fun _ => ?_) fun hnil => ?_⟩
  · rw [hacts]
    rfl
  · exact nomatch hacts.symm.trans hnil

/-- **A trap up to the window**, with room for one more frame. -/
theorem passes_save (hplan : plan k = .trap cause) (hready : Ready (machineAt plan k)) {k' : Nat}
    (hk' : k + 1 + 34 = k') (hgo : ∀ c, k < c → c < k' → plan c = .goOn)
    (hroom : ∀ q, exampleLayout.stack 0 (frameBase (machineAt plan k) + -128 + frameOff q))
    (haligned : ∀ q, Aligned (frameBase (machineAt plan k) + -128 + frameOff q)) :
    (∀ c, k < c → c < k' → (pairRun plan).thread c = 0 ∧ Obeys plan c) ∧
      (pairRun plan).activations 0 k' =
        ⟨machineAt plan k, cause, none⟩ :: (pairRun plan).activations 0 k ∧
      (machineAt plan k').pc = exampleLayout.addr 34 ∧ Ready (machineAt plan k') := by
  subst hk'
  obtain ⟨htaken, hthread, hevent⟩ := machineAt_trap hplan
  have hpc : (takeTrap cause (machineAt plan k)).pc = exampleLayout.addr 0 :=
    evec_machineAt plan k
  obtain ⟨m, hfollows, hpc', hsp, -, -, -, hmem⟩ := follows_readEpc (S := exampleLayout_sound)
    (t := (0 : Tid .threads4Dspm64)) (P := Aligned) hpc hready.aligned
  have hlines := pc_of_straight (S := exampleLayout_sound) (t := (0 : Tid .threads4Dspm64))
    (n := 34) hpc (fun c hlow hhigh => .inl (by omega))
  rw [← htaken] at hfollows hlines
  have hadvance := pairAt_advance (k := k + 1) (fun _ ha => ha) hfollows
    (fun c hlow hhigh => hgo c hlow hhigh)
  have hend : machineAt plan (k + 1 + 34) = m :=
    (hadvance 34 (Nat.le_refl _)).1.trans hfollows.ends
  obtain ⟨hacts, hobeys⟩ := activations_of_lines plan (Nat.le_add_right (k + 1) 34)
    (fun c hlow hhigh => by
      obtain ⟨j, rfl⟩ := Nat.exists_eq_add_of_le hlow
      obtain ⟨hat, hline⟩ := hadvance j (by omega)
      obtain ⟨hthread, hevent⟩ := hline (by omega)
      exact ⟨hthread, hevent, 0 + j, by omega, by omega, by omega,
        (congrArg Machine.pc hat).trans (hlines j (by omega))⟩)
  rw [TrapRun.activations_trap hthread hevent] at hacts
  refine ⟨hobeys, hacts, ?_, ?_⟩
  · rw [hend, hpc']
  · have hbase : frameBase (machineAt plan (k + 1 + 34)) =
        frameBase (machineAt plan k) + -128 := by
      rw [hend]
      exact congrArg (· + -128) hsp
    constructor
    case room =>
      rw [hbase]
      exact hroom
    case aligned =>
      rw [hbase]
      exact haligned
    case handlers =>
      intro ty
      obtain ⟨-, hstack, -⟩ := handlerAddr_aligned ty
      rw [hend, hmem]
      · exact hready.handlers ty
      · intro q haddr
        have hroom := hready.room q
        rw [show frameBase (machineAt plan k) + frameOff q = exampleLayout.handlerAddr 0 ty
          from haddr.symm] at hroom
        exact hstack hroom

end machine

/-- Thread 0 takes a timer interrupt, and another as soon as the interrupts are
    enabled again, before the last line. -/
def againPlan (k : Nat) : Plan := if k = 0 ∨ k = 88 then .trap Core.Causes.ie else .goOn

theorem againPlan_goOn {k : Nat} (h : k ≠ 0) (h' : k ≠ 88) : againPlan k = .goOn := by
  unfold againPlan
  exact if_neg fun heither => heither.elim h h'

theorem againPlan_passes : Passes againPlan 0 Core.Causes.ie 88 ∧
    Ready (machineAt againPlan 88) ∧ Passes againPlan 88 Core.Causes.ie 176 := by
  have hfirst : Passes againPlan 0 Core.Causes.ie 88 :=
    passes_trap rfl (ready_program againPlan) rfl
      (fun c hlow hhigh => againPlan_goOn (by omega) (by omega))
  have hready := (ready_program againPlan).congr hfirst.sp hfirst.handlers
  exact ⟨hfirst, hready,
    passes_trap rfl hready rfl (fun c hlow hhigh => againPlan_goOn (by omega) (by omega))⟩

/-- **Nested traps return to the wrong place**: the inner trap returns to the last
    line, but with the address of that line in `tp`. -/
theorem again_not_returnsRight :
    (pairRun againPlan).event 88 = .trap Core.Causes.ie ∧ (pairRun againPlan).AtLine 88 0 101 ∧
      (∀ t, (pairRun againPlan).Conventions t 178) ∧ ¬ (pairRun againPlan).ReturnsRight 178 := by
  obtain ⟨hfirst, hready, hsecond⟩ := againPlan_passes
  obtain ⟨x, hacts⟩ := hfirst.traps
  obtain ⟨x', hacts'⟩ := hsecond.traps
  rw [hacts] at hacts'
  obtain ⟨-, -, hevent⟩ :=
    machineAt_trap (show againPlan 88 = .trap Core.Causes.ie from rfl)
  -- the last line of the inner trap, and of the outer
  obtain ⟨hpc, hx, hthread, -, hobeys, htail⟩ :=
    machineAt_last (show 176 + 1 = 177 from rfl) (show againPlan 176 = .goOn from rfl) hsecond.last
  have htp : (machineAt againPlan 176).x tp = exampleLayout.addr 101 := by
    rw [hsecond.tp, hfirst.last]
    rfl
  rw [htp] at hpc
  obtain ⟨hpc', -, hthread', hevent', hobeys', -⟩ :=
    machineAt_last (show 177 + 1 = 178 from rfl) (show againPlan 177 = .goOn from rfl) hpc
  rw [hacts', List.tail_cons] at htail
  have hall : ∀ c, c < 178 → (pairRun againPlan).thread c = 0 ∧ Obeys againPlan c := by
    intro c hc
    obtain rfl | hlow := Nat.eq_zero_or_pos c
    · exact obeys_first rfl (by decide)
    obtain hlt | rfl | hlow' := Nat.lt_trichotomy c 88
    · exact hfirst.steps c hlow hlt
    · exact obeys_second rfl hready hacts
    obtain hlt | rfl | rfl : c < 176 ∨ c = 176 ∨ c = 177 := by omega
    · exact hsecond.steps c hlow' hlt
    · exact ⟨hthread, hobeys⟩
    · exact ⟨hthread', hobeys'⟩
  refine ⟨hevent, atLine_machineAt (by decide) hfirst.last,
    conventions_of_obeys (fun c hc => (hall c hc).1) (fun c hc => (hall c hc).2), fun hright => ?_⟩
  specialize hright 177 (by decide) hevent'
  rw [hthread'] at hright
  have hback := (hright (atLine_machineAt (by decide) hpc) _ _ htail).1
  rw [pc_machineAt, show 177 + 1 = 178 from rfl, hpc', hx, htp] at hback
  have hwrong : exampleLayout.addr 101 ≠ 0x200 + epcSkip Core.Causes.ie := by decide
  exact hwrong hback

/-- Thread 0 takes a timer interrupt, and an exception on expiry after the line that
    reads the `epc`. -/
def innerPlan (k : Nat) : Plan :=
  if k = 0 then .trap Core.Causes.ie else if k = 35 then .trap Core.Causes.ee else .goOn

theorem innerPlan_goOn {k : Nat} (h : k ≠ 0) (h' : k ≠ 35) : innerPlan k = .goOn := by
  rw [innerPlan, if_neg h, if_neg h']

/-- The inner trap returns into the window. -/
theorem nested_returnsRight_inner :
    (pairRun innerPlan).event 35 = .trap Core.Causes.ee ∧
      (∀ t, (pairRun innerPlan).Conventions t 126) ∧ (pairRun innerPlan).NestedInWindow 126 ∧
      (pairRun innerPlan).ReturnsRight 126 := by
  obtain ⟨hlines, hacts, hpc, hready⟩ := passes_save
    (show innerPlan 0 = .trap Core.Causes.ie from rfl) (ready_program innerPlan)
    (show 0 + 1 + 34 = 35 from rfl)
    (fun c hlow hhigh => innerPlan_goOn (by omega) (by omega)) lower_stack lower_aligned
  have hsecond : Passes innerPlan 35 Core.Causes.ee 125 :=
    passes_trap rfl hready rfl (fun c hlow hhigh => innerPlan_goOn (by omega) (by omega))
  obtain ⟨-, hthread, hevent⟩ :=
    machineAt_trap (show innerPlan 35 = .trap Core.Causes.ee from rfl)
  obtain ⟨-, -, hthread', -, hobeys, -⟩ :=
    machineAt_last (show 125 + 1 = 126 from rfl) (show innerPlan 125 = .goOn from rfl) hsecond.last
  have hall : ∀ c, c < 126 → (pairRun innerPlan).thread c = 0 ∧ Obeys innerPlan c := by
    intro c hc
    obtain rfl | hlow := Nat.eq_zero_or_pos c
    · exact obeys_first rfl (by decide)
    obtain hlt | rfl | hlow' := Nat.lt_trichotomy c 35
    · exact hlines c hlow hlt
    · exact obeys_second rfl hready hacts
    obtain hlt | rfl : c < 125 ∨ c = 125 := by omega
    · exact hsecond.steps c hlow' hlt
    · exact ⟨hthread', hobeys⟩
  have hconventions := conventions_of_obeys (fun c hc => (hall c hc).1) (fun c hc => (hall c hc).2)
  have hwindow : (pairRun innerPlan).NestedInWindow 126 := by
    intro c hc cause htrap hopen
    have hplan := plan_of_trap htrap
    by_cases hzero : c = 0
    · subst hzero
      exact absurd rfl hopen
    obtain rfl : c = 35 := by
      by_contra hne
      exact hplan (innerPlan_goOn hzero hne)
    obtain rfl : Core.Causes.ee = cause := TrapEvent.trap.inj (hevent.symm.trans htrap)
    rw [hthread]
    exact ⟨by decide, 34, by decide, by decide, atLine_machineAt (by decide) hpc⟩
  exact ⟨hevent, hconventions, hwindow,
    TrapRun.nested_returnsRight (pairRun innerPlan) 126 hconventions hwindow⟩

end Flexpret.Os
