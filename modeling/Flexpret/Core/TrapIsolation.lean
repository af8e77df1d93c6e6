import Flexpret.Core.Csr
import Flexpret.Lib.Transition

/-! # Trap Isolation

    What a cycle of the thread in execute does to the trap state of the other
    threads.  Trap entry clears the interrupt enables of all threads, and an
    external line marks the thread in execute instead of its own.
-/

open Transition

namespace Flexpret.Core

variable {conf : FlexpretConfiguration}

/-! ## Section 1: What one cycle may do -/

/-- What traps and interrupts of a thread live in, but for `reg_msip`. -/
structure TrapState where
  ie : Bool
  mtie : Bool
  epc : BitVec 32
  cause : Cause
  evec : BitVec 32
  compare : BitVec 32
  mtfd : BitVec 32

def CsrState.trapState (s : CsrState conf) (u : conf.Tid) : TrapState where
  ie := s.regIe u
  mtie := s.regMtie u
  epc := s.regEpcs u
  cause := s.regCauses u
  evec := s.regEvecs u
  compare := s.regCompare u
  mtfd := s.regMtfd u

/-- **Trap isolation** in one cycle: the trap state of every thread that is
    not in execute stays, but for its own interrupt line, and no asserted line
    is lost. -/
structure TrapIsolated (s : CsrState conf) (i : CsrIn conf) (s' : CsrState conf) : Prop where
  state : ∀ u, u ≠ i.thread → s'.trapState u = s.trapState u
  /-- An interrupt is raised by the thread's own line only. -/
  raised : ∀ u, u ≠ i.thread → s'.regMsip u = true → s.regMsip u = true ∨ i.intExts u = true
  /-- A pending interrupt of another thread is not lost. -/
  kept : ∀ u, u ≠ i.thread → s.regMsip u = true → s'.regMsip u = true
  /-- An asserted line leaves its interrupt pending. -/
  pending : ∀ u, i.intExts u = true → s'.regMsip u = true

/-- When a cycle keeps the isolation: a trap comes while no other thread has
    interrupts enabled, and an asserted line is that of the thread in execute
    or of a thread whose interrupt is pending already. -/
structure TrapConfined (s : CsrState conf) (i : CsrIn conf) : Prop where
  trap : i.exception = true → ∀ u, u ≠ i.thread → s.regIe u = false
  line : ∀ u, i.intExts u = true →
    (u = i.thread ∧ conf.externalInterrupt = true) ∨ s.regMsip u = true

/-! ## Section 2: The registers of the other threads -/

theorem causes_externalInt (conf : FlexpretConfiguration) :
    conf.causes.contains Causes.externalInt = conf.externalInterrupt := by
  obtain ⟨threads, flex, iMemKB, dMemKB, mul, features, hpos, hle⟩ := conf
  cases features <;> rfl

section others

variable (s : CsrState conf) (i : CsrIn conf) {u : conf.Tid}

/-- A trap of any thread clears the enable. -/
theorem nextIe_of_ne (hu : u ≠ i.thread) :
    s.nextIe i u = if i.exception then false else s.regIe u := by
  simp only [CsrState.nextIe]
  split
  · rfl
  · exact assign_ne hu _ _

theorem nextMtie_of_ne (hu : u ≠ i.thread) : s.nextMtie i u = s.regMtie u := by
  simp [CsrState.nextMtie, hu]

theorem nextEpcs_of_ne (hu : u ≠ i.thread) : s.nextEpcs i u = s.regEpcs u := by
  simp [CsrState.nextEpcs, hu]

/-- No line reaches a thread that is not in execute. -/
theorem nextMsip_of_ne (hu : u ≠ i.thread) : s.nextMsip i u = s.regMsip u := by
  simp [CsrState.nextMsip, hu]

end others

/-- Any asserted line reaches the thread in execute. -/
theorem nextMsip_thread {s : CsrState conf} {i : CsrIn conf} {u : conf.Tid}
    (hext : conf.externalInterrupt = true) (hline : i.intExts u = true) :
    s.nextMsip i i.thread = true := by
  have hany : anyOf i.intExts = true := List.any_eq_true.mpr ⟨u, List.mem_finRange u, hline⟩
  simp only [CsrState.nextMsip, causes_externalInt, hext, hany, Bool.and_self, assign_self,
    if_true]

theorem nextMsip_of_no_lines {s : CsrState conf} {i : CsrIn conf} {u : conf.Tid}
    (hext : conf.externalInterrupt = false) : s.nextMsip i u = s.regMsip u := by
  simp only [CsrState.nextMsip, causes_externalInt, hext, Bool.false_and, assign, if_false,
    Bool.false_eq_true]

/-- What is left pending of an asserted line. -/
theorem nextMsip_of_line {s : CsrState conf} {i : CsrIn conf} {u : conf.Tid}
    (hline : i.intExts u = true) :
    s.nextMsip i u = true ↔
      (u = i.thread ∧ conf.externalInterrupt = true) ∨ s.regMsip u = true := by
  by_cases hu : u = i.thread
  · cases hext : conf.externalInterrupt with
    | true =>
      have hset : s.nextMsip i u = true := hu ▸ nextMsip_thread hext hline
      exact iff_of_true hset (.inl ⟨hu, rfl⟩)
    | false => simp [nextMsip_of_no_lines hext]
  · simp [nextMsip_of_ne s i hu, hu]

/-! ## Section 3: Isolation, exactly -/

theorem trapState_next_of_ne (s : CsrState conf) (i : CsrIn conf) {u : conf.Tid}
    (hu : u ≠ i.thread) :
    (s.next i).trapState u =
      { s.trapState u with ie := if i.exception then false else s.regIe u } := by
  simp [CsrState.trapState, CsrState.next, nextIe_of_ne s i hu, nextMtie_of_ne s i hu,
    nextEpcs_of_ne s i hu, hu]

/-- One cycle is isolated exactly when its trap and its lines are confined. -/
theorem trapIsolated_next_iff (s : CsrState conf) (i : CsrIn conf) :
    TrapIsolated s i (s.next i) ↔ TrapConfined s i := by
  constructor
  · intro h
    constructor
    · intro hexc u hu
      have hie : s.nextIe i u = s.regIe u := congrArg TrapState.ie (h.state u hu)
      rw [nextIe_of_ne s i hu, hexc] at hie
      exact hie.symm
    · exact fun u hline => (nextMsip_of_line hline).mp (h.pending u hline)
  · intro h
    constructor
    · intro u hu
      rw [trapState_next_of_ne s i hu]
      cases hexc : i.exception with
      | true => simp [CsrState.trapState, h.trap hexc u hu]
      | false => rfl
    · exact fun u hu hset => .inl (nextMsip_of_ne s i hu ▸ hset)
    · exact fun u hu hset => (nextMsip_of_ne s i hu).trans hset
    · exact fun u hline => (nextMsip_of_line hline).mpr (h.line u hline)

/-- The trap state of a thread stays through any number of isolated cycles of
    other threads. -/
theorem trapState_constant {s₀ : CsrState conf} {inp : Nat → CsrIn conf} {u : conf.Tid}
    (c n : Nat)
    (h : ∀ k, c ≤ k → k < c + n → u ≠ (inp k).thread ∧
      TrapIsolated (Machine.trace CsrState.next s₀ inp k) (inp k)
        (Machine.trace CsrState.next s₀ inp (k + 1))) :
    (Machine.trace CsrState.next s₀ inp (c + n)).trapState u =
      (Machine.trace CsrState.next s₀ inp c).trapState u := by
  induction n with
  | zero => rfl
  | succ n ih =>
    obtain ⟨hu, hiso⟩ := h (c + n) (Nat.le_add_right c n) (by omega)
    exact (hiso.state u hu).trans (ih fun k hle hlt => h k hle (by omega))

/-- **Trap isolation over runs**: from any state, every cycle of every run is
    isolated exactly when its trap and its lines are confined; and while they
    are, the trap state of a thread that is not in execute stays. -/
theorem trapIsolated_iff_confined (s₀ : CsrState conf) (inp : Nat → CsrIn conf) :
    (∀ c, TrapIsolated (Machine.trace CsrState.next s₀ inp c) (inp c)
        (Machine.trace CsrState.next s₀ inp (c + 1)) ↔
      TrapConfined (Machine.trace CsrState.next s₀ inp c) (inp c)) ∧
    ∀ u c n,
      (∀ k, c ≤ k → k < c + n → u ≠ (inp k).thread ∧
        TrapConfined (Machine.trace CsrState.next s₀ inp k) (inp k)) →
      (Machine.trace CsrState.next s₀ inp (c + n)).trapState u =
        (Machine.trace CsrState.next s₀ inp c).trapState u := by
  refine ⟨fun c => trapIsolated_next_iff _ _, fun u c n h => trapState_constant c n ?_⟩
  exact fun k hle hlt => ⟨(h k hle hlt).1, (trapIsolated_next_iff _ _).mpr (h k hle hlt).2⟩

/-! ## Section 4: A trap that disables another thread -/

/-- An instruction of thread `t` that touches no CSR. -/
def csrPlain (t : conf.Tid) : CsrIn conf where
  addr := 0
  thread := t
  csrType := 0
  write := false
  dataIn := 0
  valid := true
  kill := false
  exception := false
  epc := 0
  cause := 0
  sleep := false
  ie := false
  ee := false
  gpioIn := fun _ => 0
  intExts := fun _ => false
  cycle := false
  instret := false
  mt := false
  fd := false
  mtfdVal := 0

/-- Thread 1 enables its interrupts; then thread 0 takes a system call while
    the line of thread 2 is asserted. -/
def trapAfterEnable (c : Nat) : CsrIn conf4tf :=
  if c = 0 then
    { csrPlain (1 : Fin 4) with addr := CSRs.status, csrType := csrW, write := true, dataIn := 16 }
  else
    { csrPlain (0 : Fin 4) with
      kill := true, exception := true, cause := Causes.syscall
      intExts := fun u => u == (2 : Fin 4) }

theorem trapAfterEnable_not_isolated :
    CsrReset conf4tf (csrZero conf4tf) ∧
    ¬ TrapIsolated (Machine.trace CsrState.next (csrZero conf4tf) trapAfterEnable 1)
      (trapAfterEnable 1)
      (Machine.trace CsrState.next (csrZero conf4tf) trapAfterEnable 2) := by
  refine ⟨csrZero_reset conf4tf, fun h => ?_⟩
  have hne : (1 : Fin 4) ≠ (0 : Fin 4) := by decide
  have hie := congrArg TrapState.ie (h.state (1 : Fin 4) hne)
  revert hie
  decide +kernel

end Flexpret.Core
