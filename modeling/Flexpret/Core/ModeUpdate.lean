import Flexpret.Core.PipelineThread
import Flexpret.Core.TrapIsolation

/-! # Writes to the Thread Modes and Wake-ups

    A CSR instruction rewrites the modes of all threads while the timers and
    the interrupt lines wake some of them.  A woken thread gets its old mode
    back, awake: the wake-up is kept and what the instruction wrote to the
    thread's hard or soft bit is not.
-/

open Transition

namespace Flexpret.Core

variable {conf : FlexpretConfiguration}

/-! ## Section 1: One after the other -/

/-- The word a CSR instruction makes of the word it reads. -/
def CsrIn.modify (i : CsrIn conf) (dataOut : BitVec 32) : BitVec 32 :=
  if i.csrType = csrS then dataOut ||| i.dataIn
  else if i.csrType = csrC then dataOut &&& ~~~i.dataIn
  else i.dataIn

/-- The updates that meet in a cycle. -/
inductive ModeOp (conf : FlexpretConfiguration) where
  | csr
  | wake (u : conf.Tid)
  deriving DecidableEq

/-- One update by itself. -/
def ModeOp.apply (i : CsrIn conf) (modes : conf.Tid → BitVec 2) :
    ModeOp conf → conf.Tid → BitVec 2
  | .csr => fun u => field (i.modify (toBits modes)) 2 u.val
  | .wake u => Function.update modes u (modes u &&& tmodeAndA)

/-- The updates of a cycle that writes the modes. -/
def CsrState.modeOps (s : CsrState conf) (i : CsrIn conf) : List (ModeOp conf) :=
  .csr :: ((List.finRange conf.threads).filter (s.wake i)).map .wake

/-- A CSR instruction commits a write to the modes.  It is not also the DU or
    WU that puts its thread to sleep. -/
structure WritesModes (i : CsrIn conf) : Prop where
  writes : i.writes CSRs.tmodes = true
  awake : i.sleep = false

/-- **No update is lost**: the modes after the cycle are those of its updates
    in some order, the hard and soft bits are as written, and no wake-up is
    undone. -/
structure ModesUpdated (s : CsrState conf) (i : CsrIn conf) (s' : CsrState conf) : Prop where
  ordered : ∃ ops : List (ModeOp conf), ops.Perm (s.modeOps i) ∧
    s'.regTmodes = ops.foldl (ModeOp.apply i) s.regTmodes
  kept : ∀ u, (s'.regTmodes u).getLsbD 1 = (field (s.dataIn i) 2 u.val).getLsbD 1
  woken : ∀ u, s.wake i u = true → s'.regTmodes u = tmodeHA ∨ s'.regTmodes u = tmodeSA

/-- The instruction writes back the hard or soft bit of every thread that wakes
    up in its cycle. -/
def WokenBitsKept (s : CsrState conf) (i : CsrIn conf) : Prop :=
  ∀ u, s.wake i u = true →
    (field (s.dataIn i) 2 u.val).getLsbD 1 = (s.regTmodes u).getLsbD 1

instance (s : CsrState conf) (i : CsrIn conf) : Decidable (WokenBitsKept s i) :=
  inferInstanceAs (Decidable (∀ u : Fin conf.threads, s.wake i u = true →
    (field (s.dataIn i) 2 u.val).getLsbD 1 = (s.regTmodes u).getLsbD 1))

/-! ## Section 2: What the updates do to a bit -/

/-- What a CSR instruction makes of bit `k`. -/
def CsrIn.modifyBit (i : CsrIn conf) (k : Nat) (b : Bool) : Bool :=
  if i.csrType = csrS then b || i.dataIn.getLsbD k
  else if i.csrType = csrC then b && !i.dataIn.getLsbD k
  else i.dataIn.getLsbD k

theorem modify_getLsbD (i : CsrIn conf) (dataOut : BitVec 32) {k : Nat} (hk : k < 32) :
    (i.modify dataOut).getLsbD k = i.modifyBit k (dataOut.getLsbD k) := by
  unfold CsrIn.modify CsrIn.modifyBit
  split
  · rw [BitVec.getLsbD_or]
  · split
    · rw [BitVec.getLsbD_and, BitVec.getLsbD_not, decide_eq_true hk, Bool.true_and]
    · rfl

theorem modifyBit_modifyBit (i : CsrIn conf) (k : Nat) (b : Bool) :
    i.modifyBit k (i.modifyBit k b) = i.modifyBit k b := by
  unfold CsrIn.modifyBit
  split
  · rw [Bool.or_assoc, Bool.or_self]
  · split
    · rw [Bool.and_assoc, Bool.and_self]
    · rfl

theorem tmodes_fit (conf : FlexpretConfiguration) : 2 * conf.threads ≤ 32 := by
  have hle := conf.threads_le
  omega

/-- The hard or soft bit of a thread in the word an instruction writes. -/
theorem modify_hbit (i : CsrIn conf) (modes : conf.Tid → BitVec 2) (u : conf.Tid) :
    (field (i.modify (toBits modes)) 2 u.val).getLsbD 1 =
      i.modifyBit (2 * u.val + 1) ((modes u).getLsbD 1) := by
  have hlt : 2 * u.val + 1 < 32 := by
    have hu := u.isLt
    have hle := conf.threads_le
    omega
  have hread := field_toBits (tmodes_fit conf) modes u
  calc (field (i.modify (toBits modes)) 2 u.val).getLsbD 1
      = (i.modify (toBits modes)).getLsbD (2 * u.val + 1) := by
        simp [field]
    _ = i.modifyBit (2 * u.val + 1) ((toBits modes).getLsbD (2 * u.val + 1)) :=
        modify_getLsbD i _ hlt
    _ = i.modifyBit (2 * u.val + 1) ((modes u).getLsbD 1) := by
        rw [← hread]
        simp [field]

/-- Waking up leaves the hard or soft bit. -/
theorem wake_hbit (mode : BitVec 2) : (mode &&& tmodeAndA).getLsbD 1 = mode.getLsbD 1 := by
  revert mode
  decide

theorem wake_eq_iff (mode mode' : BitVec 2) :
    mode &&& tmodeAndA = mode' &&& tmodeAndA ↔ mode.getLsbD 1 = mode'.getLsbD 1 := by
  revert mode mode'
  decide

theorem wake_active (mode : BitVec 2) :
    mode &&& tmodeAndA = tmodeHA ∨ mode &&& tmodeAndA = tmodeSA := by
  revert mode
  decide

/-- In any order of updates the hard or soft bit is left as the CSR
    instruction writes it. -/
theorem foldl_hbit (i : CsrIn conf) (u : conf.Tid) (ops : List (ModeOp conf))
    (modes : conf.Tid → BitVec 2) :
    (ops.foldl (ModeOp.apply i) modes u).getLsbD 1 =
      if .csr ∈ ops then i.modifyBit (2 * u.val + 1) ((modes u).getLsbD 1)
      else (modes u).getLsbD 1 := by
  induction ops generalizing modes with
  | nil => rfl
  | cons op ops ih =>
    rw [List.foldl_cons, ih]
    cases op with
    | csr =>
      simp only [ModeOp.apply, modify_hbit, modifyBit_modifyBit, List.mem_cons, true_or, if_true,
        ite_self]
    | wake v =>
      have hbit : (ModeOp.apply i modes (.wake v) u).getLsbD 1 = (modes u).getLsbD 1 := by
        by_cases hv : u = v
        · subst hv
          simp only [ModeOp.apply, Function.update_self, wake_hbit]
        · simp only [ModeOp.apply, Function.update_of_ne hv]
      simp only [hbit, List.mem_cons, reduceCtorEq, false_or]

theorem foldl_wake (i : CsrIn conf) (u : conf.Tid) (woken : List conf.Tid)
    (modes : conf.Tid → BitVec 2) :
    (woken.map ModeOp.wake).foldl (ModeOp.apply i) modes u =
      if u ∈ woken then modes u &&& tmodeAndA else modes u := by
  induction woken generalizing modes with
  | nil => rfl
  | cons v woken ih =>
    rw [List.map_cons, List.foldl_cons, ih]
    by_cases hv : u = v
    · subst hv
      simp only [ModeOp.apply, Function.update_self, List.mem_cons, true_or, if_true,
        BitVec.and_assoc, BitVec.and_self, ite_self]
    · simp only [ModeOp.apply, Function.update_of_ne hv, List.mem_cons, hv, false_or]

/-! ## Section 3: A cycle that writes the modes -/

section writes

variable {s : CsrState conf} {i : CsrIn conf}

theorem dataIn_tmodes (h : WritesModes i) : s.dataIn i = i.modify (toBits s.regTmodes) := by
  have haddr : i.addr = CSRs.tmodes := by
    have hwrites := h.writes
    simp only [CsrIn.writes, Bool.and_eq_true, decide_eq_true_eq] at hwrites
    exact hwrites.2
  have hout : s.dataOut i.addr i.thread = toBits s.regTmodes := by
    simp [CsrState.dataOut, haddr, CSRs.tmodes, CSRs.slots, CSRs.hartid]
  unfold CsrState.dataIn
  rw [hout]
  rfl

theorem nextTmodes_writes (h : WritesModes i) (u : conf.Tid) :
    s.nextTmodes i u =
      if s.wake i u then s.regTmodes u &&& tmodeAndA else field (s.dataIn i) 2 u.val := by
  simp only [CsrState.nextTmodes, h.writes, h.awake, Bool.and_false, assign, if_true,
    Bool.false_eq_true, if_false]

theorem csr_mem_of_perm {ops : List (ModeOp conf)} (hperm : ops.Perm (s.modeOps i)) :
    .csr ∈ ops :=
  hperm.mem_iff.mpr (List.mem_cons_self ..)

/-- An order of the updates explains the modes only if the bits of the woken
    threads are written back. -/
theorem wokenBitsKept_of_ordered (h : WritesModes i) {ops : List (ModeOp conf)}
    (hperm : ops.Perm (s.modeOps i))
    (hops : s.nextTmodes i = ops.foldl (ModeOp.apply i) s.regTmodes) : WokenBitsKept s i := by
  intro u hu
  have hleft : (s.nextTmodes i u).getLsbD 1 = (s.regTmodes u).getLsbD 1 := by
    rw [nextTmodes_writes h, if_pos hu, wake_hbit]
  rw [hops, foldl_hbit, if_pos (csr_mem_of_perm hperm)] at hleft
  rw [dataIn_tmodes h, modify_hbit, hleft]

theorem ordered_of_wokenBitsKept (h : WritesModes i) (hkept : WokenBitsKept s i) :
    s.nextTmodes i = (s.modeOps i).foldl (ModeOp.apply i) s.regTmodes := by
  funext u
  rw [CsrState.modeOps, List.foldl_cons, foldl_wake, nextTmodes_writes h]
  show _ = if _ then field (i.modify (toBits s.regTmodes)) 2 u.val &&& tmodeAndA
    else field (i.modify (toBits s.regTmodes)) 2 u.val
  rw [← dataIn_tmodes h]
  have hmem : u ∈ (List.finRange conf.threads).filter (s.wake i) ↔ s.wake i u = true := by
    simp
  cases hu : s.wake i u with
  | true =>
    rw [if_pos rfl, if_pos (hmem.mpr hu)]
    exact (wake_eq_iff _ _).mpr (hkept u hu).symm
  | false =>
    rw [if_neg Bool.false_ne_true, if_neg]
    intro hin
    rw [hmem, hu] at hin
    exact Bool.false_ne_true hin

/-- The instruction in execute of a core is a CSR instruction or a DU or WU,
    not both. -/
theorem writesModes_csrIn {D : DecodeLogic conf} {c : CoreState conf} {inp : CoreIn conf}
    (hdec : c.ExeDecoded D) (h : (c.csrIn inp).writes CSRs.tmodes = true) :
    WritesModes (c.csrIn inp) := by
  refine ⟨h, ?_⟩
  have hwrite : (c.exeReg.sig.csr && c.exeReg.valid) = true := by
    simp only [CsrIn.writes, Bool.and_eq_true] at h
    exact h.1.1
  simp only [Bool.and_eq_true] at hwrite
  have hkind := (hdec.exclusive hwrite.2).csr hwrite.1
  have hdu : c.exeReg.sig.du = false := congrArg Flags.du hkind
  show c.exeSleep = false
  simp only [CoreState.exeSleep, CoreState.exeDu, hdu, Bool.and_false, Bool.false_and]

/-- **Updates of the thread modes**: in every state and for every set of
    threads that wake up, no update is lost exactly when the instruction writes
    back the hard or soft bit of each of them. -/
theorem modesUpdated_iff (s : CsrState conf) (i : CsrIn conf) (h : WritesModes i) :
    ModesUpdated s i (s.next i) ↔ WokenBitsKept s i := by
  constructor
  · intro hupdated
    obtain ⟨ops, hperm, hops⟩ := hupdated.ordered
    exact wokenBitsKept_of_ordered h hperm hops
  · intro hkept
    have hordered := ordered_of_wokenBitsKept h hkept
    constructor
    case ordered => exact ⟨s.modeOps i, List.Perm.refl _, hordered⟩
    case kept =>
      intro u
      show (s.nextTmodes i u).getLsbD 1 = _
      rw [hordered, foldl_hbit, if_pos (csr_mem_of_perm (List.Perm.refl _)), dataIn_tmodes h,
        modify_hbit]
    case woken =>
      intro u hu
      show s.nextTmodes i u = _ ∨ s.nextTmodes i u = _
      rw [nextTmodes_writes h, if_pos hu]
      exact wake_active _

end writes

/-! ## Section 4: A thread that wakes up while it is made soft -/

/-- Thread 0 starts thread 1, which delays until time 40; in cycle 4 that time
    has come. -/
def delayedUntil40 (c : Nat) : CsrIn conf4tf :=
  if c = 0 then
    { csrPlain (0 : Fin 4) with
      addr := CSRs.tmodes, csrType := csrW, write := true, dataIn := 0x50 }
  else if c = 1 then
    { csrPlain (1 : Fin 4) with
      addr := CSRs.compare, csrType := csrW, write := true, dataIn := 40 }
  else if c = 2 then { csrPlain (1 : Fin 4) with sleep := true }
  else csrPlain (0 : Fin 4)

/-- Thread 0 sets bits of the mode CSR. -/
def setModes (mask : BitVec 32) : CsrIn conf4tf :=
  { csrPlain (0 : Fin 4) with
    addr := CSRs.tmodes, csrType := csrS, write := true, dataIn := mask }

/-- Thread 1 wakes up while thread 2 is made soft. -/
theorem otherMadeSoft_updated :
    ModesUpdated (Machine.trace CsrState.next (csrZero conf4tf) delayedUntil40 4) (setModes 0x20)
      ((Machine.trace CsrState.next (csrZero conf4tf) delayedUntil40 4).next (setModes 0x20)) := by
  refine (modesUpdated_iff _ _ ⟨by decide, rfl⟩).mpr ?_
  decide +kernel

/-- Thread 1 wakes up while it is made soft, and stays hard. -/
theorem wokenMadeSoft_lost :
    CsrReset conf4tf (csrZero conf4tf) ∧ WritesModes (setModes 0x08) ∧
    ¬ ModesUpdated (Machine.trace CsrState.next (csrZero conf4tf) delayedUntil40 4) (setModes 0x08)
      ((Machine.trace CsrState.next (csrZero conf4tf) delayedUntil40 4).next (setModes 0x08)) := by
  refine ⟨csrZero_reset conf4tf, ⟨by decide, rfl⟩, fun h => ?_⟩
  have hkept := h.kept (1 : Fin 4)
  revert hkept
  decide +kernel

end Flexpret.Core
