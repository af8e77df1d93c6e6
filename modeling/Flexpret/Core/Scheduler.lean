import Flexpret.Core.Config
import Mathlib.Data.List.FinRange

/-! # The Hardware Scheduler

    `priorityArbiter`, `RRArbiterMaskMethod` and the `Scheduler` module: which
    thread the next cycle fetches for, from the slot and mode registers.
-/

namespace Flexpret.Core

/-! ## Section 1: Arbiters -/

section arbiters

variable {n : Nat}

/-- `v.foldLeft(Bool(false))(_ || _)`. -/
def anyOf (v : Fin n → Bool) : Bool := (List.finRange n).any v

/-- `v.slice(0, i).foldLeft(Bool(false))(_ || _)`. -/
def anyBelow (v : Fin n → Bool) (i : Fin n) : Bool :=
  (List.finRange n).any fun j => j < i && v j

/-- `priorityArbiter`: higher priority to lower indices. -/
def priorityArbiter (request : Fin n → Bool) : Fin n → Bool :=
  fun i => request i && !anyBelow request i

/-- `RRArbiterMaskMethod`. -/
def rrArbiterMaskMethod (request lastGrantOH : Fin n → Bool) : Fin n → Bool :=
  let mask := anyBelow lastGrantOH
  let maskedRequest : Fin n → Bool := fun i => request i && mask i
  let maskedGrant := priorityArbiter maskedRequest
  let unmaskedGrant := priorityArbiter request
  let useMaskedGrant := anyOf maskedRequest
  fun i => if useMaskedGrant then maskedGrant i else unmaskedGrant i

/-- `Mux1H`: the or of the selected inputs. -/
def mux1H {w : Nat} (sel : Fin n → Bool) (inputs : Fin n → BitVec w) : BitVec w :=
  (List.finRange n).foldr (fun i acc => (if sel i then inputs i else 0) ||| acc) 0

/-- `OHToUInt`: the index of the bit that is set. -/
def ohToUInt (v : Fin n → Bool) : Nat := (List.finRange n).findIdx v

end arbiters

/-! ## Section 2: The Scheduler module -/

variable (conf : FlexpretConfiguration)

/-- The inputs of a cycle. -/
structure SchedulerIn where
  slots : Fin 8 → BitVec 4
  threadModes : conf.Tid → BitVec 2

/-- The registers; which of them there are depends on the configuration. -/
structure SchedulerState where
  currentThread : BitVec conf.threadBits
  slotOH : Fin 8 → Bool
  threadModeOH : conf.Tid → Bool

/-- The outputs of a cycle. -/
structure SchedulerOut where
  thread : BitVec conf.threadBits
  valid : Bool

def schedulerReset : SchedulerState conf where
  currentThread := 0
  slotOH := fun _ => false
  threadModeOH := fun _ => false

variable {conf}

/-- `threadActive`.  No slot and no counter names a thread that is not there. -/
def SchedulerIn.threadActive (inp : SchedulerIn conf) (i : BitVec conf.threadBits) : Bool :=
  if h : i.toNat < conf.threads then
    inp.threadModes ⟨i.toNat, h⟩ = tmodeHA || inp.threadModes ⟨i.toNat, h⟩ = tmodeSA
  else false

/-- The slot the round-robin arbiter grants. -/
def slotGrantOH (s : SchedulerState conf) (inp : SchedulerIn conf) : Fin 8 → Bool :=
  rrArbiterMaskMethod (fun i => inp.slots i ≠ slotD) s.slotOH

def slotGrantValid (s : SchedulerState conf) (inp : SchedulerIn conf) : Bool :=
  anyOf (slotGrantOH s inp)

def slotSelected (s : SchedulerState conf) (inp : SchedulerIn conf) : BitVec 4 :=
  mux1H (slotGrantOH s inp) inp.slots

/-- The active soft thread the second arbiter grants. -/
def threadModeGrantOH (s : SchedulerState conf) (inp : SchedulerIn conf) : conf.Tid → Bool :=
  rrArbiterMaskMethod (fun i => inp.threadModes i = tmodeSA) s.threadModeOH

def threadModeGrantValid (s : SchedulerState conf) (inp : SchedulerIn conf) : Bool :=
  anyOf (threadModeGrantOH s inp)

/-- The thread the granted slot names: its low bits. -/
def slotThread (s : SchedulerState conf) (inp : SchedulerIn conf) : BitVec conf.threadBits :=
  (slotSelected s inp).setWidth conf.threadBits

/-- The granted slot names a thread of its own that is active. -/
def slotIssues (s : SchedulerState conf) (inp : SchedulerIn conf) : Bool :=
  slotSelected s inp ≠ slotS && inp.threadActive (slotThread s inp)

/-- The outputs. -/
def schedulerOut (s : SchedulerState conf) (inp : SchedulerIn conf) : SchedulerOut conf :=
  if conf.threads = 1 then
    { thread := 0, valid := inp.threadActive 0 }
  else if conf.roundRobin then
    { thread := s.currentThread, valid := inp.threadActive s.currentThread }
  else if slotGrantValid s inp then
    if slotIssues s inp then { thread := slotThread s inp, valid := true }
    else if threadModeGrantValid s inp then
      { thread := BitVec.ofNat conf.threadBits (ohToUInt (threadModeGrantOH s inp))
        valid := true }
    else { thread := slotThread s inp, valid := false }
  else { thread := slotThread s inp, valid := false }

/-- The registers after the cycle. -/
def schedulerNext (s : SchedulerState conf) (inp : SchedulerIn conf) : SchedulerState conf where
  currentThread :=
    if s.currentThread.toNat < conf.threads - 1 then s.currentThread + 1 else 0
  slotOH := if slotGrantValid s inp then slotGrantOH s inp else s.slotOH
  threadModeOH :=
    if slotGrantValid s inp && !slotIssues s inp && threadModeGrantValid s inp then
      threadModeGrantOH s inp
    else s.threadModeOH

end Flexpret.Core
