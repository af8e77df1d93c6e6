import Flexpret.Gcc.Dfs
import Mathlib.Data.List.FinRange

/-! # The Timing Pass

    `timing_between_mt_fd` and `pass_mtfd_excute`: the time between each mt and
    its fd, and the verdict on its deadline.
-/

namespace Flexpret.Gcc

/-! ## Section 1: One pair -/

/-- What is reported of a pair: the time in cycles at each frequency, the
    frequencies at which its deadline is met, and whether a call is warned of. -/
structure Report where
  maxCycle : Fin 5 → Int
  meetDdl : Fin 4 → Bool
  callWarned : Bool

inductive PairResult where
  /-- `cycle found between mt and fd`: no time is calculated. -/
  | cycleFound
  | timing (report : Report)

/-- `actual_time`, in nanoseconds. -/
def actualTime (maxCycle : Fin 5 → Int) : Fin 5 → Int :=
  ![maxCycle 0 * 10, maxCycle 1 * 2 * 10, maxCycle 2 * 3 * 10, maxCycle 3 * 4 * 10,
    maxCycle 4 * 4 * 10]

/-- `meet_ddl`: the deadline is unsigned, so the comparison is too. -/
def meetDdl (deadline : Nat) (maxCycle : Fin 5 → Int) (j : Fin 4) : Bool :=
  actualTime maxCycle j.castSucc % 2 ^ 32 ≤ deadline

/-- `bb_visit` after the `memset`. -/
def Func.clearVisit (f : Func) (bbVisit : Nat → Bool) (b : Nat) : Bool :=
  if b < f.nBasicBlocks + 10 then false else bbVisit b

/-- The searches between two blocks, one for each frequency, up to the first
    that fails. -/
def searchFrequencies (f : Func) (mtBb fdBb : Nat) :
    List (Fin 5) → (Fin 5 → Nat) → MtfdState → Bool × (Fin 5 → Nat) × MtfdState
  | [], maxCycle, st => (true, maxCycle, st)
  | j :: js, maxCycle, st =>
    match timingBetweenBbDfs f.succs (fun b => st.bbCycle b j) fdBb (f.blocks.length + 33) mtBb
        { bbVisit := f.clearVisit st.bbVisit
          bbStack := []
          maxCycle := maxCycle j
          path := st.pathVector j } with
    | (ok, d) =>
      let maxCycle := Function.update maxCycle j d.maxCycle
      let st :=
        { st with
          bbVisit := d.bbVisit
          pathVector := Function.update st.pathVector j d.path }
      if ok then searchFrequencies f mtBb fdBb js maxCycle st else (false, maxCycle, st)

/-- `timing_between_insn` on a part of a block, without recording anything. -/
def timingOf (bb pos : Nat) (insns : List Rtx) (st : MtfdState) : Cycles :=
  (timingBetweenInsn false bb pos insns 0 st).2.1

@[simp] theorem timingOf_eq (bb pos : Nat) (insns : List Rtx) (st : MtfdState) :
    timingOf bb pos insns st = cost insns := by
  rw [timingOf, timingBetweenInsn_plain, zero_add]

/-- **The loop body of `timing_between_mt_fd`**. -/
def pairTiming (f : Func) (pair : MtfdPair) (st : MtfdState) : PairResult × MtfdState :=
  let mtInsns := f.insns pair.mtBb
  let fdInsns := f.insns pair.fdBb
  if pair.mtBb = pair.fdBb then
    let insns := (mtInsns.take (pair.fd + 1)).drop pair.mt
    let maxCycle : Fin 5 → Int := fun j => timingOf pair.mtBb pair.mt insns st j
    (.timing
      { maxCycle := maxCycle
        meetDdl := meetDdl pair.deadline maxCycle
        callWarned := insns.any Rtx.isCall }, st)
  else
    match searchFrequencies f pair.mtBb pair.fdBb (List.finRange 5) 0 st with
    | (false, _, st) => (.cycleFound, st)
    | (true, longest, st) =>
      let before := mtInsns.take pair.mt
      let after := fdInsns.drop (pair.fd + 1)
      let maxCycle : Fin 5 → Int := fun j =>
        longest j - ((timingOf pair.mtBb 0 before st j : Int) +
          timingOf pair.fdBb (pair.fd + 1) after st j)
      (.timing
        { maxCycle := maxCycle
          meetDdl := meetDdl pair.deadline maxCycle
          callWarned :=
            ((List.finRange 5).any fun j => (st.pathVector j).any st.bbHasCall) ||
              before.any Rtx.isCall || after.any Rtx.isCall }, st)

/-! ## Section 2: All pairs of a function -/

/-- What the pass reports of a function. -/
structure PassResult where
  pairs : List PairResult
  error : Option MtfdError

/-- A deadline missed at every frequency ends the pass. -/
def Report.meetsNone (report : Report) : Bool := (List.finRange 4).all fun j => !report.meetDdl j

def timingPairs (f : Func) : List MtfdPair → MtfdState → PassResult × MtfdState
  | [], st => ({ pairs := [], error := none }, st)
  | pair :: pairs, st =>
    match pairTiming f pair st with
    | (.cycleFound, st) =>
      let (result, st) := timingPairs f pairs st
      ({ result with pairs := .cycleFound :: result.pairs }, st)
    | (.timing report, st) =>
      if report.meetsNone then
        ({ pairs := [.timing report], error := some .deadlineMissed }, st)
      else
        let (result, st) := timingPairs f pairs st
        ({ result with pairs := .timing report :: result.pairs }, st)

/-- **`timing_between_mt_fd`**. -/
def timingBetweenMtFd (f : Func) (st : MtfdState) : PassResult × MtfdState :=
  if st.fdInsnLen < st.mtInsnLen then ({ pairs := [], error := some .mtWithoutFd }, st)
  else timingPairs f ((List.range st.mtInsnLen).map st.mtfdInsn) st

/-- **`pass_mtfd_excute`**. -/
def passMtfdExcute (f : Func) (st : MtfdState) : PassResult × MtfdState :=
  match scanBbTiming f st with
  | (some e, st) => ({ pairs := [], error := some e }, st)
  | (none, st) => timingBetweenMtFd f st

/-- The static variables after a sequence of functions. -/
def passAll (fs : List Func) (st : MtfdState) : MtfdState :=
  fs.foldl (fun st f => (passMtfdExcute f st).2) st

end Flexpret.Gcc
