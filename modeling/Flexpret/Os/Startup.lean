import Flexpret.Os.ControlBlocks
import Flexpret.Os.TrapRuns
import Mathlib.Tactic.IntervalCases

/-! # The Startup Code

    All threads run the same code on reset.  Thread 0 goes to `main`; the others
    poll the `func` word of their entry of `startup_state`, load the stack and
    the argument, and jump to the function.

    `osThreadNew` stores the function before the argument.  A thread that polls
    at the wrong moment loads the argument that was there before; how late the
    store of the argument may be is counted in the thread's own steps.  A step is a
    line of `startup.S`, also where it is an `la` of two instructions.
-/

open Assembly

namespace Flexpret.Os

variable {b : OsBuild}

/-! ## Section 1: The code -/

/-- The CSRs that the code uses: those of the thread, and `tohost`. -/
inductive StartCsr where
  | hart (csr : TrapCsr)
  | tohost
  deriving DecidableEq

/-- Their values. -/
structure StartCsrs where
  hart : HartCsrs
  tohost : Word

def startCsrFile (t : Tid b) : CsrFile StartCsr StartCsrs where
  read := fun c csr =>
    match csr with
    | .hart csr => (csrFile t).read c.hart csr
    | .tohost => c.tohost
  write := fun c csr v =>
    match csr with
    | .hart csr => { c with hart := (csrFile t).write c.hart csr v }
    | .tohost => { c with tohost := v }

/-- Where the linker puts the code and what it refers to. -/
structure StartLayout where
  addr : Nat → Word
  startupState : Word
  main : Word
  trapEntry : Word
  threadAfterReturnHandler : Word

/-- `startup_state + tid`. -/
def StartLayout.entryAddr (L : StartLayout) (tid : Tid b) : Word :=
  L.startupState + BitVec.ofNat 32 (16 * tid.val)

/-- Lines that others go to. -/
def resetLine : Nat := 0
def waitLine : Nat := 5
def initLine : Nat := 11
def startupLine : Nat := 15
def doneLine : Nat := 25
def stopLine : Nat := 27

section code

variable (L : StartLayout)

/-- Thread 0 goes to `init`, the others compute the address of their entry. -/
def resetCode : List (Line StartCsr) :=
  [.csrr a0 (.hart .hartid),
    .beq a0 0 initLine,
    .li a2 L.startupState,
    .slli a0 a0 4,
    .add a2 a2 a0]

/-- Loop while the function is `NULL`, then load the rest of the entry. -/
def waitCode : List (Line StartCsr) :=
  [.lw a3 0 a2,
    .beq a3 0 waitLine,
    .lw a1 12 a2,
    .lw a0 8 a2,
    .addi a2 a3 0,
    .j startupLine]

/-- Only thread 0. -/
def initCode : List (Line StartCsr) :=
  [.li a1 L.startupState,
    .li a0 L.main,
    .lw a1 12 a1,
    .addi a2 a0 0]

/-- Set the trap entry, enable interrupts and call the function. -/
def startupCode : List (Line StartCsr) :=
  [.li a7 L.trapEntry,
    .csrw (.hart .evec) a7,
    .csrrsi (.hart .status) 16,
    .addi sp a1 0,
    .jalr ra a2]

/-- The function has returned. -/
def afterCode : List (Line StartCsr) :=
  [.csrr a1 (.hart .hartid),
    .beq a1 0 doneLine,
    .li a0 L.threadAfterReturnHandler,
    .jalr ra a0,
    .j resetLine,
    .addi a0 a0 1,
    .csrw .tohost a0,
    .j stopLine]

/-- `reset`. -/
def resetRoutine : List (Line StartCsr) :=
  resetCode L ++ waitCode ++ initCode L ++ startupCode L ++ afterCode L

end code

/-- The lines are at different addresses, and the table is aligned. -/
structure StartLayout.Sound (L : StartLayout) : Prop where
  inj : ∀ i j, i < (resetRoutine L).length → j < (resetRoutine L).length →
    L.addr i = L.addr j → i = j
  aligned : L.startupState.toNat % 4 = 0

/-- The code in its place. -/
def startRoutine (L : StartLayout) (hL : L.Sound) : Routine StartCsr where
  code := resetRoutine L
  addr := L.addr
  inj := hL.inj

/-- The labels name the lines they stand before. -/
theorem resetRoutine_labels (L : StartLayout) :
    (resetRoutine L)[resetLine]? = some (.csrr a0 (.hart .hartid)) ∧
      (resetRoutine L)[waitLine]? = some (.lw a3 0 a2) ∧
      (resetRoutine L)[initLine]? = some (.li a1 L.startupState) ∧
      (resetRoutine L)[startupLine]? = some (.li a7 L.trapEntry) ∧
      (resetRoutine L)[doneLine]? = some (.addi a0 a0 1) ∧
      (resetRoutine L)[stopLine]? = some (.j stopLine) :=
  ⟨rfl, rfl, rfl, rfl, rfl, rfl⟩

theorem resetRoutine_length (L : StartLayout) : (resetRoutine L).length = 28 := rfl

/-- The code stores nothing. -/
theorem resetRoutine_stores {L : StartLayout} {line : Line StartCsr} (h : line ∈ resetRoutine L)
    (x : RegFile) : line.stores x = none := by
  have hall : ∀ line ∈ resetRoutine L, line.stores x = none := by
    simp [resetRoutine, resetCode, waitCode, initCode, startupCode, afterCode, Line.stores]
  exact hall line h

/-! ## Section 2: Runs -/

/-- All threads, the memory, and `tohost`. -/
structure StartState (b : OsBuild) extends TrapState b where
  tohost : Word

/-- What one thread sees. -/
def StartState.sees (s : StartState b) (t : Tid b) : Machine StartCsrs where
  x := (s.hart t).x
  csrs := ⟨(s.hart t).csrs, s.tohost⟩
  mem := s.mem
  pc := (s.hart t).pc

/-- One step of thread `t`: a line of the startup code, something in a program, or
    a trap.  An interrupt is taken where it is enabled, an exception where the
    line cannot be executed. -/
structure StartStep (L : StartLayout) (hL : L.Sound) (t : Tid b) (ev : TrapEvent)
    (s s' : StartState b) : Prop where
  others : ∀ u, u ≠ t → s'.hart u = ev.others (s.hart u)
  line : ev = .line → (startRoutine L hL).step (startCsrFile t) (s.sees t) = some (s'.sees t)
  outside : ev = .outside → (startRoutine L hL).Outside (s.hart t).pc
  trap : ∀ cause, ev = .trap cause →
    ((s.hart t).csrs.ie = true ∨ (startRoutine L hL).step (startCsrFile t) (s.sees t) = none) ∧
      s'.view t = takeTrap cause (s.view t) ∧ s'.tohost = s.tohost

/-- A run from the reset. -/
structure StartRun (b : OsBuild) (L : StartLayout) (hL : L.Sound) where
  state : Nat → StartState b
  thread : Nat → Tid b
  event : Nat → TrapEvent
  pc : ∀ t, ((state 0).hart t).pc = L.addr resetLine
  ie : ∀ t, ((state 0).hart t).csrs.ie = false
  step : ∀ k, StartStep L hL (thread k) (event k) (state k) (state (k + 1))

namespace StartRun

variable {L : StartLayout} {hL : L.Sound} (r : StartRun b L hL)

/-- The steps of a thread. -/
def mine (t : Tid b) (k : Nat) : Bool := decide (r.thread k = t)

/-- Thread `t` is at line `i`. -/
def AtLine (k : Nat) (t : Tid b) (i : Nat) : Prop :=
  i < (resetRoutine L).length ∧ ((r.state k).hart t).pc = L.addr i

/-- A thread has not left the startup code yet. -/
def Starting (t : Tid b) (k : Nat) : Prop :=
  ∀ j, j ≤ k → ¬ (startRoutine L hL).Outside ((r.state j).hart t).pc

/-- A thread is not interrupted between enabling interrupts and the jump, where
    its stack pointer is not set yet. -/
def Uninterrupted (t : Tid b) : Prop :=
  ∀ k cause, r.Starting t k → r.AtLine k t 18 ∨ r.AtLine k t 19 → r.thread k = t →
    r.event k ≠ .trap cause

/-- No thread takes a trap there, which would disable the interrupts of all. -/
def Undisturbed (t : Tid b) : Prop :=
  ∀ k cause, r.Starting t k → r.AtLine k t 18 ∨ r.AtLine k t 19 → r.event k ≠ .trap cause

/-- A thread is at the start of `func`, with its stack, its argument and its trap
    entry. -/
structure Enters (k : Nat) (t : Tid b) (func stack arg : Word) : Prop where
  pc : ((r.state k).hart t).pc = func
  stack : ((r.state k).hart t).x sp = stack
  arg : ((r.state k).hart t).x a0 = arg
  link : ((r.state k).hart t).x ra = L.addr 20
  evec : ((r.state k).hart t).csrs.evec = L.trapEntry
  ie : r.Undisturbed t → ((r.state k).hart t).csrs.ie = true

end StartRun

/-! ## Section 3: What holds at each line -/

/-- The words that a thread loads. -/
structure Handed where
  func : Word
  stack : Word
  arg : Word

section annotation

variable (L : StartLayout) (t : Tid b) (w : Handed)

/-- The function and what it gets are in their registers. -/
structure Handed.InRegs (w : Handed) (x : RegFile) : Prop where
  func : x a2 = w.func
  stack : x a1 = w.stack
  arg : x a0 = w.arg

/-- The registers before a line, with the words that the thread has loaded by
    then, or will load. -/
def regsAt (x : RegFile) : Nat → Prop
  | 1 | 2 => x a0 = BitVec.ofNat 32 t.val
  | 3 => x a0 = BitVec.ofNat 32 t.val ∧ x a2 = L.startupState
  | 4 => x a0 = BitVec.ofNat 32 (16 * t.val) ∧ x a2 = L.startupState
  | 5 => x a2 = L.entryAddr t
  | 6 | 7 => x a2 = L.entryAddr t ∧ x a3 = w.func
  | 8 => x a2 = L.entryAddr t ∧ x a3 = w.func ∧ x a1 = w.stack
  | 9 => x a3 = w.func ∧ x a1 = w.stack ∧ x a0 = w.arg
  | 12 => x a1 = L.startupState
  | 13 => x a1 = L.startupState ∧ x a0 = L.main
  | 14 => x a1 = w.stack ∧ x a0 = L.main
  | 10 | 15 | 17 | 18 => w.InRegs x
  | 16 => w.InRegs x ∧ x a7 = L.trapEntry
  | 19 => w.InRegs x ∧ x sp = w.stack
  | _ => True

/-- The CSRs before a line. -/
structure CsrsAt (quiet : Prop) (c : HartCsrs) (i : Nat) : Prop where
  evec : 17 ≤ i → c.evec = L.trapEntry
  off : i ≤ 17 → c.ie = false
  on : 18 ≤ i → quiet → c.ie = true

/-- What the memory holds where a line loads from it.  Thread 0 gets `main` for
    both the function and the argument. -/
structure Loads (mem : Memory) (i : Nat) : Prop where
  func : i = 5 → mem (L.entryAddr t) = w.func
  stack : i = 7 → mem (L.entryAddr t + 12) = w.stack
  arg : i = 8 → mem (L.entryAddr t + 8) = w.arg
  initStack : i = 13 → mem (L.startupState + 12) = w.stack
  init : i = 14 → L.main = w.func ∧ L.main = w.arg

/-- The line that follows. -/
def lineAfter (i : Nat) : Nat :=
  if i = 1 ∧ t = 0 then initLine
  else if i = 6 ∧ w.func = NULL then waitLine
  else if i = 10 then startupLine
  else i + 1

end annotation

section annotation

variable {L : StartLayout} {t : Tid b} {w w' : Handed} {m : Machine StartCsrs} {i : Nat}
  {line : Line StartCsr}

/-- The other lines load nothing. -/
theorem loads_nothing {mem : Memory} (h : i ≠ 5 ∧ i ≠ 7 ∧ i ≠ 8 ∧ i ≠ 13 ∧ i ≠ 14) :
    Loads L t w mem i :=
  ⟨fun hi => absurd hi h.1, fun hi => absurd hi h.2.1, fun hi => absurd hi h.2.2.1,
    fun hi => absurd hi h.2.2.2.1, fun hi => absurd hi h.2.2.2.2⟩

theorem tidWord_zero : BitVec.ofNat 32 t.val = 0 ↔ t = 0 := by
  constructor
  · intro h
    have hnat := congrArg BitVec.toNat h
    have ht := t.isLt.trans_le b.hwThreadsNums_le
    rw [BitVec.toNat_ofNat, Nat.mod_eq_of_lt (by omega)] at hnat
    exact Fin.ext hnat
  · rintro rfl
    rfl

/-- Before a line only what has been loaded matters. -/
theorem regsAt_congr {x : RegFile} (hi : i ≤ 8) (hfunc : 6 ≤ i → w.func = w'.func)
    (hstack : i = 8 → w.stack = w'.stack) (h : regsAt L t w x i) : regsAt L t w' x i := by
  interval_cases i
  case «6» => exact ⟨h.1, h.2.trans (hfunc (by decide))⟩
  case «7» => exact ⟨h.1, h.2.trans (hfunc (by decide))⟩
  case «8» => exact ⟨h.1, h.2.1.trans (hfunc (by decide)), h.2.2.trans (hstack rfl)⟩
  all_goals exact h

theorem add_zero_word (v : Word) : v + 0 = v := BitVec.add_zero v

/-- **The registers after a line** that goes on with the next one. -/
theorem regsAt_succ (hi : i < 19) (hline : (resetRoutine L)[i]? = some line) (link : Word)
    (hload : Loads L t w m.mem i) (h : regsAt L t w m.x i) :
    regsAt L t w (line.effect (startCsrFile t) link m).x (i + 1) := by
  interval_cases i <;> obtain rfl := Option.some.inj hline
  -- `reset`
  · exact rfl
  · exact h
  · exact ⟨h, rfl⟩
  · refine ⟨?_, h.2⟩
    show m.x a0 <<< 4 = _
    rw [h.1, ofNat_shiftLeft]
    rfl
  · show m.x a2 + m.x a0 = L.entryAddr t
    rw [h.1, h.2]
    rfl
  -- `wait`
  · refine ⟨h, ?_⟩
    show m.mem (m.x a2 + 0) = w.func
    rw [add_zero_word, h, hload.func rfl]
  · exact h
  · refine ⟨h.1, h.2, ?_⟩
    show m.mem (m.x a2 + 12) = w.stack
    rw [h.1, hload.stack rfl]
  · refine ⟨h.2.1, h.2.2, ?_⟩
    show m.mem (m.x a2 + 8) = w.arg
    rw [h.1, hload.arg rfl]
  · refine ⟨?_, h.2.1, h.2.2⟩
    show m.x a3 + 0 = w.func
    rw [add_zero_word, h.1]
  · exact trivial
  -- `init`
  · exact rfl
  · exact ⟨h, rfl⟩
  · refine ⟨?_, h.2⟩
    show m.mem (m.x a1 + 12) = w.stack
    rw [h.1, hload.initStack rfl]
  · obtain ⟨hfunc, harg⟩ := hload.init rfl
    refine ⟨?_, h.1, h.2.trans harg⟩
    show m.x a0 + 0 = w.func
    rw [add_zero_word, h.2, hfunc]
  -- `startup`
  · exact ⟨⟨h.func, h.stack, h.arg⟩, rfl⟩
  · exact h.1
  · exact h
  · refine ⟨⟨h.func, h.stack, h.arg⟩, ?_⟩
    show m.x a1 + 0 = w.stack
    rw [add_zero_word, h.stack]

/-- The branches and the jump keep the registers. -/
theorem regsAt_next (hi : i < 19) (hline : (resetRoutine L)[i]? = some line) (link : Word)
    (hload : Loads L t w m.mem i) (h : regsAt L t w m.x i) :
    regsAt L t w (line.effect (startCsrFile t) link m).x (lineAfter t w i) := by
  unfold lineAfter
  split
  · exact trivial
  · split
    · next hwait =>
      obtain ⟨rfl, -⟩ := hwait
      obtain rfl := Option.some.inj hline
      exact h.1
    · split
      · next hstartup =>
        subst hstartup
        obtain rfl := Option.some.inj hline
        exact h
      · exact regsAt_succ hi hline link hload h

/-- **Where a line goes on**. -/
theorem next_eq_lineAfter (hi : i < 19) (hline : (resetRoutine L)[i]? = some line)
    (h : regsAt L t w m.x i) : line.next L.addr i m.x = L.addr (lineAfter t w i) := by
  have hzero : m.x 0 = 0 := m.x.zero
  interval_cases i <;> obtain rfl := Option.some.inj hline
  case «1» =>
    have htid : m.x a0 = BitVec.ofNat 32 t.val := h
    show (if m.x a0 = m.x 0 then L.addr initLine else L.addr 2) = L.addr (lineAfter t w 1)
    rw [htid, hzero]
    by_cases ht : t = 0
    · rw [if_pos (tidWord_zero.mpr ht), lineAfter, if_pos ⟨rfl, ht⟩]
    · rw [if_neg (mt tidWord_zero.mp ht), lineAfter, if_neg (fun h => ht h.2)]
      rfl
  case «6» =>
    show (if m.x a3 = m.x 0 then L.addr waitLine else L.addr 7) = L.addr (lineAfter t w 6)
    rw [h.2, hzero, show (0 : Word) = NULL from rfl]
    by_cases hfunc : w.func = NULL
    · rw [if_pos hfunc, lineAfter, if_neg (fun h => absurd h.1 (by decide)), if_pos ⟨rfl, hfunc⟩]
    · rw [if_neg hfunc, lineAfter, if_neg (fun h => absurd h.1 (by decide)),
        if_neg (fun h => hfunc h.2)]
      rfl
  all_goals rfl

theorem lineAfter_low (hi : i ≤ 15) : lineAfter t w i ≤ 16 := by
  unfold lineAfter initLine waitLine startupLine
  split
  · omega
  · split
    · omega
    · split <;> omega

theorem lineAfter_lt (hi : i < 19) : lineAfter t w i < 20 := by
  unfold lineAfter initLine waitLine startupLine
  split
  · omega
  · split
    · omega
    · split <;> omega

/-- **The CSRs after a line**: line 16 sets the trap entry, line 17 enables
    interrupts. -/
theorem csrsAt_next {quiet : Prop} (hi : i < 19) (hline : (resetRoutine L)[i]? = some line)
    (link : Word) (hregs : regsAt L t w m.x i) (h : CsrsAt L quiet m.csrs.hart i) :
    CsrsAt L quiet (line.effect (startCsrFile t) link m).csrs.hart (lineAfter t w i) := by
  by_cases hlow : i ≤ 15
  · -- no line before 16 writes a CSR
    have hsame : (line.effect (startCsrFile t) link m).csrs.hart = m.csrs.hart := by
      interval_cases i <;> obtain rfl := Option.some.inj hline <;> rfl
    have hafter : lineAfter t w i ≤ 16 := lineAfter_low hlow
    rw [hsame]
    exact ⟨fun hge => by omega, fun _ => h.off (by omega), fun hge => by omega⟩
  · obtain rfl | rfl | rfl : i = 16 ∨ i = 17 ∨ i = 18 := by omega
    · obtain rfl := Option.some.inj hline
      have hnext : lineAfter t w 16 = 17 := rfl
      exact ⟨fun _ => hregs.2, fun _ => h.off (by decide), fun hge => by omega⟩
    · obtain rfl := Option.some.inj hline
      have hnext : lineAfter t w 17 = 18 := rfl
      refine ⟨fun _ => h.evec (by decide), fun hle => by omega, fun _ _ => ?_⟩
      show (m.csrs.hart.statusWord ||| 16#32).getLsbD 4 = true
      rw [BitVec.getLsbD_or]
      exact Bool.or_true _
    · obtain rfl := Option.some.inj hline
      have hnext : lineAfter t w 18 = 19 := rfl
      exact ⟨fun _ => h.evec (by decide), fun hle => by omega, fun _ => h.on (by decide)⟩

/-- The lines load from aligned addresses. -/
theorem aligned_load (hL : L.Sound) (hi : i < 20) (hline : (resetRoutine L)[i]? = some line)
    (h : regsAt L t w m.x i) : ∀ a ∈ line.address m.x, a.toNat % 4 = 0 := by
  have hentry : ∀ off : Word, off.toNat % 4 = 0 → (L.entryAddr t + off).toNat % 4 = 0 := by
    intro off hoff
    have htable := hL.aligned
    rw [StartLayout.entryAddr, BitVec.toNat_add, BitVec.toNat_add, BitVec.toNat_ofNat]
    omega
  intro a ha
  interval_cases i <;> obtain rfl := Option.some.inj hline
  case «5» =>
    obtain rfl := Option.some.inj ha
    rw [show m.x a2 = L.entryAddr t from h]
    exact hentry 0 rfl
  case «7» =>
    obtain rfl := Option.some.inj ha
    rw [h.1]
    exact hentry 12 rfl
  case «8» =>
    obtain rfl := Option.some.inj ha
    rw [h.1]
    exact hentry 8 rfl
  case «13» =>
    obtain rfl := Option.some.inj ha
    rw [h.1, BitVec.toNat_add]
    have htable := hL.aligned
    have h12 : (12 : Word).toNat = 12 := rfl
    omega
  all_goals cases ha

end annotation

/-! ## Section 4: One step -/

namespace StartRun

variable {L : StartLayout} {hL : L.Sound} {r : StartRun b L hL} {t : Tid b} {w w' : Handed}
  {k i : Nat}

/-- A thread is at a line, with what holds there. -/
structure Stage (r : StartRun b L hL) (k : Nat) (t : Tid b) (w : Handed) (i : Nat) : Prop where
  line : i < 20
  pc : ((r.state k).hart t).pc = L.addr i
  regs : regsAt L t w ((r.state k).hart t).x i
  csrs : CsrsAt L (r.Undisturbed t) ((r.state k).hart t).csrs i

theorem Stage.atLine (h : r.Stage k t w i) : r.AtLine k t i := by
  have hline := h.line
  exact ⟨by rw [resetRoutine_length]; omega, h.pc⟩

theorem Stage.inside (h : r.Stage k t w i) :
    ¬ (startRoutine L hL).Outside ((r.state k).hart t).pc := by
  rw [h.pc, Routine.Outside, show L.addr = (startRoutine L hL).addr from rfl,
    Routine.lineAt_addr h.atLine.1]
  exact Option.some_ne_none i

theorem starting_succ (h : r.Starting t k)
    (hinside : ¬ (startRoutine L hL).Outside ((r.state (k + 1)).hart t).pc) :
    r.Starting t (k + 1) := by
  intro j hj
  obtain hlt | rfl := Nat.lt_or_eq_of_le hj
  · exact h j (Nat.le_of_lt_succ hlt)
  · exact hinside

/-- **The reset**. -/
theorem stage_reset (r : StartRun b L hL) (t : Tid b) (w : Handed) : r.Stage 0 t w 0 where
  line := by decide
  pc := r.pc t
  regs := trivial
  csrs := ⟨fun h => absurd h (by decide), fun _ => r.ie t, fun h => absurd h (by decide)⟩

theorem starting_reset (r : StartRun b L hL) (t : Tid b) : r.Starting t 0 := by
  intro j hj
  obtain rfl := Nat.le_zero.mp hj
  exact (stage_reset r t ⟨0, 0, 0⟩).inside

/-- **What a thread does** in the startup code: its line. -/
theorem Stage.own_line (h : r.Stage k t w i) (hmine : r.thread k = t)
    (hstarting : r.Starting t k) (hquiet : 18 ≤ i → r.Uninterrupted t) :
    ∃ line, (resetRoutine L)[i]? = some line ∧ r.event k = .line ∧
      (r.state (k + 1)).sees t =
        (startRoutine L hL).execute (startCsrFile t) ((r.state k).sees t) i line := by
  subst hmine
  have hstep := r.step k
  have hat := h.atLine
  cases hev : r.event k with
  | outside => exact absurd (hstep.outside hev) h.inside
  | line =>
    obtain ⟨j, line, hcode, hpc, -, hsees⟩ := Routine.step_cases (hstep.line hev)
    have hj := (List.getElem?_eq_some_iff.mp hcode).1
    obtain rfl := hL.inj j i hj hat.1 (hpc.symm.trans h.pc)
    exact ⟨line, hcode, rfl, hsees⟩
  | trap cause =>
    exfalso
    obtain ⟨hie | hnone, -⟩ := hstep.trap cause hev
    · -- interrupts are off up to line 17
      by_cases hlow : i ≤ 17
      · rw [h.csrs.off hlow] at hie
        exact Bool.false_ne_true hie
      · have hline := h.line
        obtain rfl | rfl : i = 18 ∨ i = 19 := by omega
        · exact hquiet (by decide) k cause hstarting (.inl hat) rfl hev
        · exact hquiet (by decide) k cause hstarting (.inr hat) rfl hev
    · -- no line can fail, as the table is aligned
      obtain ⟨line, hcode⟩ : ∃ line, (resetRoutine L)[i]? = some line :=
        ⟨_, List.getElem?_eq_getElem hat.1⟩
      have hload := aligned_load (m := (r.state k).sees (r.thread k)) hL h.line hcode h.regs
      have hline : Assembly.AtLine (startRoutine L hL) (fun a => a.toNat % 4 = 0)
          ((r.state k).sees (r.thread k)) := ⟨i, line, hcode, h.pc, hload⟩
      have hsome : (startRoutine L hL).step (startCsrFile (r.thread k)) _ = some _ :=
        step_of_atLine hline fun _ ha => ha
      rw [hnone] at hsome
      exact absurd hsome.symm (Option.some_ne_none _)

/-- **One line**. -/
theorem Stage.own (h : r.Stage k t w i) (hmine : r.thread k = t) (hstarting : r.Starting t k)
    (hquiet : 18 ≤ i → r.Uninterrupted t) (hi : i < 19) (hload : Loads L t w (r.state k).mem i) :
    r.Stage (k + 1) t w (lineAfter t w i) := by
  obtain ⟨line, hcode, -, hsees⟩ := h.own_line hmine hstarting hquiet
  constructor
  case line => exact lineAfter_lt hi
  case pc =>
    have hpc : ((r.state (k + 1)).hart t).pc = line.next L.addr i ((r.state k).hart t).x :=
      congrArg Machine.pc hsees
    rw [hpc]
    exact next_eq_lineAfter (m := (r.state k).sees t) hi hcode h.regs
  case regs =>
    have hx : ((r.state (k + 1)).hart t).x = _ := congrArg Machine.x hsees
    rw [hx]
    exact regsAt_next (m := (r.state k).sees t) hi hcode _ hload h.regs
  case csrs =>
    have hcsrs : ((r.state (k + 1)).hart t).csrs = _ :=
      congrArg (fun m => m.csrs.hart) hsees
    rw [hcsrs]
    exact csrsAt_next (m := (r.state k).sees t) hi hcode _ h.regs h.csrs

/-- **The jump** to the function. -/
theorem Stage.enters (h : r.Stage k t w 19) (hmine : r.thread k = t)
    (hstarting : r.Starting t k) (hquiet : r.Uninterrupted t) :
    r.Enters (k + 1) t w.func w.stack w.arg := by
  obtain ⟨line, hcode, -, hsees⟩ := h.own_line hmine hstarting fun _ => hquiet
  obtain rfl : Line.jalr ra a2 = line := Option.some.inj hcode
  have hx : ((r.state (k + 1)).hart t).x = ((r.state k).hart t).x.write ra (L.addr 20) :=
    congrArg Machine.x hsees
  have hcsrs : ((r.state (k + 1)).hart t).csrs = ((r.state k).hart t).csrs :=
    congrArg (fun m => m.csrs.hart) hsees
  obtain ⟨hregs, hsp⟩ := h.regs
  constructor
  case pc => exact (congrArg Machine.pc hsees).trans hregs.func
  case stack =>
    rw [hx]
    exact hsp
  case arg =>
    rw [hx]
    exact hregs.arg
  case link =>
    rw [hx]
    rfl
  case evec =>
    rw [hcsrs]
    exact h.csrs.evec (by decide)
  case ie =>
    rw [hcsrs]
    exact h.csrs.on (by decide)

/-- **A step of another thread**. -/
theorem Stage.other (h : r.Stage k t w i) (hmine : r.thread k ≠ t) (hstarting : r.Starting t k) :
    r.Stage (k + 1) t w i := by
  have hsame := (r.step k).others t hmine.symm
  constructor
  case line => exact h.line
  case pc =>
    rw [hsame, TrapEvent.others_pc]
    exact h.pc
  case regs =>
    rw [hsame, TrapEvent.others_x]
    exact h.regs
  case csrs =>
    rw [hsame]
    cases hev : r.event k with
    | line | outside => exact h.csrs
    | trap cause =>
      refine ⟨h.csrs.evec, fun _ => rfl, fun hlow hundisturbed => ?_⟩
      have hline := h.line
      have hat := h.atLine
      obtain rfl | rfl : i = 18 ∨ i = 19 := by omega
      · exact absurd hev (hundisturbed k cause hstarting (.inl hat))
      · exact absurd hev (hundisturbed k cause hstarting (.inr hat))

/-- The startup code and the traps leave the memory alone. -/
theorem mem_of_inside (hev : r.event k ≠ .outside) : (r.state (k + 1)).mem = (r.state k).mem := by
  cases hcase : r.event k with
  | outside => exact absurd hcase hev
  | line =>
    obtain ⟨j, line, hcode, -, -, hsees⟩ := Routine.step_cases ((r.step k).line hcase)
    funext a
    have hmem : (r.state (k + 1)).mem a = _ := congrArg (fun m => Machine.mem m a) hsees
    rw [hmem]
    apply Line.effect_mem
    rw [resetRoutine_stores (List.mem_of_getElem? hcode)]
    exact (Option.some_ne_none a).symm
  | trap cause =>
    obtain ⟨-, hview, -⟩ := (r.step k).trap cause hcase
    exact congrArg Machine.mem hview

/-! ## Section 5: The way to the function -/

/-- The lines on the way of a thread. -/
def OnWay (t : Tid b) (i : Nat) : Prop :=
  if t = 0 then i ≤ 1 ∨ 11 ≤ i else i ≤ 10 ∨ 15 ≤ i

/-- The steps from a line to the function, where the thread does not wait. -/
def toGo (t : Tid b) (i : Nat) : Nat :=
  if t = 0 ∧ i ≤ 1 then 11 - i else if i ≤ 10 then 16 - i else 20 - i

theorem toGo_other {t : Tid b} (ht : t ≠ 0) (i : Nat) :
    toGo t i = if i ≤ 10 then 16 - i else 20 - i := by
  rw [toGo, if_neg fun h => ht h.1]

theorem onWay_other {t : Tid b} (ht : t ≠ 0) (i : Nat) : OnWay t i ↔ i ≤ 10 ∨ 15 ≤ i := by
  rw [OnWay, if_neg ht]

/-- **A line** is one step on the way. -/
theorem toGo_lineAfter {t : Tid b} {w : Handed} {i : Nat} (hi : i < 19) (hway : OnWay t i)
    (hwait : t = 0 ∨ w.func ≠ NULL) :
    OnWay t (lineAfter t w i) ∧ toGo t (lineAfter t w i) + 1 = toGo t i := by
  have hway : if t = 0 then i ≤ 1 ∨ 11 ≤ i else i ≤ 10 ∨ 15 ≤ i := hway
  unfold OnWay toGo lineAfter initLine waitLine startupLine
  grind

/-- A thread is on its way, with `n` steps to go. -/
def Ready (r : StartRun b L hL) (t : Tid b) (w : Handed) (n k : Nat) : Prop :=
  ∃ i, OnWay t i ∧ toGo t i = n ∧ r.Stage k t w i

/-- The entry is free, and the thread polls it. -/
def Polls (r : StartRun b L hL) (k : Nat) (t : Tid b) : Prop :=
  ∃ i, i ≤ 6 ∧ ∀ stack arg, r.Stage k t ⟨NULL, stack, arg⟩ i

theorem Stage.congr (h : r.Stage k t w i) (hi : i ≤ 8) (hfunc : 6 ≤ i → w.func = w'.func)
    (hstack : i = 8 → w.stack = w'.stack) : r.Stage k t w' i :=
  ⟨h.line, h.pc, regsAt_congr hi hfunc hstack h.regs, h.csrs⟩

theorem Ready.own {n : Nat} (h : r.Ready t w (n + 2) k) (hmine : r.thread k = t)
    (hstarting : r.Starting t k) (hquiet : r.Uninterrupted t) (hwait : t = 0 ∨ w.func ≠ NULL)
    (hload : ∀ i, OnWay t i → toGo t i = n + 2 → Loads L t w (r.state k).mem i) :
    r.Ready t w (n + 1) (k + 1) := by
  obtain ⟨i, hway, hgo, hstage⟩ := h
  have hlt : i < 19 := by
    have hline := hstage.line
    unfold toGo at hgo
    split at hgo
    · omega
    · split at hgo <;> omega
  obtain ⟨hway', hgo'⟩ := toGo_lineAfter (w := w) hlt hway hwait
  exact ⟨_, hway', by omega, hstage.own hmine hstarting (fun _ => hquiet) hlt (hload i hway hgo)⟩

theorem Ready.other {n : Nat} (h : r.Ready t w n k) (hmine : r.thread k ≠ t)
    (hstarting : r.Starting t k) : r.Ready t w n (k + 1) := by
  obtain ⟨i, hway, hgo, hstage⟩ := h
  exact ⟨i, hway, hgo, hstage.other hmine hstarting⟩

theorem Ready.inside {n : Nat} (h : r.Ready t w n k) :
    ¬ (startRoutine L hL).Outside ((r.state k).hart t).pc := by
  obtain ⟨i, -, -, hstage⟩ := h
  exact hstage.inside

/-- The last line of the way. -/
theorem Ready.last (h : r.Ready t w 1 k) : r.Stage k t w 19 := by
  obtain ⟨i, -, hgo, hstage⟩ := h
  have hline := hstage.line
  obtain rfl : i = 19 := by
    unfold toGo at hgo
    split at hgo
    · omega
    · split at hgo <;> omega
  exact hstage

/-! ### Polling -/

theorem polls_reset (r : StartRun b L hL) (t : Tid b) : r.Polls 0 t :=
  ⟨0, by decide, fun _ _ => stage_reset r t _⟩

theorem Polls.inside (h : r.Polls k t) :
    ¬ (startRoutine L hL).Outside ((r.state k).hart t).pc := by
  obtain ⟨i, -, hstage⟩ := h
  exact (hstage 0 0).inside

theorem Polls.other (h : r.Polls k t) (hmine : r.thread k ≠ t) (hstarting : r.Starting t k) :
    r.Polls (k + 1) t := by
  obtain ⟨i, hi, hstage⟩ := h
  exact ⟨i, hi, fun stack arg => (hstage stack arg).other hmine hstarting⟩

/-- **A thread goes on polling** while its entry is free. -/
theorem Polls.own (h : r.Polls k t) (ht : t ≠ 0) (hmine : r.thread k = t)
    (hstarting : r.Starting t k) (hfree : (r.state k).mem (L.entryAddr t) = NULL) :
    r.Polls (k + 1) t := by
  obtain ⟨i, hi, hstage⟩ := h
  refine ⟨lineAfter t ⟨NULL, 0, 0⟩ i, ?_, fun stack arg => ?_⟩
  · unfold lineAfter waitLine startupLine
    rw [if_neg fun h => ht h.2]
    split
    · omega
    · next hwait =>
      have hne : i ≠ 6 := fun h => hwait ⟨h, rfl⟩
      split <;> omega
  · refine (hstage stack arg).own hmine hstarting (fun h => by omega) (by omega) ?_
    exact ⟨fun _ => hfree, fun h => by omega, fun h => by omega, fun h => by omega,
      fun h => by omega⟩

theorem Polls.next (h : r.Polls k t) (ht : t ≠ 0) (hstarting : r.Starting t k)
    (hfree : (r.state k).mem (L.entryAddr t) = NULL) : r.Polls (k + 1) t := by
  by_cases hmine : r.thread k = t
  · exact h.own ht hmine hstarting hfree
  · exact h.other hmine hstarting

/-! ## Section 6: Before `main` -/

/-- The entries of the other threads are free. -/
def Image (r : StartRun b L hL) : Prop :=
  ∀ t : Tid b, t ≠ 0 → (r.state 0).mem (L.entryAddr t) = NULL

/-- What thread 0 gets. -/
def mainHanded (r : StartRun b L hL) : Handed :=
  ⟨L.main, (r.state 0).mem (L.startupState + 12), L.main⟩

/-- Thread 0 is on its way to `main`; nothing else has happened. -/
structure Boots (r : StartRun b L hL) (n k : Nat) : Prop where
  ready : r.Ready 0 r.mainHanded (n + 1) k
  polls : ∀ t, t ≠ 0 → r.Polls k t
  starting : ∀ t, r.Starting t k
  mem : (r.state k).mem = (r.state 0).mem

theorem boots_reset (r : StartRun b L hL) : r.Boots 10 0 where
  ready := ⟨0, by unfold OnWay; rw [if_pos rfl]; decide, rfl, stage_reset r 0 _⟩
  polls := fun t _ => polls_reset r t
  starting := starting_reset r
  mem := rfl

theorem Boots.inside {n : Nat} (h : r.Boots n k) (t : Tid b) :
    ¬ (startRoutine L hL).Outside ((r.state k).hart t).pc := by
  by_cases ht : t = 0
  · subst ht
    exact h.ready.inside
  · exact (h.polls t ht).inside

/-- What every step keeps. -/
theorem Boots.next {n n' : Nat} (h : r.Boots n k) (himage : r.Image)
    (hready : r.Ready 0 r.mainHanded (n' + 1) (k + 1)) :
    r.Boots n' (k + 1) := by
  -- nobody is outside of the code yet, so nobody stores
  have hev : r.event k ≠ .outside := fun hev =>
    h.inside (r.thread k) ((r.step k).outside hev)
  have hpolls : ∀ t, t ≠ 0 → r.Polls (k + 1) t := by
    intro t ht
    refine (h.polls t ht).next ht (h.starting t) ?_
    rw [h.mem]
    exact himage t ht
  refine ⟨hready, hpolls, fun t => ?_, (mem_of_inside hev).trans h.mem⟩
  by_cases ht : t = 0
  · subst ht
    exact starting_succ (h.starting 0) hready.inside
  · exact starting_succ (h.starting t) (hpolls t ht).inside

theorem Boots.own {n : Nat} (h : r.Boots (n + 1) k) (himage : r.Image)
    (hquiet : r.Uninterrupted 0) (hmine : r.thread k = 0) : r.Boots n (k + 1) := by
  refine h.next himage (h.ready.own hmine (h.starting 0) hquiet (.inl rfl) ?_)
  intro i hway _
  rw [OnWay, if_pos rfl] at hway
  refine ⟨fun h => by omega, fun h => by omega, fun h => by omega, fun _ => ?_,
    fun _ => ⟨rfl, rfl⟩⟩
  rw [h.mem]
  rfl

theorem Boots.run {n : Nat} (h : r.Boots n k) (himage : r.Image) (hquiet : r.Uninterrupted 0)
    (d : Nat) (hd : ownSteps (r.mine 0) k d ≤ n) :
    r.Boots (n - ownSteps (r.mine 0) k d) (k + d) := by
  refine countDown (Q := r.Boots) h ?_ ?_ d hd
  · intro c j _ hmine h
    exact h.own himage hquiet (of_decide_eq_true hmine)
  · intro c j _ hother h
    have hne : r.thread c ≠ 0 := of_decide_eq_false hother
    exact h.next himage (h.ready.other hne (h.starting 0))

/-- **Nothing runs before `main`**: while thread 0 has taken at most ten lines and no
    interrupt, all others poll free entries and the memory is as the image has it; its
    eleventh line enters `main`. -/
theorem main_first (r : StartRun b L hL) (himage : r.Image) (hquiet : r.Uninterrupted 0)
    (k : Nat) (hsteps : ownSteps (r.mine 0) 0 k ≤ 10) :
    (r.state k).mem = (r.state 0).mem ∧ (∀ t, t ≠ 0 → r.Polls k t) ∧
      (ownSteps (r.mine 0) 0 k = 10 → r.thread k = 0 →
        r.Enters (k + 1) 0 L.main ((r.state 0).mem (L.startupState + 12)) L.main) := by
  have hboots := (boots_reset r).run himage hquiet k hsteps
  rw [Nat.zero_add] at hboots
  refine ⟨hboots.mem, hboots.polls, fun hten hmine => ?_⟩
  have hready := hboots.ready
  rw [hten] at hready
  exact hready.last.enters hmine (hboots.starting 0) hquiet

/-! ## Section 7: Handing a thread its function -/

/-- The words of an entry that the startup code loads. -/
structure EntryWords (L : StartLayout) (t : Tid b) (mem : Memory) (e : HwthreadState) : Prop where
  func : mem (L.entryAddr t) = e.func
  arg : mem (L.entryAddr t + 8) = e.arg
  stackAddress : mem (L.entryAddr t + 12) = e.stackAddress

/-- A store to the attribute object and the entry of a thread. -/
abbrev EntryStore : Type := OsThreadAttr × HwthreadState → OsThreadAttr × HwthreadState

/-- The entry after some stores. -/
def storeAll (stores : List EntryStore) (e : OsThreadAttr × HwthreadState) :
    OsThreadAttr × HwthreadState :=
  stores.foldl (fun e store => store e) e

/-- A call of `osThreadNew` that has got thread `t`, in a run: what the entry was
    before and how many of its stores are done.  Until the thread has left the
    startup code, nothing else stores to its entry. -/
structure Creation (r : StartRun b L hL) (t : Tid b) where
  func : Ptr
  argument : Ptr
  attr : Option OsThreadAttr
  entry : OsThreadAttr × HwthreadState
  done : Nat → Nat
  nonnull : func ≠ NULL
  free : entry.2.func = NULL
  start : done 0 = 0
  init : EntryWords L t (r.state 0).mem entry.2
  next : ∀ k, done (k + 1) = done k ∨ done (k + 1) = done k + 1
  idle : ∀ k, r.event k ≠ .outside → done (k + 1) = done k
  stores : ∀ k, r.Starting t k → r.event k = .outside →
    EntryWords L t (r.state k).mem
      (storeAll ((osThreadNewStores b t.val func argument attr).take (done k)) entry).2 →
    EntryWords L t (r.state (k + 1)).mem
      (storeAll ((osThreadNewStores b t.val func argument attr).take (done (k + 1))) entry).2

namespace Creation

variable (c : Creation r t)

/-- How many stores there are. -/
def length : Nat := (osThreadNewStores b t.val c.func c.argument c.attr).length

/-- The entry after the first `n` stores. -/
def after (n : Nat) : HwthreadState :=
  (storeAll ((osThreadNewStores b t.val c.func c.argument c.attr).take n) c.entry).2

/-- The stack of the thread. -/
def stack : Ptr :=
  match c.attr with
  | none => c.entry.2.stackAddress
  | some attr =>
      if attr.stackMem = NULL then b.flexpretThreadInitStackAddr t.val else attr.stackMem

/-- All stores but the last three leave the function and the argument alone, and
    set the stack. -/
theorem stores_split : ∃ first : List EntryStore,
    osThreadNewStores b t.val c.func c.argument c.attr = first ++
      [fun e => (e.1, { e.2 with func := c.func }), fun e => (e.1, { e.2 with state := .active }),
        fun e => (e.1, { e.2 with arg := c.argument })] ∧
    (∀ store ∈ first, ∀ e, (store e).2.func = e.2.func ∧ (store e).2.arg = e.2.arg) ∧
    (storeAll first c.entry).2.stackAddress = c.stack := by
  unfold stack
  cases c.attr with
  | none =>
    refine ⟨_, rfl, ?_, rfl⟩
    simp
  | some attr =>
    refine ⟨_, rfl, ?_, rfl⟩
    simp

/-- Stores that keep the function and the argument keep them one after the other. -/
theorem storeAll_keeps {stores : List EntryStore}
    (h : ∀ store ∈ stores, ∀ e, (store e).2.func = e.2.func ∧ (store e).2.arg = e.2.arg)
    (e : OsThreadAttr × HwthreadState) :
    (storeAll stores e).2.func = e.2.func ∧ (storeAll stores e).2.arg = e.2.arg := by
  induction stores generalizing e with
  | nil => exact ⟨rfl, rfl⟩
  | cons store stores ih =>
    obtain ⟨hfunc, harg⟩ := h store List.mem_cons_self e
    obtain ⟨ihfunc, iharg⟩ := ih (fun s hs => h s (List.mem_cons_of_mem _ hs)) (store e)
    exact ⟨ihfunc.trans hfunc, iharg.trans harg⟩

/-- Before the store of the function the entry is free, with the old argument. -/
theorem after_before {n : Nat} (h : n + 3 ≤ c.length) :
    (c.after n).func = NULL ∧ (c.after n).arg = c.entry.2.arg := by
  obtain ⟨first, hsplit, hkeeps, -⟩ := c.stores_split
  unfold length at h
  unfold after
  rw [hsplit] at h ⊢
  rw [List.length_append] at h
  rw [List.take_append_of_le_length (Nat.le_of_add_le_add_right h)]
  have hkept : ∀ store ∈ first.take n, ∀ e, (store e).2.func = e.2.func ∧
      (store e).2.arg = e.2.arg := fun store hs => hkeeps store (List.mem_of_mem_take hs)
  obtain ⟨hfunc, harg⟩ := storeAll_keeps hkept c.entry
  exact ⟨hfunc.trans c.free, harg⟩

/-- **The entry after the store of the function**: the argument is stored last. -/
theorem after_func {n : Nat} (h : c.length < n + 3) :
    (c.after n).func = c.func ∧ (c.after n).stackAddress = c.stack ∧
      (c.after n).arg = if c.length ≤ n then c.argument else c.entry.2.arg := by
  obtain ⟨first, hsplit, hkeeps, hstack⟩ := c.stores_split
  have hlength : c.length = first.length + 3 := by
    rw [length, hsplit, List.length_append]
    rfl
  obtain ⟨m, rfl⟩ : ∃ m, n = first.length + (m + 1) := ⟨n - first.length - 1, by omega⟩
  obtain ⟨-, harg⟩ := storeAll_keeps hkeeps c.entry
  unfold after
  rw [hsplit, List.take_length_add_append]
  unfold storeAll at hstack harg ⊢
  rw [List.foldl_append]
  obtain rfl | rfl | ⟨l, rfl⟩ : m = 0 ∨ m = 1 ∨ ∃ l, m = l + 2 := by
    rcases m with _ | _ | l
    · exact .inl rfl
    · exact .inr (.inl rfl)
    · exact .inr (.inr ⟨l, rfl⟩)
  · refine ⟨rfl, hstack, ?_⟩
    rw [if_neg (by omega)]
    exact harg
  · refine ⟨rfl, hstack, ?_⟩
    rw [if_neg (by omega)]
    exact harg
  · have hall : ([fun e => (e.1, { e.2 with func := c.func }),
        fun e => (e.1, { e.2 with state := .active }),
        fun e => (e.1, { e.2 with arg := c.argument })] : List EntryStore).take (l + 2 + 1) =
        [fun e => (e.1, { e.2 with func := c.func }), fun e => (e.1, { e.2 with state := .active }),
          fun e => (e.1, { e.2 with arg := c.argument })] :=
      List.take_of_length_le (Nat.le_add_left 3 l)
    rw [hall, if_pos (by omega)]
    exact ⟨rfl, hstack, rfl⟩

/-- **The words of the entry** while the thread is starting: what the stores so far
    have left. -/
theorem words (hstarting : r.Starting t k) :
    EntryWords L t (r.state k).mem (c.after (c.done k)) := by
  induction k with
  | zero =>
    rw [c.start]
    exact c.init
  | succ k ih =>
    have hbefore : r.Starting t k := fun j hj => hstarting j (Nat.le_succ_of_le hj)
    by_cases hev : r.event k = .outside
    · exact c.stores k hbefore hev (ih hbefore)
    · rw [mem_of_inside hev, c.idle k hev]
      exact ih hbefore

theorem done_mono {k k' : Nat} (h : k ≤ k') : c.done k ≤ c.done k' := by
  induction k', h using Nat.le_induction with
  | base => exact Nat.le_refl _
  | succ k' _ ih =>
    obtain hsame | hnext := c.next k'
    · omega
    · omega

/-- **Until the function is stored** the thread polls. -/
theorem polls_until (ht : t ≠ 0) {k₀ : Nat} (hfree : c.done k₀ + 3 ≤ c.length) (hk : k ≤ k₀ + 1) :
    r.Polls k t ∧ r.Starting t k := by
  induction k with
  | zero => exact ⟨polls_reset r t, starting_reset r t⟩
  | succ k ih =>
    obtain ⟨hpolls, hstarting⟩ := ih (by omega)
    have hdone := c.done_mono (show k ≤ k₀ by omega)
    have hword := (c.words hstarting).func
    rw [(c.after_before (by omega)).1] at hword
    have hnext := hpolls.next ht hstarting hword
    exact ⟨hnext, starting_succ hstarting hnext.inside⟩

/-- What the thread is handed, when the word of the argument is `arg` as it loads
    it. -/
def handed (arg : Word) : Handed := ⟨c.func, c.stack, arg⟩

/-- The function is stored.  The thread has `n` steps to go to the load of the
    argument; where it has just found the entry free, it tests that first. -/
structure Published (k₀ n k : Nat) : Prop where
  after : k₀ < k
  starting : r.Starting t k
  way : r.Ready t (c.handed 0) (n + 8) k ∨
    n = 4 ∧ r.Stage k t ⟨NULL, c.stack, 0⟩ 6

variable {c}

theorem Published.inside {k₀ n : Nat} (h : c.Published k₀ n k) :
    ¬ (startRoutine L hL).Outside ((r.state k).hart t).pc := by
  obtain hready | ⟨-, hstage⟩ := h.way
  · exact hready.inside
  · exact hstage.inside

/-- Where the thread is as the function is stored. -/
theorem published_of_polls (ht : t ≠ 0) {k₀ : Nat} (hpolls : r.Polls (k₀ + 1) t)
    (hstarting : r.Starting t (k₀ + 1)) :
    ∃ n, 3 ≤ n ∧ n ≤ 8 ∧ c.Published k₀ n (k₀ + 1) := by
  obtain ⟨i, hi, hstage⟩ := hpolls
  by_cases hlow : i ≤ 5
  · refine ⟨8 - i, by omega, by omega, Nat.lt_succ_self k₀, hstarting, .inl ⟨i, ?_, ?_, ?_⟩⟩
    · exact (onWay_other ht i).mpr (.inl (by omega))
    · rw [toGo_other ht, if_pos (by omega)]
      omega
    · exact (hstage c.stack 0).congr (by omega) (fun h => by omega) (fun h => by omega)
  · obtain rfl : i = 6 := by omega
    exact ⟨4, by decide, by decide, Nat.lt_succ_self k₀, hstarting, .inr ⟨rfl, hstage c.stack 0⟩⟩

/-- **A step towards the load** of the argument: the function and the stack are
    stored. -/
theorem Published.own (ht : t ≠ 0) (hquiet : r.Uninterrupted t) {k₀ n : Nat}
    (hstored : c.length < c.done (k₀ + 1) + 3) (h : c.Published k₀ (n + 1) k)
    (hmine : r.thread k = t) : c.Published k₀ n (k + 1) := by
  have hdone := c.done_mono (show k₀ + 1 ≤ k from h.after)
  have hwords := c.words h.starting
  obtain ⟨hfunc, hstack, -⟩ := c.after_func (n := c.done k) (by omega)
  have hway : r.Ready t (c.handed 0) (n + 8) (k + 1) := by
    obtain hready | ⟨hn, hstage⟩ := h.way
    · refine hready.own hmine h.starting hquiet (.inr c.nonnull) fun i _ hgo => ?_
      rw [toGo_other ht] at hgo
      refine ⟨fun _ => hwords.func.trans hfunc, fun _ => hwords.stackAddress.trans hstack,
        fun h8 => ?_, fun h13 => ?_, fun h14 => ?_⟩
      · rw [h8] at hgo
        exact absurd hgo (by norm_num)
      · rw [h13] at hgo
        exact absurd hgo (by norm_num)
      · rw [h14] at hgo
        exact absurd hgo (by norm_num)
    · -- the test of the free entry goes back to the load of the function
      have hnext := hstage.own hmine h.starting (fun h => absurd h (by decide)) (by decide)
        (loads_nothing (by decide))
      have hwait : lineAfter t ⟨NULL, c.stack, 0⟩ 6 = 5 := rfl
      rw [hwait] at hnext
      refine ⟨5, (onWay_other ht 5).mpr (.inl (by decide)), ?_,
        hnext.congr (by decide) (fun h => absurd h (by decide)) fun h => absurd h (by decide)⟩
      rw [toGo_other ht, if_pos (by decide)]
      omega
  exact ⟨Nat.lt_succ_of_lt h.after, starting_succ h.starting hway.inside, .inl hway⟩

theorem Published.other {k₀ n : Nat} (h : c.Published k₀ n k) (hmine : r.thread k ≠ t) :
    c.Published k₀ n (k + 1) := by
  obtain hready | ⟨hn, hstage⟩ := h.way
  · have hnext := hready.other hmine h.starting
    exact ⟨Nat.lt_succ_of_lt h.after, starting_succ h.starting hnext.inside, .inl hnext⟩
  · have hnext := hstage.other hmine h.starting
    exact ⟨Nat.lt_succ_of_lt h.after, starting_succ h.starting hnext.inside, .inr ⟨hn, hnext⟩⟩

/-- The thread goes on towards the load. -/
theorem Published.run (ht : t ≠ 0) (hquiet : r.Uninterrupted t) {k₀ n : Nat}
    (hstored : c.length < c.done (k₀ + 1) + 3) (h : c.Published k₀ n k) (d : Nat)
    (hd : ownSteps (r.mine t) k d ≤ n) :
    c.Published k₀ (n - ownSteps (r.mine t) k d) (k + d) := by
  refine countDown (Q := c.Published k₀) h ?_ ?_ d hd
  · intro k j _ hmine h
    exact h.own ht hquiet hstored (of_decide_eq_true hmine)
  · intro k j _ hother h
    exact h.other (of_decide_eq_false hother)

/-- The thread is in line 8 when it has no steps to go to the load. -/
theorem Published.load (ht : t ≠ 0) {k₀ : Nat} (h : c.Published k₀ 0 k) :
    r.Stage k t (c.handed 0) 8 := by
  obtain ⟨i, hway, hgo, hstage⟩ := h.way.resolve_right fun h => absurd h.1 (by decide)
  rw [onWay_other ht] at hway
  rw [toGo_other ht] at hgo
  obtain rfl : i = 8 := by
    split at hgo
    · omega
    · have hline := hstage.line
      omega
  exact hstage

/-- The argument is loaded; `n` steps to go to the jump. -/
structure Loaded (c : Creation r t) (arg : Word) (n k : Nat) : Prop where
  starting : r.Starting t k
  ready : r.Ready t (c.handed arg) (n + 1) k

/-- **The load of the argument**. -/
theorem Published.loads (ht : t ≠ 0) {k₀ : Nat}
    (hstored : c.length < c.done (k₀ + 1) + 3) (h : c.Published k₀ 0 k) (hmine : r.thread k = t) :
    c.Loaded (if c.length ≤ c.done k then c.argument else c.entry.2.arg) 6 (k + 1) := by
  have hdone := c.done_mono (show k₀ + 1 ≤ k from h.after)
  have hword := (c.words h.starting).arg
  obtain ⟨-, -, harg⟩ := c.after_func (n := c.done k) (by omega)
  rw [harg] at hword
  have hstage : r.Stage k t (c.handed (if c.length ≤ c.done k then c.argument
      else c.entry.2.arg)) 8 := (h.load ht).congr (by decide) (fun _ => rfl) fun _ => rfl
  have hnext := hstage.own hmine h.starting (fun h => absurd h (by decide)) (by decide)
    ⟨fun h => absurd h (by decide), fun h => absurd h (by decide), fun _ => hword,
      fun h => absurd h (by decide), fun h => absurd h (by decide)⟩
  refine ⟨starting_succ h.starting hnext.inside,
    ⟨9, (onWay_other ht 9).mpr (.inl (by decide)), ?_, hnext⟩⟩
  rw [toGo_other ht]
  rfl

theorem Loaded.own (ht : t ≠ 0) (hquiet : r.Uninterrupted t) {arg : Word} {n : Nat}
    (h : c.Loaded arg (n + 1) k) (hn : n + 1 ≤ 6) (hmine : r.thread k = t) :
    c.Loaded arg n (k + 1) := by
  have hready := h.ready.own hmine h.starting hquiet (.inr c.nonnull) fun i hway hgo => by
    rw [onWay_other ht] at hway
    rw [toGo_other ht] at hgo
    -- with at most seven steps to go the thread is behind line 8
    have hlate : 9 ≤ i ∧ (i ≤ 10 ∨ 15 ≤ i) := by
      split at hgo <;> omega
    exact loads_nothing (by omega)
  exact ⟨starting_succ h.starting hready.inside, hready⟩

theorem Loaded.other {arg : Word} {n : Nat} (h : c.Loaded arg n k) (hmine : r.thread k ≠ t) :
    c.Loaded arg n (k + 1) := by
  have hready := h.ready.other hmine h.starting
  exact ⟨starting_succ h.starting hready.inside, hready⟩

/-- The thread goes on towards the jump. -/
theorem Loaded.run (ht : t ≠ 0) (hquiet : r.Uninterrupted t) {arg : Word} {n : Nat}
    (h : c.Loaded arg n k) (hn : n ≤ 6) (d : Nat) (hd : ownSteps (r.mine t) k d ≤ n) :
    c.Loaded arg (n - ownSteps (r.mine t) k d) (k + d) := by
  refine (countDown (Q := fun n k => n ≤ 6 ∧ c.Loaded arg n k) ⟨hn, h⟩ ?_ ?_ d hd).2
  · intro k j _ hmine h
    exact ⟨Nat.le_of_succ_le h.1, h.2.own ht hquiet h.1 (of_decide_eq_true hmine)⟩
  · intro k j _ hother h
    exact ⟨h.1, h.2.other (of_decide_eq_false hother)⟩

/-- The thread loads its argument at step `kL`, with three to eight own steps since
    the store of the function at step `k₀`, and jumps to the function at step
    `kE`. -/
structure HandsOver (c : Creation r t) (k₀ kL kE : Nat) : Prop where
  after : k₀ < kL
  load : r.thread kL = t ∧ r.AtLine kL t 8
  jump : r.thread kE = t ∧ r.AtLine kE t 19
  starting : r.Starting t kE
  soonest : 3 ≤ ownSteps (r.mine t) (k₀ + 1) (kL - (k₀ + 1))
  latest : ownSteps (r.mine t) (k₀ + 1) (kL - (k₀ + 1)) ≤ 8
  rest : ownSteps (r.mine t) kL (kE - kL) = 7
  enters : r.Enters (kE + 1) t c.func c.stack
    (if c.length ≤ c.done kL then c.argument else c.entry.2.arg)
  inTime : ∀ k, k₀ < k → c.length ≤ c.done k →
    ownSteps (r.mine t) (k₀ + 1) (k - (k₀ + 1)) ≤ 3 →
      r.Enters (kE + 1) t c.func c.stack c.argument

/-- **A thread is handed its function**: it polls until the function is stored, and
    unless it is interrupted enters it at most 16 own lines later, with its stack and
    the argument that the entry holds as it loads it.  That is the new one in every
    run where at most three of its lines come between the two stores. -/
theorem handsOver (c : Creation r t) (ht : t ≠ 0) (hquiet : r.Uninterrupted t) {k₀ d : Nat}
    (hbefore : c.done k₀ + 3 = c.length) (hafter : c.done (k₀ + 1) = c.done k₀ + 1)
    (hsteps : 16 ≤ ownSteps (r.mine t) (k₀ + 1) d) :
    (∀ k, k ≤ k₀ + 1 → r.Polls k t) ∧
      ∃ kL kE, kE < k₀ + 1 + d ∧ c.HandsOver k₀ kL kE := by
  refine ⟨fun k hk => (c.polls_until ht hbefore.le hk).1, ?_⟩
  have hstored : c.length < c.done (k₀ + 1) + 3 := by omega
  obtain ⟨hpolls, hstarting⟩ := c.polls_until ht hbefore.le (Nat.le_refl (k₀ + 1))
  obtain ⟨n, hlow, hhigh, hpublished⟩ := published_of_polls (c := c) ht hpolls hstarting
  -- to the load
  obtain ⟨d₁, hd₁, hmine₁, hcount₁⟩ := exists_ownStep (n := n) (hsteps.trans_lt' (by omega))
  have hload := hpublished.run ht hquiet hstored d₁ hcount₁.le
  rw [hcount₁, Nat.sub_self] at hload
  have hthread₁ : r.thread (k₀ + 1 + d₁) = t := of_decide_eq_true hmine₁
  have hloaded := hload.loads ht hstored hthread₁
  -- to the jump
  have hrest : 6 < ownSteps (r.mine t) (k₀ + 1 + d₁ + 1) (d - (d₁ + 1)) := by
    have hsum := ownSteps_add (r.mine t) (k₀ + 1) (d₁ + 1) (d - (d₁ + 1))
    rw [Nat.add_sub_cancel' hd₁, ownSteps, hcount₁, hmine₁, if_pos rfl, ← Nat.add_assoc] at hsum
    omega
  obtain ⟨d₂, hd₂, hmine₂, hcount₂⟩ := exists_ownStep hrest
  have hjump := hloaded.run ht hquiet (Nat.le_refl 6) d₂ hcount₂.le
  rw [hcount₂, Nat.sub_self] at hjump
  have hthread₂ : r.thread (k₀ + 1 + d₁ + 1 + d₂) = t := of_decide_eq_true hmine₂
  have henters := hjump.ready.last.enters hthread₂ hjump.starting hquiet
  refine ⟨k₀ + 1 + d₁, k₀ + 1 + d₁ + 1 + d₂, by omega, ?_⟩
  constructor
  case after => omega
  case load => exact ⟨hthread₁, (hload.load ht).atLine⟩
  case jump => exact ⟨hthread₂, hjump.ready.last.atLine⟩
  case starting => exact hjump.starting
  case soonest =>
    rw [Nat.add_sub_cancel_left, hcount₁]
    exact hlow
  case latest =>
    rw [Nat.add_sub_cancel_left, hcount₁]
    exact hhigh
  case rest =>
    have hsum := ownSteps_add (r.mine t) (k₀ + 1 + d₁) 1 d₂
    rw [ownSteps, ownSteps, Nat.add_zero (k₀ + 1 + d₁), hmine₁, if_pos rfl, hcount₂] at hsum
    rw [show k₀ + 1 + d₁ + 1 + d₂ - (k₀ + 1 + d₁) = 1 + d₂ by omega, hsum]
  case enters => exact henters
  case inTime =>
    intro k hk hdone hown
    -- a later store would come after more than three own steps
    have hle : k ≤ k₀ + 1 + d₁ := by
      by_contra hlate
      have hmono := ownSteps_mono (r.mine t) (k₀ + 1) (show d₁ + 1 ≤ k - (k₀ + 1) by omega)
      rw [ownSteps, hcount₁, hmine₁, if_pos rfl] at hmono
      omega
    have hall := c.done_mono hle
    rw [if_pos (by omega)] at henters
    exact henters

end Creation

end StartRun

/-! ## Section 8: The return -/

namespace StartRun

variable {L : StartLayout} {hL : L.Sound} {r : StartRun b L hL} {t : Tid b} {k : Nat}

/-- The code reads only `hartid`. -/
theorem resetRoutine_csrr {rd : Reg} {csr : StartCsr} (h : Line.csrr rd csr ∈ resetRoutine L) :
    csr = .hart .hartid := by
  have hall : ∀ line ∈ resetRoutine L, ∀ rd csr, line = Line.csrr rd csr → csr = .hart .hartid := by
    simp [resetRoutine, resetCode, waitCode, initCode, startupCode, afterCode]
  exact hall _ h rd csr rfl

theorem resetRoutine_respects {line : Line StartCsr} (h : line ∈ resetRoutine L) :
    line.Respects (startCsrFile t) (fun _ => ()) := by
  intro c c' _
  cases line with
  | csrr rd csr =>
    obtain rfl := resetRoutine_csrr h
    rfl
  | csrw csr rs => exact fun _ => rfl
  | csrrsi csr imm => rfl
  | _ => trivial

/-- A step of another thread changes neither the registers nor the place of a
    thread. -/
theorem agree_other (hmine : r.thread k ≠ t) :
    Agree (fun _ => False) (fun _ => ()) ((r.state k).sees t) ((r.state (k + 1)).sees t) := by
  have hsame := (r.step k).others t hmine.symm
  constructor
  case x =>
    show ((r.state k).hart t).x = ((r.state (k + 1)).hart t).x
    rw [hsame, TrapEvent.others_x]
  case csrs => rfl
  case pc =>
    show ((r.state k).hart t).pc = ((r.state (k + 1)).hart t).pc
    rw [hsame, TrapEvent.others_pc]
  case mem => exact fun _ h => h.elim

/-- **The function returns**.  With its fourth own step after that, thread 0 has
    written the result of `main`, plus one, to `tohost`, and another thread enters
    `thread_after_return_handler`. -/
theorem function_returns {d : Nat} (hat : ((r.state k).hart t).pc = L.addr 20)
    (hlines : ∀ c, k ≤ c → c ≤ k + d → r.thread c = t → r.event c = .line)
    (hcount : ownSteps (r.mine t) k d = 3) (hmine : r.thread (k + d) = t) :
    (t = 0 → (r.state (k + d + 1)).tohost = ((r.state k).hart t).x a0 + 1 ∧
        ((r.state (k + d + 1)).hart t).pc = L.addr stopLine) ∧
      (t ≠ 0 → ((r.state (k + d + 1)).hart t).pc = L.threadAfterReturnHandler ∧
        ((r.state (k + d + 1)).hart t).x ra = L.addr 24) := by
  have hstep : ∀ c, k ≤ c → c ≤ k + d → r.thread c = t →
      (startRoutine L hL).step (startCsrFile t) ((r.state c).sees t) =
        some ((r.state (c + 1)).sees t) := by
    intro c hlow hhigh hmine
    subst hmine
    exact (r.step c).line (hlines c hlow hhigh rfl)
  -- the last step is taken where the first three lead
  have hend : ∀ m', Follows (startRoutine L hL) (startCsrFile t) (fun _ => False) 3
      ((r.state k).sees t) m' → ∀ i line, (resetRoutine L)[i]? = some line → m'.pc = L.addr i →
      (r.state (k + d + 1)).sees t = (startRoutine L hL).execute (startCsrFile t)
        ((r.state (k + d)).sees t) i line ∧ m'.x = ((r.state (k + d)).hart t).x := by
    intro m' hfollows i line hcode hpc
    have hagree := hfollows.agree_end (r.mine t) (fun c => (r.state c).sees t) (Agree.refl _)
      (fun _ h => resetRoutine_respects h)
      (fun c hlow hhigh hown _ => hstep c hlow hhigh.le (of_decide_eq_true hown))
      (fun c _ _ hother => agree_other (of_decide_eq_false hother)) hcount
    refine ⟨?_, hagree.x⟩
    rw [Routine.advance_of_step (hstep (k + d) (Nat.le_add_right k d) (Nat.le_refl _) hmine)]
    exact Routine.advance_line (hagree.pc.symm.trans hpc) hcode
  have hfirst : Follows (startRoutine L hL) (startCsrFile t) (fun _ => False) 1
      ((r.state k).sees t) _ := Follows.line 20 (.csrr a1 (.hart .hartid)) hat rfl
    fun a ha => by cases ha
  have hbranch := hfirst.snoc 21 (.beq a1 0 doneLine) rfl rfl fun a ha => by cases ha
  have hx : ∀ v, (((r.state k).hart t).x.write a1 v) 0 = 0 := fun v => RegFile.zero _
  constructor
  · intro ht
    have hdone := hbranch.snoc 25 (.addi a0 a0 1) (by
      show (if BitVec.ofNat 32 t.val = (((r.state k).hart t).x.write a1 _) 0 then L.addr doneLine
        else L.addr 22) = L.addr doneLine
      rw [hx, if_pos (tidWord_zero.mpr ht)]) rfl fun a ha => by cases ha
    obtain ⟨hsees, hregs⟩ := hend _ hdone 26 (.csrw .tohost a0) rfl rfl
    refine ⟨?_, ?_⟩
    · have htohost : (r.state (k + d + 1)).tohost = ((r.state (k + d)).hart t).x a0 :=
        congrArg (fun m => m.csrs.tohost) hsees
      rw [htohost, ← hregs]
      rfl
    · exact congrArg Machine.pc hsees
  · intro ht
    have hcall := hbranch.snoc 22 (.li a0 L.threadAfterReturnHandler) (by
      show (if BitVec.ofNat 32 t.val = (((r.state k).hart t).x.write a1 _) 0 then L.addr doneLine
        else L.addr 22) = L.addr 22
      rw [hx, if_neg (mt tidWord_zero.mp ht)]) rfl fun a ha => by cases ha
    obtain ⟨hsees, hregs⟩ := hend _ hcall 23 (.jalr ra a0) rfl rfl
    refine ⟨?_, ?_⟩
    · have hpc : ((r.state (k + d + 1)).hart t).pc = ((r.state (k + d)).hart t).x a0 :=
        congrArg Machine.pc hsees
      rw [hpc, ← hregs]
      rfl
    · exact congrArg (fun m => m.x ra) hsees

end StartRun

/-! ## Section 9: Two threads -/

/-- The code at address 0, the table at the start of the data. -/
def bootLayout : StartLayout where
  addr := fun i => BitVec.ofNat 32 (4 * i)
  startupState := 0x20000000
  main := 0x200
  trapEntry := 0x400
  threadAfterReturnHandler := 0x600

theorem bootLayout_sound : bootLayout.Sound := by
  constructor
  case inj =>
    intro i j hi hj haddr
    rw [resetRoutine_length] at hi hj
    have hnat := congrArg BitVec.toNat haddr
    simp only [bootLayout, BitVec.toNat_ofNat] at hnat
    omega
  case aligned => rfl

/-- What happens next: a step of a thread, or the next store of `main`, which
    creates thread 1. -/
inductive BootPlan where
  | run (t : Tid .threads4Dspm12)
  | store

/-- The state, and the stores done. -/
structure Boot where
  state : StartState .threads4Dspm12
  done : Nat

/-- The entry of thread 1 in the image. -/
def bootEntry : OsThreadAttr × HwthreadState :=
  (flexpretThreadInitAttr,
    { func := NULL, state := .inactive, arg := NULL, stackAddress := 0x200027FC })

/-- The entry after the first `n` stores. -/
def bootAfter (n : Nat) : HwthreadState :=
  (StartRun.storeAll ((osThreadNewStores .threads4Dspm12 1 0x900 0x123 none).take n) bootEntry).2

/-- The entry of thread 1 becomes `e`. -/
def putEntry (e : HwthreadState) (mem : Memory) : Memory := fun a =>
  if a = 0x20000010 then e.func
  else if a = 0x20000018 then e.arg
  else if a = 0x2000001C then e.stackAddress
  else mem a

/-- A step of thread `t`. -/
def Boot.run (s : Boot) (t : Tid .threads4Dspm12) : TrapEvent × Boot :=
  match (startRoutine bootLayout bootLayout_sound).step (startCsrFile t) (s.state.sees t) with
  | some m =>
      (.line, { s with
        state :=
          { mem := m.mem
            tohost := m.csrs.tohost
            hart := Function.update s.state.hart t ⟨m.x, m.csrs.hart, m.pc⟩ } })
  | none =>
      if (startRoutine bootLayout bootLayout_sound).Outside (s.state.hart t).pc then (.outside, s)
      else
        let trapped := takeTrap 0 (s.state.view t)
        (.trap 0, { s with
          state :=
            { s.state with
              hart := Function.update (fun u => (TrapEvent.trap 0).others (s.state.hart u)) t
                ⟨trapped.x, trapped.csrs, trapped.pc⟩ } })

/-- What the plan says, or a step of thread 0. -/
def Boot.next (s : Boot) : BootPlan → Tid .threads4Dspm12 × TrapEvent × Boot
  | .run t => (t, s.run t)
  | .store =>
      if (startRoutine bootLayout bootLayout_sound).Outside (s.state.hart 0).pc then
        (0, .outside,
          { state := { s.state with mem := putEntry (bootAfter (s.done + 1)) s.state.mem }
            done := s.done + 1 })
      else (0, s.run 0)

theorem clearedRegs_zero : (fun _ : Reg => (0 : Word)) 0 = 0 := rfl

/-- All registers are zero. -/
def clearedRegs : RegFile where
  reg := fun _ => 0
  zero := clearedRegs_zero

/-- All threads at the reset. -/
def bootStart : Boot where
  state :=
    { mem := putEntry bootEntry.2 fun a => if a = 0x2000000C then 0x20001BFC else 0
      tohost := 0
      hart := fun _ => ⟨clearedRegs, ⟨0, 0, 0, false, false, false⟩, 0⟩ }
  done := 0

def bootAt (plan : Nat → BootPlan) : Nat → Boot
  | 0 => bootStart
  | k + 1 => ((bootAt plan k).next (plan k)).2.2

theorem Boot.run_step (s : Boot) (t : Tid .threads4Dspm12) :
    StartStep bootLayout bootLayout_sound t (s.run t).1 s.state (s.run t).2.state := by
  unfold Boot.run
  split
  · next m hstep =>
    constructor
    case others => exact fun u hu => Function.update_of_ne hu ..
    case line =>
      intro _
      rw [hstep]
      simp [StartState.sees]
    case outside => intro h; cases h
    case trap => intro cause h; cases h
  · next hnone =>
    split
    · next hout =>
      constructor
      case others => exact fun _ _ => rfl
      case line => intro h; cases h
      case outside => exact fun _ => hout
      case trap => intro cause h; cases h
    · constructor
      case others =>
        intro u hu
        exact Function.update_of_ne hu _ fun u => (TrapEvent.trap 0).others (s.state.hart u)
      case line => intro h; cases h
      case outside => intro h; cases h
      case trap =>
        intro cause h
        injection h with h
        subst h
        refine ⟨.inr hnone, ?_, rfl⟩
        simp [TrapState.view, takeTrap]

theorem Boot.next_step (s : Boot) (p : BootPlan) :
    StartStep bootLayout bootLayout_sound (s.next p).1 (s.next p).2.1 s.state
      (s.next p).2.2.state := by
  cases p with
  | run t => exact s.run_step t
  | store =>
    unfold Boot.next
    simp only
    split
    · next hout =>
      constructor
      case others => exact fun _ _ => rfl
      case line => intro h; cases h
      case outside => exact fun _ => hout
      case trap => intro cause h; cases h
    · exact s.run_step 0

/-- The run. -/
def bootRun (plan : Nat → BootPlan) : StartRun .threads4Dspm12 bootLayout bootLayout_sound where
  state := fun k => (bootAt plan k).state
  thread := fun k => ((bootAt plan k).next (plan k)).1
  event := fun k => ((bootAt plan k).next (plan k)).2.1
  pc := fun _ => rfl
  ie := fun _ => rfl
  step := fun k => (bootAt plan k).next_step (plan k)

/-- Thread 0 runs to `main` and creates thread 1, which then runs. -/
def createFirst (k : Nat) : BootPlan :=
  if k < 11 then .run 0 else if k < 20 then .store else .run 1

section boot

variable {plan : Nat → BootPlan} {k : Nat} {t : Tid .threads4Dspm12}

/-- The thread that a plan says. -/
def BootPlan.thread : BootPlan → Tid .threads4Dspm12
  | .run t => t
  | .store => 0

theorem bootRun_thread (plan : Nat → BootPlan) (k : Nat) :
    (bootRun plan).thread k = (plan k).thread := by
  show ((bootAt plan k).next (plan k)).1 = _
  cases plan k with
  | run t => rfl
  | store =>
    unfold Boot.next
    simp only
    split <;> rfl

/-- A step that is a trap is one of a line that cannot be executed. -/
theorem Boot.next_trap {s : Boot} {p : BootPlan} {cause : Core.Cause}
    (h : (s.next p).2.1 = .trap cause) :
    (startRoutine bootLayout bootLayout_sound).step (startCsrFile p.thread)
      (s.state.sees p.thread) = none := by
  have hrun : ∀ t, (s.run t).1 = .trap cause →
      (startRoutine bootLayout bootLayout_sound).step (startCsrFile t) (s.state.sees t) = none := by
    intro t h
    unfold Boot.run at h
    split at h
    · cases h
    · next hnone => exact hnone
  cases p with
  | run t => exact hrun t h
  | store =>
    unfold Boot.next at h
    simp only at h
    split at h
    · cases h
    · exact hrun 0 h

/-- No thread is interrupted. -/
theorem bootRun_uninterrupted (plan : Nat → BootPlan) (t : Tid .threads4Dspm12) :
    (bootRun plan).Uninterrupted t := by
  intro k cause _ hat hmine hev
  have hnone := Boot.next_trap (p := plan k) hev
  rw [← bootRun_thread, hmine] at hnone
  have hline : ∀ i line, (resetRoutine bootLayout)[i]? = some line →
      (∀ x, line.address x = none) → ¬ (bootRun plan).AtLine k t i := by
    intro i line hcode haddr hat
    have hsome : (startRoutine bootLayout bootLayout_sound).step (startCsrFile t) _ = some _ :=
      step_of_atLine (P := fun _ => False) (m := ((bootRun plan).state k).sees t)
        ⟨i, line, hcode, hat.2, fun a ha => by rw [haddr] at ha; cases ha⟩ fun _ ha => ha.elim
    have hsame := hnone.symm.trans hsome
    cases hsame
  obtain h18 | h19 := hat
  · exact hline 18 (.addi sp a1 0) rfl (fun _ => rfl) h18
  · exact hline 19 (.jalr ra a2) rfl (fun _ => rfl) h19

/-- A step stores at most once. -/
theorem Boot.next_done (s : Boot) (p : BootPlan) :
    (s.next p).2.2.done = s.done ∧ ((s.next p).2.1 = .outside →
        (s.next p).2.2.state.mem = s.state.mem) ∨
      (s.next p).2.2.done = s.done + 1 ∧ (s.next p).2.1 = .outside ∧
        (s.next p).2.2.state.mem = putEntry (bootAfter (s.done + 1)) s.state.mem := by
  have hrun : ∀ t, (s.run t).2.done = s.done ∧
      ((s.run t).1 = .outside → (s.run t).2.state.mem = s.state.mem) := by
    intro t
    unfold Boot.run
    split
    · exact ⟨rfl, fun h => by cases h⟩
    · split
      · exact ⟨rfl, fun _ => rfl⟩
      · exact ⟨rfl, fun h => by cases h⟩
  cases p with
  | run t => exact .inl (hrun t)
  | store =>
    unfold Boot.next
    simp only
    split
    · exact .inr ⟨rfl, rfl, rfl⟩
    · exact .inl (hrun 0)

theorem putEntry_words (e : HwthreadState) (mem : Memory) :
    StartRun.EntryWords bootLayout (1 : Tid .threads4Dspm12) (putEntry e mem) e :=
  ⟨rfl, rfl, rfl⟩

/-- A store of `main` leaves the words as they should be. -/
theorem bootAt_words (plan : Nat → BootPlan) (k : Nat) (hev : (bootRun plan).event k = .outside)
    (hwords : StartRun.EntryWords bootLayout (1 : Tid .threads4Dspm12) (bootAt plan k).state.mem
      (bootAfter (bootAt plan k).done)) :
    StartRun.EntryWords bootLayout (1 : Tid .threads4Dspm12) (bootAt plan (k + 1)).state.mem
      (bootAfter (bootAt plan (k + 1)).done) := by
  show StartRun.EntryWords bootLayout (1 : Tid .threads4Dspm12)
    ((bootAt plan k).next (plan k)).2.2.state.mem
    (bootAfter ((bootAt plan k).next (plan k)).2.2.done)
  obtain ⟨hdone, hmem⟩ | ⟨hdone, -, hmem⟩ := (bootAt plan k).next_done (plan k)
  · rw [hdone, hmem hev]
    exact hwords
  · rw [hdone, hmem]
    exact putEntry_words _ _

theorem bootFunc_ne_null : (0x900 : Ptr) ≠ NULL := by decide

/-- The creation of thread 1. -/
def bootCreation (plan : Nat → BootPlan) :
    StartRun.Creation (bootRun plan) (1 : Tid .threads4Dspm12) where
  func := 0x900
  argument := 0x123
  attr := none
  entry := bootEntry
  done := fun k => (bootAt plan k).done
  nonnull := bootFunc_ne_null
  free := rfl
  start := rfl
  init := putEntry_words bootEntry.2 _
  next := fun k => ((bootAt plan k).next_done (plan k)).imp And.left And.left
  idle := fun k hev =>
    ((bootAt plan k).next_done (plan k)).elim And.left fun h => absurd h.2.1 hev
  stores := fun k _ hev hwords => bootAt_words plan k hev hwords

theorem bootRun_image (plan : Nat → BootPlan) : (bootRun plan).Image := by
  intro t ht
  show putEntry bootEntry.2 (fun a => if a = 0x2000000C then 0x20001BFC else 0)
    (bootLayout.entryAddr t) = NULL
  revert t
  decide

/-- Thread 0 enters `main` with its eleventh step. -/
theorem bootRun_main (hplan : ∀ k, k < 11 → plan k = .run 0) :
    (((bootRun plan).state 11).hart 0).pc = 0x200 := by
  have hmine : ∀ k, k < 11 → (bootRun plan).thread k = 0 := by
    intro k hk
    rw [bootRun_thread, hplan k hk]
    rfl
  have hcount : ownSteps ((bootRun plan).mine 0) 0 10 = 10 :=
    ownSteps_all _ 0 10 fun c _ hc => decide_eq_true (hmine c (by omega))
  have hboots : (bootRun plan).Boots (10 - ownSteps ((bootRun plan).mine 0) 0 10) (0 + 10) :=
    (StartRun.boots_reset (bootRun plan)).run (bootRun_image plan) (bootRun_uninterrupted plan 0) 10
      hcount.le
  rw [hcount] at hboots
  exact (hboots.ready.last.enters (hmine 10 (by decide)) (hboots.starting 0)
    (bootRun_uninterrupted plan 0)).pc

/-- `main` comes first. -/
theorem createFirst_main : ((bootRun createFirst).state 10).mem = bootStart.state.mem ∧
    (∀ t, t ≠ 0 → (bootRun createFirst).Polls 10 t) ∧
      (bootRun createFirst).Enters 11 0 0x200 0x20001BFC 0x200 := by
  have hmine : ∀ k, k < 11 → (bootRun createFirst).thread k = 0 := by
    intro k hk
    rw [bootRun_thread, createFirst, if_pos hk]
    rfl
  have hcount : ownSteps ((bootRun createFirst).mine 0) 0 10 = 10 :=
    ownSteps_all _ 0 10 fun c _ hc => decide_eq_true (hmine c (by omega))
  obtain ⟨hmem, hpolls, henters⟩ := StartRun.main_first (bootRun createFirst)
    (bootRun_image createFirst) (bootRun_uninterrupted createFirst 0) 10 hcount.le
  exact ⟨hmem, hpolls, henters hcount (hmine 10 (by decide))⟩

/-- The stores that a plan says. -/
def storesIn (plan : Nat → BootPlan) : Nat → Nat
  | 0 => 0
  | k + 1 =>
      match plan k with
      | .run _ => storesIn plan k
      | .store => storesIn plan k + 1

theorem main_outside : (startRoutine bootLayout bootLayout_sound).Outside 0x200 := by decide

/-- Once in `main`, thread 0 stores as planned. -/
theorem bootAt_stores (hplan : ∀ k, k < 11 → plan k = .run 0)
    (hmain : ∀ k, 11 ≤ k → plan k ≠ .run 0) (k : Nat) :
    (bootAt plan k).done = storesIn plan k ∧
      (11 ≤ k → (((bootRun plan).state k).hart 0).pc = 0x200) := by
  induction k with
  | zero => exact ⟨rfl, fun h => absurd h (by decide)⟩
  | succ k ih =>
    obtain ⟨hdone, hpc⟩ := ih
    have hkeeps : ∀ t, plan k = .run t → (bootAt plan (k + 1)).done = storesIn plan (k + 1) := by
      intro t ht
      rw [storesIn, ht, ← hdone]
      show ((bootAt plan k).next (plan k)).2.2.done = _
      obtain ⟨hsame, -⟩ | - := (bootAt plan k).next_done (plan k)
      · exact hsame
      · rw [ht]
        unfold Boot.next Boot.run
        simp only
        split
        · rfl
        · split <;> rfl
    by_cases hk : k < 11
    · refine ⟨hkeeps 0 (hplan k hk), fun hlow => ?_⟩
      obtain rfl : k = 10 := by omega
      exact bootRun_main hplan
    · have hlow : 11 ≤ k := Nat.le_of_not_lt hk
      cases hp : plan k with
      | run t =>
        refine ⟨hkeeps t hp, fun _ => ?_⟩
        have hne : (bootRun plan).thread k ≠ 0 := by
          rw [bootRun_thread, hp]
          rintro rfl
          exact hmain k hlow hp
        rw [((bootRun plan).step k).others 0 hne.symm, TrapEvent.others_pc]
        exact hpc hlow
      | store =>
        have hnext : bootAt plan (k + 1) =
            { state := { (bootAt plan k).state with
                mem := putEntry (bootAfter ((bootAt plan k).done + 1)) (bootAt plan k).state.mem }
              done := (bootAt plan k).done + 1 } := by
          show ((bootAt plan k).next (plan k)).2.2 = _
          rw [hp]
          unfold Boot.next
          simp only
          rw [if_pos (show (startRoutine bootLayout bootLayout_sound).Outside
            ((bootAt plan k).state.hart 0).pc by
              rw [show ((bootAt plan k).state.hart 0).pc = 0x200 from hpc hlow]
              exact main_outside)]
        constructor
        · rw [hnext, storesIn, hp, hdone]
        · intro _
          show ((bootAt plan (k + 1)).state.hart 0).pc = 0x200
          rw [hnext]
          exact hpc hlow

/-- The stores come first, and thread 1 gets its argument. -/
theorem createFirst_handsOver :
    (∀ k, k ≤ 17 + 1 → (bootRun createFirst).Polls k 1) ∧
      ∃ kL kE, kE < 17 + 1 + 18 ∧ (bootCreation createFirst).HandsOver 17 kL kE := by
  have hlow : ∀ k, k < 11 → createFirst k = .run 0 := fun k hk => if_pos hk
  have hhigh : ∀ k, 11 ≤ k → createFirst k ≠ .run 0 := by
    intro k hk
    unfold createFirst
    rw [if_neg (Nat.not_lt.mpr hk)]
    split
    · exact BootPlan.noConfusion
    · intro h
      injection h with h
      exact absurd h (by decide)
  have hdone : ∀ k, (bootCreation createFirst).done k = storesIn createFirst k := fun k =>
    (bootAt_stores hlow hhigh k).1
  have hmine : (bootRun createFirst).mine 1 = fun k => decide ((createFirst k).thread = 1) := by
    funext k
    rw [StartRun.mine, bootRun_thread]
  refine StartRun.Creation.handsOver (bootCreation createFirst) (by decide)
    (bootRun_uninterrupted createFirst 1) ?_ ?_ ?_
  · rw [hdone]
    rfl
  · rw [hdone, hdone]
    rfl
  · rw [hmine]
    decide

end boot

end Flexpret.Os
