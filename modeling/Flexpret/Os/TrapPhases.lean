import Flexpret.Os.TrapTransparent

/-! # The Phases of a Trap

    A trap, from its entry to its return, as a thread sees it among the others:
    which line it is at, and what is in the registers, the frame and the table.
    The address to return to goes from the `epc` CSR through `a1`, the table and
    `tp`.
-/

open Assembly

namespace Flexpret.Os

variable {b : OsBuild}

/-! ## Section 1: Traps -/

/-- A trap that a thread is in: the thread as it took the trap, and the registers
    with which the handler was entered. -/
structure Activation where
  machine : Machine HartCsrs
  cause : Core.Cause
  handler : Option RegFile

namespace Activation

/-- Where its frame is. -/
def base (a : Activation) : Word := frameBase a.machine

/-- Its frame holds the registers. -/
def FrameSaved (a : Activation) (mem : Memory) : Prop :=
  ∀ q ∈ savedRegs, q ≠ sp → mem (a.base + frameOff q) = a.machine.x q

end Activation

/-! ## Section 2: The pieces of the routine -/

section pieces

variable {L : TrapLayout b} {S : L.Sound} {t : Tid b} {P : Word → Prop} {i j n : Nat}
  {m m' m₀ : Machine HartCsrs}

/-- The line that a thread executes. -/
theorem execute_of_step (line : Line TrapCsr) (hpc : m.pc = L.addr i)
    (hline : (trapEntry L)[i]? = some line)
    (h : (trapRoutine L S).step (csrFile t) m = some m') :
    m' = (trapRoutine L S).execute (csrFile t) m i line :=
  (Routine.advance_of_step h).trans (Routine.advance_line hpc hline)

theorem exists_line (h : i < 103) : ∃ line, (trapEntry L)[i]? = some line :=
  ⟨_, List.getElem?_eq_getElem h⟩

theorem line_inj (S : L.Sound) (hi : i < 103) (hj : j < 103) (h : L.addr i = L.addr j) : i = j :=
  S.inj i j hi hj h

/-- A thread at a line is not outside the routine. -/
theorem not_outside (hi : i < 103) (hpc : m.pc = L.addr i) : ¬ (trapRoutine L S).Outside m.pc := by
  rw [hpc, Routine.Outside, show L.addr = (trapRoutine L S).addr from rfl, Routine.lineAt_addr hi]
  exact Option.some_ne_none i

/-- The lines that go on with the next one: up to the store to the table, and on
    the way back. -/
def goesOn (i : Nat) : Bool := i < 41 || 64 ≤ i && i < 101

theorem trapEntry_goesOn (L : TrapLayout b) :
    (trapEntry L).zipIdx.all (fun l => !goesOn l.2 || l.1.straight) = true := rfl

theorem straight_line {line : Line TrapCsr} (hline : (trapEntry L)[i]? = some line)
    (hi : i < 41 ∨ 64 ≤ i ∧ i < 101) : line.straight = true := by
  have hall := List.all_eq_true.mp (trapEntry_goesOn L) (line, i)
    (List.mem_zipIdx_iff_getElem?.mpr hline)
  have hon : goesOn i = true := by
    unfold goesOn
    simpa using hi
  rw [hon] at hall
  exact hall

theorem pc_of_advance (hpc : m.pc = L.addr i) (hi : i < 41 ∨ 64 ≤ i ∧ i < 101) :
    ((trapRoutine L S).advance (csrFile t) m).pc = L.addr (i + 1) := by
  obtain ⟨line, hline⟩ := exists_line (L := L) (i := i) (by omega)
  rw [Routine.advance_line hpc hline, Routine.execute_straight (straight_line hline hi)]
  rfl

/-- **Straight lines** follow each other. -/
theorem pc_of_straight (hpc : m.pc = L.addr i)
    (hn : ∀ k, i ≤ k → k < i + n → k < 41 ∨ 64 ≤ k ∧ k < 101) :
    ∀ j, j ≤ n → (((trapRoutine L S).advance (csrFile t))^[j] m).pc = L.addr (i + j) := by
  intro j
  induction j with
  | zero => exact fun _ => hpc
  | succ j ih =>
    intro hj
    rw [Function.iterate_succ_apply']
    exact pc_of_advance (ih (Nat.le_of_lt hj)) (hn (i + j) (Nat.le_add_right i j) (by omega))

theorem follows_mono {Q : Word → Prop} (h : Follows (trapRoutine L S) (csrFile t) P n m m')
    (hPQ : ∀ w, P w → Q w) : Follows (trapRoutine L S) (csrFile t) Q n m m' := by
  constructor
  case ends => exact h.ends
  case atLine =>
    intro j hj
    obtain ⟨i, line, hline, hpc, haddr⟩ := h.atLine j hj
    exact ⟨i, line, hline, hpc, fun w hw => hPQ w (haddr w hw)⟩

/-- The first 34 lines. -/
theorem follows_readEpc (hpc : m.pc = L.addr 0) (hframe : ∀ q, P (frameBase m + frameOff q)) :
    ∃ m', Follows (trapRoutine L S) (csrFile t) P 34 m m' ∧ m'.pc = L.addr 34 ∧
      m'.x sp = frameBase m ∧ m'.x a0 = causeWord m.csrs.cause ∧ m'.x a1 = m.csrs.epc ∧
      (∀ q ∈ savedRegs, q ≠ sp → m'.mem (frameBase m + frameOff q) = m.x q) ∧
      ∀ w, (∀ q, w ≠ frameBase m + frameOff q) → m'.mem w = m.mem w := by
  have hsave := follows_saveContext (S := S) (t := t) hpc hframe
  obtain ⟨mem, heq, hmem⟩ := effects_saveContext (t := t) m
  rw [heq] at hsave
  have hcause := hsave.snoc 32 (.csrr a0 .cause) rfl rfl (fun a ha => nomatch ha)
  have hepc := hcause.snoc 33 (.csrr a1 .epc) rfl rfl (fun a ha => nomatch ha)
  refine ⟨_, hepc, rfl, ?_, ?_, ?_, hmem⟩
  · refine (RegFile.write_of_ne _ _ (by decide)).trans ?_
    exact (RegFile.write_of_ne _ _ (by decide)).trans (RegFile.write_self _ _ (by decide))
  · refine (RegFile.write_of_ne _ _ (by decide)).trans ?_
    exact RegFile.write_self _ _ (by decide)
  · exact RegFile.write_self _ _ (by decide)

/-- The lines that choose the handler: the cause to the line that loads it.  None
    of them accesses the memory. -/
theorem follows_choose {cause : Core.Cause} (hpc : m.pc = L.addr 41)
    (hcause : m.x a0 = causeWord cause) :
    ∃ m', Follows (trapRoutine L S) (csrFile t) (fun _ => False) (selectSteps cause + 1) m m' ∧
      m'.pc = L.addr 62 ∧ m'.mem = m.mem ∧ m'.x sp = m.x sp ∧ m'.x s0 = epcSkip cause := by
  obtain ⟨m₁, hselect, hselected⟩ :=
    follows_select (S := S) (t := t) (P := fun _ => False) cause hpc hcause
  have hadd := hselect.snoc callHandlerLine (.add a5 a5 a2) hselected.pc rfl
    (fun a ha => nomatch ha)
  refine ⟨_, hadd, rfl, hselected.mem, ?_, ?_⟩
  · exact (RegFile.write_of_ne _ _ (by decide)).trans (hselected.x sp (by decide))
  · exact (RegFile.write_of_ne _ _ (by decide)).trans hselected.skip

/-- A line that chooses the handler goes on further down. -/
def goesDown (line : Line TrapCsr) (i : Nat) : Bool :=
  match line with
  | .beq _ _ target | .j target => i < target && target < 62
  | .jalr _ _ => false
  | _ => true

theorem trapEntry_goesDown (L : TrapLayout b) :
    (((trapEntry L).zipIdx.drop 41).take 21).all (fun l => goesDown l.1 l.2) = true := rfl

theorem next_of_choosing {line : Line TrapCsr} (hline : (trapEntry L)[i]? = some line)
    (hlow : 41 ≤ i) (hhigh : i < 62) (x : RegFile) :
    ∃ i', i < i' ∧ i' ≤ 62 ∧ line.next L.addr i x = L.addr i' := by
  have hmem : (line, i) ∈ ((trapEntry L).zipIdx.drop 41).take 21 := by
    refine List.mem_of_getElem? (i := i - 41) ?_
    rw [List.getElem?_take_of_lt (by omega), List.getElem?_drop, List.getElem?_zipIdx,
      show 41 + (i - 41) = i by omega, hline]
    simp
  have hdown := List.all_eq_true.mp (trapEntry_goesDown L) _ hmem
  cases line with
  | beq rs₁ rs₂ target =>
    simp only [goesDown, Bool.and_eq_true, decide_eq_true_eq] at hdown
    by_cases heq : x rs₁ = x rs₂
    · exact ⟨target, hdown.1, by omega, if_pos heq⟩
    · exact ⟨i + 1, by omega, by omega, if_neg heq⟩
  | j target =>
    simp only [goesDown, Bool.and_eq_true, decide_eq_true_eq] at hdown
    exact ⟨target, hdown.1, by omega, rfl⟩
  | jalr => exact absurd hdown Bool.noConfusion
  | _ => exact ⟨i + 1, by omega, by omega, rfl⟩

/-- **The lines that choose the handler** are those up to 61: the next would load
    from the memory. -/
theorem lines_of_choosing
    (h : Follows (trapRoutine L S) (csrFile t) (fun _ => False) n m m') (hpc : m.pc = L.addr 41) :
    ∀ j, j ≤ n → ∃ i, 41 ≤ i ∧ i ≤ 62 ∧ (j < n → i < 62) ∧
      (((trapRoutine L S).advance (csrFile t))^[j] m).pc = L.addr i := by
  have hload : ∀ j i, j < n → i ≤ 62 →
      (((trapRoutine L S).advance (csrFile t))^[j] m).pc = L.addr i → i < 62 := by
    intro j i hj hi hat
    obtain ⟨i', line, hline, hpc', haddr⟩ := h.atLine j hj
    have hi' := (List.getElem?_eq_some_iff.mp hline).1
    obtain rfl : i = i' := line_inj S (by omega) hi' (hat.symm.trans hpc')
    by_contra hnot
    obtain rfl : i = 62 := by omega
    obtain rfl : Line.lw a5 0 a5 = line := Option.some.inj hline
    exact haddr _ rfl
  intro j
  induction j with
  | zero => exact fun _ => ⟨41, by decide, by decide, fun _ => by decide, hpc⟩
  | succ j ih =>
    intro hj
    obtain ⟨i, hlow, -, hhigh, hat⟩ := ih (Nat.le_of_lt hj)
    obtain ⟨line, hline⟩ := exists_line (L := L) (i := i) (by omega)
    obtain ⟨i', hii', hi', hgoes⟩ := next_of_choosing hline hlow (hhigh hj)
      (((trapRoutine L S).advance (csrFile t))^[j] m).x
    have hat' : (((trapRoutine L S).advance (csrFile t))^[j + 1] m).pc = L.addr i' := by
      rw [Function.iterate_succ_apply', Routine.advance_line hat hline]
      exact hgoes
    exact ⟨i', by omega, hi', fun hj' => hload (j + 1) i' hj' hi' hat', hat'⟩

/-- The lines back, but the last. -/
theorem follows_back (hpc : m.pc = L.addr restoreEpcLine) :
    ∃ m', Follows (trapRoutine L S) (csrFile t) (L.Kept t (m.x sp)) 37 m m' ∧
      m'.pc = L.addr 101 ∧ m'.x tp = m.mem (L.epcAddr t) + m.x s0 ∧ m'.x sp = m.x sp + 128 ∧
      (∀ q ∈ restoredRegs, m'.x q = m.mem (m.x sp + frameOff q)) ∧ m'.mem = m.mem := by
  obtain ⟨m₁, hreload, hpc₁, htp, hsp, hx⟩ := follows_reload (S := S) (t := t) hpc
  have hset := hreload.snoc 100 (.csrrsi .status 16) hpc₁ rfl (fun a ha => nomatch ha)
  exact ⟨_, hset, rfl, htp, hsp, hx⟩

end pieces

/-! ## Section 3: The phases of a trap -/

/-- What a trap finds again: its frame and its word of the table. -/
structure Activation.Stored (L : TrapLayout b) (t : Tid b) (a : Activation) (mem : Memory) :
    Prop where
  frame : a.FrameSaved mem
  epc : mem (L.epcAddr t) = a.machine.pc

/-- How a trap was taken: the startup code has set `evec`, and there was room. -/
structure Activation.Taken (L : TrapLayout b) (t : Tid b) (a : Activation) : Prop where
  evec : a.machine.csrs.evec = L.addr 0
  room : ∀ q, L.stack t (a.base + frameOff q)

/-- A thread that has gone `j` lines from `m₀`, among the others. -/
def Gone {L : TrapLayout b} (S : L.Sound) (t : Tid b) (a : Activation) (m₀ : Machine HartCsrs)
    (j : Nat) (m : Machine HartCsrs) : Prop :=
  Agree (L.Kept t a.base) HartCsrs.butIe (((trapRoutine L S).advance (csrFile t))^[j] m₀) m

/-- While the `epc` is in `a1`: at line `i` with these registers. -/
structure InWindow (L : TrapLayout b) (t : Tid b) (a : Activation) (i : Nat) (x : RegFile) :
    Prop where
  low : 34 ≤ i
  high : i ≤ 40
  base : x sp = a.base
  cause : x a0 = causeWord a.cause
  epc : x a1 = a.machine.pc
  table : TableInv L t i x

/-- Behind the store to the table. -/
structure AtChoice (L : TrapLayout b) (t : Tid b) (a : Activation) (m : Machine HartCsrs) :
    Prop where
  pc : m.pc = L.addr 41
  base : m.x sp = a.base
  cause : m.x a0 = causeWord a.cause
  stored : a.Stored L t m.mem

/-- Where the handler is called and where it returns. -/
structure Called (L : TrapLayout b) (t : Tid b) (a : Activation) (m : Machine HartCsrs) : Prop where
  base : m.x sp = a.base
  skip : m.x s0 = epcSkip a.cause
  stored : a.Stored L t m.mem

/-- Back at the interrupted instruction, after it for a fault. -/
structure Returned (a : Activation) (m : Machine HartCsrs) : Prop where
  pc : m.pc = a.machine.pc + epcSkip a.cause
  x : ∀ q, q ≠ tp → m.x q = a.machine.x q

/-- **The phases** of the innermost trap of a thread. -/
inductive Phase {L : TrapLayout b} (S : L.Sound) (t : Tid b) (a : Activation)
    (m : Machine HartCsrs) : Prop where
  /-- Up to the line that reads the `epc`. -/
  | saving (j : Nat) (high : j ≤ 33) (gone : Gone S t a (takeTrap a.cause a.machine) j m)
  /-- Up to the line that stores it. -/
  | window (i : Nat) (pc : m.pc = L.addr i) (regs : InWindow L t a i m.x)
      (frame : a.FrameSaved m.mem)
  /-- Up to the line that loads the handler. -/
  | choosing (m₀ : Machine HartCsrs) (j : Nat) (high : j ≤ selectSteps a.cause + 1)
      (start : AtChoice L t a m₀) (gone : Gone S t a m₀ j m)
  /-- The line that calls it. -/
  | calling (pc : m.pc = L.addr 63) (called : Called L t a m)
  /-- In the handler. -/
  | handling (x : RegFile) (entered : a.handler = some x) (base : x sp = a.base)
      (skip : x s0 = epcSkip a.cause) (outside : (trapRoutine L S).Outside m.pc)
      (stored : a.Stored L t m.mem)
  /-- On the way back. -/
  | leaving (m₀ : Machine HartCsrs) (j : Nat) (high : j ≤ 37)
      (pc : m₀.pc = L.addr restoreEpcLine) (called : Called L t a m₀) (gone : Gone S t a m₀ j m)

section phases

variable {L : TrapLayout b} {S : L.Sound} {t : Tid b} {a : Activation} {i j n : Nat}
  {m m' m₀ : Machine HartCsrs}

/-- Another trap does not matter for the registers. -/
theorem InWindow.congr {x y : RegFile} (h : InWindow L t a i x) (hxy : ∀ q, q ≠ tp → y q = x q) :
    InWindow L t a i y where
  low := h.low
  high := h.high
  base := (hxy sp (by decide)).trans h.base
  cause := (hxy a0 (by decide)).trans h.cause
  epc := (hxy a1 (by decide)).trans h.epc
  table := h.table.congr hxy

namespace Activation

/-- What a trap finds again is the thread's own. -/
theorem Taken.own (h : a.Taken L t) {w : Word} (hw : L.Kept t a.base w) :
    L.stack t w ∨ w = L.epcAddr t := by
  obtain ⟨q, rfl⟩ | rfl := hw
  · exact .inl (h.room q)
  · exact .inr rfl

/-- The frame of a trap is not in the table. -/
theorem Taken.frame_ne (S : L.Sound) (h : a.Taken L t) (q : Reg) :
    a.base + frameOff q ≠ L.epcAddr t := by
  intro haddr
  have hroom := h.room q
  rw [haddr] at hroom
  exact S.tablesApart t t hroom

theorem FrameSaved.congr {mem mem' : Memory} (h : a.FrameSaved mem)
    (heq : ∀ q, mem' (a.base + frameOff q) = mem (a.base + frameOff q)) : a.FrameSaved mem' :=
  fun q hq hne => (heq q).trans (h q hq hne)

theorem Stored.congr {mem mem' : Memory} (h : a.Stored L t mem)
    (heq : ∀ w, L.Kept t a.base w → mem' w = mem w) : a.Stored L t mem' where
  frame := h.frame.congr fun q => heq _ (.inl ⟨q, rfl⟩)
  epc := (heq _ (.inr rfl)).trans h.epc

end Activation

/-- A line more. -/
theorem Gone.next {m₁ : Machine HartCsrs} (h : Gone S t a m₀ j m)
    (hfollows : Follows (trapRoutine L S) (csrFile t) (L.Kept t a.base) n m₀ m₁) (hj : j < n)
    (hstep : (trapRoutine L S).step (csrFile t) m = some m') : Gone S t a m₀ (j + 1) m' := by
  have hagree := h.advance (hfollows.atLine j hj) (TrapRun.respects L S t)
  rw [← Routine.advance_of_step hstep] at hagree
  unfold Gone
  rw [Function.iterate_succ_apply']
  exact hagree

/-- At the end of a piece. -/
theorem Gone.end {m₁ : Machine HartCsrs} (h : Gone S t a m₀ n m)
    (hfollows : Follows (trapRoutine L S) (csrFile t) (L.Kept t a.base) n m₀ m₁) :
    Agree (L.Kept t a.base) HartCsrs.butIe m₁ m := by
  unfold Gone at h
  rw [hfollows.ends] at h
  exact h

/-! ### What others do -/

/-- A phase is one of the registers, the CSRs but for the interrupt enable bit,
    and the part of the memory that the trap finds again. -/
theorem Phase.congr (h : Phase S t a m)
    (hagree : Agree (L.Kept t a.base) HartCsrs.butIe m m') : Phase S t a m' := by
  have hmem : ∀ w, L.Kept t a.base w → m'.mem w = m.mem w := fun w hw => (hagree.mem w hw).symm
  cases h with
  | saving j high gone => exact .saving j high (gone.trans hagree)
  | window i pc regs frame =>
    refine .window i (hagree.pc ▸ pc) (hagree.x ▸ regs) ?_
    exact frame.congr fun q => hmem _ (.inl ⟨q, rfl⟩)
  | choosing m₀ j high start gone => exact .choosing m₀ j high start (gone.trans hagree)
  | calling pc called =>
    refine .calling (hagree.pc ▸ pc) ⟨?_, ?_, called.stored.congr hmem⟩
    · rw [← hagree.x, called.base]
    · rw [← hagree.x, called.skip]
  | handling x entered base skip outside stored =>
    exact .handling x entered base skip (hagree.pc ▸ outside) (stored.congr hmem)
  | leaving m₀ j high pc called gone => exact .leaving m₀ j high pc called (gone.trans hagree)

/-! ### Its own lines -/

/-- Where the pieces of the routine lead, among the others. -/
theorem Activation.Taken.follows (htaken : a.Taken L t) :
    ∃ m₁, Follows (trapRoutine L S) (csrFile t) (L.Kept t a.base) 34
        (takeTrap a.cause a.machine) m₁ ∧
      m₁.pc = L.addr 34 ∧ m₁.x sp = a.base ∧ m₁.x a0 = causeWord a.cause ∧
      m₁.x a1 = a.machine.pc ∧ a.FrameSaved m₁.mem := by
  obtain ⟨m₁, hfollows, hpc, hbase, hcause, hepc, hframe, -⟩ :=
    follows_readEpc (S := S) (t := t) (P := L.Kept t a.base) (m := takeTrap a.cause a.machine)
      htaken.evec (fun q => .inl ⟨q, rfl⟩)
  exact ⟨m₁, hfollows, hpc, hbase, hcause, hepc, hframe⟩

/-- Only the lines that save a register or the `epc` change the memory. -/
theorem mem_of_step (hpc : m.pc = L.addr i) (hi : i < 103) (hlow : 32 ≤ i) (hne : i ≠ 40)
    (hstep : (trapRoutine L S).step (csrFile t) m = some m') : m'.mem = m.mem := by
  obtain ⟨line, hline⟩ := exists_line (L := L) hi
  rw [execute_of_step line hpc hline hstep]
  funext w
  apply Line.effect_mem
  intro hstores
  obtain ⟨-, hhigh, -⟩ | ⟨hlast, -⟩ := stores_cases hline hstores
  · omega
  · exact hne hlast

/-- **Saving**, one line. -/
theorem Gone.saving (htaken : a.Taken L t) (hj : j ≤ 33)
    (h : Gone S t a (takeTrap a.cause a.machine) j m)
    (hstep : (trapRoutine L S).step (csrFile t) m = some m') : Phase S t a m' := by
  obtain ⟨m₁, hfollows, hpc, hbase, hcause, hepc, hframe⟩ := htaken.follows (S := S)
  have hnext := h.next hfollows (by omega) hstep
  by_cases hlast : j < 33
  · exact .saving (j + 1) hlast hnext
  obtain rfl : j = 33 := by omega
  have hend := hnext.end hfollows
  refine .window 34 (hend.pc ▸ hpc) ⟨by decide, by decide, ?_, ?_, ?_, ?_⟩ ?_
  · rw [← hend.x, hbase]
  · rw [← hend.x, hcause]
  · rw [← hend.x, hepc]
  · exact tableInv_of_far (by decide) _
  · exact hframe.congr fun q => (hend.mem _ (.inl ⟨q, rfl⟩)).symm

/-- The registers that the lines of the window set. -/
theorem InWindow.next {line : Line TrapCsr} (h : InWindow L t a i m.x) (hi : i < 40)
    (hline : (trapEntry L)[i]? = some line) (link : Word) :
    InWindow L t a (i + 1) (line.effect (csrFile t) link m).x := by
  have hlow := h.low
  have hkeeps : ∀ q, q ∉ [a2, a5, a6, a7] →
      (line.effect (csrFile t) link m).x q = m.x q := by
    intro q hq
    obtain ⟨h2, h5, h6, h7⟩ : q ≠ a2 ∧ q ≠ a5 ∧ q ≠ a6 ∧ q ≠ a7 := by simpa using hq
    obtain rfl | rfl | rfl | rfl | rfl | rfl :
        i = 34 ∨ i = 35 ∨ i = 36 ∨ i = 37 ∨ i = 38 ∨ i = 39 := by omega
    · obtain rfl : Line.csrr a2 .hartid = line := Option.some.inj hline
      exact RegFile.write_of_ne _ _ h2
    · obtain rfl : Line.slli a6 a2 2 = line := Option.some.inj hline
      exact RegFile.write_of_ne _ _ h6
    · obtain rfl : Line.li a7 L.epcVector = line := Option.some.inj hline
      exact RegFile.write_of_ne _ _ h7
    · obtain rfl : Line.add a7 a7 a6 = line := Option.some.inj hline
      exact RegFile.write_of_ne _ _ h7
    · obtain rfl : Line.li a5 L.trapHandlerVector = line := Option.some.inj hline
      exact RegFile.write_of_ne _ _ h5
    · obtain rfl : Line.slli a2 a2 4 = line := Option.some.inj hline
      exact RegFile.write_of_ne _ _ h2
  constructor
  case low => omega
  case high => omega
  case base => exact (hkeeps sp (by decide)).trans h.base
  case cause => exact (hkeeps a0 (by decide)).trans h.cause
  case epc => exact (hkeeps a1 (by decide)).trans h.epc
  case table => exact tableInv_next hline link h.table

/-- **The window**, one line. -/
theorem InWindow.phase (htaken : a.Taken L t) (h : InWindow L t a i m.x) (hpc : m.pc = L.addr i)
    (hframe : a.FrameSaved m.mem)
    (hstep : (trapRoutine L S).step (csrFile t) m = some m') : Phase S t a m' := by
  have hlow := h.low
  have hhigh := h.high
  obtain ⟨line, hline⟩ := exists_line (L := L) (i := i) (by omega)
  have hm' := execute_of_step line hpc hline hstep
  have hpc' : m'.pc = L.addr (i + 1) := by
    rw [Routine.advance_of_step hstep]
    exact pc_of_advance hpc (.inl (by omega))
  by_cases hlast : i < 40
  · have hmem := mem_of_step hpc (by omega) (by omega) (by omega) hstep
    refine .window (i + 1) hpc' ?_ (hmem ▸ hframe)
    rw [hm']
    exact h.next hlast hline _
  -- the `epc` is stored
  obtain rfl : i = 40 := by omega
  obtain rfl : Line.sw a1 0 a7 = line := Option.some.inj hline
  have haddr : m.x a7 + 0 = L.epcAddr t := by
    rw [h.table.address (by decide) (by decide)]
    exact BitVec.add_zero _
  have hmem : m'.mem = Function.update m.mem (L.epcAddr t) (m.x a1) := by
    rw [hm', ← haddr]
    rfl
  have hx : m'.x = m.x := by
    rw [hm']
    rfl
  refine .choosing m' 0 (Nat.zero_le _) ⟨hpc', ?_, ?_, ?_⟩ (Agree.refl m')
  · rw [hx, h.base]
  · rw [hx, h.cause]
  · rw [hmem]
    constructor
    case frame => exact hframe.congr fun q => Function.update_of_ne (htaken.frame_ne S q) ..
    case epc => exact (Function.update_self ..).trans h.epc

/-- **Choosing the handler**, one line. -/
theorem Gone.choosing (hj : j ≤ selectSteps a.cause + 1) (hstart : AtChoice L t a m₀)
    (h : Gone S t a m₀ j m) (hstep : (trapRoutine L S).step (csrFile t) m = some m') :
    Phase S t a m' := by
  obtain ⟨m₁, hchoose, hpc, hmem, hbase, hskip⟩ :=
    follows_choose (S := S) (t := t) hstart.pc hstart.cause
  have hfollows := follows_mono (Q := L.Kept t a.base) hchoose fun w hw => hw.elim
  by_cases hlast : j < selectSteps a.cause + 1
  · exact .choosing m₀ (j + 1) hlast hstart (h.next hfollows hlast hstep)
  -- the handler is loaded
  obtain rfl : j = selectSteps a.cause + 1 := by omega
  have hend := h.end hfollows
  have hpc' : m.pc = L.addr 62 := hend.pc ▸ hpc
  have hm' : m' = _ := execute_of_step (.lw a5 0 a5) hpc' rfl hstep
  have hmem' := mem_of_step hpc' (by decide) (by decide) (by decide) hstep
  have hx : ∀ q, q ≠ a5 → m'.x q = m₁.x q := by
    intro q hq
    rw [hm', hend.x]
    exact RegFile.write_of_ne _ _ hq
  refine .calling ?_ ⟨?_, ?_, hstart.stored.congr fun w hw => ?_⟩
  · rw [hm']
    rfl
  · rw [hx _ (by decide), hbase, hstart.base]
  · rw [hx _ (by decide), hskip]
  · rw [hmem', ← hend.mem w hw, hmem]

/-- **The call**. -/
theorem Called.call (h : Called L t a m) (hpc : m.pc = L.addr 63)
    (hstep : (trapRoutine L S).step (csrFile t) m = some m') : Called L t a m' := by
  have hm' : m' = _ := execute_of_step (.jalr ra a5) hpc rfl hstep
  have hmem := mem_of_step hpc (by decide) (by decide) (by decide) hstep
  have hx : ∀ q, q ≠ ra → m'.x q = m.x q := by
    intro q hq
    rw [hm']
    exact RegFile.write_of_ne _ _ hq
  refine ⟨?_, ?_, hmem ▸ h.stored⟩
  · rw [hx _ (by decide), h.base]
  · rw [hx _ (by decide), h.skip]

/-- **Back**, one line. -/
theorem Gone.leaving (hj : j < 37) (hpc : m₀.pc = L.addr restoreEpcLine) (hcalled : Called L t a m₀)
    (h : Gone S t a m₀ j m) (hstep : (trapRoutine L S).step (csrFile t) m = some m') :
    Phase S t a m' := by
  obtain ⟨m₁, hfollows, -⟩ := follows_back (S := S) (t := t) hpc
  rw [hcalled.base] at hfollows
  exact .leaving m₀ (j + 1) hj hpc hcalled (h.next hfollows hj hstep)

/-- **The last line**. -/
theorem Gone.returned (hpc : m₀.pc = L.addr restoreEpcLine) (hcalled : Called L t a m₀)
    (h : Gone S t a m₀ 37 m) (hstep : (trapRoutine L S).step (csrFile t) m = some m') :
    Returned a m' := by
  obtain ⟨m₁, hfollows, hpc₁, htp, hsp, hx, -⟩ := follows_back (S := S) (t := t) hpc
  rw [hcalled.base] at hfollows hsp hx
  have hend := h.end hfollows
  have hm' : m' = _ := execute_of_step (.jalr 0 tp) (hend.pc ▸ hpc₁) rfl hstep
  have hregs : m'.x = m₁.x := by
    rw [hm', hend.x]
    rfl
  constructor
  case pc =>
    rw [hm']
    show m.x tp = _
    rw [← hend.x, htp, hcalled.stored.epc, hcalled.skip]
  case x =>
    intro q hq
    rw [hregs]
    by_cases hzero : q = 0
    · rw [hzero]
      exact m₁.x.zero.trans a.machine.x.zero.symm
    by_cases hframe : q = sp
    · -- the frame is given back
      rw [hframe, hsp]
      show a.machine.x sp + -128 + 128 = _
      rw [BitVec.add_assoc]
      exact BitVec.add_zero _
    · have hsaved : q ∈ savedRegs := by
        revert q
        decide
      rw [hx q (TrapRun.mem_restoredRegs hzero hframe hq)]
      exact hcalled.stored.frame q hsaved hframe

/-! ### Which line it is -/

/-- The line that a piece has come to. -/
theorem Gone.line (h : Gone S t a m₀ j m) {w : Word}
    (hpc : (((trapRoutine L S).advance (csrFile t))^[j] m₀).pc = w) : m.pc = w :=
  h.pc.symm.trans hpc

theorem Gone.line_saving (htaken : a.Taken L t) (hj : j ≤ 33)
    (h : Gone S t a (takeTrap a.cause a.machine) j m) : m.pc = L.addr j := by
  have hlines := pc_of_straight (S := S) (t := t) (m := takeTrap a.cause a.machine) (i := 0)
    (n := 33) htaken.evec (fun k _ _ => .inl (by omega)) j hj
  rw [Nat.zero_add] at hlines
  exact h.line hlines

theorem Gone.line_choosing (hj : j ≤ selectSteps a.cause + 1) (hstart : AtChoice L t a m₀)
    (h : Gone S t a m₀ j m) : ∃ i, 41 ≤ i ∧ i ≤ 62 ∧ m.pc = L.addr i := by
  obtain ⟨m₁, hchoose, -⟩ := follows_choose (S := S) (t := t) hstart.pc hstart.cause
  obtain ⟨i, hlow, hhigh, -, hat⟩ := lines_of_choosing hchoose hstart.pc j hj
  exact ⟨i, hlow, hhigh, h.line hat⟩

theorem Gone.line_leaving (hj : j ≤ 37) (hpc : m₀.pc = L.addr restoreEpcLine)
    (h : Gone S t a m₀ j m) : m.pc = L.addr (64 + j) :=
  h.line (pc_of_straight (S := S) (t := t) (n := 37) hpc
    (fun k _ _ => .inr (by simp only [restoreEpcLine] at *; omega)) j hj)

/-- **One line** of the routine: the trap goes on, or its handler is called, or it
    is over. -/
theorem Phase.next (htaken : a.Taken L t) (h : Phase S t a m)
    (hstep : (trapRoutine L S).step (csrFile t) m = some m') :
    (m.pc ≠ L.addr 63 ∧ m.pc ≠ L.addr 101 ∧ Phase S t a m') ∨
      (m.pc = L.addr 63 ∧ Called L t a m') ∨ (m.pc = L.addr 101 ∧ Returned a m') := by
  have hne : ∀ i i', i < 103 → i' < 103 → i ≠ i' → m.pc = L.addr i → m.pc ≠ L.addr i' :=
    fun i i' hi hi' hii' hpc hpc' => hii' (line_inj S hi hi' (hpc.symm.trans hpc'))
  cases h with
  | saving j high gone =>
    have hpc := gone.line_saving htaken high
    exact .inl ⟨hne _ _ (by omega) (by decide) (by omega) hpc,
      hne _ _ (by omega) (by decide) (by omega) hpc, gone.saving htaken high hstep⟩
  | window i pc regs frame =>
    have hhigh := regs.high
    exact .inl ⟨hne _ _ (by omega) (by decide) (by omega) pc,
      hne _ _ (by omega) (by decide) (by omega) pc, regs.phase htaken pc frame hstep⟩
  | choosing m₀ j high start gone =>
    obtain ⟨i, hlow, hhigh, hpc⟩ := gone.line_choosing high start
    exact .inl ⟨hne _ _ (by omega) (by decide) (by omega) hpc,
      hne _ _ (by omega) (by decide) (by omega) hpc, gone.choosing high start hstep⟩
  | calling pc called => exact .inr (.inl ⟨pc, called.call pc hstep⟩)
  | handling x entered base skip outside stored =>
    rw [Routine.step, show (trapRoutine L S).lineAt m.pc = none from outside] at hstep
    cases hstep
  | leaving m₀ j high pc called gone =>
    have hpc := gone.line_leaving high pc
    by_cases hj : j < 37
    · exact .inl ⟨hne _ _ (by omega) (by decide) (by omega) hpc,
        hne _ _ (by omega) (by decide) (by omega) hpc, gone.leaving hj pc called hstep⟩
    · obtain rfl : j = 37 := by omega
      exact .inr (.inr ⟨hpc, gone.returned pc called hstep⟩)

/-- **What a line stores to** is the frame of the trap or its word of the table. -/
theorem Phase.stores (htaken : a.Taken L t) (h : Phase S t a m) {line : Line TrapCsr}
    (hline : (trapEntry L)[i]? = some line) (hpc : m.pc = L.addr i) {w : Word}
    (hw : line.stores m.x = some w) : L.Kept t a.base w := by
  have hi := (List.getElem?_eq_some_iff.mp hline).1
  have hearly : i ≤ 40 := by
    obtain ⟨-, hhigh, -⟩ | ⟨rfl, -⟩ := stores_cases hline hw
    · omega
    · decide
  have hline_eq : ∀ i', i' < 103 → m.pc = L.addr i' → i = i' := fun i' hi' hpc' =>
    line_inj S hi hi' (hpc.symm.trans hpc')
  cases h with
  | saving j high gone =>
    obtain ⟨m₁, hfollows, -⟩ := htaken.follows (S := S)
    obtain ⟨i', line', hline', hpc', haddr⟩ := hfollows.atLine j (by omega)
    have hi' := (List.getElem?_eq_some_iff.mp hline').1
    obtain rfl : i = i' := hline_eq i' hi' (gone.line hpc')
    obtain rfl : line = line' := Option.some.inj (hline.symm.trans hline')
    rw [← gone.x] at hw
    refine haddr w ?_
    cases line with
    | sw => exact hw
    | _ => exact nomatch hw
  | window i' pc regs frame =>
    have hlow := regs.low
    obtain rfl : i = i' := hline_eq i' (by have := regs.high; omega) pc
    obtain ⟨-, hhigh, -⟩ | ⟨rfl, rfl⟩ := stores_cases hline hw
    · omega
    · exact .inr (regs.table.address (by decide) (by decide))
  | choosing m₀ j high start gone =>
    obtain ⟨i', hlow, hhigh, hpc'⟩ := gone.line_choosing high start
    have := hline_eq i' (by omega) hpc'
    omega
  | calling pc called =>
    have := hline_eq 63 (by decide) pc
    omega
  | handling x entered base skip outside stored => exact absurd outside (not_outside hi hpc)
  | leaving m₀ j high pc called gone =>
    have := hline_eq _ (by omega) (gone.line_leaving high pc)
    omega

/-- In the lines from 34 to 40 it is the window. -/
theorem Phase.in_window (htaken : a.Taken L t) (h : Phase S t a m) (hpc : m.pc = L.addr i)
    (hlow : 34 ≤ i) (hhigh : i ≤ 40) : InWindow L t a i m.x ∧ a.FrameSaved m.mem := by
  have hline_eq : ∀ i', i' < 103 → m.pc = L.addr i' → i = i' := fun i' hi' hpc' =>
    line_inj S (by omega) hi' (hpc.symm.trans hpc')
  cases h with
  | saving j high gone =>
    have := hline_eq j (by omega) (gone.line_saving htaken high)
    omega
  | window i' pc regs frame =>
    obtain rfl : i = i' := hline_eq i' (by have := regs.high; omega) pc
    exact ⟨regs, frame⟩
  | choosing m₀ j high start gone =>
    obtain ⟨i', hlow, hhigh, hpc'⟩ := gone.line_choosing high start
    have := hline_eq i' (by omega) hpc'
    omega
  | calling pc called =>
    have := hline_eq 63 (by decide) pc
    omega
  | handling x entered base skip outside stored =>
    exact absurd outside (not_outside (by omega) hpc)
  | leaving m₀ j high pc called gone =>
    have := hline_eq _ (by omega) (gone.line_leaving high pc)
    omega

/-- Outside the routine it is the handler. -/
theorem Phase.in_handler (htaken : a.Taken L t) (h : Phase S t a m)
    (hout : (trapRoutine L S).Outside m.pc) :
    ∃ x, a.handler = some x ∧ x sp = a.base ∧ x s0 = epcSkip a.cause ∧ a.Stored L t m.mem := by
  cases h with
  | saving j high gone =>
    exact absurd hout (not_outside (i := j) (by omega) (gone.line_saving htaken high))
  | window i pc regs frame =>
    exact absurd hout (not_outside (i := i) (by have := regs.high; omega) pc)
  | choosing m₀ j high start gone =>
    obtain ⟨i, hlow, hhigh, hpc⟩ := gone.line_choosing high start
    exact absurd hout (not_outside (i := i) (by omega) hpc)
  | calling pc called => exact absurd hout (not_outside (i := 63) (by decide) pc)
  | handling x entered base skip outside stored => exact ⟨x, entered, base, skip, stored⟩
  | leaving m₀ j high pc called gone =>
    exact absurd hout (not_outside (i := 64 + j) (by omega) (gone.line_leaving high pc))

end phases

end Flexpret.Os
