import Flexpret.Os.TrapRuns

/-! # Traps Are Transparent

    What the lines of the trap routine do to the thread that executes them, alone
    and among the other threads.  Between its trap and its return a thread finds
    its frame and its word of the `epc` table as it has left them, so a trap that
    is not nested gives the registers back, all but `tp`.  Own steps are counted in
    lines of `trap.S`, where an `la` is one.
-/

open Assembly

namespace Flexpret.Os

variable {b : OsBuild}

/-! ## Section 1: The lines, alone -/

/-- What the thread has to find again: its frame at `base` and its word of the
    table. -/
def TrapLayout.Kept (L : TrapLayout b) (t : Tid b) (base : Word) (a : Word) : Prop :=
  (∃ q, a = base + frameOff q) ∨ a = L.epcAddr t

/-- What is added to the `epc`. -/
def epcSkip (cause : Core.Cause) : Word := if osTrapType cause = .exception then 4 else 0

/-- How many lines choose the handler. -/
def selectSteps (cause : Core.Cause) : Nat :=
  if cause = Core.Causes.ie then 5
  else if cause = Core.Causes.ee then 7
  else if cause = Core.Causes.fd then 9
  else 11

section alone

variable {L : TrapLayout b} {S : L.Sound} {t : Tid b} {P : Word → Prop} {m : Machine HartCsrs}

/-- The machine after the registers are saved and the cause is read. -/
def saved (L : TrapLayout b) (t : Tid b) (m : Machine HartCsrs) : Machine HartCsrs :=
  Routine.effects (csrFile t) (saveContext ++ loadCause L) m

/-- Where the frame is. -/
def frameBase (m : Machine HartCsrs) : Word := m.x sp + -128

theorem effects_saveContext_eq (m : Machine HartCsrs) :
    Routine.effects (csrFile t) saveContext m =
      Routine.effects (csrFile t) (saveRegs sp frameOff savedRegs)
        (m.setReg sp (frameBase m)) := by
  rw [saveContext, Routine.effects_cons]
  rfl

/-- Where the `epc` is stored to, whatever is in the registers before. -/
theorem loadCause_address (m : Machine HartCsrs) :
    (Routine.effects (csrFile t) ((loadCause L).take 8) m).x a7 + 0 = L.epcAddr t := by
  show L.epcVector + BitVec.ofNat 32 t.val <<< 2 + 0#32 = L.epcAddr t
  rw [ofNat_shiftLeft, BitVec.add_zero]
  rfl

/-- The cause is read and the `epc` is stored. -/
theorem follows_loadCause (hpc : m.pc = L.addr 32) (htable : P (L.epcAddr t)) :
    Follows (trapRoutine L S) (csrFile t) P 9 m
      { Routine.effects (csrFile t) (loadCause L) m with pc := L.addr 41 } := by
  have hblock : (loadCause L).take 8 <+: (trapRoutine L S).code.drop 32 :=
    ⟨(trapEntry L).drop 40, rfl⟩
  have hplain : ((loadCause L).take 8).all Line.plain = true := rfl
  have hread : Follows (trapRoutine L S) (csrFile t) P 8 m _ :=
    Follows.block hpc hblock (List.all_eq_true.mp hplain)
  have hstore := hread.snoc 40 (.sw a1 0 a7) rfl rfl (by
    intro a ha
    obtain rfl := Option.some.inj ha
    exact loadCause_address m ▸ htable)
  exact hstore

theorem follows_saveContext (hpc : m.pc = L.addr 0) (hframe : ∀ q, P (frameBase m + frameOff q)) :
    Follows (trapRoutine L S) (csrFile t) P 32 m
      { Routine.effects (csrFile t) saveContext m with pc := L.addr 32 } := by
  have hfirst : Follows (trapRoutine L S) (csrFile t) P 1 m
      { m.setReg sp (frameBase m) with pc := L.addr 1 } :=
    Follows.line 0 (.addi sp sp (-128)) hpc rfl (fun a ha => nomatch ha)
  have hbase : (m.setReg sp (frameBase m)).x sp = frameBase m :=
    RegFile.write_self _ _ (by decide)
  have hblock : saveRegs sp frameOff savedRegs <+: (trapRoutine L S).code.drop 1 :=
    ⟨(trapEntry L).drop 32, rfl⟩
  have hsave : Follows (trapRoutine L S) (csrFile t) P 31
      { m.setReg sp (frameBase m) with pc := L.addr 1 } _ :=
    Follows.saveRegs rfl hblock (fun q _ => by
      show P ((m.setReg sp (frameBase m)).x sp + frameOff q)
      rw [hbase]
      exact hframe q)
  rw [Routine.effects_pc _ (m.setReg sp (frameBase m)), ← effects_saveContext_eq] at hsave
  -- the block is not computed from here on
  generalize Routine.effects (csrFile t) saveContext m = m' at hsave ⊢
  exact hfirst.trans hsave

/-- **Saving**: the frame and the table are written. -/
theorem follows_save (hpc : m.pc = L.addr 0) (hframe : ∀ q, P (frameBase m + frameOff q))
    (htable : P (L.epcAddr t)) :
    Follows (trapRoutine L S) (csrFile t) P 41 m { saved L t m with pc := L.addr 41 } := by
  have hsave := follows_saveContext (S := S) (t := t) hpc hframe
  rw [show saved L t m = Routine.effects (csrFile t) (loadCause L)
    (Routine.effects (csrFile t) saveContext m) from Routine.effects_append ..]
  generalize Routine.effects (csrFile t) saveContext m = m' at hsave ⊢
  have hcause := follows_loadCause (S := S) (t := t) (m := { m' with pc := L.addr 32 })
    rfl htable
  rw [Routine.effects_pc _ m'] at hcause
  exact hsave.trans hcause

/-- The registers that matter after the first 41 lines. -/
structure SavedRegs (L : TrapLayout b) (t : Tid b) (m m' : Machine HartCsrs) : Prop where
  csrs : m'.csrs = m.csrs
  sp : m'.x sp = frameBase m
  cause : m'.x a0 = causeWord m.csrs.cause
  hartid : m'.x a2 = BitVec.ofNat 32 (16 * t.val)
  vector : m'.x a5 = L.trapHandlerVector

theorem frameOff_apart : Apart frameOff savedRegs := by
  intro r _ q _ h
  have hnat := congrArg BitVec.toNat h
  rw [frameOff, frameOff, BitVec.toNat_ofNat, BitVec.toNat_ofNat] at hnat
  have hr := r.isLt
  have hq := q.isLt
  exact Fin.ext (by omega)

/-- The registers are in the frame before the cause is read. -/
theorem effects_saveContext (m : Machine HartCsrs) :
    ∃ mem, Routine.effects (csrFile t) saveContext m =
        { m with x := m.x.write sp (frameBase m), mem := mem } ∧
      (∀ q ∈ savedRegs, q ≠ sp → mem (frameBase m + frameOff q) = m.x q) ∧
      ∀ w, (∀ q, w ≠ frameBase m + frameOff q) → mem w = m.mem w := by
  have hbase : (m.setReg sp (frameBase m)).x sp = frameBase m :=
    RegFile.write_self _ _ (by decide)
  rw [effects_saveContext_eq, effects_saveRegs]
  refine ⟨_, rfl, fun q hq hne => ?_, fun w hw => ?_⟩
  · have hsaved := @saveRegs_mem _ _ (csrFile t) sp _ _ (m.setReg sp (frameBase m))
      frameOff_apart _ hq
    rw [hbase] at hsaved
    rw [hsaved]
    exact RegFile.write_of_ne _ _ hne
  · rw [saveRegs_mem_of_ne]
    · rfl
    · intro q _
      rw [hbase]
      exact hw q

theorem savedRegs_of_saved : SavedRegs L t m (saved L t m) := by
  obtain ⟨mem, heq, -⟩ := effects_saveContext (t := t) m
  unfold saved
  rw [Routine.effects_append, heq]
  constructor
  case hartid =>
    show BitVec.ofNat 32 t.val <<< 4 = _
    exact ofNat_shiftLeft t.val 4
  all_goals rfl

theorem effects_loadCause_mem (m : Machine HartCsrs) :
    (Routine.effects (csrFile t) (loadCause L) m).mem =
      Function.update m.mem (L.epcAddr t) m.csrs.epc := by
  rw [← loadCause_address m]
  rfl

/-- **Saved**: the frame and the table hold what the thread needs to go on. -/
theorem saved_mem (hframe : ∀ q, frameBase m + frameOff q ≠ L.epcAddr t) :
    (saved L t m).mem (L.epcAddr t) = m.csrs.epc ∧
      ∀ q ∈ savedRegs, q ≠ sp → (saved L t m).mem (frameBase m + frameOff q) = m.x q := by
  obtain ⟨mem, heq, hmem, -⟩ := effects_saveContext (t := t) m
  unfold saved
  rw [Routine.effects_append, heq, effects_loadCause_mem]
  constructor
  · exact Function.update_self ..
  · intro q hq hne
    rw [Function.update_of_ne (hframe q)]
    exact hmem q hq hne

/-- Other words stay. -/
theorem saved_mem_of_ne {a : Word} (hframe : ∀ q, a ≠ frameBase m + frameOff q)
    (htable : a ≠ L.epcAddr t) : (saved L t m).mem a = m.mem a := by
  obtain ⟨mem, heq, -, hmem⟩ := effects_saveContext (t := t) m
  unfold saved
  rw [Routine.effects_append, heq, effects_loadCause_mem, Function.update_of_ne htable]
  exact hmem a hframe

/-! ### Choosing the handler -/

/-- Nothing but these registers and the program counter has changed. -/
structure Keeps (changed : List Reg) (m m' : Machine HartCsrs) : Prop where
  mem : m'.mem = m.mem
  csrs : m'.csrs = m.csrs
  x : ∀ r, r ∉ changed → m'.x r = m.x r

theorem Keeps.trans {l : List Reg} {m m' m'' : Machine HartCsrs} (h : Keeps l m m')
    (h' : Keeps l m' m'') : Keeps l m m'' where
  mem := h'.mem.trans h.mem
  csrs := h'.csrs.trans h.csrs
  x := fun r hr => (h'.x r hr).trans (h.x r hr)

/-- Load a cause and compare it. -/
theorem follows_test {i target : Nat} {v : Word} (hpc : m.pc = L.addr i)
    (hli : (trapEntry L)[i]? = some (.li a3 v))
    (hbeq : (trapEntry L)[i + 1]? = some (.beq a0 a3 target)) :
    ∃ m', Follows (trapRoutine L S) (csrFile t) P 2 m m' ∧ Keeps [a3] m m' ∧
      m'.pc = if m.x a0 = v then L.addr target else L.addr (i + 2) := by
  have hfirst : Follows (trapRoutine L S) (csrFile t) P 1 m _ :=
    Follows.line _ _ hpc hli (fun a ha => nomatch ha)
  refine ⟨_, hfirst.trans (Follows.line _ _ rfl hbeq (fun a ha => nomatch ha)), ⟨rfl, rfl, ?_⟩, rfl⟩
  intro r hr
  exact RegFile.write_of_ne _ _ (fun h => hr (List.mem_singleton.mpr h))

/-- Set the offset of the handler and what is added to the `epc`. -/
theorem follows_offset {i : Nat} {off skip : Word} (hpc : m.pc = L.addr i)
    (hoff : (trapEntry L)[i]? = some (.addi a2 a2 off))
    (hskip : (trapEntry L)[i + 1]? = some (.addi s0 0 skip)) :
    ∃ m', Follows (trapRoutine L S) (csrFile t) P 2 m m' ∧ Keeps [a2, s0] m m' ∧
      m'.pc = L.addr (i + 2) ∧ m'.x a2 = m.x a2 + off ∧ m'.x s0 = skip := by
  have hfirst : Follows (trapRoutine L S) (csrFile t) P 1 m _ :=
    Follows.line _ _ hpc hoff (fun a ha => nomatch ha)
  have hzero : (m.setReg a2 (m.x a2 + off)).x 0 + skip = skip := by
    rw [(m.setReg a2 (m.x a2 + off)).x.zero]
    exact BitVec.zero_add _
  refine ⟨_, hfirst.trans (Follows.line _ _ rfl hskip (fun a ha => nomatch ha)),
    ⟨rfl, rfl, ?_⟩, rfl, rfl, hzero⟩
  intro r hr
  obtain ⟨ha, hs⟩ : r ≠ a2 ∧ r ≠ s0 := by simpa using hr
  exact (RegFile.write_of_ne _ _ hs).trans (RegFile.write_of_ne _ _ ha)

/-- Jump. -/
theorem follows_j {i : Nat} (target : Nat) (hpc : m.pc = L.addr i)
    (hj : (trapEntry L)[i]? = some (.j target)) :
    Follows (trapRoutine L S) (csrFile t) P 1 m { m with pc := L.addr target } := by
  have hline : Follows (trapRoutine L S) (csrFile t) P 1 m _ :=
    Follows.line _ _ hpc hj (fun a ha => nomatch ha)
  exact hline

theorem causeWord_inj {c c' : Core.Cause} (h : causeWord c = causeWord c') : c = c' := by
  revert c c'
  decide

/-- A test for a cause. -/
theorem follows_testCause {i : Nat} {cause : Core.Cause} {v : Word} (c : Core.Cause)
    (target : Nat) (hpc : m.pc = L.addr i) (hcause : m.x a0 = causeWord cause)
    (hv : causeWord c = v)
    (hli : (trapEntry L)[i]? = some (.li a3 v))
    (hbeq : (trapEntry L)[i + 1]? = some (.beq a0 a3 target)) :
    ∃ m', Follows (trapRoutine L S) (csrFile t) P 2 m m' ∧ Keeps [a3] m m' ∧
      (cause = c → m'.pc = L.addr target) ∧ (cause ≠ c → m'.pc = L.addr (i + 2)) := by
  obtain ⟨m', hfollows, hkeeps, hgoes⟩ := follows_test (S := S) (t := t) (P := P) hpc hli hbeq
  refine ⟨m', hfollows, hkeeps, fun heq => ?_, fun hne => ?_⟩
  · rw [hgoes, if_pos (by rw [hcause, ← hv, heq])]
  · rw [hgoes, if_neg (fun h => hne (causeWord_inj (by rw [← hcause, hv, h])))]

/-- What choosing the handler does. -/
structure Selected (cause : Core.Cause) (L : TrapLayout b) (m m' : Machine HartCsrs) : Prop where
  pc : m'.pc = L.addr callHandlerLine
  mem : m'.mem = m.mem
  csrs : m'.csrs = m.csrs
  offset : m'.x a2 = m.x a2 + BitVec.ofNat 32 (4 * (osTrapType cause).index)
  skip : m'.x s0 = epcSkip cause
  x : ∀ r, r ∉ [a2, a3, s0] → m'.x r = m.x r

/-- The tests keep what they do not set. -/
theorem selected_of_offset {cause : Core.Cause} {m₁ m₂ : Machine HartCsrs} {off : Word}
    (htests : Keeps [a3] m m₁) (hoff : Keeps [a2, s0] m₁ m₂)
    (hpc : m₂.pc = L.addr callHandlerLine) (ha2 : m₂.x a2 = m₁.x a2 + off)
    (hs0 : m₂.x s0 = epcSkip cause)
    (htype : off = BitVec.ofNat 32 (4 * (osTrapType cause).index)) : Selected cause L m m₂ where
  pc := hpc
  mem := hoff.mem.trans htests.mem
  csrs := hoff.csrs.trans htests.csrs
  offset := by rw [ha2, htests.x a2 (by decide), htype]
  skip := hs0
  x := by
    intro r hr
    simp only [List.mem_cons, List.not_mem_nil, or_false, not_or] at hr
    have hnot : r ∉ [a2, s0] := by simpa using ⟨hr.1, hr.2.2⟩
    have hnot' : r ∉ [a3] := by simpa using hr.2.1
    exact (hoff.x r hnot).trans (htests.x r hnot')

/-- From the choice of the handler to the line that calls it, after a jump. -/
theorem follows_chosen {i : Nat} {off skip : Word} (hpc : m.pc = L.addr i)
    (hoff : (trapEntry L)[i]? = some (.addi a2 a2 off))
    (hskip : (trapEntry L)[i + 1]? = some (.addi s0 0 skip))
    (hj : (trapEntry L)[i + 2]? = some (.j callHandlerLine)) :
    ∃ m', Follows (trapRoutine L S) (csrFile t) P 3 m m' ∧ Keeps [a2, s0] m m' ∧
      m'.pc = L.addr callHandlerLine ∧ m'.x a2 = m.x a2 + off ∧ m'.x s0 = skip := by
  obtain ⟨m', hfollows, hkeeps, hpc', ha2, hs0⟩ :=
    follows_offset (S := S) (t := t) (P := P) hpc hoff hskip
  exact ⟨_, hfollows.trans (follows_j _ hpc' hj), ⟨hkeeps.mem, hkeeps.csrs, hkeeps.x⟩, rfl, ha2,
    hs0⟩

/-- **Choosing the handler** by the cause. -/
theorem follows_select (cause : Core.Cause) (hpc : m.pc = L.addr 41)
    (hcause : m.x a0 = causeWord cause) :
    ∃ m', Follows (trapRoutine L S) (csrFile t) P (selectSteps cause) m m' ∧
      Selected cause L m m' := by
  obtain ⟨m₁, h₁, hk₁, htake₁, hskip₁⟩ := follows_testCause (S := S) (t := t) (P := P)
    Core.Causes.ie ieLine hpc hcause rfl rfl rfl
  unfold selectSteps
  by_cases hie : cause = Core.Causes.ie
  · subst hie
    obtain ⟨m', h', hk', hpc', ha2, hs0⟩ :=
      follows_chosen (S := S) (t := t) (P := P) (htake₁ rfl) rfl rfl rfl
    exact ⟨m', h₁.trans h', selected_of_offset hk₁ hk' hpc' ha2 hs0 rfl⟩
  obtain ⟨m₂, h₂, hk₂, htake₂, hskip₂⟩ := follows_testCause (S := S) (t := t) (P := P)
    Core.Causes.ee eeLine (hskip₁ hie)
    ((hk₁.x a0 (by decide)).trans hcause) rfl rfl rfl
  have hk₂ := hk₁.trans hk₂
  by_cases hee : cause = Core.Causes.ee
  · subst hee
    obtain ⟨m', h', hk', hpc', ha2, hs0⟩ :=
      follows_chosen (S := S) (t := t) (P := P) (htake₂ rfl) rfl rfl rfl
    exact ⟨m', (h₁.trans h₂).trans h', selected_of_offset hk₂ hk' hpc' ha2 hs0 rfl⟩
  obtain ⟨m₃, h₃, hk₃, htake₃, hskip₃⟩ := follows_testCause (S := S) (t := t) (P := P)
    Core.Causes.fd eeLine (hskip₂ hee)
    ((hk₂.x a0 (by decide)).trans hcause) rfl rfl rfl
  have hk₃ := hk₂.trans hk₃
  by_cases hfd : cause = Core.Causes.fd
  · subst hfd
    obtain ⟨m', h', hk', hpc', ha2, hs0⟩ :=
      follows_chosen (S := S) (t := t) (P := P) (htake₃ rfl) rfl rfl rfl
    exact ⟨m', ((h₁.trans h₂).trans h₃).trans h', selected_of_offset hk₃ hk' hpc' ha2 hs0 rfl⟩
  obtain ⟨m₄, h₄, hk₄, htake₄, hskip₄⟩ := follows_testCause (S := S) (t := t) (P := P)
    Core.Causes.externalInt intLine (hskip₃ hfd)
    ((hk₃.x a0 (by decide)).trans hcause) rfl rfl rfl
  have hk₄ := hk₃.trans hk₄
  have htests := ((h₁.trans h₂).trans h₃).trans h₄
  rw [if_neg hie, if_neg hee, if_neg hfd]
  by_cases hint : cause = Core.Causes.externalInt
  · subst hint
    obtain ⟨m', h', hk', hpc', ha2, hs0⟩ :=
      follows_chosen (S := S) (t := t) (P := P) (htake₄ rfl) rfl rfl rfl
    exact ⟨m', htests.trans h', selected_of_offset hk₄ hk' hpc' ha2 hs0 rfl⟩
  -- a fault goes on to the line that calls the handler without a jump
  have htype : osTrapType cause = .exception := by
    rw [osTrapType, if_neg hie, if_neg hee, if_neg hfd, if_neg hint]
  have hj := follows_j (S := S) (t := t) (P := P) faultLine (hskip₄ hint) rfl
  obtain ⟨m', h', hk', hpc', ha2, hs0⟩ := follows_offset (S := S) (t := t) (P := P)
    (m := { m₄ with pc := L.addr faultLine }) rfl rfl rfl
  have hskip : epcSkip cause = 4 := by rw [epcSkip, if_pos htype]
  have hoff : (12 : Word) = BitVec.ofNat 32 (4 * (osTrapType cause).index) := by
    rw [htype]
    rfl
  have hk' : Keeps [a2, s0] m₄ m' := ⟨hk'.mem, hk'.csrs, hk'.x⟩
  exact ⟨m', (htests.trans hj).trans h',
    selected_of_offset hk₄ hk' hpc' ha2 (hs0.trans hskip.symm) hoff⟩

/-! ### Going back -/

/-- The `epc`, with what is added to it, is in `tp`. -/
theorem follows_restoreEpc (hpc : m.pc = L.addr restoreEpcLine) (hP : P (L.epcAddr t)) :
    ∃ m', Follows (trapRoutine L S) (csrFile t) P 6 m m' ∧ Keeps [a2, a6, a7, tp] m m' ∧
      m'.pc = L.addr 70 ∧ m'.x tp = m.mem (L.epcAddr t) + m.x s0 := by
  have hblock : (restoreEpc L).take 4 <+: (trapRoutine L S).code.drop restoreEpcLine :=
    ⟨(trapEntry L).drop 68, rfl⟩
  have hplain : ((restoreEpc L).take 4).all Line.plain = true := rfl
  have hfirst : Follows (trapRoutine L S) (csrFile t) P 4 m _ :=
    Follows.block hpc hblock (List.all_eq_true.mp hplain)
  have haddr : (Routine.effects (csrFile t) ((restoreEpc L).take 4) m).x a7 + 0 = L.epcAddr t := by
    show L.epcVector + BitVec.ofNat 32 t.val <<< 2 + 0#32 = L.epcAddr t
    rw [ofNat_shiftLeft, BitVec.add_zero]
    rfl
  have hload := hfirst.snoc 68 (.lw tp 0 a7) rfl rfl (by
    intro a ha
    obtain rfl := Option.some.inj ha
    exact haddr ▸ hP)
  have hadd := hload.snoc 69 (.add tp tp s0) rfl rfl (fun a ha => nomatch ha)
  refine ⟨_, hadd, ⟨rfl, rfl, ?_⟩, rfl, ?_⟩
  · intro r hr
    obtain ⟨h2, h6, h7, ht⟩ : r ≠ a2 ∧ r ≠ a6 ∧ r ≠ a7 ∧ r ≠ tp := by simpa using hr
    refine (RegFile.write_of_ne _ _ ht).trans ((RegFile.write_of_ne _ _ ht).trans ?_)
    refine (RegFile.write_of_ne _ _ h7).trans ((RegFile.write_of_ne _ _ h7).trans ?_)
    exact (RegFile.write_of_ne _ _ h6).trans (RegFile.write_of_ne _ _ h2)
  · rw [← haddr]
    rfl

/-- The registers but `tp` are back. -/
theorem follows_loadContext (hpc : m.pc = L.addr 70) (hP : ∀ q, P (m.x sp + frameOff q)) :
    ∃ m', Follows (trapRoutine L S) (csrFile t) P 30 m m' ∧ m'.mem = m.mem ∧ m'.csrs = m.csrs ∧
      m'.pc = L.addr 100 ∧ m'.x tp = m.x tp ∧ m'.x sp = m.x sp + 128 ∧
      ∀ q ∈ restoredRegs, m'.x q = m.mem (m.x sp + frameOff q) := by
  have hsp : sp ∉ restoredRegs := by decide
  have hblock : loadRegs sp frameOff restoredRegs <+: (trapRoutine L S).code.drop 70 :=
    ⟨(trapEntry L).drop 99, rfl⟩
  have hfirst : Follows (trapRoutine L S) (csrFile t) P 29 m _ :=
    Follows.loadRegs hpc hblock hsp (fun r _ => hP r)
  obtain ⟨hall, hother, hloaded⟩ :=
    @effects_loadRegs _ _ (csrFile t) _ frameOff _ m hsp
  rw [hall] at hfirst
  generalize (Routine.effects (csrFile t) (loadRegs sp frameOff restoredRegs) m).x = x
    at hfirst hother hloaded
  have hadd := hfirst.snoc 99 (.addi sp sp 128) rfl rfl (fun a ha => nomatch ha)
  refine ⟨_, hadd, rfl, rfl, rfl, ?_, ?_, ?_⟩
  · exact (RegFile.write_of_ne _ _ (by decide)).trans (hother tp (by decide))
  · refine (RegFile.write_self _ _ (by decide)).trans ?_
    show x sp + 128 = _
    rw [hother sp hsp]
  · intro q hq
    have hne : q ≠ sp := fun h => hsp (h ▸ hq)
    have hzero : q ≠ 0 := fun h => absurd (h ▸ hq) (by decide)
    exact (RegFile.write_of_ne _ _ hne).trans (hloaded q hq hzero)

/-- **Going back**: from the return of the handler to the line that enables the
    interrupts. -/
theorem follows_reload (hpc : m.pc = L.addr restoreEpcLine) :
    ∃ m', Follows (trapRoutine L S) (csrFile t) (L.Kept t (m.x sp)) 36 m m' ∧
      m'.pc = L.addr 100 ∧ m'.x tp = m.mem (L.epcAddr t) + m.x s0 ∧ m'.x sp = m.x sp + 128 ∧
      (∀ q ∈ restoredRegs, m'.x q = m.mem (m.x sp + frameOff q)) ∧ m'.mem = m.mem := by
  obtain ⟨m₁, h₁, hk₁, hpc₁, htp₁⟩ :=
    follows_restoreEpc (S := S) (P := L.Kept t (m.x sp)) hpc (.inr rfl)
  have hsp : m₁.x sp = m.x sp := hk₁.x sp (by decide)
  have hframe : ∀ q, L.Kept t (m.x sp) (m₁.x sp + frameOff q) := by
    intro q
    rw [hsp]
    exact .inl ⟨q, rfl⟩
  obtain ⟨m₂, h₂, hmem₂, -, hpc₂, htp₂, hsp₂, hx₂⟩ :=
    follows_loadContext (S := S) (t := t) hpc₁ hframe
  refine ⟨m₂, h₁.trans h₂, hpc₂, ?_, ?_, ?_, hmem₂.trans hk₁.mem⟩
  · rw [htp₂, htp₁]
  · rw [hsp₂, hsp]
  · intro q hq
    rw [hx₂ q hq, hk₁.mem, hsp]

/-- **Up to the call**: to the line that loads the handler. -/
theorem follows_entry {cause : Core.Cause} (hpc : m.pc = L.addr 0) (hcause : m.csrs.cause = cause)
    (hframe : ∀ q, P (frameBase m + frameOff q)) (htable : P (L.epcAddr t)) :
    ∃ m', Follows (trapRoutine L S) (csrFile t) P (41 + selectSteps cause + 1) m m' ∧
      m'.pc = L.addr 62 ∧ m'.mem = (saved L t m).mem ∧ m'.x sp = frameBase m ∧
      m'.x s0 = epcSkip cause ∧ m'.x a5 = L.handlerAddr t (osTrapType cause) := by
  have hregs := savedRegs_of_saved (L := L) (t := t) (m := m)
  obtain ⟨m₂, h₂, hselected⟩ := follows_select (S := S) (t := t) (P := P)
    (m := { saved L t m with pc := L.addr 41 }) cause rfl (hcause ▸ hregs.cause)
  have hadd := ((follows_save hpc hframe htable).trans h₂).snoc callHandlerLine (.add a5 a5 a2)
    hselected.pc rfl (fun a ha => nomatch ha)
  refine ⟨_, hadd, rfl, hselected.mem, ?_, ?_, ?_⟩
  · refine (RegFile.write_of_ne _ _ (by decide)).trans ?_
    exact (hselected.x sp (by decide)).trans hregs.sp
  · exact (RegFile.write_of_ne _ _ (by decide)).trans hselected.skip
  · refine (RegFile.write_self _ _ (by decide)).trans ?_
    rw [hselected.x a5 (by decide), hselected.offset]
    show (saved L t m).x a5 + ((saved L t m).x a2 + _) = _
    rw [hregs.vector, hregs.hartid, ← BitVec.ofNat_add]
    rfl

end alone

/-! ## Section 2: Among the others -/

namespace TrapRun

variable {L : TrapLayout b} {S : L.Sound} (r : TrapRun L S) (t : Tid b)

/-- Step `c` is one of `t`. -/
def own (c : Nat) : Bool := r.thread c = t

/-- Thread `t` takes no trap in the steps from `k` on before `m`. -/
def NoTrap (k m : Nat) : Prop :=
  ∀ c, k ≤ c → c < m → r.thread c = t → ∀ cause, r.event c ≠ .trap cause

/-- In step `k` thread `t` takes a trap, with room for the frame in its stack. -/
structure TakesTrap (k : Nat) (cause : Core.Cause) : Prop where
  thread : r.thread k = t
  event : r.event k = .trap cause
  room : ∀ q, L.stack t (frameBase ((r.state k).view t) + frameOff q)

/-- **The calling convention**, between the entry of a handler in state `h` and its
    return in state `e`: it preserves `sp` and `x8`, leaves the frame of its caller
    alone, and jumps to `ra`. -/
structure HandlerObeys (h e : Nat) : Prop where
  le : h ≤ e
  outside : ∀ c, h ≤ c → c < e → r.thread c = t → r.event c = .outside
  frame : ∀ c, h ≤ c → c < e → r.thread c = t →
    ∀ q, (r.state (c + 1)).mem (((r.state h).hart t).x sp + frameOff q) =
      (r.state c).mem (((r.state h).hart t).x sp + frameOff q)
  returns : ((r.state e).hart t).pc = ((r.state h).hart t).x ra
  sp : ((r.state e).hart t).x sp = ((r.state h).hart t).x sp
  s0 : ((r.state e).hart t).x s0 = ((r.state h).hart t).x s0

/-- The own steps of a thread up to the handler, and from its return on: lines of the
    source. -/
def entrySteps (cause : Core.Cause) : Nat := 41 + selectSteps cause + 3

def returnSteps : Nat := 38

/-- After a trap in step `k` and the return of its handler in state `e`, step `c`
    is the last line of the routine. -/
structure Returning (k : Nat) (cause : Core.Cause) (h e c : Nat) : Prop where
  noTrap : r.NoTrap t (k + 1) (c + 1)
  enters : k + 1 ≤ h ∧ ownSteps (r.own t) (k + 1) (h - (k + 1)) = entrySteps cause
  obeys : r.HandlerObeys t h e
  steps : e ≤ c ∧ ownSteps (r.own t) e (c - e) + 1 = returnSteps
  last : r.own t c = true

/-- **Transparent**: after `entrySteps` steps of its own the thread enters the
    handler that is registered at the time it is loaded; and `returnSteps` steps
    after the return of the handler it is where it was interrupted, after that
    instruction for a fault, with its registers and with interrupts enabled. -/
structure Transparent (k : Nat) (cause : Core.Cause) : Prop where
  calls : ∀ d, r.NoTrap t (k + 1) (k + 1 + d) →
    ownSteps (r.own t) (k + 1) d = entrySteps cause →
    ∃ l, k < l ∧ l < k + 1 + d ∧ ownSteps (r.own t) l (k + 1 + d - l) = 2 ∧
      ((r.state (k + 1 + d)).hart t).pc =
        osThreadGetTrapHandler L (r.state l).mem t (osTrapType cause)
  returns : ∀ h e c, r.Returning t k cause h e c →
    ((r.state (c + 1)).hart t).pc = ((r.state k).hart t).pc + epcSkip cause ∧
      (∀ q, q ≠ tp → ((r.state (c + 1)).hart t).x q = ((r.state k).hart t).x q) ∧
      ((r.state (c + 1)).hart t).csrs.ie = true

/-- **The condition**: no other thread takes a trap between the line that enables
    the interrupts and the jump back. -/
def Undisturbed (k : Nat) (cause : Core.Cause) : Prop :=
  ∀ h e c, r.Returning t k cause h e c → ∀ i, i < c →
    (∀ j, i ≤ j → j < c → r.own t j = false) → ∀ cause', r.event i ≠ .trap cause'

variable {r t} {k : Nat} {cause : Core.Cause}

theorem own_iff {c : Nat} : r.own t c = true ↔ r.thread c = t := decide_eq_true_iff

/-- Inside the routine a thread that takes no trap executes a line. -/
theorem step_of_own {c : Nat} (hown : r.own t c = true)
    (hno : ∀ cause, r.event c ≠ .trap cause)
    (hinside : ¬ (trapRoutine L S).Outside ((r.state c).view t).pc) :
    (trapRoutine L S).step (csrFile t) ((r.state c).view t) = some ((r.state (c + 1)).view t) := by
  obtain rfl := own_iff.mp hown
  cases hev : r.event c with
  | line => exact (r.step c).line hev
  | outside => exact absurd ((r.step c).outside hev).leaves hinside
  | trap cause => exact absurd hev (hno cause)

/-- The routine reads of the CSRs what the traps of other threads leave alone, and
    `csrrsi` sets the bit that they clear. -/
def csrFits : Line TrapCsr → Bool
  | .csrr _ csr => csr ≠ .status
  | .csrw _ _ => false
  | .csrrsi csr imm => csr = .status && imm = 16
  | _ => true

theorem trapEntry_csrFits (L : TrapLayout b) : (trapEntry L).all csrFits = true := rfl

/-- With bit 4 set the status word does not show the interrupt enable bit. -/
theorem statusWord_or (c : HartCsrs) : c.statusWord ||| 16 = c.butIe.statusWord ||| 16 := by
  obtain ⟨epc, cause, evec, ie, mtie, msip⟩ := c
  show (0#1 ++ BitVec.ofBool mtie ++ 0#20 ++ 0#2 ++ 0#1 ++ 3#2 ++ BitVec.ofBool ie ++
      BitVec.ofBool msip ++ 0#3) ||| 16#32 =
    (0#1 ++ BitVec.ofBool mtie ++ 0#20 ++ 0#2 ++ 0#1 ++ 3#2 ++ BitVec.ofBool false ++
      BitVec.ofBool msip ++ 0#3) ||| 16#32
  revert ie mtie msip
  decide

theorem write_status_butIe (c : HartCsrs) (v : Word) :
    ((csrFile t).write c .status v).butIe = ((csrFile t).write c.butIe .status v).butIe := rfl

/-- What `csrrsi` leaves does not depend on the bit it sets. -/
theorem set_status_butIe {c c' : HartCsrs} (h : c.butIe = c'.butIe) :
    ((csrFile t).write c .status ((csrFile t).read c .status ||| 16)).butIe =
      ((csrFile t).write c' .status ((csrFile t).read c' .status ||| 16)).butIe := by
  have hword : (csrFile t).read c .status ||| 16 = (csrFile t).read c' .status ||| 16 :=
    (statusWord_or c).trans ((congrArg (fun d => d.statusWord ||| 16) h).trans
      (statusWord_or c').symm)
  generalize (csrFile t).read c .status ||| 16 = v at hword
  rw [← hword, write_status_butIe c, h, ← write_status_butIe c']

theorem respects_of_csrFits {line : Line TrapCsr} (h : csrFits line = true) :
    line.Respects (csrFile t) HartCsrs.butIe := by
  intro c c' hc
  cases line with
  | csrr rd csr =>
    cases csr with
    | hartid => rfl
    | cause =>
      have hcause : c.butIe.cause = c'.butIe.cause := congrArg HartCsrs.cause hc
      show causeWord c.butIe.cause = causeWord c'.butIe.cause
      rw [hcause]
    | epc =>
      have hepc : c.butIe.epc = c'.butIe.epc := congrArg HartCsrs.epc hc
      exact hepc
    | evec =>
      have hevec : c.butIe.evec = c'.butIe.evec := congrArg HartCsrs.evec hc
      exact hevec
    | status => exact absurd h Bool.noConfusion
  | csrw => exact absurd h Bool.noConfusion
  | csrrsi csr imm =>
    simp only [csrFits, Bool.and_eq_true, decide_eq_true_eq] at h
    obtain ⟨rfl, rfl⟩ := h
    exact set_status_butIe hc
  | _ => trivial

theorem respects (L : TrapLayout b) (S : L.Sound) (t : Tid b) :
    ∀ line ∈ (trapRoutine L S).code, line.Respects (csrFile t) HartCsrs.butIe :=
  fun line hline => respects_of_csrFits (List.all_eq_true.mp (trapEntry_csrFits L) line hline)

/-- A step of another thread leaves `t` and what it has to find again alone. -/
theorem agree_of_other (hobey : r.OthersObey t) {base : Word}
    (hroom : ∀ q, L.stack t (base + frameOff q)) {c : Nat} (hother : r.own t c = false) :
    Agree (L.Kept t base) HartCsrs.butIe ((r.state c).view t) ((r.state (c + 1)).view t) := by
  have hthread : r.thread c ≠ t := of_decide_eq_false hother
  have hhart := (r.step c).others t hthread.symm
  constructor
  case x => exact ((congrArg Hart.x hhart).trans (TrapEvent.others_x _ _)).symm
  case csrs =>
    refine ((congrArg (fun h => h.csrs.butIe) hhart).trans ?_).symm
    cases r.event c <;> rfl
  case pc => exact ((congrArg Hart.pc hhart).trans (TrapEvent.others_pc _ _)).symm
  case mem =>
    intro a ha
    refine (mem_of_other hobey hthread ?_).symm
    obtain ⟨q, rfl⟩ | rfl := ha
    · exact .inl (hroom q)
    · exact .inr rfl

/-- In steps of other threads alone. -/
theorem agree_of_idle (hobey : r.OthersObey t) {base : Word}
    (hroom : ∀ q, L.stack t (base + frameOff q)) {c m : Nat} (hle : c ≤ m)
    (hidle : ∀ i, c ≤ i → i < m → r.own t i = false) :
    Agree (L.Kept t base) HartCsrs.butIe ((r.state c).view t) ((r.state m).view t) := by
  induction m, hle using Nat.le_induction with
  | base => exact Agree.refl _
  | succ m hle ih =>
    have hfirst := ih fun i hi him => hidle i hi (Nat.lt_succ_of_lt him)
    exact hfirst.trans (agree_of_other hobey hroom (hidle m hle (Nat.lt_succ_self m)))

/-- What the line at `i` does, where the thread is at that line. -/
theorem view_of_line {c i : Nat} (line : Line TrapCsr) (hown : r.own t c = true)
    (hno : ∀ cause, r.event c ≠ .trap cause) (hpc : ((r.state c).view t).pc = L.addr i)
    (hline : (trapEntry L)[i]? = some line) :
    (r.state (c + 1)).view t =
      (trapRoutine L S).execute (csrFile t) ((r.state c).view t) i line := by
  have hi : i < (trapEntry L).length := (List.getElem?_eq_some_iff.mp hline).1
  have hinside : ¬ (trapRoutine L S).Outside ((r.state c).view t).pc :=
    AtLine.not_outside (i := i) ⟨hi, hpc⟩
  rw [Routine.advance_of_step (step_of_own hown hno hinside)]
  exact Routine.advance_line hpc hline

/-- What the thread finds when its handler is entered in state `h`. -/
structure Entered (r : TrapRun L S) (t : Tid b) (k : Nat) (cause : Core.Cause) (h : Nat) :
    Prop where
  sp : ((r.state h).hart t).x sp = frameBase ((r.state k).view t)
  ra : ((r.state h).hart t).x ra = L.addr restoreEpcLine
  s0 : ((r.state h).hart t).x s0 = epcSkip cause
  frame : ∀ q ∈ savedRegs, q ≠ Flexpret.Os.sp →
    (r.state h).mem (frameBase ((r.state k).view t) + frameOff q) = ((r.state k).hart t).x q
  table : (r.state h).mem (L.epcAddr t) = ((r.state k).hart t).pc

/-- **Entering the handler**. -/
theorem entered (hobey : r.OthersObey t) (htrap : r.TakesTrap t k cause) {d : Nat}
    (hno : r.NoTrap t (k + 1) (k + 1 + d))
    (hsteps : ownSteps (r.own t) (k + 1) d = entrySteps cause) :
    Entered r t k cause (k + 1 + d) ∧
      ∃ l, k < l ∧ l < k + 1 + d ∧ ownSteps (r.own t) l (k + 1 + d - l) = 2 ∧
        ((r.state (k + 1 + d)).hart t).pc =
          osThreadGetTrapHandler L (r.state l).mem t (osTrapType cause) := by
  obtain ⟨rfl, hevent, hroom⟩ := htrap
  obtain ⟨hevec, htaken⟩ := (r.step k).trap cause hevent
  have hstart : ((r.state (k + 1)).view (r.thread k)).pc = L.addr 0 := by
    rw [htaken]
    exact hevec
  have hown : ∀ c, k + 1 ≤ c → c < k + 1 + d → r.own (r.thread k) c = true →
      ∀ cause, r.event c ≠ .trap cause := fun c hlow hhigh h => hno c hlow hhigh (own_iff.mp h)
  have hbase : frameBase ((r.state (k + 1)).view (r.thread k)) =
      frameBase ((r.state k).view (r.thread k)) := by
    rw [htaken]
    rfl
  have hcause : ((r.state (k + 1)).view (r.thread k)).csrs.cause = cause := by
    rw [htaken]
    rfl
  obtain ⟨m, hfollows, hpc, hmem, hsp, hs0, ha5⟩ :=
    follows_entry (S := S) (t := r.thread k)
      (P := L.Kept (r.thread k) (frameBase ((r.state k).view (r.thread k)))) hstart hcause
      (fun q => .inl ⟨q, by rw [hbase]⟩) (.inr rfl)
  -- the last two steps load the handler and call it
  obtain ⟨d₂, hd₂, hown₂, hsteps₂, hidle₂⟩ := exists_lastStep hsteps
  obtain ⟨d₁, hd₁, hown₁, hsteps₁, hidle₁⟩ := exists_lastStep hsteps₂
  have hagree := hfollows.agree_end (k := k + 1) (r.own (r.thread k))
    (fun c => (r.state c).view (r.thread k)) (Agree.refl _) (respects L S _)
    (fun c hlow hhigh h hinside => step_of_own h (hown c hlow (by omega) h) hinside)
    (fun c _ _ hother => agree_of_other hobey hroom hother) hsteps₁
  have hload := view_of_line (.lw a5 0 a5) hown₁ (hown _ (by omega) (by omega) hown₁)
    (hagree.pc.symm.trans hpc) rfl
  have hloaded := agree_of_idle hobey hroom (c := k + 1 + d₁ + 1) (m := k + 1 + d₂) (by omega)
    (fun i hlow hhigh => hidle₁ i (by omega) hhigh)
  rw [hload] at hloaded
  have hcall := view_of_line (.jalr ra a5) hown₂ (hown _ (by omega) (by omega) hown₂)
    hloaded.pc.symm rfl
  have hcalled := agree_of_idle hobey hroom (c := k + 1 + d₂ + 1) (m := k + 1 + d) (by omega)
    (fun i hlow hhigh => hidle₂ i (by omega) hhigh)
  rw [hcall] at hcalled
  -- registers that neither line sets, and what the thread keeps in the memory
  have hregs : ∀ q, q ≠ a5 → q ≠ Flexpret.Os.ra →
      ((r.state (k + 1 + d)).hart (r.thread k)).x q = m.x q := by
    intro q hq hra
    have hlast : ((r.state (k + 1 + d)).hart (r.thread k)).x q =
        ((r.state (k + 1 + d₂)).view (r.thread k)).x q :=
      (congrArg (fun x : RegFile => x q) hcalled.x).symm.trans (RegFile.write_of_ne _ _ hra)
    have hfirst : ((r.state (k + 1 + d₂)).view (r.thread k)).x q =
        ((r.state (k + 1 + d₁)).view (r.thread k)).x q :=
      (congrArg (fun x : RegFile => x q) hloaded.x).symm.trans (RegFile.write_of_ne _ _ hq)
    exact hlast.trans (hfirst.trans (congrArg (fun x : RegFile => x q) hagree.x).symm)
  have hkept : ∀ a, L.Kept (r.thread k) (frameBase ((r.state k).view (r.thread k))) a →
      (r.state (k + 1 + d)).mem a = m.mem a := by
    intro a ha
    exact (hcalled.mem a ha).symm.trans ((hloaded.mem a ha).symm.trans (hagree.mem a ha).symm)
  have hframe : ∀ q, frameBase ((r.state (k + 1)).view (r.thread k)) + frameOff q ≠
      L.epcAddr (r.thread k) := by
    intro q haddr
    rw [hbase] at haddr
    exact S.tablesApart _ _ (haddr ▸ hroom q)
  obtain ⟨htable, hsaved⟩ := saved_mem hframe
  rw [hbase] at hsaved hsp
  constructor
  · constructor
    case sp => rw [hregs _ (by decide) (by decide), hsp]
    case ra =>
      exact (congrArg (fun x : RegFile => x Flexpret.Os.ra) hcalled.x).symm.trans
        (RegFile.write_self _ _ (by decide))
    case s0 => rw [hregs _ (by decide) (by decide), hs0]
    case frame =>
      intro q hq hne
      rw [hkept _ (.inl ⟨q, rfl⟩), hmem, hsaved q hq hne, htaken]
      rfl
    case table =>
      rw [hkept _ (.inr rfl), hmem, htable, htaken]
      rfl
  · refine ⟨k + 1 + d₁, by omega, by omega, ?_, ?_⟩
    · have hsum := ownSteps_add (r.own (r.thread k)) (k + 1) d₁ (d - d₁)
      have hd : d₁ + (d - d₁) = d := by omega
      rw [hd, hsteps, hsteps₁, entrySteps] at hsum
      have hlen : k + 1 + d - (k + 1 + d₁) = d - d₁ := by omega
      rw [hlen]
      omega
    · have haddr : ((r.state (k + 1 + d₁)).view (r.thread k)).x a5 =
          L.handlerAddr (r.thread k) (osTrapType cause) := by rw [← hagree.x, ha5]
      have hword : ((r.state (k + 1 + d₂)).view (r.thread k)).x a5 =
          (r.state (k + 1 + d₁)).mem (((r.state (k + 1 + d₁)).view (r.thread k)).x a5 + 0) :=
        (congrArg (fun x : RegFile => x a5) hloaded.x).symm.trans
          (RegFile.write_self _ _ (by decide))
      rw [haddr] at hword
      refine hcalled.pc.symm.trans (hword.trans ?_)
      rw [osThreadGetTrapHandler]
      exact congrArg _ (BitVec.add_zero _)

/-- A handler that obeys leaves the frame and the table alone. -/
theorem kept_of_handler (hobey : r.OthersObey t) {h e : Nat}
    (hroom : ∀ q, L.stack t (((r.state h).hart t).x Flexpret.Os.sp + frameOff q))
    (hhandler : r.HandlerObeys t h e) {a : Word}
    (ha : L.Kept t (((r.state h).hart t).x Flexpret.Os.sp) a) {c : Nat} (hle : h ≤ c)
    (hce : c ≤ e) : (r.state c).mem a = (r.state h).mem a := by
  induction c, hle using Nat.le_induction with
  | base => rfl
  | succ c hle ih =>
    rw [← ih (Nat.le_of_lt hce)]
    by_cases hthread : r.thread c = t
    · obtain ⟨q, rfl⟩ | rfl := ha
      · exact hhandler.frame c hle hce hthread q
      · have hout := (r.step c).outside (hhandler.outside c hle hce hthread)
        exact hout.mem _ (.inr ⟨t, rfl⟩)
    · apply mem_of_other hobey hthread
      obtain ⟨q, rfl⟩ | rfl := ha
      · exact .inl (hroom q)
      · exact .inr rfl

theorem mem_restoredRegs {q : Reg} (hzero : q ≠ 0) (hsp : q ≠ Flexpret.Os.sp) (htp : q ≠ tp) :
    q ∈ restoredRegs := by
  revert q
  decide

/-- The interrupt enable bit between the line that sets it and the next own step:
    it stays as long as no other thread takes a trap. -/
theorem ie_of_idle {c m : Nat} (hle : c ≤ m) (hidle : ∀ i, c ≤ i → i < m → r.own t i = false)
    (hie : ((r.state c).hart t).csrs.ie = true) :
    ((r.state m).hart t).csrs.ie = true ↔
      ∀ i, c ≤ i → i < m → ∀ cause, r.event i ≠ .trap cause := by
  induction m, hle using Nat.le_induction with
  | base => exact ⟨fun _ i hlow hhigh => by omega, fun _ => hie⟩
  | succ m hle ih =>
    have hthread : r.thread m ≠ t := of_decide_eq_false (hidle m hle (Nat.lt_succ_self m))
    have hother := (r.step m).others t hthread.symm
    specialize ih fun i hlow hhigh => hidle i hlow (by omega)
    rw [hother]
    cases hev : r.event m with
    | trap cause =>
      constructor
      · exact fun h => absurd h Bool.false_ne_true
      · exact fun h => absurd hev (h m hle (by omega) cause)
    | line | outside =>
      refine ih.trans ⟨fun h i hlow hhigh cause => ?_, fun h i hlow hhigh => h i hlow (by omega)⟩
      by_cases him : i < m
      · exact h i hlow him cause
      · obtain rfl : i = m := by omega
        rw [hev]
        exact nofun

/-- **Returning** from the handler. -/
theorem returned (hobey : r.OthersObey t) (htrap : r.TakesTrap t k cause) {h e c : Nat}
    (hreturn : r.Returning t k cause h e c) :
    ((r.state (c + 1)).hart t).pc = ((r.state k).hart t).pc + epcSkip cause ∧
      (∀ q, q ≠ tp → ((r.state (c + 1)).hart t).x q = ((r.state k).hart t).x q) ∧
      (((r.state (c + 1)).hart t).csrs.ie = true ↔
        ∀ i, i < c → (∀ j, i ≤ j → j < c → r.own t j = false) →
          ∀ cause', r.event i ≠ .trap cause') := by
  obtain ⟨hno, ⟨hkh, hsteps⟩, hhandler, ⟨hec, hlines⟩, hlast⟩ := hreturn
  have hhe := hhandler.le
  obtain ⟨d, rfl⟩ := Nat.exists_eq_add_of_le hkh
  rw [Nat.add_sub_cancel_left] at hsteps
  have hentered := (entered hobey htrap (d := d)
    (fun i hlow hhigh => hno i hlow (by omega)) hsteps).1
  obtain ⟨d', rfl⟩ := Nat.exists_eq_add_of_le hec
  rw [Nat.add_sub_cancel_left] at hlines
  have hsp : ((r.state e).hart t).x Flexpret.Os.sp = frameBase ((r.state k).view t) :=
    hhandler.sp.trans hentered.sp
  have hbase : ((r.state e).view t).x Flexpret.Os.sp = frameBase ((r.state k).view t) := hsp
  have hroom : ∀ q, L.stack t (((r.state (k + 1 + d)).hart t).x Flexpret.Os.sp + frameOff q) := by
    rw [hentered.sp]
    exact htrap.room
  have hkept : ∀ a, L.Kept t (((r.state (k + 1 + d)).hart t).x Flexpret.Os.sp) a →
      (r.state e).mem a = (r.state (k + 1 + d)).mem a := fun a ha =>
    kept_of_handler hobey hroom hhandler ha hhe (Nat.le_refl e)
  obtain ⟨m, hfollows, hpc, htp, hsp', hx, -⟩ :=
    follows_reload (S := S) (t := t) (m := (r.state e).view t)
      (hhandler.returns.trans hentered.ra)
  rw [hbase] at hfollows hsp' hx
  -- the last two steps enable the interrupts and jump back
  obtain ⟨d₁, hd₁, hown₁, hlines₁, hidle₁⟩ := exists_lastStep (n := 36) (Nat.succ.inj hlines)
  have hagree := hfollows.agree_end (k := e) (r.own t)
    (fun c => (r.state c).view t) (Agree.refl _) (respects L S t)
    (fun c hlow hhigh hown hinside =>
      step_of_own hown (hno c (by omega) (by omega) (own_iff.mp hown)) hinside)
    (fun c _ _ hother => agree_of_other hobey htrap.room hother) hlines₁
  have hset := view_of_line (.csrrsi .status 16) hown₁
    (hno _ (by omega) (by omega) (own_iff.mp hown₁)) (hagree.pc.symm.trans hpc) rfl
  have hidle := agree_of_idle hobey htrap.room (c := e + d₁ + 1) (m := e + d') (by omega)
    (fun i hlow hhigh => hidle₁ i (by omega) hhigh)
  have hjump := view_of_line (.jalr 0 tp) hlast
    (hno _ (by omega) (by omega) (own_iff.mp hlast))
    (hidle.pc.symm.trans (congrArg Machine.pc hset)) rfl
  have hregs : ∀ q, ((r.state (e + d')).hart t).x q = m.x q := by
    intro q
    have hlast : ((r.state (e + d')).view t).x q = ((r.state (e + d₁ + 1)).view t).x q :=
      (congrArg (fun x : RegFile => x q) hidle.x).symm
    rw [hset] at hlast
    exact hlast.trans (congrArg (fun x : RegFile => x q) hagree.x).symm
  refine ⟨?_, ?_, ?_⟩
  · refine (congrArg Machine.pc hjump).trans ((hregs tp).trans (htp.trans ?_))
    show (r.state e).mem (L.epcAddr t) + ((r.state e).hart t).x Flexpret.Os.s0 = _
    rw [hkept _ (.inr rfl), hentered.table, hhandler.s0, hentered.s0]
  · intro q hq
    refine (congrArg (fun m : Machine HartCsrs => m.x q) hjump).trans ((hregs q).trans ?_)
    by_cases hzero : q = 0
    · rw [hzero]
      exact m.x.zero.trans ((r.state k).hart t).x.zero.symm
    by_cases hframe : q = Flexpret.Os.sp
    · -- the frame is given back
      rw [hframe]
      refine hsp'.trans ?_
      show ((r.state k).hart t).x Flexpret.Os.sp + -128 + 128 = _
      rw [BitVec.add_assoc]
      exact BitVec.add_zero _
    · refine (hx q (mem_restoredRegs hzero hframe hq)).trans ?_
      have hsaved : q ∈ savedRegs := by
        revert q
        decide
      show (r.state e).mem _ = _
      rw [← hentered.sp, hkept _ (.inl ⟨q, rfl⟩), hentered.sp, hentered.frame q hsaved hframe]
  · have hie : ((r.state (e + d₁ + 1)).hart t).csrs.ie = true := by
      refine (congrArg (fun m : Machine HartCsrs => m.csrs.ie) hset).trans ?_
      show (((r.state (e + d₁)).hart t).csrs.statusWord ||| 16#32).getLsbD 4 = true
      rw [BitVec.getLsbD_or]
      exact Bool.or_true _
    have hstays := ie_of_idle (c := e + d₁ + 1) (m := e + d') (by omega)
      (fun i hlow hhigh => hidle₁ i (by omega) hhigh) hie
    rw [show ((r.state (e + d' + 1)).hart t).csrs.ie = ((r.state (e + d')).hart t).csrs.ie from
      congrArg (fun m : Machine HartCsrs => m.csrs.ie) hjump, hstays]
    constructor
    · intro hquiet i hi hmine cause'
      refine hquiet i ?_ hi cause'
      -- the step that has set the bit is the thread's own
      by_contra hbefore
      have hset := hmine (e + d₁) (by omega) (by omega)
      rw [hown₁] at hset
      exact Bool.noConfusion hset
    · intro hquiet i hlow hhigh
      exact hquiet i hhigh (fun j hj hjc => hidle₁ j (by omega) hjc)

/-- **Transparent traps**: a trap in which the thread takes no other is
    transparent, whatever the other threads do, exactly when no other thread takes
    a trap while the interrupts have been enabled and the thread is not back. -/
theorem trap_transparent_iff (r : TrapRun L S) (t : Tid b) (k : Nat) (cause : Core.Cause)
    (hobey : r.OthersObey t) (htrap : r.TakesTrap t k cause) :
    r.Transparent t k cause ↔ r.Undisturbed t k cause := by
  constructor
  · intro htransparent h e c hreturn
    exact (returned hobey htrap hreturn).2.2.mp (htransparent.returns h e c hreturn).2.2
  · intro hundisturbed
    constructor
    case calls => exact fun d hno hsteps => (entered hobey htrap hno hsteps).2
    case returns =>
      intro h e c hreturn
      obtain ⟨hpc, hx, hie⟩ := returned hobey htrap hreturn
      exact ⟨hpc, hx, hie.mpr (hundisturbed h e c hreturn)⟩

end TrapRun

/-! ## Section 3: Two threads -/

/-- Four threads with stacks of 4 kB. -/
def exampleLayout : TrapLayout .threads4Dspm64 where
  addr := fun i => BitVec.ofNat 32 (0x400 + 4 * i)
  trapHandlerVector := 0x20000000
  epcVector := 0x20000040
  stack := fun t a => a.toNat / 0x1000 = 0x20003 + t.val

instance (t : Tid .threads4Dspm64) (a : Word) : Decidable (exampleLayout.stack t a) :=
  inferInstanceAs (Decidable (_ = _))

theorem exampleLayout_sound : exampleLayout.Sound := by
  constructor
  case inj =>
    intro i j hi hj haddr
    rw [trapEntry_length] at hi hj
    have hnat := congrArg BitVec.toNat haddr
    simp only [exampleLayout, BitVec.toNat_ofNat] at hnat
    omega
  case stacksApart =>
    intro t u a hne ht hu
    simp only [exampleLayout] at ht hu
    exact hne (Fin.ext (by omega))
  case tablesApart =>
    decide

/-- The routine in its place. -/
def exampleRoutine : Routine TrapCsr := trapRoutine exampleLayout exampleLayout_sound

/-- What happens next. -/
inductive Plan where
  | goOn
  | trap (cause : Core.Cause)
  | otherTrap (cause : Core.Cause)

/-- A thread that waits for good. -/
def idleHart : Hart where
  x := ⟨fun _ => 0, rfl⟩
  csrs := ⟨0, 0, 0x400, false, false, false⟩
  pc := 0x100

/-- Thread 0 is `m`, thread 1 is `h`, and the others wait. -/
def pairState (m : Machine HartCsrs) (h : Hart) : TrapState .threads4Dspm64 where
  mem := m.mem
  hart := fun t => if t = 0 then ⟨m.x, m.csrs, m.pc⟩ else if t = 1 then h else idleHart

/-- Interrupts are disabled by the trap of another thread. -/
def disable (m : Machine HartCsrs) : Machine HartCsrs := { m with csrs := m.csrs.butIe }

/-- A trap of thread 1. -/
def Hart.takesTrap (cause : Core.Cause) (h : Hart) : Hart :=
  let csrs : HartCsrs := { h.csrs with epc := h.pc, cause := cause, ie := false }
  { h with csrs := csrs, pc := h.csrs.evec }

/-- Thread 0 takes a trap, executes a line, or returns from a handler at once, or
    thread 1 takes a trap; thread 2 waits where they do not. -/
def pairNext (s : Machine HartCsrs × Hart) :
    Plan → Tid .threads4Dspm64 × TrapEvent × Machine HartCsrs × Hart
  | .trap cause =>
      if s.1.csrs.evec = exampleLayout.addr 0 then
        (0, .trap cause, takeTrap cause s.1, (TrapEvent.trap cause).others s.2)
      else (2, .outside, s)
  | .otherTrap cause =>
      if s.2.csrs.evec = exampleLayout.addr 0 then
        (1, .trap cause, disable s.1, s.2.takesTrap cause)
      else (2, .outside, s)
  | .goOn =>
      match exampleRoutine.step (csrFile (0 : Tid .threads4Dspm64)) s.1 with
      | some m' => (0, .line, m', s.2)
      | none =>
          if exampleRoutine.Outside s.1.pc ∧ s.1.x ra = exampleLayout.addr restoreEpcLine then
            (0, .outside, { s.1 with pc := s.1.x ra }, s.2)
          else (2, .outside, s)

/-- The two threads at each time. -/
def pairAt (s : Machine HartCsrs × Hart) (plan : Nat → Plan) : Nat → Machine HartCsrs × Hart
  | 0 => s
  | k + 1 => (pairNext (pairAt s plan k) (plan k)).2.2

theorem idle_outside : exampleRoutine.Outside idleHart.pc := by decide

/-- A step of thread 0 does to the others what its event does. -/
theorem pairState_others (m m' : Machine HartCsrs) (h : Hart) (ev : TrapEvent)
    {t : Tid .threads4Dspm64} (ht : t ≠ 0) :
    (pairState m' (ev.others h)).hart t = ev.others ((pairState m h).hart t) := by
  simp only [pairState, if_neg ht]
  split
  · rfl
  · cases ev <;> rfl

theorem pairNext_step (s : Machine HartCsrs × Hart) (p : Plan) :
    TrapStep exampleLayout exampleLayout_sound (pairNext s p).1 (pairNext s p).2.1
      (pairState s.1 s.2) (pairState (pairNext s p).2.2.1 (pairNext s p).2.2.2) := by
  have hidle : TrapStep exampleLayout exampleLayout_sound (2 : Tid .threads4Dspm64) .outside
      (pairState s.1 s.2) (pairState s.1 s.2) := by
    constructor
    case others => exact fun _ _ => rfl
    case line => exact nofun
    case outside => exact fun _ => ⟨idle_outside, .inl idle_outside, fun _ _ => rfl⟩
    case trap => exact nofun
  unfold pairNext
  cases p with
  | trap cause =>
    simp only
    split
    · next hevec =>
      constructor
      case others => exact fun u hu => pairState_others _ _ _ (.trap cause) hu
      case line => exact nofun
      case outside => exact nofun
      case trap =>
        intro c hc
        injection hc with hc
        subst hc
        exact ⟨hevec, rfl⟩
    · exact hidle
  | otherTrap cause =>
    simp only
    split
    · next hevec =>
      constructor
      case others =>
        intro u hu
        simp only [pairState, if_neg hu]
        split <;> rfl
      case line => exact nofun
      case outside => exact nofun
      case trap =>
        intro c hc
        injection hc with hc
        subst hc
        exact ⟨hevec, rfl⟩
    · exact hidle
  | goOn =>
    simp only
    split
    · next m' hstep =>
      constructor
      case others => exact fun u hu => pairState_others _ _ _ .line hu
      case line => exact fun _ => hstep
      case outside => exact nofun
      case trap => exact nofun
    · split
      · next hreturn =>
        constructor
        case others => exact fun u hu => pairState_others _ _ _ .outside hu
        case line => exact nofun
        case outside => exact fun _ => ⟨hreturn.1, .inr hreturn.2, fun _ _ => rfl⟩
        case trap => exact nofun
      · exact hidle

/-- A program at address 0x200, with its stack pointer near the end of its
    stack. -/
def programMachine : Machine HartCsrs where
  x := RegFile.write ⟨fun _ => 0, rfl⟩ sp 0x20003F00
  csrs := ⟨0, 0, 0x400, true, false, false⟩
  mem := fun _ => 0x900
  pc := 0x200

theorem pair_outside (t : Tid .threads4Dspm64) :
    exampleRoutine.Outside ((pairState programMachine idleHart).hart t).pc := by
  revert t
  decide

/-- The run. -/
def pairRun (plan : Nat → Plan) : TrapRun exampleLayout exampleLayout_sound where
  state := fun k =>
    let s := pairAt (programMachine, idleHart) plan k
    pairState s.1 s.2
  thread := fun k => (pairNext (pairAt (programMachine, idleHart) plan k) (plan k)).1
  event := fun k => (pairNext (pairAt (programMachine, idleHart) plan k) (plan k)).2.1
  init := pair_outside
  step := fun k => pairNext_step (pairAt (programMachine, idleHart) plan k) (plan k)

section pair

variable {plan : Nat → Plan} {k : Nat}

theorem pairAt_succ (s : Machine HartCsrs × Hart) (plan : Nat → Plan) (k : Nat) :
    pairAt s plan (k + 1) = (pairNext (pairAt s plan k) (plan k)).2.2 := rfl

theorem pairRun_state (plan : Nat → Plan) (k : Nat) : (pairRun plan).state k =
    pairState (pairAt (programMachine, idleHart) plan k).1
      (pairAt (programMachine, idleHart) plan k).2 := rfl

theorem pairRun_thread (plan : Nat → Plan) (k : Nat) : (pairRun plan).thread k =
    (pairNext (pairAt (programMachine, idleHart) plan k) (plan k)).1 := rfl

theorem pairRun_event (plan : Nat → Plan) (k : Nat) : (pairRun plan).event k =
    (pairNext (pairAt (programMachine, idleHart) plan k) (plan k)).2.1 := rfl

/-- Only thread 0 executes lines. -/
theorem pairNext_line {s : Machine HartCsrs × Hart} {p : Plan}
    (h : (pairNext s p).2.1 = .line) : (pairNext s p).1 = 0 := by
  unfold pairNext at h ⊢
  cases p with
  | trap cause | otherTrap cause =>
    simp only at h
    split at h
    · exact nomatch h
    · exact nomatch h
  | goOn =>
    simp only at h ⊢
    split at h
    · rfl
    · split at h
      · exact nomatch h
      · exact nomatch h

/-- Without a trap of thread 1 all traps are those of thread 0. -/
theorem pairNext_trap {s : Machine HartCsrs × Hart} {p : Plan} {cause : Core.Cause}
    (h : (pairNext s p).2.1 = .trap cause) (hp : ∀ cause, p ≠ .otherTrap cause) :
    (pairNext s p).1 = 0 := by
  unfold pairNext at h ⊢
  cases p with
  | trap cause =>
    simp only at h ⊢
    split at h
    · next hevec => rw [if_pos hevec]
    · exact nomatch h
  | otherTrap cause => exact absurd rfl (hp cause)
  | goOn =>
    simp only at h
    split at h
    · exact nomatch h
    · split at h
      · exact nomatch h
      · exact nomatch h

/-- Where thread 1 is: not in the routine, or at its first line. -/
theorem pairAt_pc (plan : Nat → Plan) (k : Nat) :
    exampleRoutine.Outside (pairAt (programMachine, idleHart) plan k).2.pc ∨
      (pairAt (programMachine, idleHart) plan k).2.pc = exampleLayout.addr 0 := by
  induction k with
  | zero => exact .inl idle_outside
  | succ k ih =>
    rw [pairAt]
    unfold pairNext
    cases plan k with
    | trap cause =>
      simp only
      split
      · exact ih
      · exact ih
    | otherTrap cause =>
      simp only
      split
      · next hevec => exact .inr hevec
      · exact ih
    | goOn =>
      simp only
      split
      · exact ih
      · split
        · exact ih
        · exact ih

/-- The other threads execute no line of the routine. -/
theorem pairRun_obeys (plan : Nat → Plan) : (pairRun plan).OthersObey 0 := by
  constructor
  case stack =>
    intro k u i hu hat hlow _
    have hpc := hat.2
    by_cases hone : u = 1
    · subst hone
      obtain hout | hzero := pairAt_pc plan k
      · exact absurd hout hat.not_outside
      · have hi := hat.unique (TrapRun.atLine_of_pc (by decide) hzero)
        omega
    · refine absurd ?_ hat.not_outside
      show exampleRoutine.Outside ((pairState _ _).hart u).pc
      simp only [pairState, if_neg hu, if_neg hone]
      exact idle_outside
  case resumes =>
    intro k u i i' hu hthread hline
    exact absurd (hthread.symm.trans (pairNext_line hline)) hu

/-- Thread 1 waits as long as it takes no trap. -/
theorem pairAt_idle (h : ∀ c, c < k → ∀ cause, plan c ≠ .otherTrap cause) :
    (pairAt (programMachine, idleHart) plan k).2 = idleHart := by
  induction k with
  | zero => rfl
  | succ k ih =>
    specialize ih fun c hc => h c (Nat.lt_succ_of_lt hc)
    have hplan := h k (Nat.lt_succ_self k)
    rw [pairAt]
    unfold pairNext
    cases hp : plan k with
    | trap cause =>
      simp only
      split
      · rw [ih]
        rfl
      · exact ih
    | otherTrap cause => exact absurd hp (hplan cause)
    | goOn =>
      simp only
      split
      · exact ih
      · split
        · exact ih
        · exact ih

/-- Thread 0 executes lines as long as it can. -/
theorem pairAt_advance {P : Word → Prop} (hP : ∀ a, P a → a.toNat % 4 = 0) {n : Nat}
    {m : Machine HartCsrs}
    (hfollows : Follows exampleRoutine (csrFile (0 : Tid .threads4Dspm64)) P n
      (pairAt (programMachine, idleHart) plan k).1 m)
    (hplan : ∀ c, k ≤ c → c < k + n → plan c = .goOn) :
    ∀ j, j ≤ n → (pairAt (programMachine, idleHart) plan (k + j)).1 =
        (exampleRoutine.advance (csrFile (0 : Tid .threads4Dspm64)))^[j]
          (pairAt (programMachine, idleHart) plan k).1 ∧
      (j < n → (pairRun plan).thread (k + j) = 0 ∧ (pairRun plan).event (k + j) = .line) := by
  have hnext : ∀ j, j < n → (pairAt (programMachine, idleHart) plan (k + j)).1 =
      (exampleRoutine.advance (csrFile (0 : Tid .threads4Dspm64)))^[j]
        (pairAt (programMachine, idleHart) plan k).1 →
      pairNext (pairAt (programMachine, idleHart) plan (k + j)) (plan (k + j)) =
        (0, .line, exampleRoutine.advance (csrFile (0 : Tid .threads4Dspm64))
          (pairAt (programMachine, idleHart) plan (k + j)).1,
          (pairAt (programMachine, idleHart) plan (k + j)).2) := by
    intro j hj hat
    have hstep := @step_of_atLine _ _ _ (csrFile (0 : Tid .threads4Dspm64)) _ _
      (hfollows.atLine j hj) hP
    rw [← hat] at hstep
    rw [hplan (k + j) (by omega) (by omega), pairNext, hstep]
  have hat : ∀ j, j ≤ n → (pairAt (programMachine, idleHart) plan (k + j)).1 =
      (exampleRoutine.advance (csrFile (0 : Tid .threads4Dspm64)))^[j]
        (pairAt (programMachine, idleHart) plan k).1 := by
    intro j
    induction j with
    | zero => exact fun _ => rfl
    | succ j ih =>
      intro hj
      have hj' := ih (Nat.le_of_lt hj)
      rw [← Nat.add_assoc, pairAt, hnext j hj hj', Function.iterate_succ_apply', ← hj']
  intro j hj
  refine ⟨hat j hj, fun hlt => ?_⟩
  have hline := hnext j hlt (hat j hj)
  constructor
  · rw [pairRun_thread, hline]
  · rw [pairRun_event, hline]

/-- To the end of a piece. -/
theorem pairAt_follows {P : Word → Prop} (hP : ∀ a, P a → a.toNat % 4 = 0) {n : Nat}
    {m : Machine HartCsrs} (k' : Nat)
    (hfollows : Follows exampleRoutine (csrFile (0 : Tid .threads4Dspm64)) P n
      (pairAt (programMachine, idleHart) plan k).1 m)
    (hk : k + n = k') (hplan : ∀ c, k ≤ c → c < k' → plan c = .goOn) :
    (pairAt (programMachine, idleHart) plan k').1 = m ∧
      ∀ c, k ≤ c → c < k' →
        (pairRun plan).thread c = 0 ∧ (pairRun plan).event c = .line := by
  subst hk
  have hadvance := pairAt_advance hP hfollows hplan
  constructor
  · rw [(hadvance n (Nat.le_refl n)).1, hfollows.ends]
  · intro c hlow hhigh
    obtain ⟨j, rfl⟩ := Nat.exists_eq_add_of_le hlow
    exact (hadvance j (by omega)).2 (by omega)

end pair

/-! ### Traps of both threads -/

/-- Thread 0 takes a timer interrupt in its first step. -/
def interruptPlan (k : Nat) : Plan := if k = 0 then .trap Core.Causes.ie else .goOn

theorem interruptPlan_takesTrap : (pairRun interruptPlan).TakesTrap 0 0 Core.Causes.ie := by
  constructor
  case thread => decide
  case event => decide
  case room => decide

/-- All traps are those of thread 0. -/
theorem interruptPlan_undisturbed : (pairRun interruptPlan).Undisturbed 0 0 Core.Causes.ie := by
  intro h e c hreturn i hi hidle cause' hevent
  have hother := hidle i (Nat.le_refl i) hi
  have hthread : (pairRun interruptPlan).thread i = 0 := by
    refine pairNext_trap hevent fun cause => ?_
    unfold interruptPlan
    split
    · exact nofun
    · exact nofun
  rw [TrapRun.own_iff.mpr hthread] at hother
  exact Bool.noConfusion hother

theorem interruptPlan_transparent : (pairRun interruptPlan).Transparent 0 0 Core.Causes.ie :=
  (TrapRun.trap_transparent_iff (pairRun interruptPlan) 0 0 Core.Causes.ie
    (pairRun_obeys interruptPlan) interruptPlan_takesTrap).mpr interruptPlan_undisturbed

/-- And thread 1 between the last two lines of thread 0. -/
def disturbedPlan (k : Nat) : Plan :=
  if k = 0 then .trap Core.Causes.ie else if k = 88 then .otherTrap Core.Causes.ie else .goOn

theorem disturbedPlan_takesTrap : (pairRun disturbedPlan).TakesTrap 0 0 Core.Causes.ie := by
  constructor
  case thread => decide
  case event => decide
  case room => decide

theorem disturbedPlan_goOn {k : Nat} (h : k ≠ 0) (h' : k ≠ 88) : disturbedPlan k = .goOn := by
  rw [disturbedPlan, if_neg h, if_neg h']

/-- The words of the memory. -/
def Aligned (a : Word) : Prop := a.toNat % 4 = 0

instance (a : Word) : Decidable (Aligned a) := inferInstanceAs (Decidable (_ = _))

theorem frame_aligned (q : Reg) : Aligned (frameBase programMachine + frameOff q) := by
  revert q
  decide

theorem frame_stack (q : Reg) :
    exampleLayout.stack 0 (frameBase programMachine + frameOff q) := by
  revert q
  decide

/-- The words of the handlers are aligned, and apart from the stack and the
    table. -/
theorem handlerAddr_aligned (ty : OsTrapType) :
    Aligned (exampleLayout.handlerAddr 0 ty) ∧
      ¬ exampleLayout.stack 0 (exampleLayout.handlerAddr 0 ty) ∧
      exampleLayout.handlerAddr 0 ty ≠ exampleLayout.epcAddr 0 := by
  cases ty <;> decide

/-- **Up to the handler** at 0x900: the lines after the trap. -/
theorem program_entry {cause : Core.Cause} {m : Machine HartCsrs}
    (hpc : m.pc = exampleLayout.addr 0) (hcause : m.csrs.cause = cause)
    (hroom : ∀ q, exampleLayout.stack 0 (frameBase m + frameOff q))
    (haligned : ∀ q, Aligned (frameBase m + frameOff q))
    (hhandler : m.mem (exampleLayout.handlerAddr 0 (osTrapType cause)) = 0x900) :
    ∃ m', Follows exampleRoutine (csrFile (0 : Tid .threads4Dspm64)) Aligned
        (TrapRun.entrySteps cause) m m' ∧
      m'.pc = 0x900 ∧ m'.x ra = exampleLayout.addr restoreEpcLine ∧
      m'.x sp = frameBase m ∧ m'.x s0 = epcSkip cause ∧
      m'.mem = (saved exampleLayout (0 : Tid .threads4Dspm64) m).mem := by
  obtain ⟨hword, hstack, htable⟩ := handlerAddr_aligned (osTrapType cause)
  obtain ⟨m₁, hfollows, hpc₁, hmem, hsp, hs0, ha5⟩ :=
    follows_entry (L := exampleLayout) (S := exampleLayout_sound)
      (t := (0 : Tid .threads4Dspm64)) (P := Aligned) hpc hcause haligned (by decide)
  have hzero : m₁.x a5 + 0 = exampleLayout.handlerAddr 0 (osTrapType cause) := by
    rw [ha5]
    exact BitVec.add_zero _
  have hload := hfollows.snoc 62 (.lw a5 0 a5) hpc₁ rfl (by
    intro a ha
    obtain rfl := Option.some.inj ha
    rw [hzero]
    exact hword)
  have hcall := hload.snoc 63 (.jalr ra a5) rfl rfl (fun a ha => nomatch ha)
  refine ⟨_, hcall, ?_, ?_, ?_, ?_, hmem⟩
  · have hloaded : m₁.mem (m₁.x a5 + 0) = 0x900 := by
      rw [hzero, hmem, saved_mem_of_ne]
      · exact hhandler
      · intro q haddr
        have hq := hroom q
        rw [← haddr] at hq
        exact hstack hq
      · exact htable
    show m₁.x.write a5 (m₁.mem (m₁.x a5 + 0)) a5 = 0x900
    rw [RegFile.write_self _ _ (by decide), hloaded]
  · exact RegFile.write_self _ _ (by decide)
  · refine (RegFile.write_of_ne _ _ (by decide)).trans ?_
    exact (RegFile.write_of_ne _ _ (by decide)).trans hsp
  · refine (RegFile.write_of_ne _ _ (by decide)).trans ?_
    exact (RegFile.write_of_ne _ _ (by decide)).trans hs0

/-- The frame is aligned, and so is all that is kept. -/
theorem aligned_of_kept {a : Word}
    (h : exampleLayout.Kept 0 (frameBase programMachine) a) : a.toNat % 4 = 0 := by
  obtain ⟨q, rfl⟩ | rfl := h
  · exact frame_aligned q
  · decide

/-- **The lines back**, but the last. -/
theorem program_back {m : Machine HartCsrs} (hpc : m.pc = exampleLayout.addr restoreEpcLine)
    (hsp : m.x sp = frameBase programMachine) :
    ∃ m', Follows exampleRoutine (csrFile (0 : Tid .threads4Dspm64))
        (exampleLayout.Kept 0 (frameBase programMachine)) 37 m m' ∧
      m'.pc = exampleLayout.addr 101 := by
  obtain ⟨m₁, hreload, hpc₁, -⟩ := follows_reload (S := exampleLayout_sound)
    (t := (0 : Tid .threads4Dspm64)) hpc
  rw [hsp] at hreload
  exact ⟨_, hreload.snoc 100 (.csrrsi .status 16) hpc₁ rfl
    (fun a ha => nomatch ha), rfl⟩

/-- A handler at 0x900 returns at once. -/
theorem pairNext_return {s : Machine HartCsrs × Hart} (hpc : s.1.pc = 0x900)
    (hra : s.1.x ra = exampleLayout.addr restoreEpcLine) :
    pairNext s .goOn = (0, .outside, { s.1 with pc := s.1.x ra }, s.2) := by
  have hleaves : exampleRoutine.Outside s.1.pc := by
    rw [hpc]
    decide
  have hstep : exampleRoutine.step (csrFile (0 : Tid .threads4Dspm64)) s.1 = none := by
    rw [Routine.step, hleaves]
  rw [pairNext, hstep]
  simp only
  rw [if_pos ⟨hleaves, hra⟩]

/-- The first step. -/
theorem disturbedPlan_first : (pairAt (programMachine, idleHart) disturbedPlan 1).1 =
    takeTrap Core.Causes.ie programMachine := rfl

/-- **To the handler**. -/
theorem disturbedPlan_entry : ∃ m, (pairAt (programMachine, idleHart) disturbedPlan 50).1 = m ∧
    m.pc = 0x900 ∧ m.x ra = exampleLayout.addr restoreEpcLine ∧
    m.x sp = frameBase programMachine ∧ ∀ c, 1 ≤ c → c < 50 →
      (pairRun disturbedPlan).thread c = 0 ∧ (pairRun disturbedPlan).event c = .line := by
  obtain ⟨m, hentry, hpc, hra, hsp, -⟩ := program_entry
    (m := takeTrap Core.Causes.ie programMachine) rfl rfl frame_stack frame_aligned rfl
  rw [← disturbedPlan_first] at hentry
  obtain ⟨hat, hlines⟩ := pairAt_follows (fun _ ha => ha) 50 hentry rfl
    (fun c hlow hhigh => disturbedPlan_goOn (by omega) (by omega))
  exact ⟨m, hat, hpc, hra, hsp, hlines⟩

/-- The handler. -/
theorem disturbedPlan_handler {m : Machine HartCsrs}
    (hat : (pairAt (programMachine, idleHart) disturbedPlan 50).1 = m) (hpc : m.pc = 0x900)
    (hra : m.x ra = exampleLayout.addr restoreEpcLine) :
    (pairAt (programMachine, idleHart) disturbedPlan 51).1 = { m with pc := m.x ra } ∧
      (pairRun disturbedPlan).event 50 = .outside := by
  subst hat
  have hnext := pairNext_return hpc hra
  rw [← disturbedPlan_goOn (k := 50) (by decide) (by decide)] at hnext
  constructor
  · rw [pairAt_succ _ _ 50, hnext]
  · rw [pairRun_event, hnext]

/-- Thread 1 takes a trap. -/
theorem pairNext_otherTrap {s : Machine HartCsrs × Hart} (cause : Core.Cause)
    (h : s.2 = idleHart) :
    pairNext s (.otherTrap cause) =
      (1, .trap cause, disable s.1, idleHart.takesTrap cause) := by
  rw [pairNext, h]
  exact if_pos rfl

/-- **Back** to the last line, at which thread 1 takes its trap. -/
theorem disturbedPlan_back {m : Machine HartCsrs}
    (hat : (pairAt (programMachine, idleHart) disturbedPlan 51).1 = m)
    (hpc : m.pc = exampleLayout.addr restoreEpcLine) (hsp : m.x sp = frameBase programMachine) :
    (∀ c, 51 ≤ c → c < 88 → (pairRun disturbedPlan).thread c = 0 ∧
        (pairRun disturbedPlan).event c = .line) ∧
      (pairRun disturbedPlan).thread 88 = 1 ∧
      (pairRun disturbedPlan).event 88 = .trap Core.Causes.ie ∧
      (pairRun disturbedPlan).thread 89 = 0 ∧ (pairRun disturbedPlan).event 89 = .line := by
  obtain ⟨m', hback, hpc'⟩ := program_back hpc hsp
  rw [← hat] at hback
  obtain ⟨hat', hlines⟩ := pairAt_follows (fun _ ha => aligned_of_kept ha) 88 hback rfl
    (fun c hlow hhigh => disturbedPlan_goOn (by omega) (by omega))
  have hidle : (pairAt (programMachine, idleHart) disturbedPlan 88).2 = idleHart :=
    pairAt_idle fun c hc cause => by
      unfold disturbedPlan
      split
      · exact nofun
      · rw [if_neg (by omega)]
        exact nofun
  have htrap := pairNext_otherTrap Core.Causes.ie hidle
  rw [← show disturbedPlan 88 = .otherTrap Core.Causes.ie from rfl, hat'] at htrap
  have hdisabled : (pairAt (programMachine, idleHart) disturbedPlan 89).1 = disable m' := by
    rw [pairAt_succ _ _ 88, htrap]
  have hlast : Follows exampleRoutine (csrFile (0 : Tid .threads4Dspm64)) Aligned 1
      (disable m') _ :=
    Follows.line _ (.jalr 0 tp) hpc' rfl (fun a ha => nomatch ha)
  rw [← hdisabled] at hlast
  obtain ⟨-, hjump⟩ := pairAt_follows (fun _ ha => ha) 90 hlast rfl
    (fun c hlow hhigh => disturbedPlan_goOn (by omega) (by omega))
  obtain ⟨hthread, hline⟩ := hjump 89 (Nat.le_refl _) (by decide)
  refine ⟨hlines, ?_, ?_, hthread, hline⟩
  · rw [pairRun_thread, htrap]
  · rw [pairRun_event, htrap]

/-- **The run** in which thread 1 takes a trap, up to the last line of thread 0. -/
theorem disturbedPlan_returning :
    (pairRun disturbedPlan).Returning 0 0 Core.Causes.ie 50 51 89 ∧
      (pairRun disturbedPlan).own 0 88 = false ∧
      (pairRun disturbedPlan).event 88 = .trap Core.Causes.ie := by
  obtain ⟨m, hat, hpc, hra, hsp, hentry⟩ := disturbedPlan_entry
  obtain ⟨hat', hhandler⟩ := disturbedPlan_handler hat hpc hra
  obtain ⟨hback, hthread, htrap, hlast, hjump⟩ := disturbedPlan_back hat' hra hsp
  obtain ⟨h, hview⟩ : ∃ h, (pairRun disturbedPlan).state 50 = pairState m h :=
    ⟨_, by rw [pairRun_state, hat]⟩
  obtain ⟨h', hview'⟩ : ∃ h', (pairRun disturbedPlan).state 51 =
      pairState { m with pc := m.x ra } h' := ⟨_, by rw [pairRun_state, hat']⟩
  have hother : (pairRun disturbedPlan).own 0 88 = false := by
    rw [TrapRun.own, hthread]
    decide
  refine ⟨?_, hother, htrap⟩
  constructor
  case noTrap =>
    intro c hlow hhigh hown cause
    by_cases hc : c < 50
    · rw [(hentry c hlow hc).2]
      exact nofun
    obtain rfl | hc : c = 50 ∨ 50 < c := by omega
    · rw [hhandler]
      exact nofun
    by_cases hc' : c < 88
    · rw [(hback c hc hc').2]
      exact nofun
    obtain rfl | rfl : c = 88 ∨ c = 89 := by omega
    · rw [hthread] at hown
      exact absurd hown (by decide)
    · rw [hjump]
      exact nofun
  case enters =>
    have hall := ownSteps_all ((pairRun disturbedPlan).own 0) 1 49
      fun c hlow hhigh => TrapRun.own_iff.mpr (hentry c hlow hhigh).1
    refine ⟨by decide, ?_⟩
    rw [show 50 - (0 + 1) = 49 from rfl, hall]
    rfl
  case obeys =>
    have hstay : ∀ c, 50 ≤ c → c < 51 → c = 50 := by omega
    constructor
    case le => decide
    case outside =>
      intro c hlow hhigh _
      rw [hstay c hlow hhigh, hhandler]
    case frame =>
      intro c hlow hhigh _ q
      rw [hstay c hlow hhigh, show 50 + 1 = 51 from rfl, hview, hview']
      rfl
    case returns =>
      rw [hview, hview']
      rfl
    case sp =>
      rw [hview, hview']
      rfl
    case s0 =>
      rw [hview, hview']
      rfl
  case steps =>
    have hall := ownSteps_all ((pairRun disturbedPlan).own 0) 51 37
      fun c hlow hhigh => TrapRun.own_iff.mpr (hback c hlow hhigh).1
    -- the steps are counted without unfolding the run
    generalize (pairRun disturbedPlan).own 0 = mine at hother hall ⊢
    have hsum : ownSteps mine 51 (37 + 1) = 37 := by
      rw [ownSteps, hall, if_neg (by rw [hother]; exact Bool.false_ne_true)]
    exact ⟨by decide, congrArg (· + 1) hsum⟩
  case last => exact TrapRun.own_iff.mpr hlast

/-- **Not transparent**: thread 0 is back with its interrupts disabled. -/
theorem disturbedPlan_not_transparent :
    (pairRun disturbedPlan).OthersObey 0 ∧
      (pairRun disturbedPlan).TakesTrap 0 0 Core.Causes.ie ∧
      ¬ (pairRun disturbedPlan).Transparent 0 0 Core.Causes.ie := by
  obtain ⟨hreturning, hother, htrap⟩ := disturbedPlan_returning
  refine ⟨pairRun_obeys disturbedPlan, disturbedPlan_takesTrap, fun htransparent => ?_⟩
  have hie := (htransparent.returns 50 51 89 hreturning).2.2
  have hquiet := (TrapRun.returned (pairRun_obeys disturbedPlan) disturbedPlan_takesTrap
    hreturning).2.2.mp hie
  refine hquiet 88 (by decide) (fun j hlow hhigh => ?_) Core.Causes.ie htrap
  obtain rfl : j = 88 := by omega
  exact hother

end Flexpret.Os
