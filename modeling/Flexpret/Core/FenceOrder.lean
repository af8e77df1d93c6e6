import Flexpret.Core.IspmCoherence

/-! # FENCE.I

    A FENCE.I keeps its thread from fetching in two ways: `dec_stall` kills the
    fetch behind it while it is in decode, and it sets the stall count of the
    thread in execute, which is its own just when an instruction of the thread
    is right before it.  With either spacing the next instruction is read after
    every store before the FENCE.I, also from a memory whose reads are not
    defined in a cycle that writes.
-/

open Transition

namespace Flexpret.Core

variable {conf : FlexpretConfiguration}

/-! ## Section 1: An instruction memory with undefined reads -/

namespace CoreState

/-- A fetch reads the scratchpad in a cycle that writes it. -/
def readsDuringWrite (s : CoreState conf) : Bool :=
  s.nextReg.valid && s.loadStoreIn.writesIspm

/-- The word fetched is another one. -/
def withFetched (s : CoreState conf) (word : BitVec 32) : CoreState conf :=
  { s with imem := { s.imem with doutR := word } }

/-- **One clock cycle** with a memory whose read may return any word when the
    cycle also writes: the second input is what it then returns. -/
def nextReading (D : DecodeLogic conf) (s : CoreState conf) (x : CoreIn conf × BitVec 32) :
    CoreState conf :=
  if s.readsDuringWrite then (s.next D x.1).withFetched x.2 else s.next D x.1

variable {s : CoreState conf} {t : conf.Tid} {D : DecodeLogic conf} {x : CoreIn conf × BitVec 32}

theorem nextReading_eq :
    ∃ word, s.nextReading D x = (s.next D x.1).withFetched word ∧
      (s.readsDuringWrite = false → word = (s.next D x.1).imem.doutR) := by
  unfold nextReading
  cases s.readsDuringWrite with
  | true => exact ⟨x.2, rfl, nofun⟩
  | false => exact ⟨(s.next D x.1).imem.doutR, rfl, fun _ => rfl⟩

theorem nextReading_inExe : (s.nextReading D x).inExe t = (s.inDec t && !s.flushes t) := by
  obtain ⟨word, h, -⟩ := nextReading_eq (s := s) (D := D) (x := x)
  rw [h]
  exact next_inExe D x.1

theorem nextReading_inDec :
    (s.nextReading D x).inDec t = (s.fetches t D && !s.flushes t) := by
  obtain ⟨word, h, -⟩ := nextReading_eq (s := s) (D := D) (x := x)
  rw [h]
  exact next_inDec D x.1

theorem nextReading_inFetch :
    (s.nextReading D x).inFetch t = (s.nextReg.valid && s.nextReg.tid = t) := by
  obtain ⟨word, h, -⟩ := nextReading_eq (s := s) (D := D) (x := x)
  rw [h]
  rfl

theorem nextReading_exeReg : (s.nextReading D x).exeReg = (s.next D x.1).exeReg := by
  obtain ⟨word, h, -⟩ := nextReading_eq (s := s) (D := D) (x := x)
  rw [h]
  rfl

theorem nextReading_decReg : (s.nextReading D x).decReg = (s.next D x.1).decReg := by
  obtain ⟨word, h, -⟩ := nextReading_eq (s := s) (D := D) (x := x)
  rw [h]
  rfl

theorem nextReading_ifPc : (s.nextReading D x).ifPc = (s.next D x.1).ifPc := by
  obtain ⟨word, h, -⟩ := nextReading_eq (s := s) (D := D) (x := x)
  rw [h]
  rfl

theorem nextReading_ifRegPcs : (s.nextReading D x).ifRegPcs = s.nextPcs D := by
  obtain ⟨word, h, -⟩ := nextReading_eq (s := s) (D := D) (x := x)
  rw [h]
  rfl

theorem nextReading_stallCount : (s.nextReading D x).stallCount = s.nextStallCount D := by
  obtain ⟨word, h, -⟩ := nextReading_eq (s := s) (D := D) (x := x)
  rw [h]
  rfl

/-- What is read when the cycle writes nothing. -/
theorem nextReading_doutR (hfetch : s.nextReg.valid = true) (hread : s.readsDuringWrite = false) :
    (s.nextReading D x).imem.doutR = s.imem.ispm (fetchAddr conf (s.nextPc D)) := by
  obtain ⟨word, h, hword⟩ := nextReading_eq (s := s) (D := D) (x := x)
  rw [h]
  show word = _
  rw [hword hread]
  show (if s.nextReg.valid then _ else _) = _
  rw [if_pos hfetch]

theorem exeDecoded_reading : ExeDecoded D (s.nextReading D x) := by
  have h : ExeDecoded D (s.next D x.1) := exeDecoded_next
  constructor
  · rw [nextReading_exeReg]
    exact h.sig
  · rw [nextReading_exeReg]
    exact h.du
  · rw [nextReading_exeReg]
    exact h.rd

/-- The stream invariant says nothing of the word fetched. -/
theorem streamInv_reading (hflex : conf.flex = true) (hdec : ExeDecoded D s) {pc : BitVec 32}
    (h : StreamInv t pc s) : StreamInv t (s.archStep t pc) (s.nextReading D x) := by
  obtain ⟨word, heq, -⟩ := nextReading_eq (s := s) (D := D) (x := x)
  have hnext : StreamInv t (s.archStep t pc) (s.next D x.1) := streamInv_next hflex hdec h
  rw [heq]
  exact ⟨hnext.fetch, hnext.exe, hnext.dec, hnext.pcs, hnext.pending⟩

end CoreState

/-! ## Section 2: What a FENCE.I does -/

namespace CoreState

/-- A store of `t` writes the instruction scratchpad. -/
def storesIspm (s : CoreState conf) (t : conf.Tid) : Bool :=
  s.inExe t && s.loadStoreIn.writesIspm

/-- A FENCE.I of `t` commits. -/
def commitsFence (s : CoreState conf) (t : conf.Tid) : Bool :=
  s.exeValid && s.exeReg.tid = t && s.exeReg.sig.fenceI

variable {s : CoreState conf} {t : conf.Tid} {D : DecodeLogic conf} {x : CoreIn conf × BitVec 32}

theorem commitsFence_iff :
    s.commitsFence t = true ↔
      s.exeValid = true ∧ s.exeReg.tid = t ∧ s.exeReg.sig.fenceI = true := by
  simp [commitsFence, and_assoc]

theorem inExe_of_commitsFence (h : s.commitsFence t = true) : s.inExe t = true := by
  obtain ⟨hvalid, htid, -⟩ := commitsFence_iff.mp h
  exact inExe_iff.mpr ⟨exeReg_valid_of_valid hvalid, htid⟩

/-- A FENCE.I that commits goes on to the next instruction. -/
theorem fence_plain (hdec : ExeDecoded D s) (h : s.commitsFence t = true) :
    s.traps t = false ∧ s.redirects t = false := by
  obtain ⟨hvalid, -, hfence⟩ := commitsFence_iff.mp h
  have hsig := hdec.sig (exeReg_valid_of_valid hvalid)
  have hflags : s.exeReg.sig.toFlags = { legal := true, fenceI := true } := by
    rw [hsig] at hfence ⊢
    exact D.fenceI_flags hfence
  have hjump : s.exeReg.sig.jump = false := congrArg Flags.jump hflags
  have hbranch : s.exeReg.sig.branch = false := congrArg Flags.branch hflags
  have hdu : s.exeReg.sig.du = false := congrArg Flags.du hflags
  simp only [exeValid, Bool.and_eq_true, Bool.not_eq_true'] at hvalid
  constructor
  · rw [traps, hvalid.2, Bool.false_and]
  · simp [redirects, exeBrjmp, exeDu, hjump, hbranch, hdu]

/-- **In decode** the FENCE.I kills the fetch of its thread. -/
theorem fetches_of_fence (hflex : conf.flex = true) (hdec : s.inDec t = true)
    (hfence : (s.dec D).fenceI = true) : s.fetches t D = false := by
  rw [Bool.eq_false_iff]
  intro hf
  have hstall := decStall_of_fetches D hf hdec
  obtain ⟨hvalid, -⟩ := inDec_iff.mp hdec
  simp [decStall, bypassing_of_flex hflex, hvalid, hfence] at hstall

/-- **Right behind** another instruction of its thread it also stalls the
    thread for the cycle after. -/
theorem stallCount_of_fence (hflex : conf.flex = true) (hdec : s.inDec t = true)
    (hfence : (s.dec D).fenceI = true) (hexe : s.inExe t = true) :
    (s.nextReading D x).stallCount t ≠ 0 := by
  obtain ⟨hvalid, -⟩ := inDec_iff.mp hdec
  obtain ⟨-, htid⟩ := inExe_iff.mp hexe
  rw [nextReading_stallCount, nextStallCount_eq D hflex, hvalid, hfence, htid]
  -- the count is one, whether or not the instruction in execute traps
  split
  · decide
  · simp

/-- A thread that neither traps nor redirects nor fetches keeps its PC. -/
theorem nextPcs_kept (hflex : conf.flex = true) (hpending : s.trapPending t = false)
    (hred : s.redirects t = false) (hf : s.fetches t D = false) :
    (s.nextReading D x).ifRegPcs t = s.ifRegPcs t := by
  rw [nextReading_ifRegPcs, nextPcs_eq D hflex, hpending, hred, hf]
  rfl

end CoreState

/-! ## Section 3: Runs -/

/-- **A run** of the core with such a memory. -/
structure ReadingRun (D : DecodeLogic conf) (st : Nat → CoreState conf)
    (inp : Nat → CoreIn conf × BitVec 32) : Prop where
  reset : CoreReset conf (st 0)
  next : ∀ c, st (c + 1) = (st c).nextReading D (inp c)

/-- The instruction of `t` in execute in cycle `n` was read in cycle `r`. -/
structure ReadIn (D : DecodeLogic conf) (st : Nat → CoreState conf) (t : conf.Tid)
    (n r : Nat) : Prop where
  cycle : n = r + 3
  fetch : (st r).nextReg.valid = true ∧ (st r).nextReg.tid = t
  pc : (st r).nextPc D = (st n).exeReg.pc
  word : (st n).exeReg.inst = (st (r + 1)).imem.doutR
  /-- What the memory held there, unless the cycle wrote it. -/
  memory : (st r).readsDuringWrite = false →
    (st n).exeReg.inst = (st r).imem.ispm (fetchAddr conf (st n).exeReg.pc)

/-- **What FENCE.I is for**, for the instructions of `t` in execute: a store in
    cycle `w`, a FENCE.I in cycle `f` and a later instruction in cycle `n`. -/
structure FenceOrders (D : DecodeLogic conf) (st : Nat → CoreState conf) (t : conf.Tid) :
    Prop where
  /-- The later instruction is read after the store has written. -/
  read : ∀ w f n, w < f → f < n → (st w).storesIspm t = true → (st f).commitsFence t = true →
    (st n).inExe t = true → ∃ r, w < r ∧ ReadIn D st t n r
  /-- What was read behind the FENCE.I in cycle `r`, too early, is killed in
      the fetch stage, and the PC stays at the instruction after the FENCE.I. -/
  killed : ∀ w f r, w < f → (st w).storesIspm t = true → (st f).commitsFence t = true →
    f ≤ r + 2 → r ≤ w → (st (r + 1)).inFetch t = true →
    (st (r + 2)).inDec t = false ∧ (st (r + 2)).ifRegPcs t = (st f).exeReg.pc + 4
  /-- The instruction after the FENCE.I is the next one to execute. -/
  next : ∀ f n, f < n → (st f).commitsFence t = true → (st n).inExe t = true →
    (∀ k, f < k → k < n → (st k).inExe t = false) → (st n).exeReg.pc = (st f).exeReg.pc + 4
  /-- No instruction is skipped or executed twice. -/
  follows : ∀ c c', c < c' → (st c).inExe t = true → (st c').inExe t = true →
    (∀ k, c < k → k < c' → (st k).inExe t = false) → (st c').exeReg.pc = (st c).archNext

/-- A run with the memory that reads before it writes is one of these. -/
theorem CoreRun.reading {D : DecodeLogic conf} {st : Nat → CoreState conf}
    {inp : Nat → CoreIn conf} (h : CoreRun D st inp) :
    ReadingRun D st fun c => (inp c, (st (c + 1)).imem.doutR) where
  reset := h.reset
  next := by
    intro c
    unfold CoreState.nextReading
    split
    · rw [h.next]
      rfl
    · exact h.next c

section runs

variable {D : DecodeLogic conf} {st : Nat → CoreState conf}
  {inp : Nat → CoreIn conf × BitVec 32} {t : conf.Tid}

theorem ReadingRun.exeDecoded (h : ReadingRun D st inp) (c : Nat) :
    CoreState.ExeDecoded D (st c) := by
  cases c with
  | zero => exact CoreState.exeDecoded_reset h.reset
  | succ c =>
    rw [h.next]
    exact CoreState.exeDecoded_reading

theorem ReadingRun.streamInv (hflex : conf.flex = true) (h : ReadingRun D st inp)
    (t : conf.Tid) (c : Nat) : ∃ pc, CoreState.StreamInv t pc (st c) := by
  induction c with
  | zero => exact ⟨0, CoreState.streamInv_reset h.reset⟩
  | succ c ih =>
    obtain ⟨pc, hpc⟩ := ih
    rw [h.next]
    exact ⟨_, CoreState.streamInv_reading hflex (h.exeDecoded c) hpc⟩

/-- From an instruction of `t` in execute to the next one, the architectural PC
    is where the first goes on. -/
theorem ReadingRun.streamInv_after (hflex : conf.flex = true) (h : ReadingRun D st inp)
    {c c' : Nat} (hlt : c < c') (hexe : (st c).inExe t = true)
    (hnone : ∀ k, c < k → k < c' → (st k).inExe t = false) :
    CoreState.StreamInv t (st c).archNext (st c') := by
  induction c' with
  | zero => omega
  | succ c' ih =>
    by_cases heq : c = c'
    · subst heq
      obtain ⟨pc, hpc⟩ := h.streamInv hflex t c
      have hstep := CoreState.streamInv_reading (x := inp c) hflex (h.exeDecoded c) hpc
      rw [CoreState.archStep, if_pos hexe, ← h.next] at hstep
      exact hstep
    · have hlast := hnone c' (by omega) (by omega)
      have hinv := ih (by omega) fun k hk hk' => hnone k hk (by omega)
      have hstep := CoreState.streamInv_reading (x := inp c') hflex (h.exeDecoded c') hinv
      rw [CoreState.archStep, hlast, if_neg Bool.false_ne_true, ← h.next] at hstep
      exact hstep

/-- Where an instruction in execute was before. -/
theorem ReadingRun.stages (h : ReadingRun D st inp) {n : Nat} (hexe : (st n).inExe t = true) :
    ∃ r, n = r + 3 ∧ ((st r).nextReg.valid = true ∧ (st r).nextReg.tid = t) ∧
      (st (r + 1)).fetches t D = true ∧ (st (r + 2)).inDec t = true ∧
      (st (r + 2)).flushes t = false := by
  match n with
  | 0 =>
    rw [CoreState.inExe, h.reset.exeValid] at hexe
    exact Bool.noConfusion hexe
  | 1 =>
    rw [h.next, CoreState.nextReading_inExe, CoreState.inDec, h.reset.decValid] at hexe
    exact Bool.noConfusion hexe
  | 2 =>
    rw [h.next, CoreState.nextReading_inExe, Bool.and_eq_true, h.next,
      CoreState.nextReading_inDec, Bool.and_eq_true] at hexe
    have hfetch := CoreState.inFetch_of_fetches D hexe.1.1
    rw [CoreState.inFetch, h.reset.ifValid] at hfetch
    exact Bool.noConfusion hfetch
  | r + 3 =>
    rw [h.next, CoreState.nextReading_inExe, Bool.and_eq_true, Bool.not_eq_true'] at hexe
    have hdec := hexe.1
    rw [h.next, CoreState.nextReading_inDec, Bool.and_eq_true] at hdec
    have hif := CoreState.inFetch_of_fetches D hdec.1
    rw [h.next, CoreState.nextReading_inFetch, Bool.and_eq_true, decide_eq_true_eq] at hif
    exact ⟨r, rfl, hif, hdec.1, hexe⟩

theorem ReadingRun.readIn (h : ReadingRun D st inp) {n : Nat} (hexe : (st n).inExe t = true) :
    ∃ r, ReadIn D st t n r ∧ (st (r + 1)).fetches t D = true := by
  obtain ⟨r, rfl, hnext, hf, -⟩ := h.stages hexe
  have hpc : (st (r + 3)).exeReg.pc = (st r).nextPc D := by
    rw [h.next (r + 2), CoreState.nextReading_exeReg, CoreState.next_exeReg_pc, h.next (r + 1),
      CoreState.nextReading_decReg, CoreState.next_decReg_pc, h.next r,
      CoreState.nextReading_ifPc]
    exact CoreState.next_ifPc D (inp r).1 rfl
  have hword : (st (r + 3)).exeReg.inst = (st (r + 1)).imem.doutR := by
    rw [h.next (r + 2), CoreState.nextReading_exeReg, CoreState.next_exeReg_inst, h.next (r + 1),
      CoreState.nextReading_decReg, CoreState.next_decReg_inst]
  refine ⟨r, ⟨rfl, hnext, hpc.symm, hword, ?_⟩, hf⟩
  intro hread
  rw [hword, hpc, h.next r, CoreState.nextReading_doutR hnext.1 hread]

/-! ## Section 4: Behind a FENCE.I -/

/-- The pipeline at a FENCE.I that commits in cycle `g + 1`. -/
structure FenceAt (D : DecodeLogic conf) (st : Nat → CoreState conf) (t : conf.Tid) (g : Nat) :
    Prop where
  dec : (st g).inDec t = true
  fence : ((st g).dec D).fenceI = true
  exe : (st (g + 1)).inExe t = true
  plain : (st (g + 1)).traps t = false ∧ (st (g + 1)).redirects t = false

theorem ReadingRun.fenceAt (h : ReadingRun D st inp) {f : Nat}
    (hf : (st f).commitsFence t = true) : ∃ g, f = g + 1 ∧ FenceAt D st t g := by
  have hexe := CoreState.inExe_of_commitsFence hf
  obtain ⟨r, rfl, -, -, hdec, -⟩ := h.stages hexe
  obtain ⟨-, -, hfence⟩ := CoreState.commitsFence_iff.mp hf
  rw [h.next, CoreState.nextReading_exeReg, CoreState.next_exeReg_sig] at hfence
  exact ⟨r + 2, rfl, hdec, hfence, hexe, CoreState.fence_plain (h.exeDecoded _) hf⟩

section fence

variable (h : ReadingRun D st inp) (hflex : conf.flex = true) {g : Nat} (hg : FenceAt D st t g)

include hflex hg in
/-- Nothing is fetched while the FENCE.I is in decode. -/
theorem FenceAt.not_fetches : (st g).fetches t D = false :=
  CoreState.fetches_of_fence hflex hg.dec hg.fence

include h hflex hg in
theorem FenceAt.not_inDec : (st (g + 1)).inDec t = false := by
  rw [h.next, CoreState.nextReading_inDec, hg.not_fetches hflex, Bool.false_and]

include h hflex hg in
/-- Nor while it is in execute, with a store of its thread right before it. -/
theorem FenceAt.not_fetches_after (hstore : (st g).storesIspm t = true) :
    (st (g + 1)).fetches t D = false := by
  have hexe := (Bool.and_eq_true_iff.mp hstore).1
  rw [Bool.eq_false_iff]
  intro hf
  have hcount := CoreState.stallCount_of_fetches D hf
  rw [h.next] at hcount
  exact CoreState.stallCount_of_fence hflex hg.dec hg.fence hexe hcount

include h hflex hg in
/-- The PC of the thread is already that of the next instruction. -/
theorem FenceAt.pc : (st (g + 1)).ifRegPcs t = (st (g + 1)).exeReg.pc + 4 ∧
    (st (g + 1)).trapPending t = false := by
  obtain ⟨pc, hpc⟩ := h.streamInv hflex t (g + 1)
  have hpending : (st (g + 1)).trapPending t = false := by
    rw [Bool.eq_false_iff]
    intro hp
    have hexe := hg.exe
    rw [(hpc.pending hp).1] at hexe
    exact Bool.noConfusion hexe
  refine ⟨?_, hpending⟩
  rw [hpc.pcs hpending, hg.not_inDec h hflex, hg.exe, hpc.exe hg.exe]
  simp [CoreState.ahead]

include hg in
theorem FenceAt.archNext : (st (g + 1)).archNext = (st (g + 1)).exeReg.pc + 4 :=
  CoreState.archNext_of_plain hg.exe hg.plain.1 hg.plain.2

include h hflex hg in
/-- What gets past the fetch stage behind the FENCE.I was read after every
    store before it. -/
theorem FenceAt.fetches_late {w r : Nat} (hw : w < g + 1) (hstore : (st w).storesIspm t = true)
    (hr : g ≤ r + 1) (hf : (st (r + 1)).fetches t D = true) : w < r := by
  -- the stall in decode leaves the cycles from `g + 1` on
  have hne : r + 1 ≠ g := by
    intro heq
    rw [heq, hg.not_fetches hflex] at hf
    exact Bool.noConfusion hf
  by_cases hlast : w = g
  · -- a store right before the FENCE.I: the stall count leaves out `g + 1`
    have hne' : r ≠ g := by
      intro heq
      rw [hlast] at hstore
      rw [heq, hg.not_fetches_after h hflex hstore] at hf
      exact Bool.noConfusion hf
    omega
  · omega

end fence

end runs

/-- **FENCE.I orders fetches after stores**: in every run of the flexible core,
    for every scheduling of the threads. -/
theorem fenceI_orders (hflex : conf.flex = true) (D : DecodeLogic conf)
    (st : Nat → CoreState conf) (inp : Nat → CoreIn conf × BitVec 32)
    (h : ReadingRun D st inp) (t : conf.Tid) : FenceOrders D st t := by
  have hfollows : ∀ c c', c < c' → (st c).inExe t = true → (st c').inExe t = true →
      (∀ k, c < k → k < c' → (st k).inExe t = false) →
      (st c').exeReg.pc = (st c).archNext := by
    intro c c' hlt hexe hexe' hnone
    exact (h.streamInv_after hflex hlt hexe hnone).exe hexe'
  constructor
  case read =>
    intro w f n hw hn hstore hf hexe
    obtain ⟨g, rfl, hg⟩ := h.fenceAt hf
    obtain ⟨r, hread, hfetch⟩ := h.readIn hexe
    have hcycle := hread.cycle
    -- an instruction valid in execute is behind the FENCE.I in every stage
    exact ⟨r, hg.fetches_late h hflex hw hstore (by omega) hfetch, hread⟩
  case killed =>
    intro w f r hw hstore hf hr hrw hin
    obtain ⟨g, rfl, hg⟩ := h.fenceAt hf
    have hnot : (st (r + 1)).fetches t D = false := by
      rw [Bool.eq_false_iff]
      intro hfetch
      have hlate := hg.fetches_late h hflex hw hstore (by omega) hfetch
      omega
    have hdec : (st (r + 2)).inDec t = false := by
      rw [h.next, CoreState.nextReading_inDec, hnot, Bool.false_and]
    refine ⟨hdec, ?_⟩
    obtain ⟨hpc, hpending⟩ := hg.pc h hflex
    -- killed in the cycle of the FENCE.I in decode, or in that after
    obtain rfl | rfl : g = r + 1 ∨ g = r := by omega
    · exact hpc
    · rw [h.next, CoreState.nextPcs_kept hflex hpending hg.plain.2 hnot, hpc]
  case next =>
    intro f n hn hf hexe hnone
    obtain ⟨g, rfl, hg⟩ := h.fenceAt hf
    rw [hfollows (g + 1) n hn hg.exe hexe hnone, hg.archNext]
  case follows => exact hfollows

/-- `sw x0, 8(x0)` and `fence.i`, before the word that is stored to. -/
def storeNext (a : Nat) : BitVec 32 :=
  if a = 0 then 0x00002423 else if a = 1 then 0x0000100f else 0x13

/-- Thread 0 alone, with a memory whose undefined reads return ones. -/
def storeNextRun : Nat → CoreState conf4tf :=
  Machine.trace (CoreState.nextReading (DecodeLogic.zeros conf4tf)) (coreZero conf4tf storeNext)
    fun _ => (issue conf4tf 0, BitVec.allOnes 32)

/-- The store is in cycle 4 and the FENCE.I in cycle 5.  The word is fetched
    three times, and the last of them, in cycle 5, goes on to execute. -/
theorem storeNext_ordered :
    ((storeNextRun 4).storesIspm 0 = true ∧ (storeNextRun 4).readsDuringWrite = true ∧
      (storeNextRun 5).commitsFence 0 = true ∧ (storeNextRun 8).inExe 0 = true) ∧
    (∃ r, 4 < r ∧ ReadIn (DecodeLogic.zeros conf4tf) storeNextRun 0 8 r) ∧
    (storeNextRun 8).exeReg.inst = 0 := by
  have hrun : ReadingRun (DecodeLogic.zeros conf4tf) storeNextRun
      fun _ => (issue conf4tf 0, BitVec.allOnes 32) :=
    ⟨coreZero_reset conf4tf storeNext, fun _ => rfl⟩
  have hstore : (storeNextRun 4).storesIspm 0 = true := by decide +kernel
  have hfence : (storeNextRun 5).commitsFence 0 = true := by decide +kernel
  have hexe : (storeNextRun 8).inExe 0 = true := by decide +kernel
  have horder := fenceI_orders rfl (DecodeLogic.zeros conf4tf) storeNextRun _ hrun 0
  refine ⟨⟨hstore, by decide +kernel, hfence, hexe⟩, ?_, by decide +kernel⟩
  exact horder.read 4 5 8 (by omega) (by omega) hstore hfence hexe

end Flexpret.Core
