import Flexpret.Core.InstructionStream
import Flexpret.Core.System

/-! # The Path of a Thread in Every Core

    The instruction stream of a thread for every configuration.  The inflexible
    core takes a jump from the memory stage, one cycle later than the flexible
    one; and with four threads or more it kills no stage, because they hold
    different threads.
-/

namespace Flexpret.Core

variable {conf : FlexpretConfiguration}

namespace CoreState

/-! ## Section 1: Stages that are not killed -/

/-- Without bypassing the thread in execute is in no earlier stage. -/
structure Apart (s : CoreState conf) : Prop where
  dec : conf.bypassing = false → s.exeReg.valid = true → s.decReg.tid ≠ s.exeReg.tid
  fetch : conf.bypassing = false → s.exeReg.valid = true → s.ifReg.tid ≠ s.exeReg.tid
  next : conf.bypassing = false → s.exeReg.valid = true → s.nextReg.tid ≠ s.exeReg.tid

variable {s : CoreState conf} {t : conf.Tid} {D : DecodeLogic conf} {i : CoreIn conf}

/-- **Who flushes**, in a core with bypassing. -/
theorem flushes_eq_bypassing :
    s.flushes t = (conf.bypassing && (s.traps t || s.redirects t)) := by
  simp only [flushes, traps, redirects, exeFlush, exeSleep, exeValid]
  cases hdu : s.exeDu with
  | false => cases conf.bypassing <;> cases s.exeException <;> cases s.exeBrjmp <;> simp
  | true =>
    rw [exeReg_valid_of_du hdu]
    cases conf.bypassing <;> cases s.exeException <;> cases s.exeBrjmp <;> simp

/-- Nothing younger of a thread is left after it traps or jumps. -/
theorem younger_gone (hapart : Apart s) (h : s.traps t = true ∨ s.redirects t = true) :
    (s.next D i).inExe t = false ∧ (s.next D i).inDec t = false := by
  have hexe : s.inExe t = true := h.elim inExe_of_traps inExe_of_redirects
  obtain ⟨hvalid, htid⟩ := inExe_iff.mp hexe
  rw [next_inExe, next_inDec]
  cases hbypass : conf.bypassing with
  | true =>
    have hflush : s.flushes t = true := by
      rw [flushes_eq_bypassing, hbypass, Bool.true_and, Bool.or_eq_true]
      exact h
    rw [hflush, Bool.not_true, Bool.and_false, Bool.and_false]
    exact ⟨rfl, rfl⟩
  | false =>
    have hdec : s.inDec t = false := by
      simp [inDec, ← htid, hapart.dec hbypass hvalid]
    have hfetch : s.fetches t D = false := by
      simp [fetches, ← htid, hapart.fetch hbypass hvalid]
    rw [hdec, hfetch, Bool.false_and]
    exact ⟨rfl, rfl⟩

/-! ## Section 2: A jump in the memory stage -/

variable (s t)

/-- The target of a jump of `t` is about to be loaded into its PC. -/
def jumpPending : Bool := conf.regBrJmp && s.memReg.brjmp && s.memReg.tid = t

/-- The PC of `t` is about to be loaded. -/
def pathPending : Bool := s.trapPending t || s.jumpPending t

/-- What is loaded. -/
def pendingPc : BitVec 32 := if s.trapPending t then s.csr.regEvecs t else s.memReg.address

variable {s t}

theorem next_jumpPending :
    (s.next D i).jumpPending t = (conf.regBrJmp && s.redirects t && s.exeValid) := by
  show (conf.regBrJmp && ((s.exeBrjmp || s.exeDu) && s.exeValid) && decide (s.exeReg.tid = t)) = _
  rw [redirects]
  cases conf.regBrJmp <;> cases s.exeBrjmp || s.exeDu <;> cases s.exeValid <;> simp

/-- Where the next PC of a thread comes from when jumps are taken from the
    memory stage. -/
theorem nextPcSel_eq_mem (hreg : conf.regBrJmp = true) :
    s.nextPcSel D t =
      if s.trapPending t then .evec
      else if s.jumpPending t then .brjmp
      else if s.fetches t D then .plus4
      else .pcreg := by
  simp only [nextPcSel, hreg, if_true, assign_apply, trapPending, jumpPending, fetches,
    Bool.true_and]
  rfl

/-- **The next PC** of a thread when jumps are taken from the memory stage. -/
theorem nextPcs_eq_mem (hreg : conf.regBrJmp = true) :
    s.nextPcs D t =
      if s.pathPending t then s.pendingPc t
      else if s.fetches t D then s.ifPcPlus4
      else s.ifRegPcs t := by
  have hsel := fun u => nextPcSel_eq_mem (s := s) (t := u) (D := D) hreg
  have htrap : (conf.exceptions && decide (s.nextPcSel D s.memReg.tid = .evec) &&
      decide (s.memReg.tid = t)) = s.trapPending t := by
    by_cases htid : s.memReg.tid = t
    · rw [htid, hsel]
      simp only [trapPending, htid]
      cases conf.exceptions <;> cases s.memReg.exception <;> cases s.jumpPending t <;>
        cases s.fetches t D <;> simp
    · simp [trapPending, htid]
  have hbrjmp : (decide (s.nextPcSel D s.memReg.tid = .brjmp) && decide (s.memReg.tid = t)) =
      (!s.trapPending t && s.jumpPending t) := by
    by_cases htid : s.memReg.tid = t
    · rw [htid, hsel]
      cases s.trapPending t <;> cases s.jumpPending t <;> cases s.fetches t D <;> simp
    · simp [htid, jumpPending]
  have hplus4 : (decide (s.nextPcSel D s.ifReg.tid = .plus4) && decide (s.ifReg.tid = t)) =
      (!s.trapPending t && !s.jumpPending t && s.fetches t D) := by
    by_cases htid : s.ifReg.tid = t
    · rw [htid, hsel]
      cases s.trapPending t <;> cases s.jumpPending t <;> cases s.fetches t D <;> simp
    · simp [htid, fetches]
  simp only [nextPcs, hreg, if_true, assign_apply]
  rw [htrap, hbrjmp, hplus4, pathPending, pendingPc]
  cases htp : s.trapPending t with
  | true =>
    rw [memReg_tid_of_trapPending htp]
    rfl
  | false => cases s.jumpPending t <;> cases s.fetches t D <;> rfl

/-- What traps, or jumps from the memory stage, keeps the next fetch away. -/
theorem stallCount_of_pending (hbypass : conf.bypassing = true)
    (h : s.traps t = true ∨ (conf.regBrJmp && s.redirects t && s.exeValid) = true) :
    (s.next D i).stallCount t ≠ 0 := by
  have htid : s.exeReg.tid = t := by
    rcases h with htrap | hjump
    · exact (inExe_iff.mp (inExe_of_traps htrap)).2
    · simp only [Bool.and_eq_true] at hjump
      exact (inExe_iff.mp (inExe_of_redirects hjump.1.2)).2
  rw [next_stallCount, nextStallCount, hbypass, if_pos rfl, htid]
  simp only [assign_self]
  split
  · decide
  · next hexc =>
    split
    · decide
    · split
      · decide
      · next hsleep =>
        rcases h with htrap | hjump
        · simp only [traps, Bool.and_eq_true] at htrap
          exact absurd htrap.1 hexc
        · simp only [redirects, Bool.and_eq_true, Bool.or_eq_true] at hjump
          obtain ⟨⟨hreg, hred, -⟩, hvalid⟩ := hjump
          have hbrjmp : s.exeBrjmp = true := by
            refine hred.resolve_right fun hdu => hsleep ?_
            rw [exeSleep, hdu, hvalid]
            rfl
          rw [hbrjmp, hreg, Bool.and_self, if_pos rfl]
          decide

/-- The next fetch of a thread whose PC is about to be loaded is killed. -/
theorem no_fetch_of_pending (hapart : Apart s)
    (h : s.traps t = true ∨ (conf.regBrJmp && s.redirects t && s.exeValid) = true) :
    (s.next D i).fetches t D = false := by
  cases hbypass : conf.bypassing with
  | true =>
    rw [Bool.eq_false_iff]
    intro hf
    exact stallCount_of_pending (i := i) hbypass h (stallCount_of_fetches D hf)
  | false =>
    have hexe : s.inExe t = true := by
      rcases h with htrap | hjump
      · exact inExe_of_traps htrap
      · simp only [Bool.and_eq_true] at hjump
        exact inExe_of_redirects hjump.1.2
    obtain ⟨hvalid, htid⟩ := inExe_iff.mp hexe
    have hne : s.nextReg.tid ≠ t := htid ▸ hapart.next hbypass hvalid
    simp [fetches, hne]

/-! ## Section 3: The invariant -/

/-- **Path invariant** of thread `t` whose architectural PC is `pc`: as the
    stream invariant, but for a PC that is about to be loaded by a jump as well
    as by a trap. -/
structure PathInv (D : DecodeLogic conf) (t : conf.Tid) (pc : BitVec 32) (s : CoreState conf) :
    Prop where
  fetch : s.inFetch t = true → s.ifPc = s.ifRegPcs t
  exe : s.inExe t = true → s.exeReg.pc = pc
  dec : s.inDec t = true → s.decReg.pc = pc + ahead (s.inExe t)
  pcs : s.pathPending t = false → s.ifRegPcs t = pc + ahead (s.inExe t) + ahead (s.inDec t)
  pending : s.pathPending t = true →
    s.inExe t = false ∧ s.inDec t = false ∧ s.fetches t D = false ∧ s.pendingPc t = pc

/-- After reset a thread starts where its PC register or a jump left over in
    the memory stage says. -/
theorem pathInv_reset (h : CoreReset conf s) (t : conf.Tid) : ∃ pc, PathInv D t pc s := by
  have hexe : s.inExe t = false := by simp [inExe, h.exeValid]
  have hdec : s.inDec t = false := by simp [inDec, h.decValid]
  have hfetch : s.inFetch t = false := by simp [inFetch, h.ifValid]
  have hnone : s.fetches t D = false := by
    rw [Bool.eq_false_iff]
    intro hf
    rw [inFetch_of_fetches D hf] at hfetch
    exact Bool.noConfusion hfetch
  refine ⟨if s.pathPending t then s.pendingPc t else 0, ?_⟩
  constructor
  case fetch =>
    intro hf
    rw [hfetch] at hf
    exact Bool.noConfusion hf
  case exe =>
    intro he
    rw [hexe] at he
    exact Bool.noConfusion he
  case dec =>
    intro hd
    rw [hdec] at hd
    exact Bool.noConfusion hd
  case pcs =>
    intro hp
    rw [hp, hexe, hdec, h.pcs]
    rfl
  case pending =>
    intro hp
    rw [hp, if_pos rfl]
    exact ⟨hexe, hdec, hnone, rfl⟩

/-- The PC of the fetch stage is the PC register of its thread. -/
theorem next_fetchPc (hf : (s.next D i).inFetch t = true) :
    (s.next D i).ifPc = (s.next D i).ifRegPcs t :=
  next_ifPc D i (inFetch_iff.mp hf).2

theorem exeValid_of_redirects (htrap : s.traps t = false) (hred : s.redirects t = true) :
    s.exeValid = true := by
  obtain ⟨hvalid, htid⟩ := inExe_iff.mp (inExe_of_redirects hred)
  simp only [traps, htid, decide_true, Bool.and_true] at htrap
  rw [exeValid, hvalid, htrap]
  rfl

theorem PathInv.archStep_of_plain {pc : BitVec 32} (h : PathInv D t pc s)
    (htrap : s.traps t = false) (hred : s.redirects t = false) :
    s.archStep t pc = pc + ahead (s.inExe t) := by
  unfold archStep
  cases hexe : s.inExe t with
  | true =>
    rw [if_pos rfl, archNext_of_plain hexe htrap hred, h.exe hexe]
    rfl
  | false => simp [ahead]

/-- What is about to be loaded is loaded, and otherwise the PC goes on behind
    what has been fetched. -/
theorem PathInv.nextPcs {pc : BitVec 32} (h : PathInv D t pc s) (hred : s.redirects t = false) :
    s.nextPcs D t = pc + ahead (s.inExe t) + ahead (s.inDec t) + ahead (s.fetches t D) := by
  have hgo : s.pathPending t = false →
      (if s.fetches t D then s.ifPcPlus4 else s.ifRegPcs t) =
        pc + ahead (s.inExe t) + ahead (s.inDec t) + ahead (s.fetches t D) := by
    intro hp
    cases hf : s.fetches t D with
    | true =>
      rw [if_pos rfl, ifPcPlus4, h.fetch (inFetch_of_fetches D hf), h.pcs hp]
      rfl
    | false =>
      rw [if_neg Bool.false_ne_true, h.pcs hp]
      simp [ahead]
  have hload : s.pathPending t = true →
      s.pendingPc t = pc + ahead (s.inExe t) + ahead (s.inDec t) + ahead (s.fetches t D) := by
    intro hp
    obtain ⟨hexe, hdec, hf, hpc⟩ := h.pending hp
    rw [hexe, hdec, hf, hpc]
    simp [ahead]
  cases hreg : conf.regBrJmp with
  | true =>
    rw [nextPcs_eq_mem hreg]
    cases hp : s.pathPending t with
    | true => rw [if_pos rfl, hload hp]
    | false => rw [if_neg Bool.false_ne_true, hgo hp]
  | false =>
    have hjump : s.jumpPending t = false := by
      rw [jumpPending, hreg, Bool.false_and, Bool.false_and]
    have hpath : s.pathPending t = s.trapPending t := by rw [pathPending, hjump, Bool.or_false]
    rw [nextPcs_eq_exe D hreg, hred]
    cases hp : s.trapPending t with
    | true =>
      rw [if_pos rfl, ← hload (hpath.trans hp), pendingPc, hp, if_pos rfl]
    | false =>
      rw [if_neg Bool.false_ne_true, if_neg Bool.false_ne_true, hgo (hpath.trans hp)]

/-- A cycle after which nothing of the thread is left before the memory stage:
    its PC is loaded now or about to be. -/
theorem pathInv_of_gone {pc : BitVec 32} (hexe : (s.next D i).inExe t = false)
    (hdec : (s.next D i).inDec t = false)
    (hpcs : (s.next D i).pathPending t = false → s.nextPcs D t = pc)
    (hpending : (s.next D i).pathPending t = true →
      (s.next D i).fetches t D = false ∧ (s.next D i).pendingPc t = pc) :
    PathInv D t pc (s.next D i) := by
  constructor
  case fetch => exact next_fetchPc
  case exe =>
    intro he
    rw [hexe] at he
    exact Bool.noConfusion he
  case dec =>
    intro hd
    rw [hdec] at hd
    exact Bool.noConfusion hd
  case pcs =>
    intro hp
    rw [next_ifRegPcs, hpcs hp, hexe, hdec]
    simp [ahead]
  case pending => exact fun hp => ⟨hexe, hdec, (hpending hp).1, (hpending hp).2⟩

theorem pathInv_next_trap (hdec : ExeDecoded D s) (hapart : Apart s) {pc : BitVec 32}
    (htrap : s.traps t = true) : PathInv D t (s.archStep t pc) (s.next D i) := by
  obtain ⟨hexe', hdec'⟩ := younger_gone (D := D) (i := i) hapart (.inl htrap)
  have hpending : (s.next D i).trapPending t = true := by rw [next_trapPending, htrap]
  have hexc : s.exeException = true := by
    simp only [traps, Bool.and_eq_true] at htrap
    exact htrap.1
  refine pathInv_of_gone hexe' hdec' (fun hp => ?_) fun _ => ⟨?_, ?_⟩
  · rw [pathPending, hpending] at hp
    exact Bool.noConfusion hp
  · exact no_fetch_of_pending hapart (.inl htrap)
  · rw [pendingPc, hpending, if_pos rfl, archStep, if_pos (inExe_of_traps htrap),
      archNext_of_traps htrap, next_regEvecs (.inr (csr_not_written hdec hexc _))]

theorem pathInv_next_redirect (hdec : ExeDecoded D s) (hapart : Apart s) {pc : BitVec 32}
    (h : PathInv D t pc s) (htrap : s.traps t = false) (hred : s.redirects t = true) :
    PathInv D t (s.archStep t pc) (s.next D i) := by
  obtain ⟨hexe', hdec'⟩ := younger_gone (D := D) (i := i) hapart (.inr hred)
  have hexe := inExe_of_redirects hred
  have hvalid := exeValid_of_redirects htrap hred
  have hnone : (s.next D i).trapPending t = false := by rw [next_trapPending, htrap]
  have hstep : s.archStep t pc = s.exeAddress := by
    rw [archStep, if_pos hexe, archNext_of_redirects hdec htrap hred]
  rw [hstep]
  cases hreg : conf.regBrJmp with
  | true =>
    have hjump : (s.next D i).jumpPending t = true := by
      rw [next_jumpPending, hreg, hred, hvalid]
      rfl
    refine pathInv_of_gone hexe' hdec' (fun hp => ?_) fun _ => ⟨?_, ?_⟩
    · rw [pathPending, hjump, Bool.or_true] at hp
      exact Bool.noConfusion hp
    · refine no_fetch_of_pending hapart (.inr ?_)
      rw [hreg, hred, hvalid]
      rfl
    · rw [pendingPc, hnone, if_neg Bool.false_ne_true]
      rfl
  | false =>
    have hpending : s.trapPending t = false := by
      rw [Bool.eq_false_iff]
      intro hp
      have hpath : s.pathPending t = true := by rw [pathPending, hp, Bool.true_or]
      rw [(h.pending hpath).1] at hexe
      exact Bool.noConfusion hexe
    refine pathInv_of_gone hexe' hdec' (fun _ => ?_) fun hp => ?_
    · rw [nextPcs_eq_exe D hreg, hpending, if_neg Bool.false_ne_true, hred, if_pos rfl]
    · rw [pathPending, hnone, next_jumpPending, hreg, Bool.false_or, Bool.false_and,
        Bool.false_and] at hp
      exact Bool.noConfusion hp

theorem pathInv_next_plain {pc : BitVec 32} (h : PathInv D t pc s) (htrap : s.traps t = false)
    (hred : s.redirects t = false) : PathInv D t (s.archStep t pc) (s.next D i) := by
  have hflush : s.flushes t = false := by
    rw [flushes_eq_bypassing, htrap, hred, Bool.or_false, Bool.and_false]
  have hexe' : (s.next D i).inExe t = s.inDec t := by simp [next_inExe, hflush]
  have hdec' : (s.next D i).inDec t = s.fetches t D := by simp [next_inDec, hflush]
  have hnone : (s.next D i).pathPending t = false := by
    rw [pathPending, next_trapPending, htrap, next_jumpPending, hred, Bool.and_false,
      Bool.false_and, Bool.or_false]
  have hstep := h.archStep_of_plain htrap hred
  constructor
  case fetch => exact next_fetchPc
  case exe =>
    intro he
    rw [hexe'] at he
    rw [next_exeReg_pc, hstep, h.dec he]
  case dec =>
    intro hd
    rw [hdec'] at hd
    -- a PC that is about to be loaded has no fetch
    have hp : s.pathPending t = false := by
      rw [Bool.eq_false_iff]
      intro hp
      rw [(h.pending hp).2.2.1] at hd
      exact Bool.noConfusion hd
    rw [next_decReg_pc, hexe', hstep, h.fetch (inFetch_of_fetches D hd), h.pcs hp]
  case pcs =>
    intro _
    rw [next_ifRegPcs, h.nextPcs hred, hexe', hdec', hstep]
  case pending =>
    intro hp
    rw [hnone] at hp
    exact Bool.noConfusion hp

/-- **One cycle** keeps the path invariant. -/
theorem pathInv_next (hdec : ExeDecoded D s) (hapart : Apart s) {pc : BitVec 32}
    (h : PathInv D t pc s) : PathInv D t (s.archStep t pc) (s.next D i) := by
  cases htrap : s.traps t with
  | true => exact pathInv_next_trap hdec hapart htrap
  | false =>
    cases hred : s.redirects t with
    | true => exact pathInv_next_redirect hdec hapart h htrap hred
    | false => exact pathInv_next_plain h htrap hred

end CoreState

/-! ## Section 4: Every run -/

namespace SystemRun

variable {D : DecodeLogic conf} {sys : Nat → SystemState conf} {pins : Nat → Pins conf}
  {t : conf.Tid} {c k : Nat}

/-- The round robin keeps the stages apart. -/
theorem apart (h : SystemRun D sys pins) (c : Nat) : CoreState.Apart (sys c).core := by
  constructor
  case dec => exact fun hbypass hvalid => (h.stages_apart hbypass hvalid).1
  case fetch => exact fun hbypass hvalid => (h.stages_apart hbypass hvalid).2
  case next =>
    intro hbypass hvalid
    obtain ⟨k, rfl⟩ : ∃ k, c = k + 4 := ⟨c - 4, by have := h.issued_of_exe hvalid; omega⟩
    have hconf : 4 ≤ conf.threads ∧ conf.flex = false := by
      simpa [FlexpretConfiguration.bypassing] using hbypass
    have hthread := h.thread_eq hconf.2 (by omega)
    have hexe : (sys (k + 4)).core.exeReg.tid = ((sys k).coreIn (pins k)).thread := by
      rw [h.next (k + 3), h.next (k + 2), h.next (k + 1), h.next k]
      rfl
    have hnext : (sys (k + 4)).core.nextReg.tid =
        ((sys (k + 3)).coreIn (pins (k + 3))).thread := by
      rw [h.next (k + 3)]
      rfl
    intro heq
    rw [hexe, hnext] at heq
    -- the thread issued three cycles later is another one
    have hmod : (k + 3) % conf.threads = k % conf.threads := by rw [← hthread, ← hthread, heq]
    have hzero := Nat.sub_mod_eq_zero_of_mod_eq hmod
    rw [Nat.add_sub_cancel_left, Nat.mod_eq_of_lt (by omega)] at hzero
    omega

/-- Every thread has a path in every cycle of a run. -/
theorem pathInv (h : SystemRun D sys pins) (t : conf.Tid) (c : Nat) :
    ∃ pc, CoreState.PathInv D t pc (sys c).core := by
  induction c with
  | zero => exact CoreState.pathInv_reset h.reset t
  | succ c ih =>
    obtain ⟨pc, hpc⟩ := ih
    rw [h.core_next]
    exact ⟨_, CoreState.pathInv_next (h.core.exeDecoded c) (h.apart c) hpc⟩

/-- While no instruction of `t` is in execute its path stays. -/
theorem pathInv_stay (h : SystemRun D sys pins) {pc : BitVec 32} (hck : c ≤ k)
    (hpc : CoreState.PathInv D t pc (sys c).core)
    (hnone : ∀ j, c ≤ j → j < k → (sys j).core.inExe t = false) :
    CoreState.PathInv D t pc (sys k).core := by
  induction k, hck using Nat.le_induction with
  | base => exact hpc
  | succ k hck ih =>
    have hstep := CoreState.pathInv_next (i := (sys k).coreIn (pins k)) (h.core.exeDecoded k)
      (h.apart k) (ih fun j hj hj' => hnone j hj (Nat.lt_succ_of_lt hj'))
    rw [CoreState.archStep, hnone k hck (Nat.lt_succ_self k), if_neg Bool.false_ne_true,
      ← h.core_next] at hstep
    exact hstep

/-- **The next instruction** of a thread is the one that its last one goes on
    to. -/
theorem nextInstr (h : SystemRun D sys pins) (hck : c < k)
    (hexe : (sys c).core.inExe t = true) (hexe' : (sys k).core.inExe t = true)
    (hnone : ∀ j, c < j → j < k → (sys j).core.inExe t = false) :
    (sys k).core.exeReg.pc = (sys c).core.archNext := by
  obtain ⟨pc, hpc⟩ := h.pathInv t c
  have hstep := CoreState.pathInv_next (i := (sys c).coreIn (pins c)) (h.core.exeDecoded c)
    (h.apart c) hpc
  rw [CoreState.archStep, if_pos hexe, ← h.core_next] at hstep
  exact (h.pathInv_stay hck hstep fun j hj hj' => hnone j hj hj').exe hexe'

end SystemRun

end Flexpret.Core
