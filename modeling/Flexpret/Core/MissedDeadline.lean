import Flexpret.Core.Exceptions
import Flexpret.Lib.Transition

/-! # Missed Deadlines

    `mt` notes the deadline of a block, `fd` ends the block.  The comparison
    is made in the cycle after the `fd`, and its result is kept in the miss
    flag of the thread until the cycle after the execute stage next holds the
    thread, whether or not with a valid instruction.
-/

open Transition

namespace Flexpret.Core

variable {conf : FlexpretConfiguration}

/-! ## Section 1: What a cycle does to deadlines -/

namespace CoreState

variable (s : CoreState conf)

/-- `mt` or `mti` is committed. -/
def exeMt : Bool :=
  (s.exeValid && s.exeReg.sig.mtReg) || (s.exeValid && s.exeReg.mtImm)

/-- `fd` is committed. -/
def exeFd : Bool := s.exeValid && s.exeReg.sig.fd

/-- The deadline an `mt` or `mti` gives. -/
def exeMtfdVal : BitVec 32 :=
  if s.exeValid && s.exeReg.sig.mtReg then s.exeReg.rs1Data
  else if s.exeValid && s.exeReg.mtImm then (s.exeReg.inst.extractLsb' 12 20).setWidth 32
  else 0

variable (D : DecodeLogic conf) (i : CoreIn conf) (t : conf.Tid)

theorem next_regMtfd :
    (s.next D i).csr.regMtfd t =
      if s.exeMt && s.exeReg.tid = t then s.csr.time32 + s.exeMtfdVal else s.csr.regMtfd t :=
  assign_apply _ _ _ _ _

theorem next_fdReg : (s.next D i).csr.fdReg = s.exeFd := rfl

theorem next_threadReg : (s.next D i).csr.threadReg = s.exeReg.tid := rfl

/-- The flag of the thread that was in execute in the cycle before is written
    in every cycle. -/
theorem next_mtfdExceptionReg :
    (s.next D i).csr.mtfdExceptionReg t =
      if s.csr.threadReg = t then s.csr.mtfdMissed else s.csr.mtfdExceptionReg t := by
  show Function.update s.csr.mtfdExceptionReg s.csr.threadReg s.csr.mtfdMissed t = _
  by_cases htid : s.csr.threadReg = t
  · rw [htid, Function.update_self, if_pos rfl]
  · rw [Function.update_of_ne (Ne.symm htid), if_neg htid]

theorem next_time32 (hget : conf.getTime = true) :
    (s.next D i).csr.time32 = s.csr.time32 + 10 := by
  show ((if conf.getTime then s.csr.regTime + timeInc else s.csr.regTime).setWidth 32) = _
  rw [if_pos hget, BitVec.setWidth_add _ _ (by omega)]
  rfl

end CoreState

/-! ## Section 2: The miss flag over a run -/

section runs

variable {D : DecodeLogic conf} {st : Nat → CoreState conf} {inp : Nat → CoreIn conf}
  {t : conf.Tid}

/-- The flag written for the thread in execute in cycle `f` is still there in
    cycle `k`. -/
structure FlagVisible (st : Nat → CoreState conf) (t : conf.Tid) (f k : Nat) : Prop where
  written : f + 2 ≤ k
  kept : ∀ j, f < j → j + 2 ≤ k → (st j).exeReg.tid ≠ t

/-- **The miss flag** is the result of the last comparison for the thread. -/
theorem flag_iff (h : CoreRun D st inp) {c : Nat} (hc : (st c).exeReg.tid = t) {k : Nat}
    (hk : c + 2 ≤ k) :
    (st k).csr.mtfdExceptionReg t = true ↔
      ∃ f, c ≤ f ∧ (st f).exeReg.tid = t ∧ (st (f + 1)).csr.mtfdMissed = true ∧
        FlagVisible st t f k := by
  have hwritten : ∀ j, (st (j + 2)).csr.mtfdExceptionReg t =
      if (st j).exeReg.tid = t then (st (j + 1)).csr.mtfdMissed
      else (st (j + 1)).csr.mtfdExceptionReg t := by
    intro j
    rw [h.next (j + 1), CoreState.next_mtfdExceptionReg, h.next j, CoreState.next_threadReg]
  induction k, hk using Nat.le_induction with
  | base =>
    rw [hwritten, if_pos hc]
    constructor
    · intro hmissed
      exact ⟨c, Nat.le_refl c, hc, hmissed, Nat.le_refl _, fun j hj hj' => by omega⟩
    · intro ⟨f, hcf, _, hmissed, hvisible⟩
      have hle := hvisible.written
      obtain rfl : f = c := by omega
      exact hmissed
  | succ k hk ih =>
    obtain ⟨j, rfl⟩ : ∃ j, k = j + 1 := ⟨k - 1, by omega⟩
    rw [hwritten]
    by_cases htid : (st j).exeReg.tid = t
    · rw [if_pos htid]
      constructor
      · intro hmissed
        exact ⟨j, by omega, htid, hmissed, Nat.le_refl _, fun j' hj hj' => by omega⟩
      · intro ⟨f, _, _, hmissed, hvisible⟩
        have hle := hvisible.written
        obtain rfl : f = j := by
          by_contra hne
          exact hvisible.kept j (by omega) (Nat.le_refl _) htid
        exact hmissed
    · rw [if_neg htid]
      refine Iff.trans ih ?_
      constructor
      · intro ⟨f, hcf, hf, hmissed, hvisible⟩
        refine ⟨f, hcf, hf, hmissed, Nat.le_succ_of_le hvisible.written, fun j' hj hj' => ?_⟩
        rcases Nat.lt_or_eq_of_le hj' with hlt | heq
        · exact hvisible.kept j' hj (by omega)
        · obtain rfl : j' = j := by omega
          exact htid
      · intro ⟨f, hcf, hf, hmissed, hvisible⟩
        have hle := hvisible.written
        have hne : f ≠ j := fun heq => htid (heq ▸ hf)
        exact ⟨f, hcf, hf, hmissed, by omega, fun j' hj hj' => hvisible.kept j' hj (by omega)⟩

/-! ## Section 3: The deadline over a run -/

theorem inExe_of_exeMt (s : CoreState conf) (htid : s.exeReg.tid = t) (h : s.exeMt = true) :
    s.inExe t = true := by
  have hvalid : s.exeValid = true := by
    simp only [CoreState.exeMt, Bool.or_eq_true, Bool.and_eq_true] at h
    rcases h with h | h <;> exact h.1
  exact CoreState.inExe_iff.mpr ⟨CoreState.exeReg_valid_of_valid hvalid, htid⟩

theorem inExe_of_exeFd (s : CoreState conf) (htid : s.exeReg.tid = t) (h : s.exeFd = true) :
    s.inExe t = true := by
  simp only [CoreState.exeFd, Bool.and_eq_true] at h
  exact CoreState.inExe_iff.mpr ⟨CoreState.exeReg_valid_of_valid h.1, htid⟩

theorem CoreRun.exeReg_mtImm (h : CoreRun D st inp) {c : Nat}
    (hvalid : (st c).exeReg.valid = true) (hmt : (st c).exeReg.mtImm = true) :
    (st c).exeReg.sig.mtImm = true := by
  cases c with
  | zero =>
    rw [h.reset.exeValid] at hvalid
    exact absurd hvalid Bool.false_ne_true
  | succ c =>
    rw [h.next] at hmt ⊢
    exact (Bool.and_eq_true_iff.mp hmt).1

/-- No instruction is both `mt` and `fd`. -/
theorem exeMt_of_exeFd (h : CoreRun D st inp) {c : Nat} (hfd : (st c).exeFd = true) :
    (st c).exeMt = false := by
  simp only [CoreState.exeFd, Bool.and_eq_true] at hfd
  have hvalid := CoreState.exeReg_valid_of_valid hfd.1
  have hkind := ((h.exeDecoded c).exclusive hvalid).fd hfd.2
  have hreg : (st c).exeReg.sig.mtReg = false := congrArg Flags.mtReg hkind
  have himm : (st c).exeReg.mtImm = false := by
    rw [Bool.eq_false_iff]
    intro hmt
    have hsig := h.exeReg_mtImm hvalid hmt
    rw [congrArg Flags.mtImm hkind] at hsig
    exact absurd hsig Bool.false_ne_true
  simp only [CoreState.exeMt, hreg, himm, Bool.and_false, Bool.or_false]

theorem time32_add (h : CoreRun D st inp) (hget : conf.getTime = true) (a n : Nat) :
    (st (a + n)).csr.time32 = (st a).csr.time32 + BitVec.ofNat 32 (10 * n) := by
  induction n with
  | zero => simp
  | succ n ih =>
    rw [← Nat.add_assoc, h.next, CoreState.next_time32 _ _ _ hget, ih, Nat.mul_succ,
      BitVec.ofNat_add, BitVec.add_assoc]
    rfl

/-- The deadline stays until the next `mt` of its thread. -/
theorem regMtfd_kept (h : CoreRun D st inp) {a c : Nat} (hac : a < c)
    (hmark : (st a).inExe t = true ∧ (st a).exeMt = true)
    (hnone : ∀ j, a < j → j < c → (st j).inExe t = true → (st j).exeMt = false) :
    (st c).csr.regMtfd t = (st a).csr.time32 + (st a).exeMtfdVal := by
  induction c with
  | zero => exact absurd hac (Nat.not_lt_zero a)
  | succ c ih =>
    rw [h.next, CoreState.next_regMtfd]
    rcases Nat.lt_succ_iff_lt_or_eq.mp hac with hlt | rfl
    · have hnot : ((st c).exeMt && decide ((st c).exeReg.tid = t)) = false := by
        rw [Bool.eq_false_iff]
        intro hmt
        simp only [Bool.and_eq_true, decide_eq_true_eq] at hmt
        have hfalse := hnone c hlt (Nat.lt_succ_self c) (inExe_of_exeMt _ hmt.2 hmt.1)
        rw [hmt.1] at hfalse
        exact absurd hfalse.symm Bool.false_ne_true
      rw [hnot, if_neg Bool.false_ne_true]
      exact ih hlt fun j haj hjc => hnone j haj (Nat.lt_succ_of_lt hjc)
    · obtain ⟨-, htid⟩ := CoreState.inExe_iff.mp hmark.1
      simp [hmark.2, htid]

/-- A deadline `v` after the start has come `n` after it. -/
theorem reached_iff {start v : BitVec 32} {n : Nat} (hv : v.toNat ≤ n) :
    reached (start + BitVec.ofNat 32 n) (start + v) = true ↔
      (n - v.toNat) % 2 ^ 32 < 2 ^ 31 := by
  have hv32 := v.isLt
  have hsub : (start + BitVec.ofNat 32 n - (start + v)).toNat = (n - v.toNat) % 2 ^ 32 := by
    rw [BitVec.toNat_sub, BitVec.toNat_add, BitVec.toNat_add, BitVec.toNat_ofNat]
    omega
  rw [reached, Bool.not_eq_true', BitVec.msb_eq_false_iff_two_mul_lt, hsub]
  omega

/-! ## Section 4: A block that misses its deadline -/

/-- **A late block** of thread `t`: its `mt` is committed in cycle `a` and its
    `fd` in cycle `s`, when the time given is over, and `k₁` and `k₂` are the
    cycles of the next two valid instructions of `t`. -/
structure LateBlock (st : Nat → CoreState conf) (t : conf.Tid) (a s k₁ k₂ : Nat) : Prop where
  mark : (st a).inExe t = true ∧ (st a).exeMt = true
  fd : (st s).inExe t = true ∧ (st s).exeFd = true
  order : a < s ∧ s < k₁ ∧ k₁ < k₂
  /-- The `fd` is the one of this `mt`. -/
  matching : ∀ c, a < c → c < s → (st c).inExe t = true →
    (st c).exeMt = false ∧ (st c).exeFd = false
  short : (st a).exeMtfdVal.toNat < 2 ^ 31
  /-- A cycle takes ten nanoseconds. -/
  late : (st a).exeMtfdVal.toNat ≤ 10 * (s - a)
  first : (st k₁).inExe t = true ∧ ∀ c, s < c → c < k₁ → (st c).inExe t = false
  second : (st k₂).inExe t = true ∧ ∀ c, k₁ < c → c < k₂ → (st c).inExe t = false
  noTrap : ∀ k, k = k₁ ∨ k = k₂ → (st k).traps t = true → (st k).exeCause = Causes.fd

/-- The `fd` in cycle `f` (that of the block, or the instruction after it if
    that is one too) finds the deadline over, and one of the two instructions
    is in execute while the flag is up.  The deadline zero means none, and the
    clock compares modulo its width. -/
structure MissSeen (st : Nat → CoreState conf) (t : conf.Tid) (a s k₁ k₂ : Nat) : Prop where
  supported : conf.interruptExpire = true
  deadline : (st a).csr.time32 + (st a).exeMtfdVal ≠ 0
  seen : ∃ f k, (f = s ∨ f = k₁) ∧ (k = k₁ ∨ k = k₂) ∧ (st f).exeFd = true ∧
    (10 * (f + 1 - a) - (st a).exeMtfdVal.toNat) % 2 ^ 32 < 2 ^ 31 ∧ FlagVisible st t f k

section block

variable {a s k₁ k₂ : Nat}

/-- The comparison in the cycle after an `fd` of the block. -/
theorem LateBlock.missed_iff (hb : LateBlock st t a s k₁ k₂) (h : CoreRun D st inp)
    (hconf : conf.interruptExpire = true) {f : Nat} (hf : f = s ∨ f = k₁)
    (htid : (st f).exeReg.tid = t) :
    (st (f + 1)).csr.mtfdMissed = true ↔
      (st f).exeFd = true ∧ (st a).csr.time32 + (st a).exeMtfdVal ≠ 0 ∧
        (10 * (f + 1 - a) - (st a).exeMtfdVal.toNat) % 2 ^ 32 < 2 ^ 31 := by
  obtain ⟨has, hsk, hkk⟩ := hb.order
  have hfd : (st (f + 1)).csr.fdReg = (st f).exeFd := by rw [h.next, CoreState.next_fdReg]
  have hthread : (st (f + 1)).csr.threadReg = t := by
    rw [h.next, CoreState.next_threadReg, htid]
  rw [CsrState.mtfdMissed, hfd, hthread]
  cases hset : (st f).exeFd with
  | false => simp
  | true =>
    -- between the `mt` and this `fd` no instruction of the thread is an `mt`
    have hnone : ∀ j, a < j → j < f + 1 → (st j).inExe t = true → (st j).exeMt = false := by
      intro j haj hjf hexe
      rcases Nat.lt_trichotomy j s with hlt | rfl | hgt
      · exact (hb.matching j haj hlt hexe).1
      · exact exeMt_of_exeFd h hb.fd.2
      · obtain rfl : f = k₁ := by omega
        rcases Nat.lt_or_eq_of_le (Nat.le_of_lt_succ hjf) with hlt | rfl
        · rw [hb.first.2 j hgt hlt] at hexe
          exact absurd hexe Bool.false_ne_true
        · exact exeMt_of_exeFd h hset
    have haf : a < f + 1 := by omega
    have hget : conf.getTime = true := by
      simp [FlexpretConfiguration.getTime, hconf]
    have htime := time32_add h hget a (f + 1 - a)
    rw [show a + (f + 1 - a) = f + 1 by omega] at htime
    have hlate : (st a).exeMtfdVal.toNat ≤ 10 * (f + 1 - a) := by
      have := hb.late
      omega
    rw [regMtfd_kept h haf hb.mark hnone, htime, Bool.true_and, Bool.and_eq_true,
      decide_eq_true_eq, reached_iff hlate]
    simp

/-- Until the `fd` takes effect the flag is down. -/
theorem LateBlock.flag_before (hb : LateBlock st t a s k₁ k₂) (h : CoreRun D st inp)
    (hconf : conf.interruptExpire = true) : (st (s + 1)).csr.mtfdExceptionReg t = false := by
  obtain ⟨has, -, -⟩ := hb.order
  obtain ⟨j, rfl⟩ : ∃ j, s = j + 1 := ⟨s - 1, by omega⟩
  rw [h.next (j + 1), CoreState.next_mtfdExceptionReg]
  have hthread : (st (j + 1)).csr.threadReg = (st j).exeReg.tid := by
    rw [h.next, CoreState.next_threadReg]
  have hfdReg : (st (j + 1)).csr.fdReg = (st j).exeFd := by rw [h.next, CoreState.next_fdReg]
  split
  · next htid =>
    rw [hthread] at htid
    have hnofd : (st j).exeFd = false := by
      rw [Bool.eq_false_iff]
      intro hfd
      rcases Nat.lt_or_eq_of_le (Nat.le_of_lt_succ has) with hlt | rfl
      · have hfalse := (hb.matching j hlt (Nat.lt_succ_self j) (inExe_of_exeFd _ htid hfd)).2
        rw [hfd] at hfalse
        exact absurd hfalse.symm Bool.false_ne_true
      · have hmt := exeMt_of_exeFd h hfd
        rw [hb.mark.2] at hmt
        exact absurd hmt.symm Bool.false_ne_true
    rw [CsrState.mtfdMissed, hfdReg, hnofd, Bool.false_and, Bool.false_and]
  · -- the `fd` itself would have trapped
    rw [Bool.eq_false_iff]
    intro hflag
    have htrap := CoreState.traps_of_flag hconf hb.fd.1 hflag
    have hvalid : (st (j + 1)).exeValid = true := (Bool.and_eq_true_iff.mp hb.fd.2).1
    have hexc : (st (j + 1)).exeException = true := (Bool.and_eq_true_iff.mp htrap).1
    simp only [CoreState.exeValid, hexc, Bool.not_true, Bool.and_false] at hvalid
    exact absurd hvalid Bool.false_ne_true

/-- When the flag is up at one of the two instructions. -/
theorem LateBlock.flag_iff (hb : LateBlock st t a s k₁ k₂) (h : CoreRun D st inp)
    (hconf : conf.interruptExpire = true) {k : Nat} (hk : k = k₁ ∨ k = k₂) :
    (st k).csr.mtfdExceptionReg t = true ↔
      (st a).csr.time32 + (st a).exeMtfdVal ≠ 0 ∧
        ∃ f, (f = s ∨ f = k₁) ∧ (st f).exeFd = true ∧
          (10 * (f + 1 - a) - (st a).exeMtfdVal.toNat) % 2 ^ 32 < 2 ^ 31 ∧
          FlagVisible st t f k := by
  obtain ⟨has, hsk, hkk⟩ := hb.order
  obtain ⟨-, htid⟩ := CoreState.inExe_iff.mp hb.fd.1
  obtain ⟨-, htid₁⟩ := CoreState.inExe_iff.mp hb.first.1
  by_cases hlate : s + 2 ≤ k
  · rw [Core.flag_iff h htid hlate]
    constructor
    · intro ⟨f, hsf, hf, hmissed, hvisible⟩
      have hle := hvisible.written
      have hfd : (st (f + 1)).csr.fdReg = true := by
        simp only [CsrState.mtfdMissed, Bool.and_eq_true] at hmissed
        exact hmissed.1.1
      rw [h.next, CoreState.next_fdReg] at hfd
      -- an `fd` after the one of the block is one of the two instructions
      have hcase : f = s ∨ f = k₁ := by
        have hexe := inExe_of_exeFd _ hf hfd
        by_contra hne
        by_cases hlt : f < k₁
        · rw [hb.first.2 f (by omega) hlt] at hexe
          exact absurd hexe Bool.false_ne_true
        · rw [hb.second.2 f (by omega) (by omega)] at hexe
          exact absurd hexe Bool.false_ne_true
      obtain ⟨-, hdeadline, htime⟩ := (hb.missed_iff h hconf hcase hf).mp hmissed
      exact ⟨hdeadline, f, hcase, hfd, htime, hvisible⟩
    · intro ⟨hdeadline, f, hcase, hfd, htime, hvisible⟩
      have hf : (st f).exeReg.tid = t := by rcases hcase with rfl | rfl <;> assumption
      exact ⟨f, by omega, hf, (hb.missed_iff h hconf hcase hf).mpr ⟨hfd, hdeadline, htime⟩,
        hvisible⟩
  · obtain rfl : k = s + 1 := by omega
    rw [hb.flag_before h hconf]
    constructor
    · intro hfalse
      exact absurd hfalse Bool.false_ne_true
    · intro ⟨_, f, hcase, _, _, hvisible⟩
      have hle := hvisible.written
      omega

theorem LateBlock.takes_fd_iff (hb : LateBlock st t a s k₁ k₂) (h : CoreRun D st inp) {k : Nat}
    (hk : k = k₁ ∨ k = k₂) :
    (st k).takes Causes.fd t = true ↔
      conf.interruptExpire = true ∧ (st k).csr.mtfdExceptionReg t = true := by
  have hexe : (st k).inExe t = true := by
    rcases hk with rfl | rfl
    · exact hb.first.1
    · exact hb.second.1
  have hcause := h.exeReg_cause (CoreState.inExe_iff.mp hexe).1
  constructor
  · intro htakes
    have hconf := CoreState.interruptExpire_of_takes (by decide) hcause htakes
    exact ⟨hconf, ((CoreState.takes_fd_iff hconf hcause).mp htakes).2.2.2⟩
  · intro ⟨hconf, hflag⟩
    have htrap := CoreState.traps_of_flag hconf hexe hflag
    simp only [CoreState.takes, htrap, hb.noTrap k hk htrap, decide_true, Bool.and_self]

end block

end runs

/-- **Detection of missed deadlines**: in every run, a late block raises the
    `fd` exception at one of the two instructions after it exactly when the
    miss is seen there. -/
theorem lateBlock_detected_iff (D : DecodeLogic conf) (st : Nat → CoreState conf)
    (inp : Nat → CoreIn conf) (h : CoreRun D st inp) (t : conf.Tid) (a s k₁ k₂ : Nat)
    (hb : LateBlock st t a s k₁ k₂) :
    ((st k₁).takes Causes.fd t = true ∨ (st k₂).takes Causes.fd t = true) ↔
      MissSeen st t a s k₁ k₂ := by
  rw [hb.takes_fd_iff h (.inl rfl), hb.takes_fd_iff h (.inr rfl)]
  constructor
  · intro hflag
    obtain ⟨k, hk, hconf, hflag⟩ : ∃ k, (k = k₁ ∨ k = k₂) ∧ conf.interruptExpire = true ∧
        (st k).csr.mtfdExceptionReg t = true := by
      rcases hflag with ⟨hconf, hflag⟩ | ⟨hconf, hflag⟩
      · exact ⟨k₁, .inl rfl, hconf, hflag⟩
      · exact ⟨k₂, .inr rfl, hconf, hflag⟩
    obtain ⟨hdeadline, f, hcase, hfd, htime, hvisible⟩ := (hb.flag_iff h hconf hk).mp hflag
    exact ⟨hconf, hdeadline, f, k, hcase, hk, hfd, htime, hvisible⟩
  · intro ⟨hconf, hdeadline, f, k, hcase, hk, hfd, htime, hvisible⟩
    have hflag := (hb.flag_iff h hconf hk).mpr ⟨hdeadline, f, hcase, hfd, htime, hvisible⟩
    rcases hk with rfl | rfl
    · exact .inl ⟨hconf, hflag⟩
    · exact .inr ⟨hconf, hflag⟩

/-! ## Section 5: A block of one instruction -/

/-- `mti 5` and `fd`, then an instruction and no-ops. -/
def fiveNs (inst : BitVec 32) (a : Nat) : BitVec 32 :=
  if a = 0 then 0x00005037 else if a = 1 then 0x0000707b else if a = 2 then inst else 0x13

/-- Thread 0 alone runs the block. -/
def fiveNsRun (inst : BitVec 32) : Nat → CoreState conf4tf :=
  Machine.trace (CoreState.next (DecodeLogic.zeros conf4tf)) (coreZero conf4tf (fiveNs inst))
    fun _ => issue conf4tf 0

theorem fiveNsRun_coreRun (inst : BitVec 32) :
    CoreRun (DecodeLogic.zeros conf4tf) (fiveNsRun inst) fun _ => issue conf4tf 0 :=
  coreRun_trace _ (coreZero_reset conf4tf (fiveNs inst)) _

/-- A no-op follows the `fd`, and the instruction after it traps. -/
theorem fiveNs_detected :
    (fiveNsRun 0x13 6).takes Causes.fd (0 : Fin 4) = true ∨
      (fiveNsRun 0x13 7).takes Causes.fd (0 : Fin 4) = true := by
  refine (lateBlock_detected_iff _ _ _ (fiveNsRun_coreRun 0x13) (0 : Fin 4) 4 5 6 7 ?_).mpr ?_
  · constructor
    case mark => decide +kernel
    case fd => decide +kernel
    case order => decide
    case matching => intro c hc hc'; omega
    case short => decide +kernel
    case late => decide +kernel
    case first => exact ⟨by decide +kernel, fun c hc hc' => by omega⟩
    case second => exact ⟨by decide +kernel, fun c hc hc' => by omega⟩
    case noTrap =>
      intro k hk
      rcases hk with rfl | rfl
      · decide +kernel
      · decide +kernel
  · constructor
    case supported => rfl
    case deadline => decide +kernel
    case seen =>
      refine ⟨5, 7, .inl rfl, .inr rfl, by decide +kernel, by decide +kernel, Nat.le_refl 7, ?_⟩
      intro j hj hj'
      omega

/-- A load follows the `fd`: when the flag is up the execute stage is empty. -/
theorem fiveNs_missed :
    CoreRun (DecodeLogic.zeros conf4tf) (fiveNsRun 0x00002283) (fun _ => issue conf4tf 0) ∧
    LateBlock (fiveNsRun 0x00002283) (0 : Fin 4) 4 5 6 8 ∧
    ¬ ((fiveNsRun 0x00002283 6).takes Causes.fd (0 : Fin 4) = true ∨
      (fiveNsRun 0x00002283 8).takes Causes.fd (0 : Fin 4) = true) := by
  refine ⟨fiveNsRun_coreRun 0x00002283, ?_, by decide +kernel⟩
  constructor
  case mark => decide +kernel
  case fd => decide +kernel
  case order => decide
  case matching => intro c hc hc'; omega
  case short => decide +kernel
  case late => decide +kernel
  case first => exact ⟨by decide +kernel, fun c hc hc' => by omega⟩
  case second =>
    refine ⟨by decide +kernel, fun c hc hc' => ?_⟩
    obtain rfl : c = 7 := by omega
    decide +kernel
  case noTrap =>
    intro k hk
    rcases hk with rfl | rfl
    · decide +kernel
    · decide +kernel

end Flexpret.Core
