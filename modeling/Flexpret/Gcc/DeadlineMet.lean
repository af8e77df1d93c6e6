import Flexpret.Core.MissedDeadline
import Flexpret.Gcc.CycleTable
import Flexpret.Gcc.History
import Flexpret.Gcc.WorstCase

/-! # Accepted Deadlines Are Met

    The pass and the core together: where the compiler finds that a deadline is met at
    the frequency of a thread, the fd of the block is in execute before the deadline
    whatever path the thread takes, and the core does not raise a missed deadline.
-/

open Graph Relation Transition

namespace Flexpret.Gcc

open Flexpret.Core (FlexpretConfiguration DecodeLogic CoreState CoreIn CoreRun CsrState instrOf
  issueSlots issueSlots_pos issuedEvery_next IssuedEvery reached time32_add regMtfd_kept
  exeMt_of_exeFd decodeRow column issueSlots_le_cycles conf4tf issue coreRun_trace coreZero
  coreZero_reset aloneRun alone_issuedEvery)

/-! ## Section 1: What the pass reports -/

section report

variable {f : Func} {st : MtfdState} {report : Report}

/-- What is reported with a time: the costliest path, and the verdict on it. -/
structure ReportOf (report : Report) (f : Func) (pair : MtfdPair) : Prop where
  greatest : ∀ j, IsGreatest (pathCosts f pair j) (report.maxCycle j)
  verdict : report.meetDdl = meetDdl pair.deadline report.maxCycle

/-- A report of the pass on a function. -/
theorem timingBetweenMtFd_report (hrows : f.RowsOf st) {i : Nat}
    (hpair : f.Recorded (st.mtfdInsn i)) {q : List Nat} (hpath : MtfdPath f (st.mtfdInsn i) q)
    (h : (timingBetweenMtFd f st).1.pairs[i]? = some (.timing report)) :
    ReportOf report f (st.mtfdInsn i) := by
  unfold timingBetweenMtFd at h
  split at h
  · simp at h
  · obtain ⟨⟨pair, hget, hresult⟩, -⟩ := timingPairs_result_iff.mp h
    obtain ⟨-, rfl⟩ := range_pairs.mp hget
    obtain ⟨htime, hverdict⟩ := pairTiming_report (pairState_rows hrows i) hpair hresult.symm
    constructor
    case greatest => exact fun j => (htime j).greatest hpath
    case verdict => exact hverdict

end report

/-! ## Section 2: Code on the core -/

section code

variable {conf : FlexpretConfiguration}

/-- The instruction of `t` in execute is what `x` is assembled to, and the pass charges
    for it. -/
structure CodeAt (tr : Nat → CoreState conf) (t : conf.Tid) (c : Nat) (x : Rtx) : Prop where
  inExe : (tr c).inExe t = true
  assembled : ∃ k name, instrOf (tr c).exeReg.inst = some k ∧ x.insnName = some name ∧
    insnKey name ∈ k.mnemonics
  charged : x.entry.isSome = true

/-- **Running through code**: the instructions of `t` in execute from cycle `c` to cycle
    `s` are those of the code, one after the other. -/
inductive RunsThrough (tr : Nat → CoreState conf) (t : conf.Tid) : Nat → List Rtx → Nat → Prop
  where
  | last {c : Nat} {x : Rtx} : CodeAt tr t c x → RunsThrough tr t c [x] c
  | note {c s : Nat} {xs : List Rtx} : RunsThrough tr t c xs s →
      RunsThrough tr t c (.note :: xs) s
  | next {c c' s : Nat} {x : Rtx} {xs : List Rtx} : CodeAt tr t c x → c < c' →
      (tr c').inExe t = true → (∀ k, c < k → k < c' → (tr k).inExe t = false) →
      RunsThrough tr t c' xs s → RunsThrough tr t c (x :: xs) s

variable {tr : Nat → CoreState conf} {t : conf.Tid}

theorem CodeAt.cost {c : Nat} {x : Rtx} (h : CodeAt tr t c x) {p : Nat} (hp : 0 < p) :
    ∃ k, instrOf (tr c).exeReg.inst = some k ∧
      issueSlots (k.row conf).toFlags p ≤ x.cost (column p) := by
  obtain ⟨k, name, hk, hname, hmem⟩ := h.assembled
  obtain ⟨cycles, hcycles⟩ := Option.isSome_iff_exists.mp h.charged
  refine ⟨k, hk, ?_⟩
  rw [Rtx.cost, hcycles, Option.getD_some]
  rw [Rtx.entry, hname, Option.bind_some] at hcycles
  exact issueSlots_le_cycles hmem hcycles hp

end code

/-! ## Section 3: How long code takes -/

section bound

variable {conf : FlexpretConfiguration} {D : DecodeLogic conf} {tr : Nat → CoreState conf}
  {inp : Nat → CoreIn conf} {t : conf.Tid} {a p : Nat}

/-- What the timing of a thread rests on in the first `n` cycles: it takes no trap and
    does not sleep, and only its own FENCE.I stalls it. -/
structure Undelayed (D : DecodeLogic conf) (tr : Nat → CoreState conf) (t : conf.Tid) (n : Nat) :
    Prop where
  quiet : ∀ x, x < n → (tr x).Quiet t
  ownFence : ∀ x, x < n → (tr x).OwnFence t D

theorem Undelayed.mono {n m : Nat} (h : Undelayed D tr t n) (hm : m ≤ n) :
    Undelayed D tr t m where
  quiet := fun x hx => h.quiet x (hx.trans_le hm)
  ownFence := fun x hx => h.ownFence x (hx.trans_le hm)

/-- **One instruction** takes at most the cycles charged for it. -/
theorem codeAt_next (hflex : conf.flex = true) (hmul : conf.mul = false) (h : CoreRun D tr inp)
    (hp : 0 < p) (hissue : IssuedEvery inp t a p) {c c' : Nat} {x : Rtx}
    (hcode : CodeAt tr t c x)
    (hnone : ∀ k, c < k → k < c' → (tr k).inExe t = false)
    (hundelayed : Undelayed D tr t (c + p * x.cost (column p))) :
    c' ≤ c + p * x.cost (column p) := by
  obtain ⟨k, hk, hslots⟩ := hcode.cost hp
  have hflags := (h.exeDecoded c).flags (CoreState.inExe_iff.mp hcode.inExe).1
  rw [decodeRow, hk] at hflags
  have hle : p * issueSlots (tr c).exeReg.sig.toFlags p ≤ p * x.cost (column p) := by
    rw [hflags]
    exact Nat.mul_le_mul_left p hslots
  have hrun := h.eq_trace
  have hin := hcode.inExe
  rw [hrun c] at hin
  obtain ⟨n, hn, hbound, hexen, -⟩ := issuedEvery_next hflex hmul D h.reset inp hp hissue hin rfl
    (fun x hx => by
      rw [← hrun x]
      exact hundelayed.quiet x (by rw [← hrun c] at hx; omega))
    fun x hx => by
      rw [← hrun x]
      exact hundelayed.ownFence x (by rw [← hrun c] at hx; omega)
  rw [← hrun n] at hexen
  rw [← hrun c] at hbound
  have hfirst : c' ≤ n := by
    by_contra hlate
    rw [hnone n hn (Nat.lt_of_not_le hlate)] at hexen
    exact Bool.noConfusion hexen
  omega

/-- **Code** takes at most what is charged for all of it, but for the last period. -/
theorem RunsThrough.bounded (hflex : conf.flex = true) (hmul : conf.mul = false)
    (h : CoreRun D tr inp) (hp : 0 < p) (hissue : IssuedEvery inp t a p) {c s : Nat}
    {xs : List Rtx} (hruns : RunsThrough tr t c xs s)
    (hundelayed : Undelayed D tr t (c + p * cost xs (column p))) :
    s + p ≤ c + p * cost xs (column p) := by
  induction hruns with
  | @last c x hcode =>
    obtain ⟨k, -, hslots⟩ := hcode.cost hp
    have hone : 1 ≤ x.cost (column p) := (issueSlots_pos _ p).trans_le hslots
    have hle := Nat.mul_le_mul_left p hone
    rw [cost_cons, cost_nil, add_zero]
    omega
  | note _ ih =>
    have hfree : Rtx.note.cost = 0 := rfl
    rw [cost_cons, hfree, zero_add] at hundelayed ⊢
    exact ih hundelayed
  | @next c c' s x xs hcode _ _ hnone _ ih =>
    rw [cost_cons, Pi.add_apply, Nat.mul_add] at hundelayed ⊢
    have hfirst := codeAt_next hflex hmul h hp hissue hcode hnone
      (hundelayed.mono (by omega))
    have hrest := ih (hundelayed.mono (by omega))
    omega

end bound

/-! ## Section 4: Deadlines -/

/-- The column of a frequency is that of a thread issued as often. -/
theorem column_succ (j : Fin 4) : column (j.val + 1) = j.castSucc := by
  obtain rfl | rfl | rfl | rfl : j = 0 ∨ j = 1 ∨ j = 2 ∨ j = 3 := by decide +revert
  all_goals rfl

theorem actualTime_castSucc (maxCycle : Fin 5 → Int) (j : Fin 4) :
    actualTime maxCycle j.castSucc = maxCycle j.castSucc * ((j.val + 1 : Nat) : Int) * 10 := by
  obtain rfl | rfl | rfl | rfl : j = 0 ∨ j = 1 ∨ j = 2 ∨ j = 3 := by decide +revert
  · exact congrArg (· * (10 : Int)) (mul_one _).symm
  all_goals rfl

section deadline

variable {conf : FlexpretConfiguration}

/-- **A timed block** of thread `t`: from its mt in cycle `c` to its fd in cycle `s` the
    thread runs through the code of a path `q`, and the mt notes the deadline that the
    pass has read. -/
structure TimedBlock (tr : Nat → CoreState conf) (t : conf.Tid) (f : Func) (pair : MtfdPair)
    (q : List Nat) (c s : Nat) : Prop where
  path : MtfdPath f pair q
  runs : RunsThrough tr t c (pathInsns f pair q) s
  mt : (tr c).exeMt = true
  deadline : (tr c).exeMtfdVal.toNat = pair.deadline
  only : ∀ k, c < k → k < s → (tr k).inExe t = true → (tr k).exeMt = false

theorem RunsThrough.ends {tr : Nat → CoreState conf} {t : conf.Tid} {c s : Nat} {xs : List Rtx}
    (h : RunsThrough tr t c xs s) :
    c ≤ s ∧ (tr c).inExe t = true ∧ (tr s).inExe t = true := by
  induction h with
  | last hcode => exact ⟨le_rfl, hcode.inExe, hcode.inExe⟩
  | note _ ih => exact ih
  | next hcode hlt _ _ _ ih => exact ⟨hlt.le.trans ih.1, hcode.inExe, ih.2.2⟩

/-- No deadline is missed that comes after the fd takes effect. -/
theorem not_missed {D : DecodeLogic conf} {tr : Nat → CoreState conf} {inp : Nat → CoreIn conf}
    (h : CoreRun D tr inp) (hget : conf.getTime = true) {t : conf.Tid} {c s : Nat}
    (hmark : (tr c).inExe t = true ∧ (tr c).exeMt = true) (hcs : c ≤ s)
    (hexe : (tr s).inExe t = true)
    (honly : ∀ k, c < k → k < s → (tr k).inExe t = true → (tr k).exeMt = false)
    (hshort : (tr c).exeMtfdVal.toNat < 2 ^ 31)
    (hearly : 10 * (s + 1 - c) < (tr c).exeMtfdVal.toNat) :
    (tr (s + 1)).csr.mtfdMissed = false := by
  have hfdReg : (tr (s + 1)).csr.fdReg = (tr s).exeFd := by rw [h.next, CoreState.next_fdReg]
  have hthread : (tr (s + 1)).csr.threadReg = t := by
    rw [h.next, CoreState.next_threadReg]
    exact (CoreState.inExe_iff.mp hexe).2
  rw [CsrState.mtfdMissed, hfdReg, hthread]
  cases hfd : (tr s).exeFd with
  | false => rfl
  | true =>
    have hnone : ∀ k, c < k → k < s + 1 → (tr k).inExe t = true → (tr k).exeMt = false := by
      intro k hck hks hin
      obtain hlt | rfl := Nat.lt_or_eq_of_le (Nat.le_of_lt_succ hks)
      · exact honly k hck hlt hin
      · exact exeMt_of_exeFd h hfd
    have htime := time32_add h hget c (s + 1 - c)
    rw [show c + (s + 1 - c) = s + 1 by omega] at htime
    rw [regMtfd_kept h (Nat.lt_succ_of_le hcs) hmark hnone, htime]
    have hreached : reached ((tr c).csr.time32 + BitVec.ofNat 32 (10 * (s + 1 - c)))
        ((tr c).csr.time32 + (tr c).exeMtfdVal) = false := by
      rw [reached, Bool.not_eq_false', BitVec.msb_eq_decide, decide_eq_true_iff]
      rw [BitVec.toNat_sub, BitVec.toNat_add, BitVec.toNat_add, BitVec.toNat_ofNat]
      omega
    rw [hreached, Bool.and_false]

end deadline

/-- `mti 1000` and `fd` in one block. -/
def shortBlock : Func where
  blocks := [⟨2, [.asm "lui zero, 1000", .asm "custom3 zero"], [1]⟩]
  nodup := by decide
  index_lt := by decide
  succs_mem := by decide

/-- `lui x0, 1000` and FD. -/
def shortCode (a : Nat) : BitVec 32 :=
  if a = 0 then 0x003e8037 else if a = 1 then 0x0000707b else 0x13

/-- What the pass and the core make of the block. -/
theorem shortBlock_facts :
    ((scanBbTiming shortBlock MtfdState.zero).1 = none ∧ 0 < (scanned shortBlock).fdInsnLen ∧
      ((scanned shortBlock).mtfdInsn 0).mtBb = 2 ∧ ((scanned shortBlock).mtfdInsn 0).mt = 0 ∧
      ((scanned shortBlock).mtfdInsn 0).fdBb = 2 ∧ ((scanned shortBlock).mtfdInsn 0).fd = 1 ∧
      ((scanned shortBlock).mtfdInsn 0).deadline = 1000 ∧
      ((timingBetweenMtFd shortBlock (scanned shortBlock)).1.pairs.map fun r =>
        r.verdict.map fun v => (v.1 0, v.2 0)) = [some (2, true)]) ∧
    (aloneRun shortCode 4).inExe (0 : Fin 4) = true ∧
    (aloneRun shortCode 5).inExe (0 : Fin 4) = true ∧
    instrOf (aloneRun shortCode 4).exeReg.inst = some .lui ∧
    instrOf (aloneRun shortCode 5).exeReg.inst = some .fd ∧
    (aloneRun shortCode 4).exeMt = true ∧ (aloneRun shortCode 4).exeMtfdVal = 1000 ∧
    ∀ x, x < 6 → (aloneRun shortCode x).traps (0 : Fin 4) = false ∧
      (aloneRun shortCode x).exeReg.sig.du = false ∧
      (aloneRun shortCode x).fenceStalls (0 : Fin 4) (DecodeLogic.zeros conf4tf) = false := by
  decide +kernel

theorem shortBlock_path : pathInsns shortBlock ((scanned shortBlock).mtfdInsn 0) [2] =
    [.asm "lui zero, 1000", .asm "custom3 zero"] := by
  obtain ⟨⟨-, -, -, hmt, hfdBb, hfd, -⟩, -⟩ := shortBlock_facts
  rw [pathInsns, hmt, hfdBb, hfd]
  rfl

theorem shortBlock_timed : TimedBlock (aloneRun shortCode) (0 : Fin 4) shortBlock
    ((scanned shortBlock).mtfdInsn 0) [2] 4 5 := by
  obtain ⟨⟨-, -, hmtBb, -, hfdBb, -, hdeadline, -⟩, hexe, hexe', hlui, hfd, hmt, hval, -⟩ :=
    shortBlock_facts
  constructor
  case path =>
    rw [MtfdPath, if_pos (hmtBb.trans hfdBb.symm), hmtBb]
  case runs =>
    rw [shortBlock_path]
    refine .next ⟨hexe, ⟨.lui, _, hlui, rfl, ?_⟩, ?_⟩ (by decide) hexe' ?_
      (.last ⟨hexe', ⟨.fd, _, hfd, rfl, ?_⟩, ?_⟩)
    · decide
    · decide
    · exact fun k hk hk' => absurd hk' (Nat.not_lt.mpr hk)
    · decide
    · decide
  case mt => exact hmt
  case deadline =>
    rw [hval, hdeadline]
    rfl
  case only => exact fun k hk hk' => absurd hk' (Nat.not_lt.mpr hk)

end Flexpret.Gcc
