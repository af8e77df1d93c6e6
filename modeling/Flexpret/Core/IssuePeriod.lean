import Flexpret.Core.InstructionStream

/-! # Threads Issued with a Period

    A thread that is issued every `p` cycles, takes no trap and does not
    sleep: how many of its issues are lost behind each kind of instruction,
    and so when its next instruction is in execute.
-/

open Transition

namespace Flexpret.Core

variable {conf : FlexpretConfiguration}

/-! ## Section 1: The assumptions -/

/-- Thread `t` is issued exactly every `p` cycles, from cycle `a` on. -/
def IssuedEvery (inp : Nat → CoreIn conf) (t : conf.Tid) (a p : Nat) : Prop :=
  ∀ c, ((inp c).valid = true ∧ (inp c).thread = t) ↔ ∃ k, c = a + p * k

theorem IssuedEvery.later {inp : Nat → CoreIn conf} {t : conf.Tid} {a p x : Nat}
    (h : IssuedEvery inp t a p) (hx : (inp x).valid = true ∧ (inp x).thread = t) (n : Nat) :
    (inp (x + p * n)).valid = true ∧ (inp (x + p * n)).thread = t := by
  obtain ⟨k, hk⟩ := (h x).mp hx
  refine (h _).mpr ⟨k + n, ?_⟩
  rw [hk, Nat.mul_add]
  omega

namespace CoreState

variable (t : conf.Tid) (D : DecodeLogic conf) (s : CoreState conf)

/-- `t` takes no trap and executes no DU or WU. -/
structure Quiet : Prop where
  noTrap : s.traps t = false
  noDu : s.inExe t = true → s.exeReg.sig.du = false

/-- The FENCE.I in decode kills the fetch that `t` is about to make, since `t`
    is the thread in execute. -/
def fenceStalls : Bool :=
  s.decReg.valid && (s.dec D).fenceI && s.exeReg.tid = t && s.nextReg.valid && s.nextReg.tid = t

/-- Only a FENCE.I that `t` goes on to execute stalls `t`: it is its own, and
    no jump or taken branch before it is in execute. -/
structure OwnFence : Prop where
  own : s.fenceStalls t D = true → s.inDec t = true
  kept : s.fenceStalls t D = true → s.redirects t = false

end CoreState

/-! ## Section 2: One cycle -/

namespace CoreState

variable {s : CoreState conf} {t : conf.Tid} {D : DecodeLogic conf} {i : CoreIn conf}

theorem Quiet.not_sleep (h : s.Quiet t) : (s.exeSleep && decide (s.exeReg.tid = t)) = false := by
  rw [Bool.eq_false_iff]
  intro hsleep
  simp only [exeSleep, Bool.and_eq_true, decide_eq_true_eq] at hsleep
  obtain ⟨⟨hdu, hvalid⟩, htid⟩ := hsleep
  have hsig := h.noDu (inExe_iff.mpr ⟨exeReg_valid_of_valid hvalid, htid⟩)
  simp only [exeDu, hsig, Bool.and_false, Bool.false_and] at hdu
  exact Bool.noConfusion hdu

theorem Quiet.flushes (hflex : conf.flex = true) (h : s.Quiet t) :
    s.flushes t = s.redirects t := by
  rw [flushes_eq hflex, h.noTrap, Bool.false_or]

/-- A quiet thread commits whatever it executes. -/
theorem Quiet.exeValid (h : s.Quiet t) (hexe : s.inExe t = true) : s.exeValid = true := by
  obtain ⟨hvalid, htid⟩ := inExe_iff.mp hexe
  have htrap := h.noTrap
  simp only [traps, htid, decide_true, Bool.and_true] at htrap
  simp [CoreState.exeValid, hvalid, htrap]

/-- **Stall count of a quiet thread**: one behind a FENCE.I, and otherwise it
    counts down. -/
theorem Quiet.stallCount_next (hflex : conf.flex = true) (h : s.Quiet t) :
    (s.next D i).stallCount t =
      if s.decReg.valid && (s.dec D).fenceI && s.exeReg.tid = t then 1
      else if s.stallCount t ≠ 0 then s.stallCount t - 1
      else 0 := by
  rw [next_stallCount, nextStallCount_eq D hflex, if_neg (by simp [h.noTrap]),
    h.not_sleep]
  simp only [Bool.false_eq_true, if_false]

/-- Which instructions redirect a quiet thread. -/
theorem Quiet.redirects (h : s.Quiet t) (hred : s.redirects t = true) :
    s.exeReg.sig.jump = true ∨ s.exeReg.sig.branch = true := by
  have hexe := inExe_of_redirects hred
  simp only [CoreState.redirects, exeBrjmp, exeDu, h.noDu hexe, Bool.and_eq_true,
    Bool.or_eq_true, Bool.and_false, Bool.false_and, Bool.or_false] at hred
  rcases hred.1.2 with hjump | hbranch
  · exact Or.inl hjump
  · exact Or.inr hbranch.1

end CoreState

/-! ## Section 3: From the scheduler to the execute stage -/

section run

variable {D : DecodeLogic conf} {inp : Nat → CoreIn conf} {tr : Nat → CoreState conf}
  {t : conf.Tid}

/-- The states follow each other as the core's cycles do. -/
def Follows (D : DecodeLogic conf) (inp : Nat → CoreIn conf) (tr : Nat → CoreState conf) : Prop :=
  ∀ c, tr (c + 1) = (tr c).next D (inp c)

theorem trace_follows (D : DecodeLogic conf) (s₀ : CoreState conf) (inp : Nat → CoreIn conf) :
    Follows D inp (Machine.trace (CoreState.next D) s₀ inp) :=
  fun _ => rfl

theorem Follows.inFetch (h : Follows D inp tr) (c : Nat) :
    (tr (c + 2)).inFetch t = true ↔ (inp c).valid = true ∧ (inp c).thread = t := by
  rw [h (c + 1), h c]
  simp

/-- An instruction in execute was issued four cycles before, was fetched two
    cycles later and nothing has killed it since. -/
theorem Follows.issued (h : Follows D inp tr) (hreset : CoreReset conf (tr 0)) {c : Nat}
    (hexe : (tr c).inExe t = true) :
    ∃ x, c = x + 4 ∧ ((inp x).valid = true ∧ (inp x).thread = t) ∧
      (tr (x + 2)).fetches t D = true ∧
      (tr (x + 3)).inDec t = true ∧ (tr (x + 3)).flushes t = false := by
  match c with
  | 0 =>
    rw [CoreState.inExe, hreset.exeValid] at hexe
    exact Bool.noConfusion hexe
  | 1 =>
    rw [h 0, CoreState.next_inExe, CoreState.inDec, hreset.decValid] at hexe
    exact Bool.noConfusion hexe
  | 2 =>
    rw [h 1, CoreState.next_inExe, h 0, CoreState.next_inDec, CoreState.fetches,
      CoreState.ifPreValid, hreset.ifValid] at hexe
    exact Bool.noConfusion hexe
  | 3 =>
    rw [h 2, CoreState.next_inExe, h 1, CoreState.next_inDec, Bool.and_eq_true,
      Bool.and_eq_true] at hexe
    have hfetch := CoreState.inFetch_of_fetches D hexe.1.1
    rw [h 0, CoreState.inFetch, CoreState.next_ifReg_valid, hreset.nextValid] at hfetch
    exact Bool.noConfusion hfetch
  | x + 4 =>
    rw [h (x + 3), CoreState.next_inExe, Bool.and_eq_true, Bool.not_eq_true'] at hexe
    have hdec := hexe.1
    rw [h (x + 2), CoreState.next_inDec, Bool.and_eq_true] at hdec
    exact ⟨x, rfl, (h.inFetch x).mp (CoreState.inFetch_of_fetches D hdec.1), hdec.1, hexe⟩

/-- An issue that is not killed reaches the execute stage. -/
theorem Follows.inExe (h : Follows D inp tr) {x : Nat} (hfetch : (tr (x + 2)).fetches t D = true)
    (hflush2 : (tr (x + 2)).flushes t = false) (hflush3 : (tr (x + 3)).flushes t = false) :
    (tr (x + 4)).inExe t = true := by
  rw [h (x + 3), CoreState.next_inExe, h (x + 2), CoreState.next_inDec, ← h (x + 2), hfetch,
    hflush2, hflush3]
  rfl

/-- The stall count of a quiet thread is that of the last cycle's FENCE.I. -/
theorem Follows.stallCount (h : Follows D inp tr) (hflex : conf.flex = true)
    (hreset : CoreReset conf (tr 0)) {c : Nat} (hquiet : ∀ k, k < c → (tr k).Quiet t) :
    (tr c).stallCount t = 0 ∨ (tr c).stallCount t = 1 := by
  induction c with
  | zero => exact Or.inl (hreset.stallCount t)
  | succ c ih =>
    rw [h c, (hquiet c (by omega)).stallCount_next hflex]
    split
    · exact Or.inr rfl
    · -- a count of one runs out
      rcases ih fun k hk => hquiet k (by omega) with hzero | hone
      · simp [hzero]
      · simp [hone]

/-- A quiet thread whose fetch is stalled has a FENCE.I before it. -/
theorem Follows.fence_of_stall (h : Follows D inp tr) (hflex : conf.flex = true)
    (hreset : CoreReset conf (tr 0)) {c : Nat} (hquiet : ∀ k, k ≤ c → (tr k).Quiet t)
    (hstall : (tr (c + 1)).stallCount t ≠ 0) :
    ((tr c).decReg.valid && ((tr c).dec D).fenceI && decide ((tr c).exeReg.tid = t)) = true := by
  have hcount := h.stallCount hflex hreset (c := c) fun k hk => hquiet k (by omega)
  rw [h c, (hquiet c (Nat.le_refl c)).stallCount_next hflex] at hstall
  by_contra hno
  rw [if_neg hno] at hstall
  rcases hcount with hzero | hone
  · simp [hzero] at hstall
  · simp [hone] at hstall

/-! ## Section 4: The next instruction -/

section next

variable (h : Follows D inp tr) (hflex : conf.flex = true) (hreset : CoreReset conf (tr 0))
  {x d : Nat} (hexe : (tr (x + 4)).inExe t = true)
  (hred : (tr (x + 4)).exeReg.sig.jump = true ∨ (tr (x + 4)).exeReg.sig.branch = true → 3 ≤ d)
  (hfence : (tr (x + 4)).exeReg.sig.fenceI = true → 3 ≤ d)
  (hload : (tr (x + 4)).exeReg.sig.load = true → 2 ≤ d)
  (hquiet : ∀ k, k < x + d + 4 → (tr k).Quiet t)
  (hown : ∀ k, k < x + d + 4 → (tr k).OwnFence t D)
  (hnone : ∀ k, x + 4 < k → k < x + d + 4 → (tr k).inExe t = false)

include h hflex hreset hexe hred hquiet hnone in
/-- The instruction in execute does not flush the issue `d` cycles behind it. -/
theorem Follows.later_not_flushed {k : Nat} (hd : 0 < d) (hk : x + d + 2 ≤ k)
    (hk' : k < x + d + 4) : (tr k).flushes t = false := by
  rw [Bool.eq_false_iff]
  intro hflush
  obtain ⟨x', hx', -, -, -, hback⟩ := h.issued hreset hexe
  obtain rfl : x = x' := by omega
  have hin := CoreState.inExe_of_flushes hflush
  rcases Nat.lt_trichotomy k (x + 4) with hlt | heq | hgt
  · -- in the cycle before, `t` itself would have been flushed
    obtain rfl : k = x + 3 := by omega
    rw [hback] at hflush
    exact Bool.noConfusion hflush
  · subst heq
    have hq := hquiet (x + 4) hk'
    rw [hq.flushes hflex] at hflush
    have hthree := hred (hq.redirects hflush)
    omega
  · rw [hnone k hgt hk'] at hin
    exact Bool.noConfusion hin

include h hflex hreset hexe hred hfence hload hquiet hnone in
/-- No instruction of `t` in decode stalls the fetch of that issue. -/
theorem Follows.later_not_stalled (hmul : conf.mul = false) (hd : 0 < d)
    (hdec : (tr (x + d + 2)).inDec t = true) : (tr (x + d + 2)).decStall D = false := by
  have hflush := h.later_not_flushed hflex hreset hexe hred hquiet hnone hd
    (k := x + d + 2) (by omega) (by omega)
  have hin : (tr (x + d + 3)).inExe t = true := by
    rw [h (x + d + 2), CoreState.next_inExe, hdec, hflush]
    rfl
  -- so it is the instruction in execute one cycle later
  have hone : d = 1 := by
    by_contra hne
    rw [hnone (x + d + 3) (by omega) (by omega)] at hin
    exact Bool.noConfusion hin
  subst hone
  have hsig : (tr (x + 4)).exeReg.sig = (tr (x + 3)).dec D := by
    rw [h (x + 3)]
    rfl
  rw [hsig] at hfence hload
  rw [Bool.eq_false_iff]
  intro hstall
  simp only [CoreState.decStall, hmul, Bool.false_and, Bool.or_false, Bool.and_eq_true,
    Bool.or_eq_true] at hstall
  rcases hstall.2 with hl | hf
  · have htwo := hload hl
    omega
  · have hthree := hfence hf
    omega

include h hflex hreset hexe hfence hquiet hown hnone in
/-- No FENCE.I has set the stall count for that fetch. -/
theorem Follows.later_count (hd : 0 < d)
    (hissue : (inp (x + d)).valid = true ∧ (inp (x + d)).thread = t) :
    (tr (x + d + 2)).stallCount t = 0 := by
  by_contra hstall
  have hstop := h.fence_of_stall hflex hreset (c := x + d + 1)
    (fun k hk => hquiet k (by omega)) hstall
  have hnext : (tr (x + d + 1)).nextReg.valid = true ∧ (tr (x + d + 1)).nextReg.tid = t := by
    rw [h (x + d)]
    exact hissue
  have hstalls : (tr (x + d + 1)).fenceStalls t D = true := by
    rw [CoreState.fenceStalls, hstop, hnext.1, hnext.2]
    simp
  simp only [Bool.and_eq_true, decide_eq_true_eq] at hstop
  obtain ⟨⟨hvalid, hf⟩, -⟩ := hstop
  have ho := hown (x + d + 1) (by omega)
  have hdec := ho.own hstalls
  -- the FENCE.I is not flushed, so it is in execute one cycle later
  have hin : (tr (x + d + 2)).inExe t = true := by
    rw [h (x + d + 1), CoreState.next_inExe, hdec,
      (hquiet (x + d + 1) (by omega)).flushes hflex, ho.kept hstalls]
    rfl
  have hle : d ≤ 2 := by
    by_contra hgt
    rw [hnone (x + d + 2) (by omega) (by omega)] at hin
    exact Bool.noConfusion hin
  obtain rfl | rfl : d = 1 ∨ d = 2 := by omega
  · -- it would have stalled the fetch of the instruction in execute
    obtain ⟨x', hx', -, hfetch, -⟩ := h.issued hreset hexe
    obtain rfl : x = x' := by omega
    have hno := CoreState.decStall_of_fetches D hfetch hdec
    rw [CoreState.decStall, bypassing_of_flex hflex, hvalid, hf] at hno
    simp at hno
  · have hsig : (tr (x + 4)).exeReg.sig = (tr (x + 3)).dec D := by
      rw [h (x + 3)]
      rfl
    have hthree := hfence (by rw [hsig]; exact hf)
    omega

include h hflex hreset hexe hred hfence hload hquiet hown hnone in
/-- With nothing of `t` in execute since, the issue `d` cycles behind an
    instruction gets through. -/
theorem Follows.later_inExe (hmul : conf.mul = false) (hd : 0 < d)
    (hissue : (inp (x + d)).valid = true ∧ (inp (x + d)).thread = t) :
    (tr (x + d + 4)).inExe t = true := by
  have hflush : ∀ k, x + d + 2 ≤ k → k < x + d + 4 → (tr k).flushes t = false :=
    fun k hk hk' => h.later_not_flushed hflex hreset hexe hred hquiet hnone hd hk hk'
  obtain ⟨hvalid, htid⟩ := CoreState.inFetch_iff.mp ((h.inFetch (x + d)).mpr hissue)
  have hcount := h.later_count hflex hreset hexe hfence hquiet hown hnone hd hissue
  have hstall : ((tr (x + d + 2)).decStall D &&
      decide ((tr (x + d + 2)).ifReg.tid = (tr (x + d + 2)).decReg.tid)) = false := by
    rw [Bool.eq_false_iff]
    intro hs
    simp only [Bool.and_eq_true, decide_eq_true_eq, htid] at hs
    have hdecValid : (tr (x + d + 2)).decReg.valid = true := by
      have hs' := hs.1
      simp only [CoreState.decStall, Bool.and_eq_true] at hs'
      exact hs'.1.2
    have hno := h.later_not_stalled hflex hreset hexe hred hfence hload hquiet hnone hmul hd
      (CoreState.inDec_iff.mpr ⟨hdecValid, hs.2.symm⟩)
    rw [hno] at hs
    exact Bool.noConfusion hs.1
  apply h.inExe
  · rw [CoreState.fetches, CoreState.ifPreValid, hvalid, hstall, htid, hcount]
    simp
  · exact hflush (x + d + 2) (by omega) (by omega)
  · exact hflush (x + d + 3) (by omega) (by omega)

end next

end run

/-! ## Section 5: Issues lost behind an instruction -/

/-- How many issues after that of an instruction the next one gets through, for
    a thread issued every `p` cycles. -/
def issueSlots (f : Flags) (p : Nat) : Nat :=
  if f.jump || f.branch || f.fenceI then
    if p = 1 then 3 else if p = 2 then 2 else 1
  else if f.load && p = 1 then 2 else 1

theorem issueSlots_pos (f : Flags) (p : Nat) : 0 < issueSlots f p := by
  unfold issueSlots
  split
  · split
    · omega
    · split <;> omega
  · split <;> omega

/-- Behind a jump, a branch or a FENCE.I at least three cycles pass. -/
theorem issueSlots_three {f : Flags} {p : Nat} (hp : 0 < p)
    (hf : f.jump = true ∨ f.branch = true ∨ f.fenceI = true) : 3 ≤ p * issueSlots f p := by
  have hor : (f.jump || f.branch || f.fenceI) = true := by
    simp only [Bool.or_eq_true]
    tauto
  rw [issueSlots, if_pos hor]
  by_cases hone : p = 1
  · simp [hone]
  · by_cases htwo : p = 2
    · simp [htwo]
    · rw [if_neg hone, if_neg htwo]
      omega

theorem issueSlots_two {f : Flags} {p : Nat} (hp : 0 < p) (hf : f.load = true) :
    2 ≤ p * issueSlots f p := by
  by_cases hone : p = 1
  · subst hone
    unfold issueSlots
    split
    · simp
    · simp [hf]
  · have hpos := Nat.mul_le_mul_left p (issueSlots_pos f p)
    omega

/-- **The next instruction** of a thread issued every `p` cycles: it is in
    execute after the issues that its predecessor costs, at the latest. -/
theorem issuedEvery_next (hflex : conf.flex = true) (hmul : conf.mul = false)
    (D : DecodeLogic conf) {s₀ : CoreState conf} (hreset : CoreReset conf s₀)
    (inp : Nat → CoreIn conf) {t : conf.Tid} {a p : Nat} (hp : 0 < p)
    (hissue : IssuedEvery inp t a p) {c d : Nat}
    (hexe : (Machine.trace (CoreState.next D) s₀ inp c).inExe t = true)
    (hd : d = p * issueSlots (Machine.trace (CoreState.next D) s₀ inp c).exeReg.sig.toFlags p)
    (hquiet : ∀ k, k < c + d → (Machine.trace (CoreState.next D) s₀ inp k).Quiet t)
    (hown : ∀ k, k < c + d → (Machine.trace (CoreState.next D) s₀ inp k).OwnFence t D) :
    ∃ c', c < c' ∧ c' ≤ c + d ∧
      (Machine.trace (CoreState.next D) s₀ inp c').inExe t = true ∧
      ∀ k, c < k → k < c' → (Machine.trace (CoreState.next D) s₀ inp k).inExe t = false := by
  have h := trace_follows D s₀ inp
  obtain ⟨x, rfl, hx, -⟩ := h.issued hreset hexe
  have hpos : 0 < d := by
    rw [hd]
    exact Nat.mul_pos hp (issueSlots_pos _ p)
  have hlast : (∀ k, x + 4 < k → k < x + d + 4 →
      (Machine.trace (CoreState.next D) s₀ inp k).inExe t = false) →
      (Machine.trace (CoreState.next D) s₀ inp (x + d + 4)).inExe t = true := by
    intro hnone
    refine h.later_inExe hflex hreset hexe ?_ ?_ ?_ (fun k hk => hquiet k (by omega))
      (fun k hk => hown k (by omega)) hnone hmul hpos ?_
    · intro hred
      rw [hd]
      exact issueSlots_three hp (by tauto)
    · intro hf
      rw [hd]
      exact issueSlots_three hp (by tauto)
    · intro hl
      rw [hd]
      exact issueSlots_two hp hl
    · rw [hd]
      exact hissue.later hx _
  -- the first cycle after `c` with `t` in execute
  have hex : ∃ c', x + 5 ≤ c' ∧ c' < x + d + 5 ∧
      (Machine.trace (CoreState.next D) s₀ inp c').inExe t = true := by
    by_cases hnone : ∀ k, x + 4 < k → k < x + d + 4 →
        (Machine.trace (CoreState.next D) s₀ inp k).inExe t = false
    · exact ⟨x + d + 4, by omega, by omega, hlast hnone⟩
    · push Not at hnone
      obtain ⟨k, hk, hk', hin⟩ := hnone
      exact ⟨k, by omega, by omega, by simpa using hin⟩
  obtain ⟨c', hlow, hhigh, hin, hfirst⟩ := Machine.exists_firstCycle hex
  exact ⟨c', hlow, by omega, hin, fun k hk hk' => Bool.eq_false_iff.mpr (hfirst k hk hk')⟩

end Flexpret.Core
