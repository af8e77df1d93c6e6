import Flexpret.Gcc.Scan

/-! # What the Scan Leaves in the Tables

    A scan that gets through a function adds the costs of its blocks to the
    table, marks the blocks with calls, and records its mt and fd instructions
    in pairs.
-/

namespace Flexpret.Gcc

/-! ## Section 1: Costs and calls -/

/-- What scanning instructions of block `bb` changes, the pairs aside. -/
structure Scanned (bb : Nat) (insns : List Rtx) (st st' : MtfdState) : Prop where
  bbVisit : st'.bbVisit = st.bbVisit
  bbCycle : st'.bbCycle = st.bbCycle
  pathVector : st'.pathVector = st.pathVector
  calls : st'.bbHasCall bb = (st.bbHasCall bb || insns.any Rtx.isCall)
  others : ∀ b, b ≠ bb → st'.bbHasCall b = st.bbHasCall b

/-- Recording an mt or fd touches the pairs only. -/
theorem findInsn_frame {first : Bool} {pos bb : Nat} {x : Rtx} {st st' : MtfdState}
    {error : Option MtfdError} (h : findInsn first pos bb x st = (error, st')) :
    st'.bbVisit = st.bbVisit ∧ st'.bbCycle = st.bbCycle ∧ st'.pathVector = st.pathVector ∧
      st'.bbHasCall = st.bbHasCall := by
  unfold findInsn at h
  split at h
  · unfold findMtFd at h
    dsimp only at h
    split at h
    · split at h
      · obtain rfl := (Prod.mk.inj h).2
        exact ⟨rfl, rfl, rfl, rfl⟩
      · split at h <;> obtain rfl := (Prod.mk.inj h).2 <;> exact ⟨rfl, rfl, rfl, rfl⟩
    · split at h
      · split at h
        · obtain rfl := (Prod.mk.inj h).2
          exact ⟨rfl, rfl, rfl, rfl⟩
        · split at h <;> obtain rfl := (Prod.mk.inj h).2 <;> exact ⟨rfl, rfl, rfl, rfl⟩
      · obtain rfl := (Prod.mk.inj h).2
        exact ⟨rfl, rfl, rfl, rfl⟩
  · obtain rfl := (Prod.mk.inj h).2
    exact ⟨rfl, rfl, rfl, rfl⟩

theorem timingBetweenInsn_scanned {bb pos : Nat} {insns : List Rtx} {cycle cycle' : Cycles}
    {st st' : MtfdState}
    (h : timingBetweenInsn true bb pos insns cycle st = (none, cycle', st')) :
    cycle' = cycle + cost insns ∧ Scanned bb insns st st' := by
  induction insns generalizing pos cycle st with
  | nil =>
    simp only [timingBetweenInsn, Prod.mk.injEq, true_and] at h
    obtain ⟨rfl, rfl⟩ := h
    exact ⟨by simp, ⟨rfl, rfl, rfl, by simp, fun _ _ => rfl⟩⟩
  | cons x insns ih =>
    unfold timingBetweenInsn at h
    split at h
    · exact absurd (congrArg Prod.fst h) (by simp)
    · next st₁ hfind =>
      obtain ⟨hvisit, hcycle, hpath, hcall⟩ := findInsn_frame hfind
      obtain ⟨hcost, hs⟩ := ih h
      have hcall₁ : ∀ b, (if (true && x.isCall) = true then
          { st₁ with bbHasCall := Function.update st₁.bbHasCall bb true } else st₁).bbHasCall b =
            if b = bb then st.bbHasCall b || x.isCall else st.bbHasCall b := by
        intro b
        cases x.isCall with
        | true =>
          by_cases hb : b = bb
          · simp [hb]
          · simp [hb, hcall]
        | false => simp [hcall]
      refine ⟨by rw [hcost, cost_cons, add_assoc], ?_, ?_, ?_, ?_, ?_⟩
      · rw [hs.bbVisit, ← hvisit]
        split <;> rfl
      · rw [hs.bbCycle, ← hcycle]
        split <;> rfl
      · rw [hs.pathVector, ← hpath]
        split <;> rfl
      · rw [hs.calls, hcall₁ bb, if_pos rfl, List.any_cons, Bool.or_assoc]
      · intro b hb
        rw [hs.others b hb, hcall₁ b, if_neg hb]

/-- **What the loop over the blocks leaves** in the tables. -/
structure ScannedBlocks (blocks : List BasicBlock) (st st' : MtfdState) : Prop where
  bbVisit : st'.bbVisit = st.bbVisit
  pathVector : st'.pathVector = st.pathVector
  rows : ∀ b ∈ blocks, st'.bbCycle b.index = st.bbCycle b.index + cost b.insns
  otherRows : ∀ bb, bb ∉ blocks.map BasicBlock.index → st'.bbCycle bb = st.bbCycle bb
  calls : ∀ b ∈ blocks, st'.bbHasCall b.index =
    (st.bbHasCall b.index || b.insns.any Rtx.isCall)
  otherCalls : ∀ bb, bb ∉ blocks.map BasicBlock.index → st'.bbHasCall bb = st.bbHasCall bb

theorem scanBlocks_scanned {blocks : List BasicBlock}
    (hnodup : (blocks.map BasicBlock.index).Nodup) {st st' : MtfdState}
    (h : scanBlocks blocks st = (none, st')) : ScannedBlocks blocks st st' := by
  induction blocks generalizing st with
  | nil =>
    obtain rfl := (Prod.mk.inj h).2
    constructor <;> simp
  | cons b blocks ih =>
    rw [List.map_cons, List.nodup_cons] at hnodup
    unfold scanBlocks at h
    cases hblock : timingBetweenInsn true b.index 0 b.insns (st.bbCycle b.index) st with
    | mk error rest =>
      obtain ⟨cycle, st₁⟩ := rest
      rw [hblock] at h
      cases error with
      | some e => exact absurd (congrArg Prod.fst h) (by simp)
      | none =>
        obtain ⟨hcycle, hs⟩ := timingBetweenInsn_scanned hblock
        have hrest := ih hnodup.2 h
        -- the blocks behind `b` have other indices
        have hother : ∀ b' ∈ blocks, b'.index ≠ b.index := by
          intro b' hb' heq
          exact hnodup.1 (heq ▸ List.mem_map_of_mem hb')
        constructor
        · rw [hrest.bbVisit]
          exact hs.bbVisit
        · rw [hrest.pathVector]
          exact hs.pathVector
        · intro b' hb'
          rcases List.mem_cons.mp hb' with rfl | hb'
          · rw [hrest.otherRows _ hnodup.1]
            simp [hcycle]
          · rw [hrest.rows b' hb']
            simp [hother b' hb', hs.bbCycle]
        · intro bb hbb
          rw [List.map_cons, List.mem_cons, not_or] at hbb
          rw [hrest.otherRows bb hbb.2]
          simp [hbb.1, hs.bbCycle]
        · intro b' hb'
          rcases List.mem_cons.mp hb' with rfl | hb'
          · rw [hrest.otherCalls _ hnodup.1]
            exact hs.calls
          · rw [hrest.calls b' hb']
            exact congrArg (· || _) (hs.others _ (hother b' hb'))
        · intro bb hbb
          rw [List.map_cons, List.mem_cons, not_or] at hbb
          rw [hrest.otherCalls bb hbb.2]
          exact hs.others bb hbb.1

/-- The scan of a function starts from the cleared tables. -/
theorem scanBbTiming_scanned {f : Func} {st st' : MtfdState}
    (h : scanBbTiming f st = (none, st')) : ScannedBlocks f.blocks (st.clear f) st' := by
  unfold scanBbTiming at h
  split at h
  · exact absurd (congrArg Prod.fst h) (by simp)
  · exact scanBlocks_scanned f.nodup h

/-! ## Section 2: Rows -/

/-- The block sums in `bb_cycle` are those of the function. -/
def Func.RowsOf (f : Func) (st : MtfdState) : Prop :=
  ∀ b ∈ f.blocks, st.bbCycle b.index = cost b.insns

theorem Func.RowsOf.insns {f : Func} {st : MtfdState} (h : f.RowsOf st) {bb : Nat}
    (hbb : bb ∈ f.indices) : st.bbCycle bb = cost (f.insns bb) := by
  obtain ⟨b, hb, rfl⟩ := List.mem_map.mp hbb
  rw [h b hb, Func.insns_index hb]

/-- The cells of a function's rows that the `memset` does not reach are zero. -/
def CleanRows (f : Func) (st : MtfdState) : Prop :=
  ∀ b ∈ f.blocks, ∀ j : Fin 5, f.nBasicBlocks + 10 ≤ 5 * b.index + j.val →
    st.bbCycle b.index j = 0

/-- **The rows after a scan** are the function's block sums exactly where the
    cells that are not cleared were zero. -/
theorem rowsOf_iff {f : Func} {st st' : MtfdState} (h : scanBbTiming f st = (none, st')) :
    f.RowsOf st' ↔ CleanRows f st := by
  have hs := scanBbTiming_scanned h
  constructor
  · intro hrows b hb j hbeyond
    have hrow := congrFun ((hs.rows b hb).symm.trans (hrows b hb)) j
    have hclear : (st.clear f).bbCycle b.index j = st.bbCycle b.index j := if_neg (by omega)
    simpa [hclear] using hrow
  · intro hclean b hb
    rw [hs.rows b hb]
    have hzero : (st.clear f).bbCycle b.index = 0 := by
      funext j
      by_cases hlt : 5 * b.index + j.val < f.nBasicBlocks + 10
      · exact if_pos hlt
      · exact (if_neg hlt).trans (hclean b hb j (by omega))
    rw [hzero, zero_add]

/-- `bb_has_call` is set for the blocks of the function that contain a call. -/
def Func.CallsOf (f : Func) (st : MtfdState) : Prop :=
  ∀ b ∈ f.blocks, st.bbHasCall b.index = b.insns.any Rtx.isCall

/-- The flags that the `memset` does not reach are set for blocks with a call
    only. -/
def CleanCalls (f : Func) (st : MtfdState) : Prop :=
  ∀ b ∈ f.blocks, f.nBasicBlocks + 10 ≤ b.index → st.bbHasCall b.index = true →
    b.insns.any Rtx.isCall = true

theorem callsOf_iff {f : Func} {st st' : MtfdState} (h : scanBbTiming f st = (none, st')) :
    f.CallsOf st' ↔ CleanCalls f st := by
  have hs := scanBbTiming_scanned h
  constructor
  · intro hcalls b hb hbeyond hset
    have hclear : (st.clear f).bbHasCall b.index = true := (if_neg (by omega)).trans hset
    have hcall := hcalls b hb
    rw [hs.calls b hb, hclear, Bool.true_or] at hcall
    exact hcall.symm
  · intro hclean b hb
    rw [hs.calls b hb]
    by_cases hlt : b.index < f.nBasicBlocks + 10
    · have hclear : (st.clear f).bbHasCall b.index = false := if_pos hlt
      rw [hclear, Bool.false_or]
    · have hclear : (st.clear f).bbHasCall b.index = st.bbHasCall b.index := if_neg hlt
      rw [hclear]
      cases hset : st.bbHasCall b.index with
      | false => rfl
      | true => rw [hclean b hb (by omega) hset]; rfl

/-! ## Section 3: Pairs -/

/-- A pair as the scan records it: mt comes before fd. -/
structure Func.Recorded (f : Func) (pair : MtfdPair) : Prop where
  mtBb : pair.mtBb ∈ f.indices
  fdBb : pair.fdBb ∈ f.indices
  mt : pair.mt < (f.insns pair.mtBb).length
  fd : pair.fd < (f.insns pair.fdBb).length
  order : pair.mtBb = pair.fdBb → pair.mt < pair.fd

/-- **Pairs invariant** of the scan at place `pos` of block `bb`, where `seen`
    are the blocks up to it: all pairs are complete but for the last, whose mt
    is behind. -/
structure PairsInv (f : Func) (seen : List Nat) (bb pos : Nat) (st : MtfdState) : Prop where
  le : st.fdInsnLen ≤ st.mtInsnLen
  le_succ : st.mtInsnLen ≤ st.fdInsnLen + 1
  closed : ∀ i, i < st.fdInsnLen → f.Recorded (st.mtfdInsn i)
  seenMt : st.fdInsnLen < st.mtInsnLen → (st.mtfdInsn st.fdInsnLen).mtBb ∈ seen
  validMt : st.fdInsnLen < st.mtInsnLen →
    (st.mtfdInsn st.fdInsnLen).mt < (f.insns (st.mtfdInsn st.fdInsnLen).mtBb).length
  behind : st.fdInsnLen < st.mtInsnLen → (st.mtfdInsn st.fdInsnLen).mtBb = bb →
    (st.mtfdInsn st.fdInsnLen).mt < pos

section pairs

variable {f : Func} {seen : List Nat} {bb pos : Nat} {st st' : MtfdState}

theorem PairsInv.step (h : PairsInv f seen bb pos st) : PairsInv f seen bb (pos + 1) st where
  le := h.le
  le_succ := h.le_succ
  closed := h.closed
  seenMt := h.seenMt
  validMt := h.validMt
  behind := fun hopen heq => Nat.lt_succ_of_lt (h.behind hopen heq)

theorem findMtFd_pairs (h : PairsInv f seen bb pos st) (hseen : ∀ b ∈ seen, b ∈ f.indices)
    (hbb : bb ∈ seen) (hpos : pos < (f.insns bb).length) {insn : String}
    (hfind : findMtFd insn pos bb st = (none, st')) : PairsInv f seen bb (pos + 1) st' := by
  unfold findMtFd at hfind
  dsimp only at hfind
  split at hfind
  · -- an mt opens a pair behind the complete ones
    split at hfind
    · simp at hfind
    · split at hfind
      · simp at hfind
      · next hnot =>
        obtain rfl := (Prod.mk.inj hfind).2
        have heq : st.mtInsnLen = st.fdInsnLen := by
          have hle := h.le
          omega
        constructor
        · exact Nat.le_succ_of_le h.le
        · show st.mtInsnLen + 1 ≤ st.fdInsnLen + 1
          omega
        · intro i hi
          have hne : i ≠ st.mtInsnLen := by
            rw [heq]
            exact Nat.ne_of_lt hi
          simpa only [Function.update_of_ne hne] using h.closed i hi
        · intro _
          simpa [heq] using hbb
        · intro _
          simpa [heq] using hpos
        · intro _ _
          simp [heq]
  · split at hfind
    · split at hfind
      · simp at hfind
      · split at hfind
        · simp at hfind
        · next hnot =>
          -- an fd completes the open pair
          obtain rfl := (Prod.mk.inj hfind).2
          have hopen : st.fdInsnLen < st.mtInsnLen := by
            have hle := h.le
            omega
          have hle := h.le_succ
          constructor
          · exact hopen
          · exact Nat.le_succ_of_le hle
          · intro i hi
            by_cases hi' : i = st.fdInsnLen
            · subst hi'
              simp only [Function.update_self]
              exact ⟨hseen _ (h.seenMt hopen), hseen _ hbb, h.validMt hopen, hpos,
                h.behind hopen⟩
            · simp only [Function.update_of_ne hi']
              exact h.closed i (by have hlt : i < st.fdInsnLen + 1 := hi; omega)
          all_goals
            intro hopen'
            have hlt : st.fdInsnLen + 1 < st.mtInsnLen := hopen'
            omega
    · obtain rfl := (Prod.mk.inj hfind).2
      exact h.step

theorem timingBetweenInsn_pairs (hseen : ∀ b ∈ seen, b ∈ f.indices) (hbb : bb ∈ seen)
    {insns : List Rtx} {cycle cycle' : Cycles} (h : PairsInv f seen bb pos st)
    (hlength : pos + insns.length = (f.insns bb).length)
    (hrun : timingBetweenInsn true bb pos insns cycle st = (none, cycle', st')) :
    PairsInv f seen bb (pos + insns.length) st' := by
  induction insns generalizing pos cycle st with
  | nil =>
    simp only [timingBetweenInsn, Prod.mk.injEq, true_and] at hrun
    exact hrun.2 ▸ h
  | cons x insns ih =>
    rw [List.length_cons] at hlength
    unfold timingBetweenInsn at hrun
    split at hrun
    · exact absurd (congrArg Prod.fst hrun) (by simp)
    · next st₁ hfind =>
      have hstep : PairsInv f seen bb (pos + 1) st₁ := by
        unfold findInsn at hfind
        split at hfind
        · exact findMtFd_pairs h hseen hbb (by omega) hfind
        · obtain rfl := (Prod.mk.inj hfind).2
          exact h.step
      -- setting `bb_has_call` does not change the pairs
      have hcall : PairsInv f seen bb (pos + 1) (if (true && x.isCall) = true then
          { st₁ with bbHasCall := Function.update st₁.bbHasCall bb true } else st₁) := by
        split
        · exact ⟨hstep.le, hstep.le_succ, hstep.closed, hstep.seenMt, hstep.validMt,
            hstep.behind⟩
        · exact hstep
      have hrest := ih hcall (by omega) hrun
      rw [List.length_cons, show pos + (insns.length + 1) = pos + 1 + insns.length by omega]
      exact hrest

theorem scanBlocks_pairs {blocks : List BasicBlock} (hblocks : ∀ b ∈ blocks, b ∈ f.blocks)
    (hnodup : (blocks.map BasicBlock.index).Nodup) (hseen : ∀ b ∈ seen, b ∈ f.indices)
    (hfresh : ∀ b ∈ blocks, b.index ∉ seen) (h : PairsInv f seen bb pos st)
    (hrun : scanBlocks blocks st = (none, st')) :
    ∀ i, i < st'.fdInsnLen → f.Recorded (st'.mtfdInsn i) := by
  induction blocks generalizing seen bb pos st with
  | nil =>
    obtain rfl := (Prod.mk.inj hrun).2
    exact h.closed
  | cons b blocks ih =>
    rw [List.map_cons, List.nodup_cons] at hnodup
    have hb := hblocks b (List.mem_cons_self ..)
    have hseen' : ∀ c ∈ b.index :: seen, c ∈ f.indices := by
      intro c hc
      rcases List.mem_cons.mp hc with rfl | hc
      · exact List.mem_map_of_mem hb
      · exact hseen c hc
    -- the open pair's mt is in an earlier block
    have hstart : PairsInv f (b.index :: seen) b.index 0 st :=
      { le := h.le
        le_succ := h.le_succ
        closed := h.closed
        seenMt := fun hopen => List.mem_cons_of_mem _ (h.seenMt hopen)
        validMt := h.validMt
        behind := fun hopen heq =>
          absurd (heq ▸ h.seenMt hopen) (hfresh b (List.mem_cons_self ..)) }
    unfold scanBlocks at hrun
    cases hblock : timingBetweenInsn true b.index 0 b.insns (st.bbCycle b.index) st with
    | mk error rest =>
      obtain ⟨cycle, st₁⟩ := rest
      rw [hblock] at hrun
      cases error with
      | some e => exact absurd (congrArg Prod.fst hrun) (by simp)
      | none =>
        have hinv := timingBetweenInsn_pairs hseen' (List.mem_cons_self ..) hstart
          (by rw [Func.insns_index hb]; omega) hblock
        have hrow : PairsInv f (b.index :: seen) b.index (0 + b.insns.length)
            { st₁ with bbCycle := Function.update st₁.bbCycle b.index cycle } :=
          ⟨hinv.le, hinv.le_succ, hinv.closed, hinv.seenMt, hinv.validMt, hinv.behind⟩
        refine ih (fun b' hb' => hblocks b' (List.mem_cons_of_mem _ hb')) hnodup.2 hseen' ?_ hrow
          hrun
        intro b' hb' hmem
        rcases List.mem_cons.mp hmem with heq | hmem
        · exact hnodup.1 (heq ▸ List.mem_map_of_mem hb')
        · exact hfresh b' (List.mem_cons_of_mem _ hb') hmem

/-- **A scan records pairs**: each fd with the mt that was open. -/
theorem scanBbTiming_recorded (h : scanBbTiming f st = (none, st')) :
    ∀ i, i < st'.fdInsnLen → f.Recorded (st'.mtfdInsn i) := by
  unfold scanBbTiming at h
  split at h
  · exact absurd (congrArg Prod.fst h) (by simp)
  · have hstart : PairsInv f [] 0 0 (st.clear f) :=
      { le := Nat.le_refl _
        le_succ := Nat.zero_le _
        closed := fun i hi => absurd hi (Nat.not_lt_zero i)
        seenMt := fun hopen => absurd hopen (Nat.lt_irrefl _)
        validMt := fun hopen => absurd hopen (Nat.lt_irrefl _)
        behind := fun hopen => absurd hopen (Nat.lt_irrefl _) }
    exact scanBlocks_pairs (fun b hb => hb) f.nodup (fun b hb => absurd hb List.not_mem_nil)
      (fun b _ => List.not_mem_nil) hstart h

end pairs

end Flexpret.Gcc
