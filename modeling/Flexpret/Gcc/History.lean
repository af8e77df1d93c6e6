import Flexpret.Gcc.Pass
import Flexpret.Gcc.ScanRows

/-! # Functions Compiled Before

    What the report of a function owes to the static tables that the functions
    before it have left behind, and when it owes them nothing.
-/

namespace Flexpret.Gcc

/-! ## Section 1: What is compared -/

/-- The reported cycles and deadline verdict of a pair. -/
def PairResult.verdict : PairResult → Option ((Fin 5 → Int) × (Fin 4 → Bool))
  | .cycleFound => none
  | .timing report => some (report.maxCycle, report.meetDdl)

/-- The same cycles and verdicts for all pairs. -/
structure SameReport (r₁ r₂ : PassResult) : Prop where
  error : r₁.error = r₂.error
  pairs : r₁.pairs.map PairResult.verdict = r₂.pairs.map PairResult.verdict

/-- Every `lui zero` has a deadline that `sscanf` can read. -/
def Func.DeadlinesRead (f : Func) : Prop :=
  ∀ b ∈ f.blocks, ∀ text, Rtx.asm text ∈ b.insns → strstr text "lui zero" = true →
    (scanDeadline text).isSome = true

/-- **Nothing left behind** for `f`: what the `memset`s do not reach of the
    rows, flags and marks of its blocks is clear, and no old deadline is used. -/
structure Untouched (f : Func) (st : MtfdState) : Prop where
  rows : CleanRows f st
  calls : CleanCalls f st
  marks : ∀ b ∈ f.blocks, f.nBasicBlocks + 10 ≤ b.index → st.bbVisit b.index = false
  deadlines : f.DeadlinesRead

/-! ## Section 2: Two scans -/

/-- The same pairs have been recorded so far. -/
structure SamePairs (st₁ st₂ : MtfdState) : Prop where
  mtLen : st₁.mtInsnLen = st₂.mtInsnLen
  fdLen : st₁.fdInsnLen = st₂.fdInsnLen
  mt : ∀ i, i < st₁.mtInsnLen → (st₁.mtfdInsn i).mt = (st₂.mtfdInsn i).mt ∧
    (st₁.mtfdInsn i).mtBb = (st₂.mtfdInsn i).mtBb ∧
    (st₁.mtfdInsn i).deadline = (st₂.mtfdInsn i).deadline
  fd : ∀ i, i < st₁.fdInsnLen → (st₁.mtfdInsn i).fd = (st₂.mtfdInsn i).fd ∧
    (st₁.mtfdInsn i).fdBb = (st₂.mtfdInsn i).fdBb

section scans

variable {st₁ st₂ : MtfdState}

theorem findMtFd_same (h : SamePairs st₁ st₂) {insn : String} (pos bb : Nat)
    (hdeadline : strstr insn "lui zero" = true → (scanDeadline insn).isSome = true) :
    (findMtFd insn pos bb st₁).1 = (findMtFd insn pos bb st₂).1 ∧
      SamePairs (findMtFd insn pos bb st₁).2 (findMtFd insn pos bb st₂).2 := by
  unfold findMtFd
  dsimp only
  rw [← h.mtLen, ← h.fdLen]
  by_cases hmt : strstr insn "lui zero" = true
  · obtain ⟨deadline, hread⟩ := Option.isSome_iff_exists.mp (hdeadline hmt)
    rw [if_pos hmt, if_pos hmt, hread]
    by_cases hmax : st₁.mtInsnLen = mtfdMaxNum
    · rw [if_pos hmax, if_pos hmax]
      exact ⟨rfl, h⟩
    · rw [if_neg hmax, if_neg hmax]
      by_cases hopen : st₁.fdInsnLen < st₁.mtInsnLen
      · rw [if_pos hopen, if_pos hopen]
        exact ⟨rfl, h⟩
      · rw [if_neg hopen, if_neg hopen]
        refine ⟨rfl, ⟨rfl, rfl, ?_, ?_⟩⟩
        · intro i hi
          by_cases heq : i = st₁.mtInsnLen
          · subst heq
            simp
          · have hlt : i < st₁.mtInsnLen := by
              have hi' : i < st₁.mtInsnLen + 1 := hi
              omega
            simpa [heq] using h.mt i hlt
        · intro i hi
          by_cases heq : i = st₁.mtInsnLen
          · subst heq
            simpa using h.fd _ hi
          · simpa [heq] using h.fd i hi
  · rw [if_neg hmt, if_neg hmt]
    by_cases hfd : strstr insn "custom3 zero" = true
    · rw [if_pos hfd, if_pos hfd]
      by_cases hmax : st₁.fdInsnLen = mtfdMaxNum
      · rw [if_pos hmax, if_pos hmax]
        exact ⟨rfl, h⟩
      · rw [if_neg hmax, if_neg hmax]
        by_cases hnone : st₁.mtInsnLen = st₁.fdInsnLen
        · rw [if_pos hnone, if_pos hnone]
          exact ⟨rfl, h⟩
        · rw [if_neg hnone, if_neg hnone]
          refine ⟨rfl, ⟨rfl, rfl, ?_, ?_⟩⟩
          · intro i hi
            by_cases heq : i = st₁.fdInsnLen
            · subst heq
              simpa using h.mt _ hi
            · simpa [heq] using h.mt i hi
          · intro i hi
            by_cases heq : i = st₁.fdInsnLen
            · subst heq
              simp
            · have hlt : i < st₁.fdInsnLen := by
                have hi' : i < st₁.fdInsnLen + 1 := hi
                omega
              simpa [heq] using h.fd i hlt
    · rw [if_neg hfd, if_neg hfd]
      exact ⟨rfl, h⟩

theorem timingBetweenInsn_same (h : SamePairs st₁ st₂) (bb pos : Nat) {insns : List Rtx}
    (cycle₁ cycle₂ : Cycles)
    (hdeadline : ∀ text, Rtx.asm text ∈ insns → strstr text "lui zero" = true →
      (scanDeadline text).isSome = true) :
    (timingBetweenInsn true bb pos insns cycle₁ st₁).1 =
        (timingBetweenInsn true bb pos insns cycle₂ st₂).1 ∧
      SamePairs (timingBetweenInsn true bb pos insns cycle₁ st₁).2.2
        (timingBetweenInsn true bb pos insns cycle₂ st₂).2.2 := by
  induction insns generalizing pos cycle₁ cycle₂ st₁ st₂ with
  | nil => exact ⟨rfl, h⟩
  | cons x insns ih =>
    have hfind : (findInsn true pos bb x st₁).1 = (findInsn true pos bb x st₂).1 ∧
        SamePairs (findInsn true pos bb x st₁).2 (findInsn true pos bb x st₂).2 := by
      cases x with
      | asm text =>
        exact findMtFd_same h pos bb (hdeadline text (List.mem_cons_self ..))
      | note => exact ⟨rfl, h⟩
      | unrecognized => exact ⟨rfl, h⟩
      | insn tmpl => exact ⟨rfl, h⟩
    unfold timingBetweenInsn
    generalize findInsn true pos bb x st₁ = r₁ at hfind ⊢
    generalize findInsn true pos bb x st₂ = r₂ at hfind ⊢
    obtain ⟨e₁, s₁⟩ := r₁
    obtain ⟨e₂, s₂⟩ := r₂
    obtain ⟨he, hs⟩ := hfind
    obtain rfl : e₁ = e₂ := he
    cases e₁ with
    | some e => exact ⟨rfl, hs⟩
    | none =>
      -- `bb_has_call` has no part in the pairs
      have hcall : SamePairs
          (if (true && x.isCall) = true then
            { s₁ with bbHasCall := Function.update s₁.bbHasCall bb true } else s₁)
          (if (true && x.isCall) = true then
            { s₂ with bbHasCall := Function.update s₂.bbHasCall bb true } else s₂) := by
        split
        · exact ⟨hs.mtLen, hs.fdLen, hs.mt, hs.fd⟩
        · exact hs
      exact ih hcall (pos + 1) _ _ fun text htext => hdeadline text (List.mem_cons_of_mem _ htext)

theorem scanBlocks_same (h : SamePairs st₁ st₂) {blocks : List BasicBlock}
    (hdeadline : ∀ b ∈ blocks, ∀ text, Rtx.asm text ∈ b.insns → strstr text "lui zero" = true →
      (scanDeadline text).isSome = true) :
    (scanBlocks blocks st₁).1 = (scanBlocks blocks st₂).1 ∧
      SamePairs (scanBlocks blocks st₁).2 (scanBlocks blocks st₂).2 := by
  induction blocks generalizing st₁ st₂ with
  | nil => exact ⟨rfl, h⟩
  | cons b blocks ih =>
    obtain ⟨he, hs⟩ := timingBetweenInsn_same h b.index 0 (st₁.bbCycle b.index)
      (st₂.bbCycle b.index) (hdeadline b (List.mem_cons_self ..))
    unfold scanBlocks
    generalize timingBetweenInsn true b.index 0 b.insns (st₁.bbCycle b.index) st₁ = r₁ at he hs ⊢
    generalize timingBetweenInsn true b.index 0 b.insns (st₂.bbCycle b.index) st₂ = r₂ at he hs ⊢
    obtain ⟨e₁, c₁, s₁⟩ := r₁
    obtain ⟨e₂, c₂, s₂⟩ := r₂
    obtain rfl : e₁ = e₂ := he
    have hrow : SamePairs { s₁ with bbCycle := Function.update s₁.bbCycle b.index c₁ }
        { s₂ with bbCycle := Function.update s₂.bbCycle b.index c₂ } :=
      ⟨hs.mtLen, hs.fdLen, hs.mt, hs.fd⟩
    cases e₁ with
    | some e => exact ⟨rfl, hrow⟩
    | none => exact ih hrow fun b' hb' => hdeadline b' (List.mem_cons_of_mem _ hb')

theorem scanBbTiming_same (f : Func) (st₁ st₂ : MtfdState) (hdeadline : f.DeadlinesRead) :
    (scanBbTiming f st₁).1 = (scanBbTiming f st₂).1 ∧
      ((scanBbTiming f st₁).1 = none →
        SamePairs (scanBbTiming f st₁).2 (scanBbTiming f st₂).2) := by
  unfold scanBbTiming
  split
  · exact ⟨rfl, fun h => absurd h (by simp)⟩
  · have hstart : SamePairs (st₁.clear f) (st₂.clear f) :=
      ⟨rfl, rfl, fun i hi => absurd hi (Nat.not_lt_zero i),
        fun i hi => absurd hi (Nat.not_lt_zero i)⟩
    obtain ⟨he, hs⟩ := scanBlocks_same hstart hdeadline
    exact ⟨he, fun _ => hs⟩

end scans

/-! ## Section 3: Two timings -/

/-- The blocks that a search in `f` can come to. -/
def Func.Node (f : Func) (bb : Nat) : Prop := bb = exitBlock ∨ bb ∈ f.indices

theorem Func.node_succs {f : Func} {bb : Nat} : ∀ c ∈ f.succs bb, f.Node c :=
  fun _ hc => (Func.succs_cases hc).2

/-- The rows and the marks that matter for `f` agree. -/
structure Agree (f : Func) (st₁ st₂ : MtfdState) : Prop where
  rows : ∀ bb, f.Node bb → st₁.bbCycle bb = st₂.bbCycle bb
  marks : ∀ bb, f.Node bb → f.clearVisit st₁.bbVisit bb = f.clearVisit st₂.bbVisit bb

section timings

variable {f : Func} {st₁ st₂ : MtfdState}

theorem searchFrequencies_same {mtBb fdBb : Nat} (hmt : f.Node mtBb) (hfd : f.Node fdBb)
    (js : List (Fin 5)) (m : Fin 5 → Nat) (h : Agree f st₁ st₂) :
    (searchFrequencies f mtBb fdBb js m st₁).1 = (searchFrequencies f mtBb fdBb js m st₂).1 ∧
      (searchFrequencies f mtBb fdBb js m st₁).2.1 =
        (searchFrequencies f mtBb fdBb js m st₂).2.1 ∧
      Agree f (searchFrequencies f mtBb fdBb js m st₁).2.2
        (searchFrequencies f mtBb fdBb js m st₂).2.2 := by
  induction js generalizing m st₁ st₂ with
  | nil => exact ⟨rfl, rfl, h⟩
  | cons j js ih =>
    have hstart : SameSearch f.Node
        { bbVisit := f.clearVisit st₁.bbVisit, bbStack := [], maxCycle := m j
          path := st₁.pathVector j }
        { bbVisit := f.clearVisit st₂.bbVisit, bbStack := [], maxCycle := m j
          path := st₂.pathVector j } :=
      ⟨h.marks, rfl, fun bb hbb => absurd hbb List.not_mem_nil, rfl⟩
    have hcycle : ∀ bb, f.Node bb → (fun b => st₁.bbCycle b j) bb = (fun b => st₂.bbCycle b j) bb :=
      fun bb hbb => congrFun (h.rows bb hbb) j
    have hclosed : ∀ bb, f.Node bb → ∀ c ∈ f.succs bb, f.Node c := fun _ _ => Func.node_succs
    have hsearch := @timingBetweenBbDfs_same _ _ _ _ _ _ _ hfd hcycle hclosed
      (f.blocks.length + 33) _ hmt hstart
    obtain ⟨hok, hs⟩ := hsearch
    unfold searchFrequencies
    dsimp only
    generalize timingBetweenBbDfs f.succs (fun b => st₁.bbCycle b j) fdBb (f.blocks.length + 33)
      mtBb _ = r₁ at hok hs ⊢
    generalize timingBetweenBbDfs f.succs (fun b => st₂.bbCycle b j) fdBb (f.blocks.length + 33)
      mtBb _ = r₂ at hok hs ⊢
    obtain ⟨ok₁, d₁⟩ := r₁
    obtain ⟨ok₂, d₂⟩ := r₂
    obtain rfl : ok₁ = ok₂ := hok
    have hnext : Agree f
        { st₁ with
          bbVisit := d₁.bbVisit
          pathVector := Function.update st₁.pathVector j d₁.path }
        { st₂ with
          bbVisit := d₂.bbVisit
          pathVector := Function.update st₂.pathVector j d₂.path } := by
      refine ⟨h.rows, fun bb hbb => ?_⟩
      show f.clearVisit d₁.bbVisit bb = f.clearVisit d₂.bbVisit bb
      unfold Func.clearVisit
      rw [hs.visit bb hbb]
    have hmax : Function.update m j d₁.maxCycle = Function.update m j d₂.maxCycle :=
      congrArg (Function.update m j) hs.max
    cases ok₁ with
    | false => exact ⟨rfl, hmax, hnext⟩
    | true =>
      simp only [if_true]
      rw [hmax]
      exact ih _ hnext

theorem pairTiming_agree {pair : MtfdPair} (hmt : f.Node pair.mtBb) (hfd : f.Node pair.fdBb)
    (h : Agree f st₁ st₂) :
    (pairTiming f pair st₁).1.verdict = (pairTiming f pair st₂).1.verdict ∧
      Agree f (pairTiming f pair st₁).2 (pairTiming f pair st₂).2 := by
  unfold pairTiming
  by_cases hsame : pair.mtBb = pair.fdBb
  · rw [if_pos hsame, if_pos hsame]
    constructor
    · simp only [timingOf_eq]
    · exact h
  · rw [if_neg hsame, if_neg hsame]
    obtain ⟨hok, hmax, hs⟩ := searchFrequencies_same hmt hfd (List.finRange 5) 0 h
    generalize searchFrequencies f pair.mtBb pair.fdBb (List.finRange 5) 0 st₁ = r₁
      at hok hmax hs ⊢
    generalize searchFrequencies f pair.mtBb pair.fdBb (List.finRange 5) 0 st₂ = r₂
      at hok hmax hs ⊢
    obtain ⟨ok₁, m₁, s₁⟩ := r₁
    obtain ⟨ok₂, m₂, s₂⟩ := r₂
    obtain rfl : ok₁ = ok₂ := hok
    obtain rfl : m₁ = m₂ := hmax
    cases ok₁ with
    | false => exact ⟨rfl, hs⟩
    | true =>
      simp only [timingOf_eq]
      exact ⟨rfl, hs⟩

theorem timingPairs_agree {pairs : List MtfdPair}
    (hpairs : ∀ pair ∈ pairs, f.Node pair.mtBb ∧ f.Node pair.fdBb) (h : Agree f st₁ st₂) :
    SameReport (timingPairs f pairs st₁).1 (timingPairs f pairs st₂).1 := by
  induction pairs generalizing st₁ st₂ with
  | nil => exact ⟨rfl, rfl⟩
  | cons pair pairs ih =>
    have hpair := hpairs pair (List.mem_cons_self ..)
    obtain ⟨hverdict, hs⟩ := pairTiming_agree hpair.1 hpair.2 h
    unfold timingPairs
    generalize pairTiming f pair st₁ = r₁ at hverdict hs ⊢
    generalize pairTiming f pair st₂ = r₂ at hverdict hs ⊢
    obtain ⟨result₁, s₁⟩ := r₁
    obtain ⟨result₂, s₂⟩ := r₂
    have hrest := ih (fun p hp => hpairs p (List.mem_cons_of_mem _ hp)) hs
    cases result₁ with
    | cycleFound =>
      cases result₂ with
      | cycleFound => exact ⟨hrest.error, congrArg (none :: ·) hrest.pairs⟩
      | timing report₂ => exact absurd hverdict (by simp [PairResult.verdict])
    | timing report₁ =>
      cases result₂ with
      | cycleFound => exact absurd hverdict (by simp [PairResult.verdict])
      | timing report₂ =>
        -- the verdict decides whether the pass goes on
        have hmeets : report₁.meetsNone = report₂.meetsNone := by
          simp only [PairResult.verdict, Option.some.injEq, Prod.mk.injEq] at hverdict
          simp only [Report.meetsNone, hverdict.2]
        dsimp only
        rw [hmeets]
        split
        · exact ⟨rfl, congrArg (fun v => [v]) hverdict⟩
        · refine ⟨hrest.error, ?_⟩
          show PairResult.verdict _ :: _ = PairResult.verdict _ :: _
          rw [hverdict]
          exact congrArg (_ :: ·) hrest.pairs

end timings

/-! ## Section 4: A function among others -/

section among

variable {f : Func} {st st' : MtfdState}

/-- The row of the exit block is cleared and never added to. -/
theorem exit_row (h : scanBbTiming f st = (none, st')) : st'.bbCycle exitBlock = 0 := by
  have hs := scanBbTiming_scanned h
  have hnot : exitBlock ∉ f.blocks.map BasicBlock.index := by
    intro hmem
    obtain ⟨b, hb, heq⟩ := List.mem_map.mp hmem
    have hlt := (f.index_lt b hb).1
    omega
  rw [hs.otherRows exitBlock hnot]
  funext j
  have hlt : 5 * exitBlock + j.val < f.nBasicBlocks + 10 := by
    have hj := j.isLt
    simp only [exitBlock, Func.nBasicBlocks]
    omega
  exact if_pos hlt

theorem scanned_marks (h : scanBbTiming f st = (none, st'))
    (hmarks : ∀ b ∈ f.blocks, f.nBasicBlocks + 10 ≤ b.index → st.bbVisit b.index = false)
    {bb : Nat} (hbb : f.Node bb) : f.clearVisit st'.bbVisit bb = false := by
  unfold Func.clearVisit
  split
  · rfl
  · next hbeyond =>
    rw [(scanBbTiming_scanned h).bbVisit]
    rcases hbb with rfl | hmem
    · simp only [exitBlock, Func.nBasicBlocks] at hbeyond
      omega
    · obtain ⟨b, hb, rfl⟩ := List.mem_map.mp hmem
      exact hmarks b hb (Nat.not_lt.mp hbeyond)

theorem zero_untouched (hdeadlines : f.DeadlinesRead) : Untouched f MtfdState.zero where
  rows := fun _ _ _ _ => rfl
  calls := fun _ _ _ h => absurd h Bool.false_ne_true
  marks := fun _ _ _ => rfl
  deadlines := hdeadlines

/-- Two scans of a function to which nothing was left behind agree. -/
theorem scanned_agree {st₁ st₂ s₁ s₂ : MtfdState} (h₁ : Untouched f st₁) (h₂ : Untouched f st₂)
    (hs₁ : scanBbTiming f st₁ = (none, s₁)) (hs₂ : scanBbTiming f st₂ = (none, s₂)) :
    Agree f s₁ s₂ := by
  have hrows₁ := (rowsOf_iff hs₁).mpr h₁.rows
  have hrows₂ := (rowsOf_iff hs₂).mpr h₂.rows
  constructor
  · rintro bb (rfl | hmem)
    · rw [exit_row hs₁, exit_row hs₂]
    · rw [hrows₁.insns hmem, hrows₂.insns hmem]
  · intro bb hbb
    rw [scanned_marks hs₁ h₁.marks hbb, scanned_marks hs₂ h₂.marks hbb]

/-- **Two compilations** of a function to which nothing was left behind report
    the same. -/
theorem passMtfdExcute_same {st₁ st₂ : MtfdState} (h₁ : Untouched f st₁) (h₂ : Untouched f st₂) :
    SameReport (passMtfdExcute f st₁).1 (passMtfdExcute f st₂).1 := by
  obtain ⟨he, hs⟩ := scanBbTiming_same f st₁ st₂ h₁.deadlines
  unfold passMtfdExcute
  cases hr₁ : scanBbTiming f st₁ with
  | mk e₁ s₁ =>
    cases hr₂ : scanBbTiming f st₂ with
    | mk e₂ s₂ =>
      rw [hr₁, hr₂] at he
      rw [hr₁, hr₂] at hs
      obtain rfl : e₁ = e₂ := he
      cases e₁ with
      | some e => exact ⟨rfl, rfl⟩
      | none =>
        have hpairs : SamePairs s₁ s₂ := hs rfl
        have hrecorded := scanBbTiming_recorded hr₁
        dsimp only
        unfold timingBetweenMtFd
        rw [← hpairs.mtLen, ← hpairs.fdLen]
        by_cases hopen : s₁.fdInsnLen < s₁.mtInsnLen
        · rw [if_pos hopen, if_pos hopen]
          exact ⟨rfl, rfl⟩
        · rw [if_neg hopen, if_neg hopen]
          -- every pair is complete, so both runs see the same ones
          have heq : (List.range s₁.mtInsnLen).map s₁.mtfdInsn =
              (List.range s₁.mtInsnLen).map s₂.mtfdInsn := by
            apply List.map_congr_left
            intro i hi
            have hlt := List.mem_range.mp hi
            obtain ⟨hmt, hmtBb, hdeadline⟩ := hpairs.mt i hlt
            obtain ⟨hfd, hfdBb⟩ := hpairs.fd i (by omega)
            cases hp₁ : s₁.mtfdInsn i
            cases hp₂ : s₂.mtfdInsn i
            simp_all
          rw [← heq]
          refine timingPairs_agree ?_ (scanned_agree h₁ h₂ hr₁ hr₂)
          intro pair hpair
          obtain ⟨i, hi, rfl⟩ := List.mem_map.mp hpair
          have hrec := hrecorded i (by have hlt := List.mem_range.mp hi; omega)
          exact ⟨Or.inr hrec.mtBb, Or.inr hrec.fdBb⟩

end among

/-- **The report of a function among others**: behind any sequence of
    functions, its rows and call flags are its own exactly where nothing of
    either was left behind, and then, if no mark and no deadline was left
    either, it is reported as when compiled alone. -/
theorem passAll_report (fs : List Func) (f : Func) :
    (∀ st', scanBbTiming f (passAll fs MtfdState.zero) = (none, st') →
      ((f.RowsOf st' ∧ f.CallsOf st') ↔
        (CleanRows f (passAll fs MtfdState.zero) ∧ CleanCalls f (passAll fs MtfdState.zero)))) ∧
    (Untouched f (passAll fs MtfdState.zero) →
      SameReport (passMtfdExcute f (passAll fs MtfdState.zero)).1
        (passMtfdExcute f MtfdState.zero).1) := by
  constructor
  · intro st' hscan
    rw [rowsOf_iff hscan, callsOf_iff hscan]
  · intro h
    exact passMtfdExcute_same h (zero_untouched h.deadlines)

/-- Three blocks in a row, the last two beyond the integers that are cleared. -/
def threeBlocks : Func where
  blocks :=
    [⟨2, [.asm "lui zero, 1000"], [3]⟩, ⟨3, [.insn (some "add")], [4]⟩,
      ⟨4, [.asm "custom3 zero"], [1]⟩]
  nodup := by decide
  index_lt := by decide
  succs_mem := by decide

/-- One block, far from those of `threeBlocks`. -/
def farBlock : Func where
  blocks := [⟨40, [.insn (some "add")], [1]⟩]
  nodup := by decide
  index_lt := by decide
  succs_mem := by decide

/-- Behind a function with other blocks it is reported as when compiled alone. -/
theorem threeBlocks_apart :
    SameReport (passMtfdExcute threeBlocks (passAll [farBlock] MtfdState.zero)).1
      (passMtfdExcute threeBlocks MtfdState.zero).1 := by
  refine (passAll_report [farBlock] threeBlocks).2 ⟨?_, ?_, ?_, ?_⟩
  · unfold CleanRows
    decide +kernel
  · unfold CleanCalls
    decide +kernel
  · decide +kernel
  · have hread : ∀ b ∈ threeBlocks.blocks, ∀ x ∈ b.insns, ∀ text ∈ x.insnName,
        strstr text "lui zero" = true → (scanDeadline text).isSome = true := by decide +kernel
    intro b hb text htext
    exact hread b hb _ htext text rfl

/-- **A stale row**: compiled a second time the function takes five cycles
    instead of three. -/
theorem threeBlocks_twice :
    (scanBbTiming threeBlocks (passAll [threeBlocks] MtfdState.zero)).1 = none ∧
    ¬ threeBlocks.RowsOf (scanBbTiming threeBlocks (passAll [threeBlocks] MtfdState.zero)).2 ∧
    ¬ SameReport (passMtfdExcute threeBlocks (passAll [threeBlocks] MtfdState.zero)).1
      (passMtfdExcute threeBlocks MtfdState.zero).1 := by
  refine ⟨by decide +kernel, ?_, ?_⟩
  · intro hrows
    have hrow := congrFun (hrows ⟨3, [.insn (some "add")], [4]⟩ (by decide)) 0
    exact absurd hrow (by decide +kernel)
  · intro hsame
    have hfirst : ∀ r : PassResult, r.pairs.map PairResult.verdict =
        (passMtfdExcute threeBlocks MtfdState.zero).1.pairs.map PairResult.verdict →
        (r.pairs.map fun p => p.verdict.map fun v => v.1 0) = [some 3] := by
      intro r hr
      have hmap := congrArg (List.map fun v => v.map fun w => w.1 0) hr
      rw [List.map_map, List.map_map] at hmap
      exact hmap.trans (by decide +kernel)
    exact absurd (hfirst _ hsame.pairs) (by decide +kernel)

end Flexpret.Gcc
