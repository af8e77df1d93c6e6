import Flexpret.Gcc.Pass
import Flexpret.Gcc.ScanRows

/-! # The Time Between mt and fd

    The time reported for a pair is that of the longest path from its mt to the
    first arrival at its fd, and none is reported where a cycle can be
    entered; except for the marks that an earlier search has left behind.
-/

namespace Flexpret.Gcc

open Graph Relation

/-! ## Section 1: What the time should be -/

/-- The paths from mt to the first arrival at fd, as lists of blocks. -/
def MtfdPath (f : Func) (pair : MtfdPair) (p : List Nat) : Prop :=
  if pair.mtBb = pair.fdBb then p = [pair.mtBb] else Arrives f.succs pair.fdBb pair.mtBb p

/-- The instructions of a path from mt to fd inclusive. -/
def pathInsns (f : Func) (pair : MtfdPair) (p : List Nat) : List Rtx :=
  (p.dropLast.flatMap f.insns ++ (f.insns pair.fdBb).take (pair.fd + 1)).drop pair.mt

/-- The costs of the paths at a frequency. -/
def pathCosts (f : Func) (pair : MtfdPair) (j : Fin 5) : Set Int :=
  {v | ∃ p, MtfdPath f pair p ∧ v = cost (pathInsns f pair p) j}

/-- Some cycle can be reached from mt without passing through fd. -/
def Cyclic (f : Func) (pair : MtfdPair) : Prop := CyclicFrom f.succs pair.fdBb pair.mtBb

/-- **A correct result** for a pair: no time if there is a cycle, and otherwise
    the cost of the longest path at each frequency. -/
structure PairCorrect (f : Func) (pair : MtfdPair) (result : PairResult) : Prop where
  cyclic : Cyclic f pair → result = .cycleFound
  timing : ¬ Cyclic f pair → ∃ report, result = .timing report ∧
    ∀ j, IsGreatest (pathCosts f pair j) (report.maxCycle j)

/-- A block that the searches come to is marked, and its mark is beyond those
    that are cleared. -/
def StaleMark (f : Func) (pair : MtfdPair) (bbVisit : Nat → Bool) : Prop :=
  ∃ a c, Reaches f.succs pair.fdBb pair.mtBb a ∧ c ∈ f.succs a ∧ f.nBasicBlocks + 10 ≤ c ∧
    bbVisit c = true

/-! ## Section 2: The searches -/

section search

variable {f : Func} {pair : MtfdPair} {st : MtfdState}

theorem freeFrom_clearVisit :
    FreeFrom f.succs pair.fdBb (f.clearVisit st.bbVisit) pair.mtBb ↔
      ¬ StaleMark f pair st.bbVisit := by
  constructor
  · rintro hfree ⟨a, c, ha, hc, hle, hmark⟩
    have hclear := hfree a ha c hc
    rw [Func.clearVisit, if_neg (by omega), hmark] at hclear
    exact Bool.noConfusion hclear
  · intro hstale a ha c hc
    unfold Func.clearVisit
    split
    · rfl
    · rw [Bool.eq_false_iff]
      intro hmark
      exact hstale ⟨a, c, ha, hc, by omega, hmark⟩

/-- The blocks that can be reached: those of the function, and the exit. -/
theorem reaches_mem (hmt : pair.mtBb ∈ f.indices) {x : Nat}
    (h : Reaches f.succs pair.fdBb pair.mtBb x) :
    x ∈ insert exitBlock f.indices.toFinset := by
  induction h with
  | refl => exact Finset.mem_insert_of_mem (List.mem_toFinset.mpr hmt)
  | tail _ hstep _ =>
    rcases (Func.succs_cases hstep.edge).2 with rfl | hmem
    · exact Finset.mem_insert_self _ _
    · exact Finset.mem_insert_of_mem (List.mem_toFinset.mpr hmem)

/-- There are fewer of them than the depth guard allows. -/
theorem ahead_card (f : Func) :
    (insert exitBlock f.indices.toFinset).card ≤ f.blocks.length + 33 := by
  have hinsert := Finset.card_insert_le exitBlock f.indices.toFinset
  have hlist := List.toFinset_card_le f.indices
  have hlength : f.indices.length = f.blocks.length := by simp [Func.indices]
  omega

/-- Searches that all succeed have met no cycle and no stale mark, and have
    found the longest paths. -/
theorem searchFrequencies_found (hne : pair.mtBb ≠ pair.fdBb) {js : List (Fin 5)}
    (hjs : js.Nodup) {m m' : Fin 5 → Nat} {st st' : MtfdState}
    (h : searchFrequencies f pair.mtBb pair.fdBb js m st = (true, m', st')) :
    (js ≠ [] → ¬ Cyclic f pair ∧ ¬ StaleMark f pair st.bbVisit) ∧
      ∀ j, (j ∉ js → m' j = m j) ∧ (j ∈ js → IsGreatest
        (insert (m j) (arrivals f.succs (fun b => st.bbCycle b j) pair.fdBb 0 pair.mtBb)) (m' j))
      := by
  induction js generalizing m st with
  | nil =>
    obtain ⟨-, rfl, -⟩ : true = true ∧ m = m' ∧ st = st' := by simpa [searchFrequencies] using h
    simp
  | cons k js ih =>
    unfold searchFrequencies at h
    dsimp only at h
    split at h
    · next hok =>
      have hfound := timingBetweenBbDfs_found hne (Prod.ext hok rfl :
        timingBetweenBbDfs f.succs (fun b => st.bbCycle b k) pair.fdBb (f.blocks.length + 33)
          pair.mtBb _ = (true, _))
      obtain ⟨-, hrest⟩ := ih (List.nodup_cons.mp hjs).2 h
      refine ⟨fun _ => ⟨hfound.acyclic, freeFrom_clearVisit.mp hfound.free⟩, fun j => ?_⟩
      by_cases hj : j = k
      · subst hj
        refine ⟨fun hnot => absurd (List.mem_cons_self ..) hnot, fun _ => ?_⟩
        rw [(hrest j).1 (List.nodup_cons.mp hjs).1, Function.update_self]
        exact hfound.greatest
      · constructor
        · intro hnot
          rw [(hrest j).1 fun hmem => hnot (List.mem_cons_of_mem _ hmem),
            Function.update_of_ne hj]
        · intro hmem
          have hin : j ∈ js := (List.mem_cons.mp hmem).resolve_left hj
          have hgreatest := (hrest j).2 hin
          rwa [Function.update_of_ne hj] at hgreatest
    · exact absurd (congrArg Prod.fst h) (by simp)

/-- Without a cycle and without a stale mark they all succeed. -/
theorem searchFrequencies_succeeds (hne : pair.mtBb ≠ pair.fdBb) (hmt : pair.mtBb ∈ f.indices)
    (hacyc : ¬ Cyclic f pair) (js : List (Fin 5)) (m : Fin 5 → Nat) {st : MtfdState}
    (hstale : ¬ StaleMark f pair st.bbVisit) :
    (searchFrequencies f pair.mtBb pair.fdBb js m st).1 = true := by
  induction js generalizing m st with
  | nil => rfl
  | cons j js ih =>
    have hok : (timingBetweenBbDfs f.succs (fun b => st.bbCycle b j) pair.fdBb
        (f.blocks.length + 33) pair.mtBb
        { bbVisit := f.clearVisit st.bbVisit
          bbStack := []
          maxCycle := m j
          path := st.pathVector j }).1 = true :=
      timingBetweenBbDfs_succeeds hne (fun x hx => reaches_mem hmt hx) (ahead_card f) hacyc
        (freeFrom_clearVisit.mpr hstale)
    unfold searchFrequencies
    dsimp only
    rw [if_pos hok]
    apply ih
    have hfound := timingBetweenBbDfs_found hne (Prod.ext hok rfl :
      timingBetweenBbDfs f.succs (fun b => st.bbCycle b j) pair.fdBb (f.blocks.length + 33)
        pair.mtBb _ = (true, _))
    -- the search has only taken marks away
    rintro ⟨a, c, ha, hc, hle, hmark⟩
    refine hstale ⟨a, c, ha, hc, hle, ?_⟩
    dsimp only at hmark
    rw [hfound.visit] at hmark
    by_cases heq : c = pair.mtBb
    · rw [heq, Function.update_self] at hmark
      exact Bool.noConfusion hmark
    · rw [Function.update_of_ne heq] at hmark
      have hbeyond : f.clearVisit st.bbVisit c = st.bbVisit c := if_neg (by omega)
      exact hbeyond.symm.trans hmark

end search

/-! ## Section 3: Costs of paths -/

section costs

variable {f : Func} {pair : MtfdPair} {st : MtfdState}

/-- The blocks of a path are blocks of the function. -/
theorem arrives_indices (hfd : pair.fdBb ∈ f.indices) {a : Nat} {p : List Nat}
    (h : Arrives f.succs pair.fdBb a p) : ∀ bb ∈ p, bb ∈ f.indices := by
  induction h with
  | last ha hmem =>
    intro bb hbb
    simp only [List.mem_cons, List.not_mem_nil, or_false] at hbb
    rcases hbb with rfl | rfl
    · exact (Func.succs_cases hmem).1
    · exact hfd
  | step ha hmem hp ih =>
    intro bb hbb
    rcases List.mem_cons.mp hbb with rfl | hbb
    · exact (Func.succs_cases hmem).1
    · exact ih bb hbb

/-- The table entries of a path add up to the cost of all its instructions. -/
theorem pathCycle_eq (hrows : f.RowsOf st) (j : Fin 5) {p : List Nat}
    (hp : ∀ bb ∈ p, bb ∈ f.indices) :
    pathCycle (fun b => st.bbCycle b j) p = cost (p.flatMap f.insns) j := by
  induction p with
  | nil => rfl
  | cons bb p ih =>
    have hih := ih fun b hb => hp b (List.mem_cons_of_mem _ hb)
    rw [List.flatMap_cons, cost_append, Pi.add_apply, ← hih,
      ← hrows.insns (hp bb (List.mem_cons_self ..))]
    simp [pathCycle]

/-- **The subtraction**: without the part of the first block before mt and that
    of the last one behind fd the cost of a path from mt to fd is left. -/
theorem pathInsns_cost (hpair : f.Recorded pair) {q : List Nat} (j : Fin 5) :
    cost ((pair.mtBb :: (q ++ [pair.fdBb])).flatMap f.insns) j =
      cost ((f.insns pair.mtBb).take pair.mt) j +
        cost (pathInsns f pair (pair.mtBb :: (q ++ [pair.fdBb]))) j +
        cost ((f.insns pair.fdBb).drop (pair.fd + 1)) j := by
  have hlast : (pair.mtBb :: (q ++ [pair.fdBb])).dropLast = pair.mtBb :: q := by
    rw [← List.cons_append, List.dropLast_concat]
  have hmt := congrFun (cost_take_drop pair.mt (f.insns pair.mtBb)) j
  have hfd := congrFun (cost_take_drop (pair.fd + 1) (f.insns pair.fdBb)) j
  have hle : pair.mt ≤ (f.insns pair.mtBb).length := Nat.le_of_lt hpair.mt
  simp only [Pi.add_apply] at hmt hfd
  rw [pathInsns, hlast, List.flatMap_cons, List.flatMap_cons, List.append_assoc,
    List.drop_append_of_le_length hle]
  simp only [List.flatMap_append, List.flatMap_cons, List.flatMap_nil, List.append_nil,
    cost_append, Pi.add_apply]
  omega

/-- **The longest path**: the maximum that the searches find is that of the
    paths from mt to fd, before the two parts are taken off. -/
theorem pathCosts_greatest (hrows : f.RowsOf st) (hpair : f.Recorded pair)
    (hne : pair.mtBb ≠ pair.fdBb) (hreach : ReflTransGen (Edge f.succs) pair.mtBb pair.fdBb)
    {j : Fin 5} {longest : Nat}
    (h : IsGreatest
      (insert 0 (arrivals f.succs (fun b => st.bbCycle b j) pair.fdBb 0 pair.mtBb)) longest) :
    IsGreatest (pathCosts f pair j)
      (longest - ((cost ((f.insns pair.mtBb).take pair.mt) j : Int) +
        cost ((f.insns pair.fdBb).drop (pair.fd + 1)) j)) := by
  have hsum : ∀ p, Arrives f.succs pair.fdBb pair.mtBb p →
      pathCycle (fun b => st.bbCycle b j) p =
        cost ((f.insns pair.mtBb).take pair.mt) j + cost (pathInsns f pair p) j +
          cost ((f.insns pair.fdBb).drop (pair.fd + 1)) j := by
    intro p hp
    rw [pathCycle_eq hrows j (arrives_indices hpair.fdBb hp)]
    obtain ⟨q, rfl⟩ := hp.shape
    exact pathInsns_cost hpair j
  have hgreatest := isGreatest_of_insert h (by
    obtain ⟨p, hp⟩ := exists_arrives hreach hne
    exact ⟨_, p, hp, rfl⟩) (fun v _ => Nat.zero_le v)
  constructor
  · obtain ⟨p, hp, hlongest⟩ := hgreatest.1
    refine ⟨p, by rwa [MtfdPath, if_neg hne], ?_⟩
    rw [Nat.zero_add, hsum p hp] at hlongest
    omega
  · rintro v ⟨p, hp, rfl⟩
    rw [MtfdPath, if_neg hne] at hp
    have hle := hgreatest.2 ⟨p, hp, rfl⟩
    rw [Nat.zero_add, hsum p hp] at hle
    omega

/-- In one block there is one path, and nothing to search. -/
theorem pathCosts_same (hsame : pair.mtBb = pair.fdBb) (j : Fin 5) :
    pathCosts f pair j =
      {(cost (((f.insns pair.mtBb).take (pair.fd + 1)).drop pair.mt) j : Int)} := by
  ext v
  simp [pathCosts, MtfdPath, hsame, pathInsns]

end costs

/-! ## Section 4: The result for a pair -/

/-- **The time of a pair** at a frequency: the cost of the longest path, and where no
    path leads from mt to fd what is taken off nothing. -/
def PairTime (f : Func) (pair : MtfdPair) (j : Fin 5) (v : Int) : Prop :=
  IsGreatest (pathCosts f pair j) v ∨
    pathCosts f pair j = ∅ ∧
      v = -((cost ((f.insns pair.mtBb).take pair.mt) j : Int) +
        cost ((f.insns pair.fdBb).drop (pair.fd + 1)) j)

/-- A pair whose time is calculated: nothing has to be searched, or the searches meet
    neither a cycle nor a stale mark. -/
def Timed (f : Func) (pair : MtfdPair) (bbVisit : Nat → Bool) : Prop :=
  pair.mtBb = pair.fdBb ∨ ¬ Cyclic f pair ∧ ¬ StaleMark f pair bbVisit

/-- **A pair that misses its deadline** at all four frequencies. -/
def MissesAll (f : Func) (pair : MtfdPair) (bbVisit : Nat → Bool) : Prop :=
  Timed f pair bbVisit ∧ ∃ maxCycle : Fin 5 → Int, (∀ j, PairTime f pair j (maxCycle j)) ∧
    ∀ j, meetDdl pair.deadline maxCycle j = false

section result

variable {f : Func} {pair : MtfdPair} {st : MtfdState} {report : Report}

theorem PairTime.unique {j : Fin 5} {v w : Int} (hv : PairTime f pair j v)
    (hw : PairTime f pair j w) : v = w := by
  rcases hv with hv | ⟨hnone, rfl⟩
  · rcases hw with hw | ⟨hnone, -⟩
    · exact hv.unique hw
    · exact absurd hv.1 (hnone ▸ Set.notMem_empty v)
  · rcases hw with hw | ⟨-, rfl⟩
    · exact absurd hw.1 (hnone ▸ Set.notMem_empty w)
    · rfl

/-- The time of a pair with a path is that of the longest one. -/
theorem PairTime.greatest {j : Fin 5} {v : Int} (h : PairTime f pair j v) {p : List Nat}
    (hp : MtfdPath f pair p) : IsGreatest (pathCosts f pair j) v := by
  rcases h with hgreatest | ⟨hnone, -⟩
  · exact hgreatest
  · have hmem : (cost (pathInsns f pair p) j : Int) ∈ pathCosts f pair j := ⟨p, hp, rfl⟩
    rw [hnone] at hmem
    exact absurd hmem (Set.notMem_empty _)

theorem exists_mtfdPath (hreach : ReflTransGen (Edge f.succs) pair.mtBb pair.fdBb) :
    ∃ p, MtfdPath f pair p := by
  by_cases hsame : pair.mtBb = pair.fdBb
  · exact ⟨[pair.mtBb], by rw [MtfdPath, if_pos hsame]⟩
  · obtain ⟨p, hp⟩ := exists_arrives hreach hsame
    exact ⟨p, by rwa [MtfdPath, if_neg hsame]⟩

theorem not_cyclic_of_same (hsame : pair.mtBb = pair.fdBb) : ¬ Cyclic f pair := by
  rw [Cyclic, hsame]
  exact not_cyclicFrom_target

/-- What the searches have found is the time of the pair, paths or none. -/
theorem pairTime_of_greatest (hrows : f.RowsOf st) (hpair : f.Recorded pair)
    (hne : pair.mtBb ≠ pair.fdBb) {j : Fin 5} {longest : Nat}
    (h : IsGreatest
      (insert 0 (arrivals f.succs (fun b => st.bbCycle b j) pair.fdBb 0 pair.mtBb)) longest) :
    PairTime f pair j (longest - ((cost ((f.insns pair.mtBb).take pair.mt) j : Int) +
      cost ((f.insns pair.fdBb).drop (pair.fd + 1)) j)) := by
  by_cases hreach : ReflTransGen (Edge f.succs) pair.mtBb pair.fdBb
  · exact Or.inl (pathCosts_greatest hrows hpair hne hreach h)
  · have hnone : ∀ p, ¬ Arrives f.succs pair.fdBb pair.mtBb p := fun p hp => hreach hp.reachable
    right
    constructor
    · refine Set.eq_empty_of_forall_notMem ?_
      rintro v ⟨p, hp, -⟩
      rw [MtfdPath, if_neg hne] at hp
      exact hnone p hp
    · -- the maximum is what the search has started with
      rcases h.1 with rfl | ⟨p, hp, -⟩
      · exact zero_sub _
      · exact absurd hp (hnone p)

/-- **What is reported** with a time: the time of the pair, and the verdict on it. -/
theorem pairTiming_report (hrows : f.RowsOf st) (hpair : f.Recorded pair)
    (h : (pairTiming f pair st).1 = .timing report) :
    (∀ j, PairTime f pair j (report.maxCycle j)) ∧
      report.meetDdl = meetDdl pair.deadline report.maxCycle := by
  by_cases hsame : pair.mtBb = pair.fdBb
  · rw [pairTiming, if_pos hsame] at h
    obtain rfl := PairResult.timing.inj h
    refine ⟨fun j => Or.inl ?_, rfl⟩
    rw [pathCosts_same hsame]
    dsimp only
    rw [timingOf_eq]
    exact isGreatest_singleton
  · rw [pairTiming, if_neg hsame] at h
    cases hsearch : searchFrequencies f pair.mtBb pair.fdBb (List.finRange 5) 0 st with
    | mk ok rest =>
      obtain ⟨longest, st'⟩ := rest
      rw [hsearch] at h
      cases ok with
      | false => exact PairResult.noConfusion h
      | true =>
        obtain ⟨-, hlongest⟩ := searchFrequencies_found hsame (List.nodup_finRange 5) hsearch
        obtain rfl := PairResult.timing.inj h
        refine ⟨fun j => ?_, rfl⟩
        dsimp only
        rw [timingOf_eq, timingOf_eq]
        exact pairTime_of_greatest hrows hpair hsame ((hlongest j).2 (List.mem_finRange j))

/-- **A time is calculated** exactly for the pairs that nothing stands in the way of. -/
theorem pairTiming_timed_iff (hpair : f.Recorded pair) :
    (∃ report, (pairTiming f pair st).1 = .timing report) ↔ Timed f pair st.bbVisit := by
  by_cases hsame : pair.mtBb = pair.fdBb
  · exact ⟨fun _ => Or.inl hsame, fun _ => ⟨_, by rw [pairTiming, if_pos hsame]⟩⟩
  rw [pairTiming, if_neg hsame]
  cases hsearch : searchFrequencies f pair.mtBb pair.fdBb (List.finRange 5) 0 st with
  | mk ok rest =>
    obtain ⟨longest, st'⟩ := rest
    cases ok with
    | true =>
      obtain ⟨hmet, -⟩ := searchFrequencies_found hsame (List.nodup_finRange 5) hsearch
      exact ⟨fun _ => Or.inr (hmet (by decide)), fun _ => ⟨_, rfl⟩⟩
    | false =>
      constructor
      · rintro ⟨report, hreport⟩
        exact PairResult.noConfusion hreport
      · intro htimed
        obtain ⟨hacyc, hstale⟩ := htimed.resolve_left hsame
        have hok := searchFrequencies_succeeds hsame hpair.mtBb hacyc (List.finRange 5) 0 hstale
        rw [hsearch] at hok
        exact Bool.noConfusion hok

theorem pairTiming_cases (f : Func) (pair : MtfdPair) (st : MtfdState) :
    (pairTiming f pair st).1 = .cycleFound ∨
      ∃ report, (pairTiming f pair st).1 = .timing report := by
  cases (pairTiming f pair st).1 with
  | cycleFound => exact Or.inl rfl
  | timing report => exact Or.inr ⟨report, rfl⟩

/-- **The time between mt and fd** is right exactly where no stale mark is in
    the way, or there is a cycle anyway. -/
theorem pairTiming_correct_iff (hrows : f.RowsOf st) (hpair : f.Recorded pair)
    (hreach : ReflTransGen (Edge f.succs) pair.mtBb pair.fdBb) :
    PairCorrect f pair (pairTiming f pair st).1 ↔
      (pair.mtBb = pair.fdBb ∨ Cyclic f pair ∨ ¬ StaleMark f pair st.bbVisit) := by
  have htimed : (∃ report, (pairTiming f pair st).1 = .timing report) ↔
      Timed f pair st.bbVisit := pairTiming_timed_iff hpair
  constructor
  · intro hcorrect
    by_cases hcyclic : Cyclic f pair
    · exact Or.inr (Or.inl hcyclic)
    · obtain ⟨report, hreport, -⟩ := hcorrect.timing hcyclic
      obtain hsame | ⟨-, hstale⟩ := htimed.mp ⟨report, hreport⟩
      · exact Or.inl hsame
      · exact Or.inr (Or.inr hstale)
  · intro hcases
    constructor
    case cyclic =>
      intro hcyclic
      refine (pairTiming_cases f pair st).resolve_right fun hreport => ?_
      obtain hsame | ⟨hacyc, -⟩ := htimed.mp hreport
      · exact not_cyclic_of_same hsame hcyclic
      · exact hacyc hcyclic
    case timing =>
      intro hacyc
      have hclear : Timed f pair st.bbVisit := by
        rcases hcases with hsame | hcyclic | hstale
        · exact Or.inl hsame
        · exact absurd hcyclic hacyc
        · exact Or.inr ⟨hacyc, hstale⟩
      obtain ⟨report, hreport⟩ := htimed.mpr hclear
      obtain ⟨p, hp⟩ := exists_mtfdPath hreach
      exact ⟨report, hreport, fun j => ((pairTiming_report hrows hpair hreport).1 j).greatest hp⟩

/-- The result that ends the pass: a time with which no deadline is met. -/
def PairResult.Ends (result : PairResult) : Prop :=
  ∃ report, result = .timing report ∧ report.meetsNone = true

theorem Report.meetsNone_iff : report.meetsNone = true ↔ ∀ j, report.meetDdl j = false := by
  simp [Report.meetsNone]

/-- The loop body returns early exactly for a pair that misses its deadline everywhere. -/
theorem pairTiming_ends_iff (hrows : f.RowsOf st) (hpair : f.Recorded pair) :
    (pairTiming f pair st).1.Ends ↔ MissesAll f pair st.bbVisit := by
  constructor
  · rintro ⟨report, hreport, hnone⟩
    obtain ⟨htime, hverdict⟩ := pairTiming_report hrows hpair hreport
    refine ⟨(pairTiming_timed_iff hpair).mp ⟨report, hreport⟩, report.maxCycle, htime, ?_⟩
    rw [← hverdict]
    exact Report.meetsNone_iff.mp hnone
  · rintro ⟨htimed, maxCycle, htime, hnone⟩
    obtain ⟨report, hreport⟩ := (pairTiming_timed_iff hpair).mpr htimed
    obtain ⟨htime', hverdict⟩ := pairTiming_report hrows hpair hreport
    -- the greatest cost of a path is unique
    have hsame : report.maxCycle = maxCycle := funext fun j => (htime' j).unique (htime j)
    refine ⟨report, hreport, Report.meetsNone_iff.mpr ?_⟩
    rwa [hverdict, hsame]

end result

/-! ## Section 5: The results of a function -/

/-- The static variables when the loop comes to pair `i`. -/
def stateBefore (f : Func) (pairs : List MtfdPair) (st : MtfdState) (i : Nat) : MtfdState :=
  (pairs.take i).foldl (fun st pair => (pairTiming f pair st).2) st

theorem searchFrequencies_bbCycle (f : Func) (mtBb fdBb : Nat) (js : List (Fin 5))
    (m : Fin 5 → Nat) (st : MtfdState) :
    (searchFrequencies f mtBb fdBb js m st).2.2.bbCycle = st.bbCycle := by
  induction js generalizing m st with
  | nil => rfl
  | cons j js ih =>
    unfold searchFrequencies
    dsimp only
    split
    · rw [ih]
    · rfl

theorem pairTiming_bbCycle (f : Func) (pair : MtfdPair) (st : MtfdState) :
    (pairTiming f pair st).2.bbCycle = st.bbCycle := by
  unfold pairTiming
  dsimp only
  split
  · rfl
  · have hframe := searchFrequencies_bbCycle f pair.mtBb pair.fdBb (List.finRange 5) 0 st
    split <;> simp_all

theorem stateBefore_bbCycle (f : Func) (pairs : List MtfdPair) (st : MtfdState) (i : Nat) :
    (stateBefore f pairs st i).bbCycle = st.bbCycle := by
  unfold stateBefore
  generalize pairs.take i = done
  induction done generalizing st with
  | nil => rfl
  | cons pair done ih => exact (ih _).trans (pairTiming_bbCycle f pair st)

section loop

variable {f : Func} {pair : MtfdPair} {pairs : List MtfdPair} {st : MtfdState} {i : Nat}
  {result : PairResult}

theorem timingPairs_zero :
    (timingPairs f (pair :: pairs) st).1.pairs[0]? = some (pairTiming f pair st).1 := by
  unfold timingPairs
  split
  · next hpair => simp [hpair]
  · next report st' hpair =>
    split
    · simp [hpair]
    · simp [hpair]

/-- The loop returns behind a pair that ends the pass, -/
theorem timingPairs_succ_of_ends (hends : (pairTiming f pair st).1.Ends) :
    (timingPairs f (pair :: pairs) st).1.pairs[i + 1]? = none := by
  obtain ⟨report, hreport, hnone⟩ := hends
  unfold timingPairs
  split
  · next hpair => simp [hpair] at hreport
  · next report' st' hpair =>
    have heq : report' = report := by simpa [hpair] using hreport
    rw [if_pos (heq ▸ hnone)]
    rfl

/-- and goes on in the state after any other. -/
theorem timingPairs_succ (hgoes : ¬ (pairTiming f pair st).1.Ends) :
    (timingPairs f (pair :: pairs) st).1.pairs[i + 1]? =
      (timingPairs f pairs (pairTiming f pair st).2).1.pairs[i]? := by
  conv_lhs => unfold timingPairs
  split
  · next hpair => simp [hpair]
  · next report st' hpair =>
    rw [if_neg fun hnone => hgoes ⟨report, congrArg Prod.fst hpair, hnone⟩]
    simp [hpair]

/-- **A result of the loop** is that of its body in the state before, if no pair before it
    has ended the pass. -/
theorem timingPairs_result_iff :
    (timingPairs f pairs st).1.pairs[i]? = some result ↔
      (∃ pair, pairs[i]? = some pair ∧
        result = (pairTiming f pair (stateBefore f pairs st i)).1) ∧
      ∀ k pair, k < i → pairs[k]? = some pair →
        ¬ (pairTiming f pair (stateBefore f pairs st k)).1.Ends := by
  induction pairs generalizing st i with
  | nil => simp [timingPairs]
  | cons pair pairs ih =>
    cases i with
    | zero =>
      -- nothing is before the first pair
      rw [timingPairs_zero]
      constructor
      · intro h
        exact ⟨⟨pair, rfl, (Option.some.inj h).symm⟩, fun k _ hk => absurd hk (Nat.not_lt_zero k)⟩
      · rintro ⟨⟨pair', hget, hresult⟩, -⟩
        obtain rfl : pair = pair' := Option.some.inj hget
        exact congrArg some hresult.symm
    | succ i =>
      by_cases hends : (pairTiming f pair st).1.Ends
      · -- the first pair has ended the pass
        rw [timingPairs_succ_of_ends hends]
        constructor
        · intro h
          exact absurd h (Option.some_ne_none result).symm
        · rintro ⟨-, hbefore⟩
          exact absurd hends (hbefore 0 pair (Nat.succ_pos i) rfl)
      · rw [timingPairs_succ hends, ih]
        constructor
        · rintro ⟨hresult, hbefore⟩
          refine ⟨hresult, fun k pair' hk hget => ?_⟩
          cases k with
          | zero =>
            obtain rfl : pair = pair' := Option.some.inj hget
            exact hends
          | succ k => exact hbefore k pair' (Nat.lt_of_succ_lt_succ hk) hget
        · rintro ⟨hresult, hbefore⟩
          exact ⟨hresult, fun k pair' hk hget => hbefore (k + 1) pair' (Nat.succ_lt_succ hk) hget⟩

end loop

/-- The static variables when the pass comes to pair `i` of a function. -/
def pairState (f : Func) (st : MtfdState) (i : Nat) : MtfdState :=
  stateBefore f ((List.range st.mtInsnLen).map st.mtfdInsn) st i

theorem pairState_rows {f : Func} {st : MtfdState} (hrows : f.RowsOf st) (i : Nat) :
    f.RowsOf (pairState f st i) := by
  intro b hb
  rw [pairState, stateBefore_bbCycle]
  exact hrows b hb

theorem range_pairs {st : MtfdState} {i : Nat} {pair : MtfdPair} :
    ((List.range st.mtInsnLen).map st.mtfdInsn)[i]? = some pair ↔
      i < st.mtInsnLen ∧ st.mtfdInsn i = pair := by
  simp only [List.getElem?_map, Option.map_eq_some_iff, List.getElem?_eq_some_iff]
  constructor
  · rintro ⟨k, ⟨hlt, rfl⟩, hpair⟩
    rw [List.getElem_range] at hpair
    exact ⟨by simpa using hlt, hpair⟩
  · rintro ⟨hlt, hpair⟩
    exact ⟨i, ⟨by simpa using hlt, List.getElem_range _⟩, hpair⟩

/-- **The results of a function**: a pair has one unless an mt is left without fd or an
    earlier pair misses its deadline at every frequency, and it is that of the loop body. -/
theorem timingBetweenMtFd_result_iff {f : Func} {st : MtfdState} (hrows : f.RowsOf st) {i : Nat}
    (hi : i < st.mtInsnLen) (hpairs : ∀ k, k < i → f.Recorded (st.mtfdInsn k))
    {result : PairResult} :
    (timingBetweenMtFd f st).1.pairs[i]? = some result ↔
      st.mtInsnLen ≤ st.fdInsnLen ∧
      (∀ k, k < i → ¬ MissesAll f (st.mtfdInsn k) (pairState f st k).bbVisit) ∧
      result = (pairTiming f (st.mtfdInsn i) (pairState f st i)).1 := by
  unfold timingBetweenMtFd
  split
  · next hless => simp [Nat.not_le.mpr hless]
  · next hmore =>
    rw [timingPairs_result_iff]
    constructor
    · rintro ⟨⟨pair, hget, hresult⟩, hbefore⟩
      obtain ⟨-, rfl⟩ := range_pairs.mp hget
      refine ⟨Nat.le_of_not_lt hmore, fun k hk hmisses => ?_, hresult⟩
      exact hbefore k (st.mtfdInsn k) hk (range_pairs.mpr ⟨hk.trans hi, rfl⟩)
        ((pairTiming_ends_iff (pairState_rows hrows k) (hpairs k hk)).mpr hmisses)
    · rintro ⟨-, hbefore, hresult⟩
      refine ⟨⟨_, range_pairs.mpr ⟨hi, rfl⟩, hresult⟩, fun k pair hk hget hends => ?_⟩
      obtain ⟨-, rfl⟩ := range_pairs.mp hget
      exact hbefore k hk
        ((pairTiming_ends_iff (pairState_rows hrows k) (hpairs k hk)).mp hends)

/-- **The times that a function is reported with**: a pair has a result, and the right one,
    exactly where the pass comes to it and no stale mark is in the way of the searches, or
    there is a cycle anyway. -/
theorem timingBetweenMtFd_correct_iff {f : Func} {st : MtfdState} (hrows : f.RowsOf st) {i : Nat}
    (hi : i < st.mtInsnLen) (hpairs : ∀ k, k ≤ i → f.Recorded (st.mtfdInsn k))
    (hreach : ReflTransGen (Edge f.succs) (st.mtfdInsn i).mtBb (st.mtfdInsn i).fdBb) :
    (∃ result, (timingBetweenMtFd f st).1.pairs[i]? = some result ∧
      PairCorrect f (st.mtfdInsn i) result) ↔
      st.mtInsnLen ≤ st.fdInsnLen ∧
      (∀ k, k < i → ¬ MissesAll f (st.mtfdInsn k) (pairState f st k).bbVisit) ∧
      ((st.mtfdInsn i).mtBb = (st.mtfdInsn i).fdBb ∨ Cyclic f (st.mtfdInsn i) ∨
        ¬ StaleMark f (st.mtfdInsn i) (pairState f st i).bbVisit) := by
  have hresults := @timingBetweenMtFd_result_iff f st hrows i hi fun k hk => hpairs k hk.le
  have hcorrect := pairTiming_correct_iff (pairState_rows hrows i) (hpairs i le_rfl) hreach
  constructor
  · rintro ⟨result, hresult, hright⟩
    obtain ⟨hpaired, hbefore, rfl⟩ := hresults.mp hresult
    exact ⟨hpaired, hbefore, hcorrect.mp hright⟩
  · rintro ⟨hpaired, hbefore, hclear⟩
    exact ⟨_, hresults.mpr ⟨hpaired, hbefore, rfl⟩, hcorrect.mpr hclear⟩

/-- Two ways from the block of mt to that of fd. -/
def diamond : Func where
  blocks :=
    [⟨2, [.asm "lui zero, 1000"], [3, 4]⟩, ⟨3, [.insn (some "add"), .insn (some "lw")], [5]⟩,
      ⟨4, [.insn (some "j")], [5]⟩, ⟨5, [.asm "custom3 zero"], [1]⟩]
  nodup := by decide
  index_lt := by decide
  succs_mem := by decide

/-- The state in which `timing_between_mt_fd` is called. -/
def scanned (f : Func) : MtfdState := (scanBbTiming f MtfdState.zero).2

theorem scanned_rows {f : Func} (hscan : (scanBbTiming f MtfdState.zero).1 = none) :
    f.RowsOf (scanned f) :=
  (rowsOf_iff (Prod.ext hscan rfl)).mpr fun _ _ _ _ => rfl

theorem scanned_recorded {f : Func} (hscan : (scanBbTiming f MtfdState.zero).1 = none) {i : Nat}
    (hi : i < (scanned f).fdInsnLen) : f.Recorded ((scanned f).mtfdInsn i) :=
  scanBbTiming_recorded (Prod.ext hscan rfl) i hi

theorem diamond_correct :
    ∃ result, (timingBetweenMtFd diamond (scanned diamond)).1.pairs[0]? = some result ∧
      PairCorrect diamond ((scanned diamond).mtfdInsn 0) result := by
  have hrecorded : ∀ k, k ≤ 0 → diamond.Recorded ((scanned diamond).mtfdInsn k) := by
    intro k hk
    have hlen : 0 < (scanned diamond).fdInsnLen := by decide +kernel
    exact scanned_recorded (by decide +kernel) (hk.trans_lt hlen)
  refine (timingBetweenMtFd_correct_iff (scanned_rows (by decide +kernel)) (by decide +kernel)
    hrecorded ?_).mpr ⟨by decide +kernel, fun k hk => absurd hk (Nat.not_lt_zero k),
      Or.inr (Or.inr ?_)⟩
  · have hfirst : Edge diamond.succs 2 3 := by decide
    have hsecond : Edge diamond.succs 3 5 := by decide
    exact ReflTransGen.head hfirst (ReflTransGen.single hsecond)
  · rintro ⟨a, c, -, hc, hle, -⟩
    -- no block has so high an index
    rcases (Func.succs_cases hc).2 with rfl | hmem
    · exact absurd hle (by decide)
    · have hlt : ∀ c ∈ diamond.indices, c < diamond.nBasicBlocks + 10 := by decide
      exact absurd hle (Nat.not_le.mpr (hlt c hmem))

/-- A loop around the first pair, into which the second one leads: blocks 2
    and 50 in a circle, block 3 between them with an fd and an mt. -/
def loopAhead : Func where
  blocks :=
    [⟨2, [.asm "lui zero, 1000"], [50, 3]⟩,
      ⟨3, [.asm "custom3 zero", .asm "lui zero, 1000"], [50]⟩, ⟨50, [.asm "custom3 zero"], [2, 1]⟩]
  nodup := by decide
  index_lt := by decide
  succs_mem := by decide

/-- **A stale mark**: the search of the first pair fails and leaves block 50
    marked, beyond what is cleared, so that the second pair is refused though
    nothing but an edge lies between its mt and its fd. -/
theorem loopAhead_refused :
    loopAhead.RowsOf (scanned loopAhead) ∧
    loopAhead.Recorded ((scanned loopAhead).mtfdInsn 1) ∧
    ReflTransGen (Edge loopAhead.succs) ((scanned loopAhead).mtfdInsn 1).mtBb
      ((scanned loopAhead).mtfdInsn 1).fdBb ∧
    ∃ result, (timingBetweenMtFd loopAhead (scanned loopAhead)).1.pairs[1]? = some result ∧
      ¬ PairCorrect loopAhead ((scanned loopAhead).mtfdInsn 1) result := by
  refine ⟨scanned_rows (by decide +kernel),
    scanned_recorded (by decide +kernel) (by decide +kernel), ?_, .cycleFound, ?_, ?_⟩
  · have hedge : Edge loopAhead.succs 3 50 := by decide
    exact ReflTransGen.single hedge
  · rfl
  · intro hcorrect
    have hacyc : ¬ Cyclic loopAhead ((scanned loopAhead).mtfdInsn 1) := by
      rintro ⟨b, hb, hcycle⟩
      -- the only successor of the block of mt is that of fd
      have hnone : ∀ c, ¬ Inner loopAhead.succs 50 3 c := by
        intro c hc
        have hmem : c ∈ [50] := hc.edge
        exact hc.right (List.mem_singleton.mp hmem)
      rcases reaches_cases hb with rfl | ⟨c, hc, -⟩
      · obtain ⟨c, hc, -⟩ := TransGen.head'_iff.mp hcycle
        exact hnone c hc
      · exact hnone c hc
    obtain ⟨report, hreport, -⟩ := hcorrect.timing hacyc
    exact PairResult.noConfusion hreport

end Flexpret.Gcc
