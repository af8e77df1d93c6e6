import Flexpret.Gcc.Scan
import Flexpret.Lib.Graph

/-! # The Search Between Two Blocks

    `timing_between_bb_dfs` and what it computes: it succeeds where the region
    between the blocks has no cycle and no stale mark, and then has found the
    longest path.
-/

namespace Flexpret.Gcc

open Graph

/-! ## Section 1: The search -/

/-- What the search changes: `bb_visit`, `bb_stack` (the top first), and
    `max_cycle` and `path_vector` at its frequency. -/
structure DfsState where
  bbVisit : Nat → Bool
  bbStack : List Nat
  maxCycle : Nat
  path : List Nat

section search

variable (succs : Nat → List Nat) (cycle : Nat → Nat) (stop : Nat)

/-- The end block is met: the path on the stack is compared with the longest
    so far. -/
def recordPath (st : DfsState) : DfsState :=
  let stack := stop :: st.bbStack
  let sumCycle := (stack.map cycle).sum
  if st.maxCycle < sumCycle then { st with maxCycle := sumCycle, path := stack.reverse } else st

/-- The loop over the successors of a block, `search` being the search from
    one of them. -/
def searchSuccs (search : Nat → DfsState → Bool × DfsState) :
    List Nat → DfsState → Bool × DfsState
  | [], st => (true, st)
  | bbS :: succ, st =>
    let st := if bbS = stop then recordPath cycle stop st else st
    if st.bbVisit bbS then (false, { st with bbStack := st.bbStack.tail })
    else if bbS = stop then searchSuccs search succ st
    else
      match search bbS st with
      | (false, st) => (false, { st with bbStack := st.bbStack.tail })
      | (true, st) => searchSuccs search succ st

/-- **`timing_between_bb_dfs`**.  The first argument counts the depths that
    are left: `cfun_bb_num + 33 - depth`. -/
def timingBetweenBbDfs : Nat → Nat → DfsState → Bool × DfsState
  | 0, _, st => (false, st)
  | depth + 1, start, st =>
    let st :=
      { st with
        bbStack := start :: st.bbStack
        bbVisit := Function.update st.bbVisit start true }
    match searchSuccs cycle stop (timingBetweenBbDfs depth) (succs start) st with
    | (false, st) => (false, st)
    | (true, st) =>
      (true,
        { st with
          bbVisit := Function.update st.bbVisit start false
          bbStack := st.bbStack.tail })

end search

/-! ## Section 2: What a successful search has found -/

/-- Cycles of the blocks of a path. -/
def pathCycle (cycle : Nat → Nat) (p : List Nat) : Nat := (p.map cycle).sum

section found

variable {succs : Nat → List Nat} {cycle : Nat → Nat} {stop : Nat}

/-- Cycles up to the end block of the paths that go on from a successor. -/
def onward (succs : Nat → List Nat) (cycle : Nat → Nat) (stop base : Nat) (bbS : Nat) : Set Nat :=
  {v | (bbS = stop ∧ v = base + cycle stop) ∨
    ∃ p, Arrives succs stop bbS p ∧ v = base + pathCycle cycle p}

/-- Cycles of the paths from a block. -/
def arrivals (succs : Nat → List Nat) (cycle : Nat → Nat) (stop base : Nat) (bb : Nat) : Set Nat :=
  {v | ∃ p, Arrives succs stop bb p ∧ v = base + pathCycle cycle p}

/-- The paths from a block go on from its successors. -/
theorem arrivals_eq {bb : Nat} (hne : bb ≠ stop) (base : Nat) :
    arrivals succs cycle stop base bb =
      {v | ∃ c ∈ succs bb, v ∈ onward succs cycle stop (base + cycle bb) c} := by
  ext v
  simp only [arrivals, onward, Set.mem_ofPred_eq]
  constructor
  · rintro ⟨p, hp, rfl⟩
    rcases (arrives_iff hne).mp hp with ⟨hmem, rfl⟩ | ⟨c, hc, q, hq, rfl⟩
    · refine ⟨stop, hmem, Or.inl ⟨rfl, ?_⟩⟩
      simp [pathCycle, Nat.add_assoc]
    · refine ⟨c, hc, Or.inr ⟨q, hq, ?_⟩⟩
      simp [pathCycle, Nat.add_assoc]
  · rintro ⟨c, hc, ⟨rfl, rfl⟩ | ⟨q, hq, rfl⟩⟩
    · refine ⟨[bb, c], Arrives.last hne hc, ?_⟩
      simp [pathCycle, Nat.add_assoc]
    · refine ⟨bb :: q, Arrives.step hne hc hq, ?_⟩
      simp [pathCycle, Nat.add_assoc]

/-- **A successful search from `bb`**: nothing it can reach is marked or lies
    on a cycle, it has unmarked `bb` and left the stack as it was, and the
    maximum takes the paths from `bb` into account. -/
structure Found (succs : Nat → List Nat) (cycle : Nat → Nat) (stop bb : Nat)
    (st st' : DfsState) : Prop where
  visit : st'.bbVisit = Function.update st.bbVisit bb false
  stack : st'.bbStack = st.bbStack
  acyclic : ¬ CyclicFrom succs stop bb
  free : FreeFrom succs stop st.bbVisit bb
  greatest : IsGreatest
    (insert st.maxCycle (arrivals succs cycle stop (pathCycle cycle st.bbStack) bb)) st'.maxCycle

theorem recordPath_greatest (st : DfsState) :
    IsGreatest
      (insert st.maxCycle (onward succs cycle stop (pathCycle cycle st.bbStack) stop))
      (recordPath cycle stop st).maxCycle := by
  have honward : onward succs cycle stop (pathCycle cycle st.bbStack) stop =
      {pathCycle cycle st.bbStack + cycle stop} := by
    ext v
    simp only [onward, Set.mem_ofPred_eq, true_and, Set.mem_singleton_iff]
    constructor
    · rintro (h | ⟨p, hp, -⟩)
      · exact h
      · exact absurd rfl hp.ne
    · exact Or.inl
  have hsum : (List.map cycle (stop :: st.bbStack)).sum =
      pathCycle cycle st.bbStack + cycle stop := by
    simp [pathCycle, Nat.add_comm]
  rw [honward, recordPath, hsum]
  by_cases hlt : st.maxCycle < pathCycle cycle st.bbStack + cycle stop
  · rw [if_pos hlt]
    refine ⟨Or.inr rfl, ?_⟩
    rintro v (rfl | rfl)
    · exact Nat.le_of_lt hlt
    · exact Nat.le_refl _
  · rw [if_neg hlt]
    refine ⟨Or.inl rfl, ?_⟩
    rintro v (rfl | rfl)
    · exact Nat.le_refl _
    · exact Nat.not_lt.mp hlt

@[simp] theorem recordPath_bbVisit (st : DfsState) :
    (recordPath cycle stop st).bbVisit = st.bbVisit := by
  unfold recordPath
  dsimp only
  split <;> rfl

@[simp] theorem recordPath_bbStack (st : DfsState) :
    (recordPath cycle stop st).bbStack = st.bbStack := by
  unfold recordPath
  dsimp only
  split <;> rfl

/-- What the loop has found when it gets through a list of successors. -/
structure FoundSuccs (succs : Nat → List Nat) (cycle : Nat → Nat) (stop : Nat) (succ : List Nat)
    (st st' : DfsState) : Prop where
  visit : st'.bbVisit = st.bbVisit
  stack : st'.bbStack = st.bbStack
  unmarked : ∀ c ∈ succ, st.bbVisit c = false
  acyclic : ∀ c ∈ succ, c ≠ stop → ¬ CyclicFrom succs stop c
  free : ∀ c ∈ succ, c ≠ stop → FreeFrom succs stop st.bbVisit c
  greatest : IsGreatest
    (insert st.maxCycle
      {v | ∃ c ∈ succ, v ∈ onward succs cycle stop (pathCycle cycle st.bbStack) c})
    st'.maxCycle

theorem onward_of_ne {bbS : Nat} (hne : bbS ≠ stop) (base : Nat) :
    onward succs cycle stop base bbS = arrivals succs cycle stop base bbS := by
  ext v
  simp [onward, arrivals, hne]

/-- The paths over a list of successors: those over the first and the others. -/
theorem onward_cons (bbS : Nat) (succ : List Nat) (base : Nat) :
    {v | ∃ c ∈ bbS :: succ, v ∈ onward succs cycle stop base c} =
      onward succs cycle stop base bbS ∪ {v | ∃ c ∈ succ, v ∈ onward succs cycle stop base c} := by
  ext v
  simp

theorem searchSuccs_found {search : Nat → DfsState → Bool × DfsState} {succ : List Nat}
    {st st' : DfsState}
    (hsearch : ∀ c ∈ succ, c ≠ stop → ∀ s s', search c s = (true, s') →
      Found succs cycle stop c s s')
    (h : searchSuccs cycle stop search succ st = (true, st')) :
    FoundSuccs succs cycle stop succ st st' := by
  induction succ generalizing st with
  | nil =>
    obtain rfl : st = st' := (Prod.mk.inj h).2
    refine ⟨rfl, rfl, ?_, ?_, ?_, ?_⟩
    · simp
    · simp
    · simp
    · simp
  | cons bbS succ ih =>
    have hrest : ∀ c ∈ succ, c ≠ stop → ∀ s s', search c s = (true, s') →
        Found succs cycle stop c s s' :=
      fun c hc => hsearch c (List.mem_cons_of_mem _ hc)
    unfold searchSuccs at h
    by_cases hstop : bbS = stop
    · -- the end block is recorded and not searched
      subst hstop
      simp only [if_true, recordPath_bbVisit, recordPath_bbStack] at h
      cases hmark : st.bbVisit bbS with
      | true => simp [hmark] at h
      | false =>
        simp only [hmark, Bool.false_eq_true, if_false] at h
        have hf := ih hrest h
        constructor
        · simpa using hf.visit
        · simpa using hf.stack
        · intro c hc
          rcases List.mem_cons.mp hc with rfl | hc
          · exact hmark
          · simpa using hf.unmarked c hc
        · intro c hc hne
          rcases List.mem_cons.mp hc with rfl | hc
          · exact absurd rfl hne
          · exact hf.acyclic c hc hne
        · intro c hc hne
          rcases List.mem_cons.mp hc with rfl | hc
          · exact absurd rfl hne
          · simpa using hf.free c hc hne
        · rw [onward_cons]
          refine isGreatest_insert_union (recordPath_greatest st) ?_
          simpa using hf.greatest
    · simp only [hstop, if_false] at h
      cases hmark : st.bbVisit bbS with
      | true => simp [hmark] at h
      | false =>
        simp only [hmark, Bool.false_eq_true, if_false] at h
        cases hs : search bbS st with
        | mk ok s =>
          rw [hs] at h
          cases ok with
          | false => simp at h
          | true =>
            have hfound := hsearch bbS (List.mem_cons_self ..) hstop st s hs
            have hf := ih hrest h
            -- the search has left the marks as they were
            have hvisit : s.bbVisit = st.bbVisit := by
              rw [hfound.visit, ← hmark, Function.update_eq_self]
            constructor
            · rw [hf.visit, hvisit]
            · rw [hf.stack, hfound.stack]
            · intro c hc
              rcases List.mem_cons.mp hc with rfl | hc
              · exact hmark
              · exact hvisit ▸ hf.unmarked c hc
            · intro c hc hne
              rcases List.mem_cons.mp hc with rfl | hc
              · exact hfound.acyclic
              · exact hf.acyclic c hc hne
            · intro c hc hne
              rcases List.mem_cons.mp hc with rfl | hc
              · exact hfound.free
              · exact hvisit ▸ hf.free c hc hne
            · rw [onward_cons, onward_of_ne hstop]
              refine isGreatest_insert_union hfound.greatest ?_
              rw [← hfound.stack]
              exact hf.greatest

/-- A mark that is not there after marking `bb` was not there before, and is
    not that of `bb`. -/
theorem unmarked_of_update {visit : Nat → Bool} {bb c : Nat}
    (h : Function.update visit bb true c = false) : c ≠ bb ∧ visit c = false := by
  by_cases heq : c = bb
  · subst heq
    rw [Function.update_self] at h
    exact Bool.noConfusion h
  · rw [Function.update_of_ne heq] at h
    exact ⟨heq, h⟩

/-- **Soundness of the search.** -/
theorem timingBetweenBbDfs_found {depth bb : Nat} {st st' : DfsState} (hne : bb ≠ stop)
    (h : timingBetweenBbDfs succs cycle stop depth bb st = (true, st')) :
    Found succs cycle stop bb st st' := by
  induction depth generalizing bb st st' with
  | zero => exact Bool.noConfusion (Prod.mk.inj h).1
  | succ depth ih =>
    unfold timingBetweenBbDfs at h
    generalize hst₁ : ({ st with
        bbStack := bb :: st.bbStack
        bbVisit := Function.update st.bbVisit bb true } : DfsState) = st₁ at h
    dsimp only at h
    cases hloop : searchSuccs cycle stop (timingBetweenBbDfs succs cycle stop depth) (succs bb) st₁
      with
    | mk ok st₂ =>
      rw [hloop] at h
      cases ok with
      | false => exact Bool.noConfusion (Prod.mk.inj h).1
      | true =>
        have hf := searchSuccs_found (fun c _ hc s s' hs => ih hc hs) hloop
        obtain rfl := (Prod.mk.inj h).2
        subst hst₁
        -- a successor is not `bb`, and neither is a successor of what it leads to
        have hback : ∀ c, Inner succs stop bb c → ¬ Reaches succs stop c bb := by
          intro c hc hreach
          rcases Relation.ReflTransGen.cases_tail hreach with rfl | ⟨x, hcx, hx⟩
          · exact (unmarked_of_update (hf.unmarked _ hc.edge)).1 rfl
          · exact (unmarked_of_update (hf.free c hc.edge hc.right x hcx bb hx.edge)).1 rfl
        constructor
        · simp [hf.visit]
        · simp [hf.stack]
        · rintro ⟨x, hx, hcycle⟩
          rcases reaches_cases hx with rfl | ⟨c, hc, hcx⟩
          · obtain ⟨c, hc, hback'⟩ := Relation.TransGen.head'_iff.mp hcycle
            exact hback c hc hback'
          · exact hf.acyclic c hc.edge hc.right ⟨x, hcx, hcycle⟩
        · intro x hx c hc
          rcases reaches_cases hx with rfl | ⟨d, hd, hdx⟩
          · exact (unmarked_of_update (hf.unmarked c hc)).2
          · exact (unmarked_of_update (hf.free d hd.edge hd.right x hdx c hc)).2
        · have hbase : pathCycle cycle (bb :: st.bbStack) =
              pathCycle cycle st.bbStack + cycle bb := by
            simp [pathCycle, Nat.add_comm]
          rw [arrivals_eq hne, ← hbase]
          exact hf.greatest

/-! ## Section 3: When the search succeeds -/

theorem searchSuccs_succeeds {search : Nat → DfsState → Bool × DfsState} {succ : List Nat}
    {st : DfsState} (hfree : ∀ c ∈ succ, st.bbVisit c = false)
    (hsearch : ∀ c ∈ succ, c ≠ stop → ∀ s, s.bbVisit = st.bbVisit →
      (search c s).1 = true ∧ (search c s).2.bbVisit = st.bbVisit) :
    (searchSuccs cycle stop search succ st).1 = true := by
  induction succ generalizing st with
  | nil => rfl
  | cons bbS succ ih =>
    have hmark := hfree bbS (List.mem_cons_self ..)
    have hrest : ∀ s : DfsState, s.bbVisit = st.bbVisit →
        (searchSuccs cycle stop search succ s).1 = true := by
      intro s hs
      apply ih
      · intro c hc
        rw [hs]
        exact hfree c (List.mem_cons_of_mem _ hc)
      · intro c hc hne s' hs'
        rw [hs]
        exact hsearch c (List.mem_cons_of_mem _ hc) hne s' (hs'.trans hs)
    unfold searchSuccs
    by_cases hstop : bbS = stop
    · subst hstop
      simp only [if_true, recordPath_bbVisit, hmark, Bool.false_eq_true, if_false]
      exact hrest _ (recordPath_bbVisit st)
    · obtain ⟨hok, hvisit⟩ := hsearch bbS (List.mem_cons_self ..) hstop st rfl
      simp only [hstop, if_false, hmark, Bool.false_eq_true]
      cases hs : search bbS st with
      | mk ok s =>
        rw [hs] at hok hvisit
        obtain rfl : ok = true := hok
        exact hrest s hvisit

/-- **Completeness of the search**: without a cycle and without marks ahead it
    succeeds, if it may go as deep as there are blocks ahead. -/
theorem timingBetweenBbDfs_succeeds {depth bb : Nat} {st : DfsState} (hne : bb ≠ stop)
    {ahead : Finset Nat} (hahead : ∀ x, Reaches succs stop bb x → x ∈ ahead)
    (hdepth : ahead.card ≤ depth) (hacyc : ¬ CyclicFrom succs stop bb)
    (hfree : FreeFrom succs stop st.bbVisit bb) :
    (timingBetweenBbDfs succs cycle stop depth bb st).1 = true := by
  induction depth generalizing bb st ahead with
  | zero =>
    have hmem : bb ∈ ahead := hahead bb Relation.ReflTransGen.refl
    have hpos := Finset.card_pos.mpr ⟨bb, hmem⟩
    omega
  | succ depth ih =>
    have hmem : bb ∈ ahead := hahead bb Relation.ReflTransGen.refl
    -- the marks that a search from a successor meets
    have hunmarked : ∀ c, c ≠ bb → st.bbVisit c = false →
        Function.update st.bbVisit bb true c = false := by
      intro c hcne hc
      rw [Function.update_of_ne hcne, hc]
    have hself : ∀ c ∈ succs bb, c ≠ bb := by
      rintro c hc rfl
      exact hacyc ⟨c, Relation.ReflTransGen.refl, Relation.TransGen.single ⟨hc, hne, hne⟩⟩
    unfold timingBetweenBbDfs
    dsimp only
    have hloop : (searchSuccs cycle stop (timingBetweenBbDfs succs cycle stop depth) (succs bb)
        { st with
          bbStack := bb :: st.bbStack
          bbVisit := Function.update st.bbVisit bb true }).1 = true := by
      apply searchSuccs_succeeds
      · intro c hc
        exact hunmarked c (hself c hc) (hfree bb Relation.ReflTransGen.refl c hc)
      · intro c hc hcstop s hs
        have hinner : Inner succs stop bb c := ⟨hc, hne, hcstop⟩
        have hok : (timingBetweenBbDfs succs cycle stop depth c s).1 = true := by
          have hahead' : ∀ x, Reaches succs stop c x → x ∈ ahead.erase bb := by
            intro x hx
            refine Finset.mem_erase.mpr ⟨?_, hahead x (Reaches.head hinner hx)⟩
            rintro rfl
            exact hacyc ⟨x, Relation.ReflTransGen.refl, Relation.TransGen.head' hinner hx⟩
          have hcard : (ahead.erase bb).card ≤ depth := by
            rw [Finset.card_erase_of_mem hmem]
            omega
          apply ih hcstop hahead' hcard (not_cyclicFrom_of_inner hacyc hinner)
          intro x hx d hd
          rw [hs]
          refine hunmarked d ?_ (hfree x (Reaches.head hinner hx) d hd)
          exact ne_of_not_cyclicFrom hacyc hinner hx (reaches_ne_target hcstop hx) hd
        refine ⟨hok, ?_⟩
        have hfound := timingBetweenBbDfs_found hcstop (Prod.ext hok rfl :
          timingBetweenBbDfs succs cycle stop depth c s = (true, _))
        rw [hfound.visit, hs]
        have hc' := hunmarked c (hself c hc) (hfree bb Relation.ReflTransGen.refl c hc)
        show Function.update (Function.update st.bbVisit bb true) c false = _
        rw [← hc', Function.update_eq_self]
    cases hs : searchSuccs cycle stop (timingBetweenBbDfs succs cycle stop depth) (succs bb)
        { st with
          bbStack := bb :: st.bbStack
          bbVisit := Function.update st.bbVisit bb true } with
    | mk ok s =>
      rw [hs] at hloop
      obtain rfl : ok = true := hloop
      rfl

end found

/-! ## Section 4: What the search depends on -/

section depends

variable {succs : Nat → List Nat} {stop : Nat} {cycle₁ cycle₂ : Nat → Nat} {nodes : Nat → Prop}

/-- Two searches that cannot be told apart on the blocks they come to. -/
structure SameSearch (nodes : Nat → Prop) (st₁ st₂ : DfsState) : Prop where
  visit : ∀ bb, nodes bb → st₁.bbVisit bb = st₂.bbVisit bb
  stack : st₁.bbStack = st₂.bbStack
  inside : ∀ bb ∈ st₁.bbStack, nodes bb
  max : st₁.maxCycle = st₂.maxCycle

variable {st₁ st₂ : DfsState}

theorem SameSearch.pop (h : SameSearch nodes st₁ st₂) :
    SameSearch nodes { st₁ with bbStack := st₁.bbStack.tail }
      { st₂ with bbStack := st₂.bbStack.tail } where
  visit := h.visit
  stack := congrArg List.tail h.stack
  inside := fun bb hbb => h.inside bb (List.mem_of_mem_tail hbb)
  max := h.max

theorem SameSearch.record (hstop : nodes stop) (hcycle : ∀ bb, nodes bb → cycle₁ bb = cycle₂ bb)
    (h : SameSearch nodes st₁ st₂) :
    SameSearch nodes (recordPath cycle₁ stop st₁) (recordPath cycle₂ stop st₂) := by
  have hsum : (List.map cycle₁ (stop :: st₁.bbStack)).sum =
      (List.map cycle₂ (stop :: st₂.bbStack)).sum := by
    rw [← h.stack, List.map_congr_left]
    intro bb hbb
    rcases List.mem_cons.mp hbb with rfl | hbb
    · exact hcycle _ hstop
    · exact hcycle bb (h.inside bb hbb)
  refine ⟨by simpa using h.visit, by simpa using h.stack, by simpa using h.inside, ?_⟩
  unfold recordPath
  dsimp only
  rw [← hsum, ← h.max]
  split
  · rfl
  · exact h.max

theorem searchSuccs_same (hstop : nodes stop) (hcycle : ∀ bb, nodes bb → cycle₁ bb = cycle₂ bb)
    {search₁ search₂ : Nat → DfsState → Bool × DfsState} {succ : List Nat}
    (hsucc : ∀ c ∈ succ, nodes c)
    (hsearch : ∀ c, nodes c → ∀ s₁ s₂, SameSearch nodes s₁ s₂ →
      (search₁ c s₁).1 = (search₂ c s₂).1 ∧ SameSearch nodes (search₁ c s₁).2 (search₂ c s₂).2)
    (h : SameSearch nodes st₁ st₂) :
    (searchSuccs cycle₁ stop search₁ succ st₁).1 = (searchSuccs cycle₂ stop search₂ succ st₂).1 ∧
      SameSearch nodes (searchSuccs cycle₁ stop search₁ succ st₁).2
        (searchSuccs cycle₂ stop search₂ succ st₂).2 := by
  induction succ generalizing st₁ st₂ with
  | nil => exact ⟨rfl, h⟩
  | cons bbS succ ih =>
    have hbbS := hsucc bbS (List.mem_cons_self ..)
    have hrest : ∀ s₁ s₂, SameSearch nodes s₁ s₂ → _ :=
      fun s₁ s₂ hs => ih (fun c hc => hsucc c (List.mem_cons_of_mem _ hc)) hs
    unfold searchSuccs
    by_cases heq : bbS = stop
    · have hrecord : SameSearch nodes (recordPath cycle₁ stop st₁) (recordPath cycle₂ stop st₂) :=
        h.record hstop hcycle
      subst heq
      simp only [if_true]
      rw [hrecord.visit bbS hbbS]
      cases (recordPath cycle₂ bbS st₂).bbVisit bbS with
      | true => exact ⟨rfl, hrecord.pop⟩
      | false => exact hrest _ _ hrecord
    · simp only [heq, if_false]
      rw [h.visit bbS hbbS]
      cases st₂.bbVisit bbS with
      | true => exact ⟨rfl, h.pop⟩
      | false =>
        obtain ⟨hok, hs⟩ := hsearch bbS hbbS st₁ st₂ h
        simp only [Bool.false_eq_true, if_false]
        cases hs₁ : search₁ bbS st₁ with
        | mk ok₁ s₁ =>
          cases hs₂ : search₂ bbS st₂ with
          | mk ok₂ s₂ =>
            rw [hs₁, hs₂] at hok hs
            obtain rfl : ok₁ = ok₂ := hok
            cases ok₁ with
            | false => exact ⟨rfl, hs.pop⟩
            | true => exact hrest s₁ s₂ hs

/-- **The search depends** on the marks and cycles of the blocks it can come
    to, and on nothing else. -/
theorem timingBetweenBbDfs_same (hstop : nodes stop)
    (hcycle : ∀ bb, nodes bb → cycle₁ bb = cycle₂ bb)
    (hclosed : ∀ bb, nodes bb → ∀ c ∈ succs bb, nodes c) {depth bb : Nat} (hbb : nodes bb)
    (h : SameSearch nodes st₁ st₂) :
    (timingBetweenBbDfs succs cycle₁ stop depth bb st₁).1 =
        (timingBetweenBbDfs succs cycle₂ stop depth bb st₂).1 ∧
      SameSearch nodes (timingBetweenBbDfs succs cycle₁ stop depth bb st₁).2
        (timingBetweenBbDfs succs cycle₂ stop depth bb st₂).2 := by
  induction depth generalizing bb st₁ st₂ with
  | zero => exact ⟨rfl, h⟩
  | succ depth ih =>
    have hpush : SameSearch nodes
        { st₁ with
          bbStack := bb :: st₁.bbStack
          bbVisit := Function.update st₁.bbVisit bb true }
        { st₂ with
          bbStack := bb :: st₂.bbStack
          bbVisit := Function.update st₂.bbVisit bb true } := by
      constructor
      · intro c hc
        by_cases heq : c = bb
        · subst heq
          simp
        · simpa [heq] using h.visit c hc
      · exact congrArg (bb :: ·) h.stack
      · intro c hc
        rcases List.mem_cons.mp hc with rfl | hc
        · exact hbb
        · exact h.inside c hc
      · exact h.max
    have hsearch : ∀ c, nodes c → ∀ s₁ s₂, SameSearch nodes s₁ s₂ →
        (timingBetweenBbDfs succs cycle₁ stop depth c s₁).1 =
            (timingBetweenBbDfs succs cycle₂ stop depth c s₂).1 ∧
          SameSearch nodes (timingBetweenBbDfs succs cycle₁ stop depth c s₁).2
            (timingBetweenBbDfs succs cycle₂ stop depth c s₂).2 :=
      fun c hc s₁ s₂ hs => ih hc hs
    obtain ⟨hok, hs⟩ := searchSuccs_same hstop hcycle (hclosed bb hbb) hsearch hpush
    unfold timingBetweenBbDfs
    dsimp only
    generalize searchSuccs cycle₁ stop (timingBetweenBbDfs succs cycle₁ stop depth) (succs bb) _ =
      r₁ at hok hs ⊢
    generalize searchSuccs cycle₂ stop (timingBetweenBbDfs succs cycle₂ stop depth) (succs bb) _ =
      r₂ at hok hs ⊢
    obtain ⟨ok₁, s₁⟩ := r₁
    obtain ⟨ok₂, s₂⟩ := r₂
    obtain rfl : ok₁ = ok₂ := hok
    cases ok₁ with
    | false => exact ⟨rfl, hs⟩
    | true =>
      refine ⟨rfl, ?_, congrArg List.tail hs.stack,
        fun c hc => hs.inside c (List.mem_of_mem_tail hc), hs.max⟩
      intro c hc
      by_cases heq : c = bb
      · subst heq
        simp
      · simpa [heq] using hs.visit c hc

end depends

end Flexpret.Gcc
