import Flexpret.Os.ModeWrites

/-! # The Schedule osKernelStart Installs

    `osKernelReset`, and the runs of the four calls that make up the life of a
    kernel.  The soft slot of `osKernelStart` goes to the first normal thread
    as long as `default_soft_slot_id` is `-1`; the variable keeps its value
    until the next `osKernelReset`, so a later call gives no soft slot at all.
-/

open Transition

namespace Flexpret.Os

variable {b : OsBuild}

/-! ## Section 1: osKernelReset -/

/-- The fields of a word written to the slot CSR. -/
def wordSlots (word : BitVec 32) : Slots := Vector.ofFn fun i : Fin 8 => Core.field word 4 i

/-- What the loop of `osKernelReset` leaves in entry `i` of `startup_state`. -/
def unusedThread (i : Tid b) : HwthreadState where
  func := NULL
  state := .inactive
  arg := NULL
  stackAddress := b.flexpretThreadInitStackAddr i

/-- `osKernelReset`. -/
def osKernelReset (bssEnd : Ptr) (flexpretThreadAttr : Tid b → OsThreadAttr)
    (s : OsState b) : OsState b :=
  osKernelInitialize bssEnd flexpretThreadAttr
    { s with
      slots := wordSlots 0xFFFFFFF0
      tmodes := fun t => wordTmode 0x55555554 t
      thread := fun t => if t = 0 then s.thread 0 else unusedThread t
      flexpretThreadNum := 1
      defaultSoftSlotId := -1
      flexpretMutexNum := 0 }

/-! ## Section 2: The loop of osKernelStart -/

/-- A thread with a function and priority `osPriorityRealtime`, other than
    thread 0. -/
def OsState.Realtime (s : OsState b) (t : Tid b) : Prop :=
  t ≠ 0 ∧ s.live t = true ∧ (s.attr t).priority = osPriorityRealtime

/-- A thread with a function and priority `osPriorityNormal`, other than
    thread 0. -/
def OsState.Normal (s : OsState b) (t : Tid b) : Prop :=
  t ≠ 0 ∧ s.live t = true ∧ (s.attr t).priority = osPriorityNormal

theorem OsState.Realtime.not_normal {s : OsState b} {t : Tid b} (h : s.Realtime t) :
    ¬ s.Normal t := by
  intro hn
  have heq := h.2.2.symm.trans hn.2.2
  exact absurd heq (by decide)

/-- What a turn does to entry `i`. -/
inductive TurnCase (s : OsState b) (k : KernelStart b) (i : Tid b) :
    BitVec 4 → Tmode → Int → Prop where
  | realtime : s.Realtime i → TurnCase s k i (slotT i) tmodeHA k.defaultSoftSlotId
  | first : s.Normal i → k.defaultSoftSlotId = -1 → TurnCase s k i slotS tmodeSA i.val
  | later : s.Normal i → k.defaultSoftSlotId ≠ -1 →
      TurnCase s k i slotD tmodeSA k.defaultSoftSlotId
  | rest : ¬ s.Realtime i → ¬ s.Normal i → TurnCase s k i slotD tmodeSZ k.defaultSoftSlotId

theorem kernelStartTurn_cases {s : OsState b} {k : KernelStart b} {i : Tid b}
    (hfunc : ∀ t, (k.thread t).func = (s.thread t).func) (hi : i ≠ 0) :
    ∃ slot mode id, TurnCase s k i slot mode id ∧
      (kernelStartTurn s.attr k i).slots = (k.assign i slot mode).slots ∧
      (kernelStartTurn s.attr k i).modes = (k.assign i slot mode).modes ∧
      (kernelStartTurn s.attr k i).defaultSoftSlotId = id ∧
      ∀ t, ((kernelStartTurn s.attr k i).thread t).func = (s.thread t).func := by
  have hlive : (k.thread i).func ≠ NULL ↔ s.live i = true := by
    rw [hfunc i, OsState.live, decide_eq_true_eq]
  have hstarted : ∀ t, (Function.update k.thread i { k.thread i with state := .active } t).func =
      (s.thread t).func := by
    intro t
    rw [← hfunc t]
    by_cases hti : t = i
    · rw [hti, Function.update_self]
    · rw [Function.update_of_ne hti]
  simp only [kernelStartTurn]
  split
  · next hne =>
    have hl := hlive.mp hne
    split
    · next hrt => exact ⟨_, _, _, .realtime ⟨hi, hl, hrt⟩, rfl, rfl, rfl, hstarted⟩
    · next hrt =>
      split
      · next hnormal =>
        split
        · next hid => exact ⟨_, _, _, .first ⟨hi, hl, hnormal⟩ hid, rfl, rfl, rfl, hstarted⟩
        · next hid => exact ⟨_, _, _, .later ⟨hi, hl, hnormal⟩ hid, rfl, rfl, rfl, hstarted⟩
      · next hnormal =>
        exact ⟨_, _, _, .rest (fun h => hrt h.2.2) (fun h => hnormal h.2.2), rfl, rfl, rfl,
          hstarted⟩
  · next hdead =>
    have hnot : s.live i ≠ true := mt hlive.mpr hdead
    exact ⟨_, _, _, .rest (fun h => hnot h.2.1) (fun h => hnot h.2.1), rfl, rfl, rfl, hfunc⟩

/-- **The loop invariant**: what each thread visited was given, and who got
    the soft slot. -/
structure KernelStartTable (s : OsState b) (done : List (Tid b)) (k : KernelStart b) :
    Prop where
  func : ∀ t, (k.thread t).func = (s.thread t).func
  mainDone : (0 : Tid b) ∈ done
  main : k.modes 0 = tmodeHA ∧ k.slots.field (0 : Tid b) = slotT (0 : Tid b)
  realtime : ∀ t ∈ done, s.Realtime t → k.modes t = tmodeHA ∧ k.slots.field t = slotT t
  normal : ∀ t ∈ done, s.Normal t →
    k.modes t = tmodeSA ∧ (k.slots.field t = slotS ∨ k.slots.field t = slotD)
  rest : ∀ t ∈ done, t ≠ 0 → ¬ s.Realtime t → ¬ s.Normal t →
    k.modes t = tmodeSZ ∧ k.slots.field t = slotD
  unused : ∀ i : Fin 8, b.hwThreadsNums ≤ i.val → k.slots[i] = slotD
  softSlot : ∀ t ∈ done, k.slots.field t = slotS →
    k.defaultSoftSlotId = t.val ∧ s.defaultSoftSlotId = -1
  notGiven : k.defaultSoftSlotId = -1 ↔
    s.defaultSoftSlotId = -1 ∧ ∀ t ∈ done, ¬ s.Normal t
  given : s.defaultSoftSlotId = -1 → k.defaultSoftSlotId ≠ -1 →
    ∃ t ∈ done, k.slots.field t = slotS

theorem kernelStartTable_init (s : OsState b) :
    KernelStartTable s [0] (kernelStartInit s) := by
  have hfield : (kernelStartInit s).slots.field (0 : Tid b) = slotT (0 : Tid b) := by
    simp [kernelStartInit, Slots.field]
  have hnormal : ∀ t ∈ [(0 : Tid b)], ¬ s.Normal t := by
    intro t ht hn
    exact hn.1 (List.mem_singleton.mp ht)
  constructor
  case func => exact fun _ => rfl
  case mainDone => exact List.mem_singleton_self 0
  case main => exact ⟨rfl, hfield⟩
  case realtime => exact fun t ht hrt => absurd (List.mem_singleton.mp ht) hrt.1
  case normal => exact fun t ht hn => absurd hn (hnormal t ht)
  case rest => exact fun t ht hne => absurd (List.mem_singleton.mp ht) hne
  case unused =>
    intro i hi
    have hne : 0 ≠ i.val := (b.hwThreadsNums_pos.trans_le hi).ne
    simp [kernelStartInit, Vector.getElem_set_ne, hne]
  case softSlot =>
    intro t ht hslot
    rw [List.mem_singleton.mp ht, hfield] at hslot
    exact absurd hslot (slotT_ne_slotS _)
  case notGiven => exact ⟨fun h => ⟨h, hnormal⟩, fun h => h.1⟩
  case given => exact fun h hne => absurd h hne

theorem kernelStartTable_turn {s : OsState b} {done : List (Tid b)} {k : KernelStart b}
    {i : Tid b} (h : KernelStartTable s done k) (hi : i ∉ done) (hi0 : i ≠ 0) :
    KernelStartTable s (i :: done) (kernelStartTurn s.attr k i) := by
  obtain ⟨slot, mode, id, hcase, hslots, hmodes, hid, hfunc⟩ := kernelStartTurn_cases h.func hi0
  have hne : ∀ t ∈ done, t ≠ i := fun t ht heq => hi (heq ▸ ht)
  have hself : (kernelStartTurn s.attr k i).slots.field i = slot ∧
      (kernelStartTurn s.attr k i).modes i = mode := by
    rw [hslots, hmodes]
    exact ⟨k.assign_field_self i slot mode, k.assign_modes_self i slot mode⟩
  have hkept : ∀ t ∈ done, (kernelStartTurn s.attr k i).slots.field t = k.slots.field t ∧
      (kernelStartTurn s.attr k i).modes t = k.modes t := by
    intro t ht
    rw [hslots, hmodes]
    exact ⟨KernelStart.assign_field_ne (hne t ht) slot mode,
      KernelStart.assign_modes_ne (hne t ht) slot mode⟩
  constructor
  case func => exact hfunc
  case mainDone => exact List.mem_cons_of_mem _ h.mainDone
  case main =>
    rw [(hkept 0 h.mainDone).1, (hkept 0 h.mainDone).2]
    exact h.main
  case realtime =>
    intro t ht hrt
    obtain rfl | ht := List.mem_cons.mp ht
    · rw [hself.1, hself.2]
      cases hcase with
      | realtime => exact ⟨rfl, rfl⟩
      | first hn => exact absurd hn hrt.not_normal
      | later hn => exact absurd hn hrt.not_normal
      | rest hnot => exact absurd hrt hnot
    · rw [(hkept t ht).1, (hkept t ht).2]
      exact h.realtime t ht hrt
  case normal =>
    intro t ht hn
    obtain rfl | ht := List.mem_cons.mp ht
    · rw [hself.1, hself.2]
      cases hcase with
      | realtime hrt => exact absurd hn hrt.not_normal
      | first => exact ⟨rfl, .inl rfl⟩
      | later => exact ⟨rfl, .inr rfl⟩
      | rest _ hnot => exact absurd hn hnot
    · rw [(hkept t ht).1, (hkept t ht).2]
      exact h.normal t ht hn
  case rest =>
    intro t ht ht0 hrt hn
    obtain rfl | ht := List.mem_cons.mp ht
    · rw [hself.1, hself.2]
      cases hcase with
      | realtime h' => exact absurd h' hrt
      | first h' => exact absurd h' hn
      | later h' => exact absurd h' hn
      | rest => exact ⟨rfl, rfl⟩
    · rw [(hkept t ht).1, (hkept t ht).2]
      exact h.rest t ht ht0 hrt hn
  case unused =>
    intro j hj
    rw [hslots, KernelStart.assign]
    have hval : i.val ≠ j.val := (i.isLt.trans_le hj).ne
    simpa [Vector.getElem_set_ne, hval] using h.unused j hj
  case softSlot =>
    intro t ht hslot
    rw [hid]
    obtain rfl | ht := List.mem_cons.mp ht
    · rw [hself.1] at hslot
      cases hcase with
      | realtime => exact absurd hslot (slotT_ne_slotS _)
      | first hn hfree => exact ⟨rfl, (h.notGiven.mp hfree).1⟩
      | later => exact absurd hslot.symm slotS_ne_slotD
      | rest => exact absurd hslot.symm slotS_ne_slotD
    · rw [(hkept t ht).1] at hslot
      have hold := h.softSlot t ht hslot
      cases hcase with
      | realtime => exact hold
      | first hn hfree => exact absurd (hold.1.symm.trans hfree) (by omega)
      | later => exact hold
      | rest => exact hold
  case notGiven =>
    rw [hid]
    cases hcase with
    | realtime hrt =>
      rw [h.notGiven, List.forall_mem_cons]
      exact and_congr_right fun _ => (and_iff_right hrt.not_normal).symm
    | first hn hfree =>
      exact ⟨fun heq => absurd heq (by omega), fun hall => absurd hn (hall.2 i List.mem_cons_self)⟩
    | later hn hgiven =>
      exact ⟨fun heq => absurd heq hgiven, fun hall => absurd hn (hall.2 i List.mem_cons_self)⟩
    | rest _ hn =>
      rw [h.notGiven, List.forall_mem_cons]
      exact and_congr_right fun _ => (and_iff_right hn).symm
  case given =>
    intro hfree hgiven
    rw [hid] at hgiven
    have hold : k.defaultSoftSlotId ≠ -1 → ∃ t ∈ i :: done,
        (kernelStartTurn s.attr k i).slots.field t = slotS := by
      intro hgiven
      obtain ⟨t, ht, hslot⟩ := h.given hfree hgiven
      exact ⟨t, List.mem_cons_of_mem _ ht, (hkept t ht).1.trans hslot⟩
    cases hcase with
    | realtime => exact hold hgiven
    | first => exact ⟨i, List.mem_cons_self, hself.1⟩
    | later => exact hold hgiven
    | rest => exact hold hgiven

/-! ## Section 3: The schedule -/

/-- `x` is in exactly one field. -/
def Slots.Once (slots : Slots) (x : BitVec 4) : Prop := ∃! i : Fin 8, slots[i] = x

/-- The slot and mode CSRs hold a complete schedule for the threads of `s`. -/
structure Installed (s : OsState b) (slots : Slots) (tmodes : Tid b → Tmode) : Prop where
  main : tmodes 0 = tmodeHA ∧ slots.Once (slotT (0 : Tid b))
  realtime : ∀ t, s.Realtime t → tmodes t = tmodeHA ∧ slots.Once (slotT t)
  normal : ∀ t, s.Normal t → tmodes t = tmodeSA
  softSlot : (∃ t, s.Normal t) → slots.Once slotS
  noSoftSlot : (¬ ∃ t, s.Normal t) → slotS ∉ slots
  rest : ∀ t, t ≠ 0 → ¬ s.Realtime t → ¬ s.Normal t →
    (tmodes t).lbit = true ∧ slotT t ∉ slots

/-- Every field belongs to a hardware thread or is `SLOT_D`. -/
theorem KernelStartTable.field_cases {s : OsState b} {done : List (Tid b)} {k : KernelStart b}
    (h : KernelStartTable s done k) (i : Fin 8) :
    k.slots[i] = slotD ∨ ∃ t : Tid b, t.val = i.val ∧ k.slots[i] = k.slots.field t := by
  by_cases hi : i.val < b.hwThreadsNums
  · exact .inr ⟨⟨i.val, hi⟩, rfl, rfl⟩
  · exact .inl (h.unused i (Nat.le_of_not_lt hi))

/-- What the field of a thread holds. -/
theorem KernelStartTable.field_of {s : OsState b} {done : List (Tid b)} {k : KernelStart b}
    (h : KernelStartTable s done k) {t : Tid b} (ht : t ∈ done) :
    (t = 0 ∨ s.Realtime t) ∧ k.slots.field t = slotT t ∨
      s.Normal t ∧ k.slots.field t = slotS ∨ k.slots.field t = slotD := by
  by_cases ht0 : t = 0
  · exact .inl ⟨.inl ht0, ht0 ▸ h.main.2⟩
  by_cases hrt : s.Realtime t
  · exact .inl ⟨.inr hrt, (h.realtime t ht hrt).2⟩
  by_cases hn : s.Normal t
  · rcases (h.normal t ht hn).2 with hS | hD
    · exact .inr (.inl ⟨hn, hS⟩)
    · exact .inr (.inr hD)
  · exact .inr (.inr (h.rest t ht ht0 hrt hn).2)

/-- A slot named after a thread is its own field, and the thread is hard. -/
theorem KernelStartTable.owner {s : OsState b} {done : List (Tid b)} {k : KernelStart b}
    (h : KernelStartTable s done k) (hall : ∀ t, t ∈ done) {t : Tid b} {i : Fin 8}
    (hi : k.slots[i] = slotT t) : i.val = t.val ∧ (t = 0 ∨ s.Realtime t) := by
  rcases h.field_cases i with hD | ⟨u, hu, hfield⟩
  · rw [hD] at hi
    exact absurd hi.symm (slotT_ne_slotD t)
  · rw [hfield] at hi
    rcases h.field_of (hall u) with ⟨hown, hT⟩ | ⟨_, hS⟩ | hD
    · rw [hT] at hi
      obtain rfl := slotT_injective hi
      exact ⟨hu.symm, hown⟩
    · rw [hS] at hi
      exact absurd hi.symm (slotT_ne_slotS t)
    · rw [hD] at hi
      exact absurd hi.symm (slotT_ne_slotD t)

/-- A soft slot is the field of a normal thread, whose id the OS has kept. -/
theorem KernelStartTable.softOwner {s : OsState b} {done : List (Tid b)} {k : KernelStart b}
    (h : KernelStartTable s done k) (hall : ∀ t, t ∈ done) {i : Fin 8}
    (hi : k.slots[i] = slotS) :
    k.defaultSoftSlotId = i.val ∧ s.defaultSoftSlotId = -1 ∧ ∃ t, s.Normal t := by
  rcases h.field_cases i with hD | ⟨u, hu, hfield⟩
  · rw [hD] at hi
    exact absurd hi.symm slotS_ne_slotD
  · rw [hfield] at hi
    obtain ⟨hid, hfree⟩ := h.softSlot u (hall u) hi
    rcases h.field_of (hall u) with ⟨_, hT⟩ | ⟨hn, _⟩ | hD
    · rw [hT] at hi
      exact absurd hi (slotT_ne_slotS u)
    · exact ⟨hid.trans (by rw [hu]), hfree, u, hn⟩
    · rw [hD] at hi
      exact absurd hi.symm slotS_ne_slotD

theorem Slots.once_field {slots : Slots} {t : Tid b} {x : BitVec 4} (hfield : slots.field t = x)
    (hunique : ∀ i : Fin 8, slots[i] = x → i.val = t.val) : slots.Once x := by
  refine ⟨t.castLE b.hwThreadsNums_le, hfield, fun i hi => ?_⟩
  exact Fin.ext (hunique i hi)

theorem Slots.mem_iff {slots : Slots} {x : BitVec 4} : x ∈ slots ↔ ∃ i : Fin 8, slots[i] = x := by
  rw [Vector.mem_iff_getElem]
  exact ⟨fun ⟨i, hi, hx⟩ => ⟨⟨i, hi⟩, hx⟩, fun ⟨i, hx⟩ => ⟨i.val, i.isLt, hx⟩⟩

/-- **osKernelStart** installs a complete schedule when no earlier call keeps
    the soft slot, or none is needed; and only then. -/
theorem osKernelStart_installed_iff (s : OsState b) :
    Installed s (osKernelStart s).1.slots (osKernelStart s).1.tmodes ↔
      s.defaultSoftSlotId = -1 ∨ ¬ ∃ t, s.Normal t := by
  obtain ⟨done, hall, htable⟩ := kernelStart_loop (kernelStartTable_init s)
    fun done k i h hi hi0 => kernelStartTable_turn h hi hi0
  rw [osKernelStart_eq]
  constructor
  · intro h
    by_contra hnot
    obtain ⟨hkept, hn⟩ := not_or.mp hnot
    obtain ⟨i, hi, _⟩ := h.softSlot (not_not.mp hn)
    exact hkept (htable.softOwner hall hi).2.1
  · intro hfree
    constructor
    case main =>
      exact ⟨htable.main.1, Slots.once_field htable.main.2 fun i hi => (htable.owner hall hi).1⟩
    case realtime =>
      intro t ht
      obtain ⟨hmode, hfield⟩ := htable.realtime t (hall t) ht
      exact ⟨hmode, Slots.once_field hfield fun i hi => (htable.owner hall hi).1⟩
    case normal => exact fun t ht => (htable.normal t (hall t) ht).1
    case softSlot =>
      intro hn
      have hs := hfree.resolve_right (not_not.mpr hn)
      have hgiven : (kernelStartEnd s).defaultSoftSlotId ≠ -1 := by
        intro hnone
        obtain ⟨t, ht⟩ := hn
        exact (htable.notGiven.mp hnone).2 t (hall t) ht
      obtain ⟨t, ht, hfield⟩ := htable.given hs hgiven
      refine Slots.once_field hfield fun i hi => ?_
      have hid := (htable.softOwner hall hi).1
      have hid' := (htable.softSlot t ht hfield).1
      omega
    case noSoftSlot =>
      intro hn hmem
      obtain ⟨i, hi⟩ := Slots.mem_iff.mp hmem
      exact hn (htable.softOwner hall hi).2.2
    case rest =>
      intro t ht0 hrt hn
      refine ⟨?_, fun hmem => ?_⟩
      · show ((kernelStartEnd s).modes t).lbit = true
        rw [(htable.rest t (hall t) ht0 hrt hn).1]
        rfl
      · obtain ⟨i, hi⟩ := Slots.mem_iff.mp hmem
        rcases (htable.owner hall hi).2 with h0 | h0
        · exact ht0 h0
        · exact hrt h0

/-! ## Section 4: Runs of kernel calls -/

/-- The calls of a run, made one after the other. -/
inductive KernelCall (b : OsBuild) where
  | kernelInitialize (bssEnd : Ptr) (flexpretThreadAttr : Tid b → OsThreadAttr)
  | kernelReset (bssEnd : Ptr) (flexpretThreadAttr : Tid b → OsThreadAttr)
  | threadNew (func argument : Ptr) (attr : Option OsThreadAttr)
  | kernelStart

def KernelCall.exec (s : OsState b) : KernelCall b → OsState b
  | .kernelInitialize bssEnd flexpretThreadAttr => osKernelInitialize bssEnd flexpretThreadAttr s
  | .kernelReset bssEnd flexpretThreadAttr => osKernelReset bssEnd flexpretThreadAttr s
  | .threadNew func argument attr => (osThreadNew s func argument attr).1
  | .kernelStart => (osKernelStart s).1

/-- The call is `osKernelReset`. -/
def KernelCall.resets : KernelCall b → Bool
  | .kernelReset _ _ => true
  | _ => false

/-- The state before each call of a run. -/
abbrev kernelTrace (s₀ : OsState b) (calls : Nat → KernelCall b) : Nat → OsState b :=
  Machine.trace KernelCall.exec s₀ calls

/-- Before call `n`, `osKernelStart` has found a normal thread since the last
    `osKernelReset`. -/
def SoftSlotGiven (s₀ : OsState b) (calls : Nat → KernelCall b) (n : Nat) : Prop :=
  ∃ m, m < n ∧ calls m = .kernelStart ∧ (∃ t, (kernelTrace s₀ calls m).Normal t) ∧
    ∀ j, m < j → j < n → (calls j).resets = false

theorem softSlotGiven_succ {s₀ : OsState b} {calls : Nat → KernelCall b} {n : Nat} :
    SoftSlotGiven s₀ calls (n + 1) ↔
      (calls n = .kernelStart ∧ ∃ t, (kernelTrace s₀ calls n).Normal t) ∨
      (SoftSlotGiven s₀ calls n ∧ (calls n).resets = false) := by
  constructor
  · intro ⟨m, hm, hcall, hn, hno⟩
    rcases Nat.lt_succ_iff_lt_or_eq.mp hm with hlt | rfl
    · exact .inr ⟨⟨m, hlt, hcall, hn, fun j hj hjn => hno j hj (Nat.lt_succ_of_lt hjn)⟩,
        hno n hlt (Nat.lt_succ_self n)⟩
    · exact .inl ⟨hcall, hn⟩
  · intro h
    rcases h with ⟨hcall, hn⟩ | ⟨⟨m, hm, hcall, hn, hno⟩, hnot⟩
    · exact ⟨n, Nat.lt_succ_self n, hcall, hn, fun j hj hjn => by omega⟩
    · refine ⟨m, Nat.lt_succ_of_lt hm, hcall, hn, fun j hj hjn => ?_⟩
      rcases Nat.lt_succ_iff_lt_or_eq.mp hjn with hlt | rfl
      · exact hno j hj hlt
      · exact hnot

theorem threadAfterCreate_defaultSoftSlotId (s : OsState b) (t : Tid b) :
    (threadAfterCreate s t).defaultSoftSlotId = s.defaultSoftSlotId := by
  simp only [threadAfterCreate]
  split
  · rfl
  · split <;> rfl

theorem osThreadNew_defaultSoftSlotId (s : OsState b) (func argument : Ptr)
    (attr : Option OsThreadAttr) :
    (osThreadNew s func argument attr).1.defaultSoftSlotId = s.defaultSoftSlotId := by
  rcases osThreadNew_cases s func argument attr with hnone | ⟨hnum, _, _, hnew⟩
  · rw [hnone]
  · rw [hnew]
    simp only
    split
    · rw [threadAfterCreate_defaultSoftSlotId]
      rfl
    · rfl

theorem osKernelStart_defaultSoftSlotId (s : OsState b) :
    (osKernelStart s).1.defaultSoftSlotId = -1 ↔
      s.defaultSoftSlotId = -1 ∧ ¬ ∃ t, s.Normal t := by
  obtain ⟨done, hall, htable⟩ := kernelStart_loop (kernelStartTable_init s)
    fun done k i h hi hi0 => kernelStartTable_turn h hi hi0
  rw [osKernelStart_eq, not_exists]
  constructor
  · intro h
    exact ⟨(htable.notGiven.mp h).1, fun t => (htable.notGiven.mp h).2 t (hall t)⟩
  · intro h
    exact htable.notGiven.mpr ⟨h.1, fun t _ => h.2 t⟩

/-- **The history in the variable**: `default_soft_slot_id` tells whether the
    soft slot has been given since the last reset. -/
theorem defaultSoftSlotId_history {s₀ : OsState b} (h₀ : osInit s₀)
    (calls : Nat → KernelCall b) (n : Nat) :
    (kernelTrace s₀ calls n).defaultSoftSlotId = -1 ↔ ¬ SoftSlotGiven s₀ calls n := by
  induction n with
  | zero =>
    obtain ⟨s, bssEnd, attr, hreset, rfl⟩ := h₀
    have hfree : (osKernelInitialize bssEnd attr s).defaultSoftSlotId = -1 :=
      (osKernelInitialize_frame bssEnd attr s).2.trans hreset.defaultSoftSlotId
    exact ⟨fun _ ⟨_, hm, _⟩ => absurd hm (Nat.not_lt_zero _), fun _ => hfree⟩
  | succ n ih =>
    rw [softSlotGiven_succ, kernelTrace, Machine.trace_succ]
    cases hcall : calls n with
    | kernelInitialize bssEnd attr =>
      have hkept := (osKernelInitialize_frame bssEnd attr (kernelTrace s₀ calls n)).2
      simp only [KernelCall.exec, hkept, ih, KernelCall.resets, reduceCtorEq, false_and, false_or,
        and_true]
    | kernelReset bssEnd attr =>
      have hfree : (osKernelReset bssEnd attr (kernelTrace s₀ calls n)).defaultSoftSlotId = -1 :=
        (osKernelInitialize_frame bssEnd attr _).2
      simp [KernelCall.exec, hfree, KernelCall.resets]
    | threadNew func argument attr =>
      simp only [KernelCall.exec, osThreadNew_defaultSoftSlotId, ih, KernelCall.resets,
        reduceCtorEq, false_and, false_or, and_true]
    | kernelStart =>
      simp only [KernelCall.exec, osKernelStart_defaultSoftSlotId, ih, KernelCall.resets, true_and,
        and_true, not_or]
      exact and_comm

/-- The same threads have a function, with the same priorities. -/
def SameThreads (s s' : OsState b) : Prop :=
  ∀ t : Tid b, t ≠ 0 → s.live t = s'.live t ∧ (s.attr t).priority = (s'.attr t).priority

theorem SameThreads.realtime_iff {s s' : OsState b} (h : SameThreads s s') (t : Tid b) :
    s.Realtime t ↔ s'.Realtime t := by
  refine and_congr_right fun ht => ?_
  rw [(h t ht).1, (h t ht).2]

theorem SameThreads.normal_iff {s s' : OsState b} (h : SameThreads s s') (t : Tid b) :
    s.Normal t ↔ s'.Normal t := by
  refine and_congr_right fun ht => ?_
  rw [(h t ht).1, (h t ht).2]

/-- Two loops over the same threads, which agree on whether the soft slot is
    still free, write the same. -/
theorem osKernelStart_same {s s' : OsState b} (h : SameThreads s s')
    (hid : (∃ t, s.Normal t) → (s.defaultSoftSlotId = -1 ↔ s'.defaultSoftSlotId = -1)) :
    (osKernelStart s).1.slots = (osKernelStart s').1.slots ∧
      (osKernelStart s).1.tmodes = (osKernelStart s').1.tmodes := by
  let rel (k k' : KernelStart b) : Prop :=
    k.slots = k'.slots ∧ k.modes = k'.modes ∧
      ((∃ t, s.Normal t) → (k.defaultSoftSlotId = -1 ↔ k'.defaultSoftSlotId = -1)) ∧
      (∀ t, (k.thread t).func = (s.thread t).func) ∧
      ∀ t, (k'.thread t).func = (s'.thread t).func
  have hend : rel (kernelStartEnd s) (kernelStartEnd s') := by
    refine List.foldl_rel ⟨rfl, rfl, hid, fun _ => rfl, fun _ => rfl⟩ fun i hi k k' hk => ?_
    obtain ⟨hslots, hmodes, hagree, hfunc, hfunc'⟩ := hk
    have hi0 : i ≠ 0 := by simpa using hi
    obtain ⟨slot, mode, id, hcase, hs, hm, hid, hf⟩ := kernelStartTurn_cases hfunc hi0
    obtain ⟨slot', mode', id', hcase', hs', hm', hid', hf'⟩ := kernelStartTurn_cases hfunc' hi0
    have hsame : slot = slot' ∧ mode = mode' ∧ ((∃ t, s.Normal t) → (id = -1 ↔ id' = -1)) := by
      cases hcase with
      | realtime hrt =>
        have hrt' := (h.realtime_iff i).mp hrt
        cases hcase' with
        | realtime => exact ⟨rfl, rfl, hagree⟩
        | first hn => exact absurd hn hrt'.not_normal
        | later hn => exact absurd hn hrt'.not_normal
        | rest hnot => exact absurd hrt' hnot
      | first hn hfree =>
        have hn' := (h.normal_iff i).mp hn
        cases hcase' with
        | realtime hrt => exact absurd hn' hrt.not_normal
        | first => exact ⟨rfl, rfl, fun _ => Iff.rfl⟩
        | later _ hkept => exact absurd ((hagree ⟨i, hn⟩).mp hfree) hkept
        | rest _ hnot => exact absurd hn' hnot
      | later hn hkept =>
        have hn' := (h.normal_iff i).mp hn
        cases hcase' with
        | realtime hrt => exact absurd hn' hrt.not_normal
        | first _ hfree => exact absurd ((hagree ⟨i, hn⟩).mpr hfree) hkept
        | later => exact ⟨rfl, rfl, hagree⟩
        | rest _ hnot => exact absurd hn' hnot
      | rest hrt hn =>
        cases hcase' with
        | realtime h' => exact absurd ((h.realtime_iff i).mpr h') hrt
        | first h' => exact absurd ((h.normal_iff i).mpr h') hn
        | later h' => exact absurd ((h.normal_iff i).mpr h') hn
        | rest => exact ⟨rfl, rfl, hagree⟩
    obtain ⟨rfl, rfl, hids⟩ := hsame
    refine ⟨?_, ?_, ?_, hf, hf'⟩
    · rw [hs, hs', KernelStart.assign, KernelStart.assign, hslots]
    · rw [hm, hm', KernelStart.assign, KernelStart.assign, hmodes]
    · rwa [hid, hid']
  exact ⟨hend.1, hend.2.1⟩

/-- The call comes when the soft slot is still free, or when no thread needs
    one. -/
def FindsSoftSlot (s₀ : OsState b) (calls : Nat → KernelCall b) (n : Nat) : Prop :=
  ¬ SoftSlotGiven s₀ calls n ∨ ¬ ∃ t, (kernelTrace s₀ calls n).Normal t

/-- **A complete schedule**: in every run, a call of `osKernelStart` installs
    one if and only if it finds the soft slot free or needs none; and two such
    calls with the same threads write the same words. -/
theorem kernelStart_installs_iff {s₀ : OsState b} (h₀ : osInit s₀)
    (calls : Nat → KernelCall b) :
    (∀ n, calls n = .kernelStart →
      (Installed (kernelTrace s₀ calls n) (kernelTrace s₀ calls (n + 1)).slots
          (kernelTrace s₀ calls (n + 1)).tmodes ↔ FindsSoftSlot s₀ calls n)) ∧
    ∀ m n, calls m = .kernelStart → calls n = .kernelStart →
      FindsSoftSlot s₀ calls m → FindsSoftSlot s₀ calls n →
      SameThreads (kernelTrace s₀ calls m) (kernelTrace s₀ calls n) →
      (kernelTrace s₀ calls (m + 1)).slots = (kernelTrace s₀ calls (n + 1)).slots ∧
        (kernelTrace s₀ calls (m + 1)).tmodes = (kernelTrace s₀ calls (n + 1)).tmodes := by
  have hstep : ∀ n, calls n = .kernelStart →
      kernelTrace s₀ calls (n + 1) = (osKernelStart (kernelTrace s₀ calls n)).1 := by
    intro n hn
    rw [kernelTrace, Machine.trace_succ, hn, KernelCall.exec]
  refine ⟨fun n hn => ?_, fun m n hm hn hfm hfn hsame => ?_⟩
  · rw [hstep n hn, osKernelStart_installed_iff, defaultSoftSlotId_history h₀, FindsSoftSlot]
  · rw [hstep m hm, hstep n hn]
    refine osKernelStart_same hsame fun hnormal => ?_
    obtain ⟨t, ht⟩ := hnormal
    rw [defaultSoftSlotId_history h₀, defaultSoftSlotId_history h₀]
    have hm' := hfm.resolve_right (not_not.mpr ⟨t, ht⟩)
    have hn' := hfn.resolve_right (not_not.mpr ⟨t, (hsame.normal_iff t).mp ht⟩)
    exact ⟨fun _ => hn', fun _ => hm'⟩

/-- A normal thread is created and the kernel started, again and again. -/
def restartCalls (n : Nat) : KernelCall .threads4Dspm12 :=
  if n = 0 then .threadNew 0x800 NULL none else .kernelStart

theorem restart_first_installed :
    Installed (kernelTrace (initialized .threads4Dspm12) restartCalls 1)
      (kernelTrace (initialized .threads4Dspm12) restartCalls 2).slots
      (kernelTrace (initialized .threads4Dspm12) restartCalls 2).tmodes := by
  refine ((kernelStart_installs_iff (initialized_osInit _) restartCalls).1 1 rfl).mpr (.inl ?_)
  intro ⟨m, hm, hcall, _⟩
  obtain rfl : m = 0 := by omega
  exact absurd hcall nofun

/-- The second call takes the soft slot away. -/
theorem restart_second_not_installed :
    osInit (initialized .threads4Dspm12) ∧ restartCalls 2 = .kernelStart ∧
      ¬ Installed (kernelTrace (initialized .threads4Dspm12) restartCalls 2)
        (kernelTrace (initialized .threads4Dspm12) restartCalls 3).slots
        (kernelTrace (initialized .threads4Dspm12) restartCalls 3).tmodes := by
  refine ⟨initialized_osInit _, rfl, fun h => ?_⟩
  have hn : (kernelTrace (initialized .threads4Dspm12) restartCalls 2).Normal 1 := by
    refine ⟨by decide, ?_, ?_⟩ <;> decide
  obtain ⟨i, hi, _⟩ := h.softSlot ⟨1, hn⟩
  have hnone : ∀ i : Fin 8,
      (kernelTrace (initialized .threads4Dspm12) restartCalls 3).slots[i] ≠ slotS := by
    decide +kernel
  exact hnone i hi

end Flexpret.Os
