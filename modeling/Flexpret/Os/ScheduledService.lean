import Flexpret.Core.ServiceRate
import Flexpret.Os.SlotWord
import Flexpret.Os.StoppedThread

/-! # The Schedule of the OS on the Hardware

    What the calls of the OS leave in the slot and mode CSRs is a schedule that the
    hardware scheduler serves: every live thread that is awake is issued in every round,
    or in every few rounds when it shares the soft slots with others.
-/

open Transition

namespace Flexpret.Os

open Flexpret.Core (FlexpretConfiguration DecodeLogic SystemState SystemRun Pins SlotsStay
  SoftStays issueCount roundLength fieldsWith)

variable {b : OsBuild}

/-! ## Section 1: Slots that name threads -/

/-- Every field names a thread of the build, or is `SLOT_S` or `SLOT_D`. -/
def Slots.Named (b : OsBuild) (slots : Slots) : Prop :=
  ∀ i : Fin 8, slots.get i = slotD ∨ slots.get i = slotS ∨ ∃ t : Tid b, slots.get i = slotT t

theorem Slots.Named.replace {slots : Slots} (h : slots.Named b) {new : BitVec 4}
    (hnew : new = slotD ∨ new = slotS ∨ ∃ t : Tid b, new = slotT t) (old : BitVec 4) (n : Nat) :
    (slots.replace old new n).Named b := by
  intro i
  rcases Slots.getElem_replace slots old new n i with hsame | ⟨-, hreplaced⟩
  · rw [hsame]
    exact h i
  · rw [hreplaced]
    exact hnew

/-- `set_slot_num` for a thread or the soft slots writes such fields only. -/
theorem Slots.Named.setSlotNum {slots : Slots} (h : slots.Named b) {x : BitVec 4}
    (hx : x = slotS ∨ ∃ t : Tid b, x = slotT t) (count : Nat) :
    (setSlotNum slots x count).1.Named b := by
  unfold Flexpret.Os.setSlotNum
  dsimp only
  split
  · exact h
  · split
    · split
      · exact h
      · exact h.replace (.inr hx) _ _
    · exact h.replace (.inl rfl) _ _

theorem Slots.Named.setThread {slots : Slots} (h : slots.Named b) (t : Tid b) (count : Nat) :
    (Flexpret.Os.setSlotNum slots (slotT t) count).1.Named b :=
  h.setSlotNum (.inr ⟨t, rfl⟩) count

theorem Slots.Named.setSoft {slots : Slots} (h : slots.Named b) (count : Nat) :
    (Flexpret.Os.setSlotNum slots slotS count).1.Named b :=
  h.setSlotNum (.inl rfl) count

theorem Slots.Named.ite {p : Prop} [Decidable p] {slots slots' : Slots} (h : slots.Named b)
    (h' : slots'.Named b) : Slots.Named b (if p then slots else slots') := by
  split
  · exact h
  · exact h'

section functions

variable {s : OsState b} {t : Tid b}

theorem srttTerminate_named (h : s.slots.Named b) : (srttTerminate s t).slots.Named b :=
  ((h.setThread t 0).setSoft 0).ite (h.setThread t 0)

theorem changeSrttToHrtt_named (h : s.slots.Named b) : (changeSrttToHrtt s t).slots.Named b := by
  have hown := (h.setThread t 1).ite (p := s.slots.count (slotT t) = 0) h
  exact (hown.setSoft 0).ite hown

theorem changeHrttToSrtt_named (h : s.slots.Named b) : (changeHrttToSrtt s t).slots.Named b := by
  have hsoft := (h.setSoft 1).ite (p := otherSrttNum s t = 0 ∧ s.slots.count slotS = 0) h
  exact (hsoft.setThread t 0).ite hsoft

theorem threadTerminate_named (h : s.slots.Named b) (me : Tid b) (clean : Bool) :
    (threadTerminate me t clean s).slots.Named b := by
  obtain ⟨s₁, hs₁, hnamed⟩ : ∃ s₁, (if clean then threadClean me t s else s) = s₁ ∧
      s₁.slots.Named b := by
    cases clean with
    | true => exact ⟨_, rfl, (threadClean_ended me t s).slots ▸ h⟩
    | false => exact ⟨_, rfl, h⟩
  simp only [threadTerminate, hs₁, osSchedulerSetSlotNum_zero, setThreadMode]
  split
  · exact srttTerminate_named hnamed
  · split
    · exact hnamed.setThread t 0
    · split
      · exact hnamed.setThread t 0
      · exact srttTerminate_named hnamed

theorem threadAfterCreate_named (h : s.slots.Named b) :
    (threadAfterCreate s t).slots.Named b := by
  unfold threadAfterCreate
  split
  · exact h.setThread t 1
  · split
    · exact (h.setSoft 1).ite h
    · exact h

end functions

/-- `osKernelStart` fills in the fields of the threads. -/
theorem osKernelStart_named (s : OsState b) : (osKernelStart s).1.slots.Named b := by
  obtain ⟨done, hall, htable⟩ := kernelStart_loop (kernelStartTable_init s)
    fun done k i h hi hi0 => kernelStartTable_turn h hi hi0
  intro i
  rw [osKernelStart_eq]
  rcases htable.field_cases i with hfree | ⟨t, -, hfield⟩
  · exact .inl hfree
  · have hget : (kernelStartEnd s).slots.get i = (kernelStartEnd s).slots.field t := hfield
    rcases htable.field_of (hall t) with ⟨-, hown⟩ | ⟨-, hsoft⟩ | hfree
    · exact .inr (.inr ⟨t, hget.trans hown⟩)
    · exact .inr (.inl (hget.trans hsoft))
    · exact .inl (hget.trans hfree)

/-- Once the kernel runs, the slots name threads. -/
def NamedInv (s : OsState b) : Prop :=
  s.kernelState = .osKernelRunning → s.slots.Named b

/-- Every call keeps it so. -/
theorem namedInv_exec {s s' : OsState b} {call : OsCall b} {result : OsResult b}
    (h : NamedInv s) (horder : call.inOrder s = true) (hexec : call.exec s = some (s', result)) :
    NamedInv s' := by
  intro hrun'
  cases call with
  | threadNew func argument attr =>
    obtain ⟨rfl, -⟩ := Prod.mk.inj (Option.some.inj hexec)
    rw [osThreadNew_kernelState] at hrun'
    obtain hnone | ⟨hnum, -, -, hnew⟩ := osThreadNew_cases s func argument attr
    · rw [hnone]
      exact h hrun'
    · rw [hnew]
      dsimp only
      rw [if_pos hrun']
      exact threadAfterCreate_named (h hrun')
  | kernelStart =>
    obtain ⟨rfl, -⟩ := Prod.mk.inj (Option.some.inj hexec)
    exact osKernelStart_named s
  | threadSetPriority threadId priority =>
    obtain ⟨rfl, -⟩ := Prod.mk.inj (Option.some.inj hexec)
    have hnamed := h (of_decide_eq_true horder)
    cases threadId with
    | none => exact hnamed
    | some t =>
      unfold osThreadSetPriority
      dsimp only
      split
      · exact hnamed
      · split
        · exact changeSrttToHrtt_named hnamed
        · split
          · exact changeHrttToSrtt_named hnamed
          · exact hnamed
  | threadSuspend t =>
    obtain ⟨rfl, -⟩ := Prod.mk.inj (Option.some.inj hexec)
    exact h (of_decide_eq_true horder)
  | threadResume t =>
    obtain ⟨rfl, -⟩ := Prod.mk.inj (Option.some.inj hexec)
    exact h (of_decide_eq_true horder)
  | threadTerminate me threadId =>
    obtain ⟨rfl, -⟩ := Prod.mk.inj (Option.some.inj hexec)
    have hnamed := h (of_decide_eq_true horder)
    cases threadId with
    | none => exact hnamed
    | some t =>
      unfold osThreadTerminate
      dsimp only
      split
      · rw [(threadClean_ended me t s).slots]
        exact hnamed
      · exact threadTerminate_named hnamed me true
  | threadJoin me threadId =>
    obtain ⟨r, hjoin, hr⟩ := Option.map_eq_some_iff.mp hexec
    obtain ⟨rfl, -⟩ := Prod.mk.inj hr
    have hnamed := h (of_decide_eq_true horder)
    cases threadId with
    | none =>
      obtain rfl := Option.some.inj hjoin
      exact hnamed
    | some t =>
      unfold osThreadJoin at hjoin
      dsimp only at hjoin
      split at hjoin
      · obtain rfl := Option.some.inj hjoin
        exact hnamed
      · split at hjoin
        · obtain rfl := Option.some.inj hjoin
          exact hnamed
        · split at hjoin
          · contradiction
          · obtain rfl := Option.some.inj hjoin
            exact threadTerminate_named hnamed me false
  | threadExit me =>
    obtain ⟨rfl, -⟩ := Prod.mk.inj (Option.some.inj hexec)
    show (threadClean me me s).slots.Named b
    rw [(threadClean_ended me me s).slots]
    exact h (of_decide_eq_true horder)

theorem namedInv_reachable {s : OsState b} {guard : OsState b → OsCall b → Prop}
    (h : ((osSystem b).restrict guard).Reachable s) : NamedInv s := by
  refine h.invariant NamedInv ?_ ?_
  · rintro s ⟨s₀, bssEnd, flexpretThreadAttr, -, rfl⟩ hrun
    have hready : (osKernelInitialize bssEnd flexpretThreadAttr s₀).kernelState = .osKernelReady :=
      rfl
    rw [hready] at hrun
    contradiction
  · rintro s call s' - hinv ⟨-, hstep⟩
    obtain ⟨horder, r, hexec, rfl⟩ : call.inOrder s = true ∧
        ∃ r, call.exec s = some r ∧ r.1 = s' := by
      have hstep : osStep s call = some s' := hstep
      unfold osStep at hstep
      split at hstep
      · next horder => exact ⟨horder, Option.map_eq_some_iff.mp hstep⟩
      · contradiction
    exact namedInv_exec hinv horder hexec

/-! ## Section 2: Counting slots -/

/-- The fields that meet `p`. -/
theorem Slots.countP_eq (slots : Slots) (p : BitVec 4 → Bool) :
    slots.countP p = (Finset.univ.filter fun i : Fin 8 => p (slots.get i) = true).card := by
  have hlist : slots.toList = (List.finRange 8).map slots.get := by
    refine List.ext_getElem (by simp) fun i hi hi' => ?_
    rw [List.getElem_map, List.getElem_finRange, Vector.getElem_toList]
    rfl
  rw [← Vector.countP_toList, hlist, List.countP_map, Fin.univ_def, Finset.card_def,
    Finset.filter_val, ← Multiset.countP_eq_card_filter, Multiset.coe_countP]
  exact List.countP_congr fun i _ => by simp

/-- `active_count` is the length of a round. -/
theorem Slots.activeCount_eq (slots : Slots) : slots.activeCount = roundLength slots.get := by
  rw [activeCount, countP_eq, roundLength, Core.usedSlots]
  exact congrArg Finset.card (Finset.filter_congr fun i _ => decide_eq_true_iff)

theorem Slots.count_eq (slots : Slots) (x : BitVec 4) :
    slots.count x = (fieldsWith slots.get x).card := by
  show slots.countP (· == x) = _
  rw [countP_eq, fieldsWith]
  exact congrArg Finset.card (Finset.filter_congr fun i _ => beq_iff_eq)

/-! ## Section 3: The schedule on the core -/

section core

variable {conf : FlexpretConfiguration} (hthreads : conf.threads = b.hwThreadsNums)

/-- The hardware thread of an id. -/
def hwTid (t : Tid b) : conf.Tid := Fin.cast hthreads.symm t

theorem slotOf_hwTid (t : Tid b) : Core.slotOf (hwTid hthreads t) = slotT t := rfl

/-- **The CSRs hold the schedule of `s`** from cycle `a` until cycle `e`: the slots, and
    which threads are hard and which are soft.  Threads fall asleep and wake up. -/
structure Carries (sys : Nat → SystemState conf) (s : OsState b) (a e : Nat) : Prop where
  slots : SlotsStay sys s.slots.get a e
  soft : ∀ c, a ≤ c → c < e → ∀ t : Tid b,
    ((sys c).core.csr.regTmodes (hwTid hthreads t)).getLsbD 1 = (s.tmodes t).soft

/-- Thread `t` is awake from cycle `a` until cycle `e`. -/
def Awake (sys : Nat → SystemState conf) (t : Tid b) (a e : Nat) : Prop :=
  ∀ c, a ≤ c → c < e → ((sys c).core.csr.regTmodes (hwTid hthreads t)).getLsbD 0 = false

/-- What the scheduler does for a live thread from cycle `a` until cycle `e`. -/
structure Served (sys : Nat → SystemState conf) (s : OsState b) (t : Tid b) (a e : Nat) :
    Prop where
  hard : (s.tmodes t).soft = false → 0 < s.slots.count (slotT t) ∧
    ∀ c, a ≤ c → c + s.slots.activeCount ≤ e →
      issueCount sys (hwTid hthreads t) c (c + s.slots.activeCount) = s.slots.count (slotT t)
  soft : (s.tmodes t).soft = true → 0 < s.slots.count slotS ∧
    ∀ c M, a ≤ c → c < e → Core.softThreads (sys c).schedIn = M →
      c + M.card * s.slots.activeCount ≤ e →
      SoftStays sys M c (c + M.card * s.slots.activeCount) →
      s.slots.count slotS ≤
        issueCount sys (hwTid hthreads t) c (c + M.card * s.slots.activeCount)

include hthreads in
theorem Slots.Named.slotField {slots : Slots} (h : slots.Named b) (p : Fin 8) :
    Core.SlotField conf (slots.get p) := by
  rcases h p with hD | hS | ⟨t, ht⟩
  · exact .inr (.inr hD)
  · exact .inr (.inl hS)
  · exact .inl ⟨hwTid hthreads t, ht⟩

variable {hthreads} {sys : Nat → SystemState conf} {s : OsState b} {t : Tid b} {a e : Nat}

theorem bits_of_mode (mode : BitVec 2) (hawake : mode.getLsbD 0 = false) :
    (mode.getLsbD 1 = false → mode = Core.tmodeHA) ∧
      (mode.getLsbD 1 = true → mode = Core.tmodeSA) := by
  decide +revert

/-- An awake hard thread is in mode `HA`. -/
theorem Carries.modeHA (h : Carries hthreads sys s a e) (hawake : Awake hthreads sys t a e)
    (hhard : (s.tmodes t).soft = false) :
    Core.ModeStays sys (hwTid hthreads t) Core.tmodeHA a e :=
  fun c hac hce => (bits_of_mode _ (hawake c hac hce)).1 ((h.soft c hac hce t).trans hhard)

theorem Carries.modeSA (h : Carries hthreads sys s a e) (hawake : Awake hthreads sys t a e)
    (hsoft : (s.tmodes t).soft = true) :
    Core.ModeStays sys (hwTid hthreads t) Core.tmodeSA a e :=
  fun c hac hce => (bits_of_mode _ (hawake c hac hce)).2 ((h.soft c hac hce t).trans hsoft)

end core

theorem OsBuild.hwThreadsNums_ne_one (b : OsBuild) : b.hwThreadsNums ≠ 1 := by
  cases b <;> decide

/-- **From the calls to the cycles**: in every run of calls that add slots below the cap,
    and for every run of the core while it holds the schedule they have left, each live
    thread that is awake is issued as often as its slots say. -/
theorem scheduled_service (b : OsBuild) (s : OsState b)
    (hreach : ((osSystem b).restrict AddsBelowCap).Reachable s)
    (hrun : s.kernelState = .osKernelRunning) {conf : FlexpretConfiguration}
    (hthreads : conf.threads = b.hwThreadsNums) (hflex : conf.flex = true)
    (D : DecodeLogic conf) (sys : Nat → SystemState conf) (pins : Nat → Pins conf)
    (h : SystemRun D sys pins) (t : Tid b) (hlive : s.live t = true) (a e : Nat)
    (hcarries : Carries hthreads sys s a e) (hawake : Awake hthreads sys t a e) :
    Served hthreads sys s t a e := by
  have hmt : conf.threads ≠ 1 := hthreads ▸ b.hwThreadsNums_ne_one
  have hinv := (schedInv_reachable hreach).slotInv hrun
  have hfields := (namedInv_reachable hreach hrun).slotField hthreads
  have hround := s.slots.activeCount_eq
  constructor
  case hard =>
    intro hhard
    refine ⟨Vector.count_pos_iff.mpr (hinv.hard t hlive hhard), fun c hac hce => ?_⟩
    rw [hround] at hce ⊢
    rw [Slots.count_eq, ← slotOf_hwTid hthreads t]
    apply Core.hard_service h hmt hflex hfields
    · exact fun k hck hk => hcarries.slots k (hac.trans hck) (hk.trans_le hce)
    · exact fun k hck hk => hcarries.modeHA hawake hhard k (hac.trans hck) (hk.trans_le hce)
  case soft =>
    intro hsoft
    refine ⟨Vector.count_pos_iff.mpr (hinv.soft t hlive hsoft), fun c M hac hlt hM hce hstays => ?_⟩
    have ht : hwTid hthreads t ∈ M :=
      hM ▸ Core.mem_softThreads.mpr (hcarries.modeSA hawake hsoft c hac hlt)
    rw [hround] at hce hstays ⊢
    rw [Slots.count_eq]
    apply Core.soft_service h hmt hflex hfields ht
    · exact fun k hck hk => hcarries.slots k (hac.trans hck) (hk.trans_le hce)
    · exact hstays

/-! ## Section 4: A hard and a soft thread -/

/-- Thread 0 writes the modes and the slots of the started kernel with one normal thread. -/
def startSoft (a : Nat) : BitVec 32 :=
  if a = 0 then 0x0f800093 else if a = 1 then 0x50409073 else if a = 2 then 0xfe000113
  else if a = 3 then 0x50311073 else 0x13

def startSoftRun : Nat → SystemState Core.conf4tf :=
  Transition.Machine.trace (fun s p => SystemState.next s (DecodeLogic.zeros Core.conf4tf) p)
    (Core.systemZero Core.conf4tf startSoft) fun _ => Core.noPins Core.conf4tf

/-- From cycle 8 on the slot of thread 0 and the soft slot take turns. -/
def startSoftThread (c : Nat) : Core.conf4tf.Tid :=
  if c ≤ 8 ∨ c % 2 = 0 then (0 : Fin 4) else (1 : Fin 4)

def startSoftIssues : Nat → Core.CoreState Core.conf4tf :=
  SystemRun.issueRun (DecodeLogic.zeros Core.conf4tf) (Core.coreZero Core.conf4tf startSoft)
    startSoftThread (fun _ => true) fun _ => Core.noPins Core.conf4tf

theorem startSoftRun_systemRun :
    SystemRun (DecodeLogic.zeros Core.conf4tf) startSoftRun fun _ => Core.noPins Core.conf4tf :=
  Core.systemRun_trace _ _ _

/-- The schedule of the cycles, and that the CSRs hold that of the kernel from cycle 8 on. -/
theorem startSoftIssues_facts :
    (∀ c, c < 13 → SystemRun.Issues (startSoftIssues c)
      (if c ≤ 8 then 7 else if c % 2 = 1 then 0 else 1)
      (if c + 1 ≤ 8 then 7 else if (c + 1) % 2 = 1 then 0 else 1) (startSoftThread c) true) ∧
    ∀ c, c < 14 → 8 ≤ c →
      (∀ p, (startSoftIssues c).csr.regSlots p = (osKernelStart softCreated).1.slots.get p) ∧
      (∀ t : Tid .threads4Dspm12, ((startSoftIssues c).csr.regTmodes (hwTid rfl t)).getLsbD 1 =
        ((osKernelStart softCreated).1.tmodes t).soft) ∧
      ((startSoftIssues c).csr.regTmodes (0 : Fin 4)).getLsbD 0 = false ∧
      ((startSoftIssues c).csr.regTmodes (1 : Fin 4)).getLsbD 0 = false := by
  decide +kernel

theorem startSoftRun_core (c : Nat) (hc : c ≤ 13) : (startSoftRun c).core = startSoftIssues c :=
  (startSoftRun_systemRun.issue_run (by decide) rfl
    (fun c => if c ≤ 8 then 7 else if c % 2 = 1 then 0 else 1) startSoftThread (fun _ => true)
    startSoftIssues_facts.1 c hc).1

/-- The CSRs hold the schedule from cycle 8 on, and both threads are awake. -/
theorem startSoftRun_carries :
    Carries rfl startSoftRun (osKernelStart softCreated).1 8 14 ∧
      Awake rfl startSoftRun (0 : Tid .threads4Dspm12) 8 14 ∧
      Awake rfl startSoftRun (1 : Tid .threads4Dspm12) 8 14 := by
  obtain ⟨-, hfacts⟩ := startSoftIssues_facts
  have hcore : ∀ c, c < 14 → (startSoftRun c).core = startSoftIssues c :=
    fun c hc => startSoftRun_core c (Nat.le_of_lt_succ hc)
  refine ⟨?carries, ?hard, ?soft⟩
  case carries =>
    constructor
    case slots =>
      intro c hlow hhigh
      rw [hcore c hhigh]
      exact funext (hfacts c hhigh hlow).1
    case soft =>
      intro c hlow hhigh t
      rw [hcore c hhigh]
      exact (hfacts c hhigh hlow).2.1 t
  case hard =>
    intro c hlow hhigh
    rw [hcore c hhigh]
    exact (hfacts c hhigh hlow).2.2.1
  case soft =>
    intro c hlow hhigh
    rw [hcore c hhigh]
    exact (hfacts c hhigh hlow).2.2.2

/-- Thread 0 is hard and has a slot, thread 1 is soft and has a soft slot. -/
theorem startSoftRun_served :
    ((osKernelStart softCreated).1.tmodes 0).soft = false ∧
    Served rfl startSoftRun (osKernelStart softCreated).1 0 8 14 ∧
    ((osKernelStart softCreated).1.tmodes 1).soft = true ∧
    Served rfl startSoftRun (osKernelStart softCreated).1 1 8 14 := by
  obtain ⟨hcarries, hhard, hsoft⟩ := startSoftRun_carries
  refine ⟨by decide, ?_, by decide, ?_⟩
  · exact scheduled_service .threads4Dspm12 _ softStarted_reachable rfl rfl rfl _ _ _
      startSoftRun_systemRun 0 (by decide) 8 14 hcarries hhard
  · exact scheduled_service .threads4Dspm12 _ softStarted_reachable rfl rfl rfl _ _ _
      startSoftRun_systemRun 1 (by decide) 8 14 hcarries hsoft

end Flexpret.Os
