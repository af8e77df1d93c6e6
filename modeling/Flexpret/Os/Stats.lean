import Flexpret.Core.Counters
import Flexpret.Core.PreciseTrap
import Flexpret.Os.KernelInfo

/-! # stats_get and stats_print

    `stats_get` reads two counters of 64 bits in four words, and again when an upper word
    has changed meanwhile.  What it returns are values the counters really had, so that
    two calls tell how often the thread was scheduled and how much it executed between
    them.  `stats_print` subtracts the words one by one.
-/

namespace Flexpret.Os

open Flexpret.Core (FlexpretConfiguration DecodeLogic CoreState CoreIn CoreRun SystemState
  SystemRun Pins CSRs.cycle CSRs.cycleh CSRs.instret CSRs.instreth cyclesCounted instrsCounted
  completedCount issueCount)

variable {conf : FlexpretConfiguration}

/-! ## Section 1: stats_get -/

/-- `struct stats`. -/
structure Stats where
  cycle : BitVec 32
  cycleh : BitVec 32
  instret : BitVec 32
  instreth : BitVec 32

/-- The cycles in which the reads of one turn are in execute. -/
structure StatsReads where
  cycleh : Nat
  instreth : Nat
  cycle : Nat
  instret : Nat
  cyclehAgain : Nat
  instrethAgain : Nat

section get

variable (tr : Nat → CoreState conf) (t : conf.Tid)

/-- `read_csr` by an instruction of `t` that is in execute in cycle `c`. -/
def readCsr (csr : BitVec 12) (c : Nat) : BitVec 32 := (tr c).csr.dataOut csr t

/-- The body of the loop. -/
def statsBody (r : StatsReads) : Stats where
  cycleh := readCsr tr t CSRs.cycleh r.cycleh
  instreth := readCsr tr t CSRs.instreth r.instreth
  cycle := readCsr tr t CSRs.cycle r.cycle
  instret := readCsr tr t CSRs.instret r.instret

/-- Its condition; the second read is made when the first finds no change. -/
def statsAgain (r : StatsReads) (s : Stats) : Bool :=
  readCsr tr t CSRs.cycleh r.cyclehAgain ≠ s.cycleh ||
    readCsr tr t CSRs.instreth r.instrethAgain ≠ s.instreth

/-- `stats_get` from turn `k` on; `none` when it has not returned after `fuel` turns. -/
def statsGet (reads : Nat → StatsReads) : Nat → Nat → Option Stats
  | 0, _ => none
  | fuel + 1, k =>
      let s := statsBody tr t (reads k)
      if statsAgain tr t (reads k) s then statsGet reads fuel (k + 1) else some s

/-- The turn that returns: the first that finds no change. -/
structure ReturnsIn (reads : Nat → StatsReads) (m : Nat) : Prop where
  kept : statsAgain tr t (reads m) (statsBody tr t (reads m)) = false
  again : ∀ k, k < m → statsAgain tr t (reads k) (statsBody tr t (reads k)) = true

end get

/-- The counters that the words make up. -/
def Stats.cycles (s : Stats) : BitVec 64 := s.cycleh ++ s.cycle
def Stats.instrs (s : Stats) : BitVec 64 := s.instreth ++ s.instret

/-- The reads are made one after the other. -/
structure StatsReads.InOrder (reads : Nat → StatsReads) : Prop where
  instreth : ∀ k, (reads k).cycleh < (reads k).instreth
  cycle : ∀ k, (reads k).instreth < (reads k).cycle
  instret : ∀ k, (reads k).cycle < (reads k).instret
  cyclehAgain : ∀ k, (reads k).instret < (reads k).cyclehAgain
  instrethAgain : ∀ k, (reads k).cyclehAgain < (reads k).instrethAgain
  next : ∀ k, (reads k).instrethAgain < (reads (k + 1)).cycleh

/-- The reads of a turn, in their order. -/
theorem StatsReads.InOrder.turn {reads : Nat → StatsReads} (h : StatsReads.InOrder reads)
    (k : Nat) : (reads k).cycleh < (reads k).instreth ∧ (reads k).instreth < (reads k).cycle ∧
      (reads k).cycle < (reads k).instret ∧ (reads k).instret < (reads k).cyclehAgain ∧
      (reads k).cyclehAgain < (reads k).instrethAgain :=
  ⟨h.instreth k, h.cycle k, h.instret k, h.cyclehAgain k, h.instrethAgain k⟩

/-! ## Section 2: What it returns -/

theorem toNat_join (hi lo : BitVec 32) : (hi ++ lo).toNat = hi.toNat * 2 ^ 32 + lo.toNat := by
  rw [BitVec.toNat_append, ← Nat.shiftLeft_add_eq_or_of_lt lo.isLt, Nat.shiftLeft_eq]

/-- The upper word of a register is the same in two cycles. -/
def UpperKept (reg : Nat → BitVec 64) (a d : Nat) : Prop :=
  (reg d).extractLsb' 32 32 = (reg a).extractLsb' 32 32

section counter

variable {reg : Nat → BitVec 64} {count : Nat → Nat}

theorem upperKept_iff (hreg : ∀ c, reg c = BitVec.ofNat 64 (count c)) {a d : Nat} :
    UpperKept reg a d ↔ SplitCounter.high 32 (count a) = SplitCounter.high 32 (count d) := by
  rw [UpperKept, ← BitVec.toNat_inj, hreg a, hreg d, (Core.toNat_words _).1,
    (Core.toNat_words _).1, eq_comm]

/-- The upper word is kept while the counter is a word. -/
theorem upperKept_of_lt (hreg : ∀ c, reg c = BitVec.ofNat 64 (count c)) {a d : Nat}
    (had : count a ≤ count d) (hword : count d < 2 ^ 32) : UpperKept reg a d := by
  rw [upperKept_iff hreg, SplitCounter.high, SplitCounter.high, Nat.div_eq_of_lt hword,
    Nat.div_eq_of_lt (had.trans_lt hword)]

/-- The words of a counter, the upper one read before and after the lower one. -/
theorem join_eq (hreg : ∀ c, reg c = BitVec.ofNat 64 (count c)) {a b d : Nat}
    (hab : count a ≤ count b) (hbd : count b ≤ count d)
    (hslow : count d + 2 ^ 32 ≤ count a + 2 ^ 64)
    (hsame : UpperKept reg a d) :
    (reg a).extractLsb' 32 32 ++ (reg b).setWidth 32 = reg b := by
  have hwords := (upperKept_iff hreg).mp hsame
  have hbetween := SplitCounter.high_between hab hbd hslow hwords
  refine BitVec.eq_of_toNat_eq ?_
  rw [toNat_join, hreg a, hreg b, (Core.toNat_words _).1, (Core.toNat_words _).2, ← hbetween,
    SplitCounter.high_mul_add_low, BitVec.toNat_ofNat]

/-- Of two stretches one after the other, the upper word is kept in one. -/
theorem upper_steady (hreg : ∀ c, reg c = BitVec.ofNat 64 (count c)) {a b c d : Nat}
    (hab : count a ≤ count b) (hbc : count b ≤ count c) (hcd : count c ≤ count d)
    (hslow : count d < count a + 2 ^ 32) : UpperKept reg a b ∨ UpperKept reg c d := by
  rw [upperKept_iff hreg, upperKept_iff hreg]
  exact SplitCounter.high_steady hab hbc hcd hslow

end counter

section result

variable {tr : Nat → CoreState conf} {t : conf.Tid} {reads : Nat → StatsReads}

/-- It returns what the first turn read that finds no change. -/
theorem statsGet_some {fuel k : Nat} {s : Stats}
    (hagain : ∀ j, j < k → statsAgain tr t (reads j) (statsBody tr t (reads j)) = true)
    (h : statsGet tr t reads fuel k = some s) :
    ∃ m, m < k + fuel ∧ ReturnsIn tr t reads m ∧ s = statsBody tr t (reads m) := by
  induction fuel generalizing k with
  | zero => contradiction
  | succ fuel ih =>
    unfold statsGet at h
    dsimp only at h
    split at h
    · next hturn =>
      -- one more turn that goes on
      have hagain' : ∀ j, j < k + 1 →
          statsAgain tr t (reads j) (statsBody tr t (reads j)) = true := by
        intro j hj
        rcases Nat.lt_or_eq_of_le (Nat.le_of_lt_succ hj) with hlt | rfl
        · exact hagain j hlt
        · exact hturn
      obtain ⟨m, hm, hreturns, hs⟩ := ih hagain' h
      exact ⟨m, by omega, hreturns, hs⟩
    · next hturn =>
      exact ⟨k, by omega, ⟨Bool.eq_false_iff.mpr hturn, hagain⟩, (Option.some.inj h).symm⟩

theorem statsGet_isSome {fuel k m : Nat} (hkm : k ≤ m) (hm : m < k + fuel)
    (hagain : statsAgain tr t (reads m) (statsBody tr t (reads m)) = false) :
    (statsGet tr t reads fuel k).isSome = true := by
  induction fuel generalizing k with
  | zero => omega
  | succ fuel ih =>
    unfold statsGet
    dsimp only
    split
    · next hturn =>
      have hne : k ≠ m := by
        rintro rfl
        rw [hagain] at hturn
        contradiction
      exact ih (by omega) (by omega)
    · rfl

/-- What a turn compares. -/
theorem statsAgain_eq_false (hstats : conf.stats = true) (r : StatsReads) :
    statsAgain tr t r (statsBody tr t r) = false ↔
      UpperKept (fun c => (tr c).csr.regCycle t) r.cycleh r.cyclehAgain ∧
        UpperKept (fun c => (tr c).csr.regInstret t) r.instreth r.instrethAgain := by
  simp only [UpperKept, statsAgain, statsBody, readCsr, (Core.counterWords _ t hstats).cycleh,
    (Core.counterWords _ t hstats).instreth, Bool.or_eq_false_iff, decide_eq_false_iff_not,
    ne_eq, not_not]

variable {D : DecodeLogic conf} {inp : Nat → CoreIn conf}

/-- **The words belong together**: a turn that finds no change has read the two counters
    as they were when their lower words were read. -/
theorem statsBody_eq (h : CoreRun D tr inp) (hstats : conf.stats = true)
    (horder : StatsReads.InOrder reads) {k : Nat}
    (hquick : (reads k).instrethAgain < (reads k).cycleh + 2 ^ 32)
    (hagain : statsAgain tr t (reads k) (statsBody tr t (reads k)) = false) :
    (statsBody tr t (reads k)).cycles = (tr (reads k).cycle).csr.regCycle t ∧
      (statsBody tr t (reads k)).instrs = (tr (reads k).instret).csr.regInstret t := by
  obtain ⟨hcycle, hinstr⟩ := (statsAgain_eq_false hstats _).mp hagain
  have hturn := horder.turn k
  constructor
  · have hle := Core.cyclesCounted_le tr t (reads k).cycleh
      ((reads k).cyclehAgain - (reads k).cycleh)
    rw [Nat.add_sub_cancel' (by omega)] at hle
    have hjoin := join_eq (fun c => h.regCycle_eq hstats t c)
      (Core.cyclesCounted_mono tr t (a := (reads k).cycleh) (b := (reads k).cycle) (by omega))
      (Core.cyclesCounted_mono tr t (b := (reads k).cyclehAgain) (by omega)) (by omega) hcycle
    simp only [Stats.cycles, statsBody, readCsr, (Core.counterWords _ t hstats).cycleh,
      (Core.counterWords _ t hstats).cycle]
    exact hjoin
  · have hle := Core.instrsCounted_le tr t (reads k).instreth
      ((reads k).instrethAgain - (reads k).instreth)
    rw [Nat.add_sub_cancel' (by omega)] at hle
    have hjoin := join_eq (fun c => h.regInstret_eq hstats t c)
      (Core.instrsCounted_mono tr t (a := (reads k).instreth) (b := (reads k).instret) (by omega))
      (Core.instrsCounted_mono tr t (b := (reads k).instrethAgain) (by omega)) (by omega) hinstr
    simp only [Stats.instrs, statsBody, readCsr, (Core.counterWords _ t hstats).instreth,
      (Core.counterWords _ t hstats).instret]
    exact hjoin

/-- In the first `2^32` cycles after both counters were zero no turn finds a change. -/
theorem statsAgain_early (h : CoreRun D tr inp) (hstats : conf.stats = true)
    (horder : StatsReads.InOrder reads) (hcycle : (tr 0).csr.regCycle t = 0)
    (hinstret : (tr 0).csr.regInstret t = 0) {k : Nat}
    (hearly : (reads k).instrethAgain < 2 ^ 32) :
    statsAgain tr t (reads k) (statsBody tr t (reads k)) = false := by
  have hturn := horder.turn k
  rw [statsAgain_eq_false hstats]
  constructor
  · have hle := Core.cyclesCounted_le tr t 0 (reads k).cyclehAgain
    have hzero : Core.cyclesCounted tr t 0 = 0 := by
      rw [cyclesCounted, hcycle, Nat.count_zero]
      rfl
    rw [Nat.zero_add] at hle
    exact upperKept_of_lt (fun c => h.regCycle_eq hstats t c)
      (Core.cyclesCounted_mono tr t (by omega)) (by omega)
  · have hle := Core.instrsCounted_le tr t 0 (reads k).instrethAgain
    have hzero : Core.instrsCounted tr t 0 = 0 := by
      rw [instrsCounted, hinstret, Nat.count_zero]
      rfl
    rw [Nat.zero_add] at hle
    exact upperKept_of_lt (fun c => h.regInstret_eq hstats t c)
      (Core.instrsCounted_mono tr t (by omega)) (by omega)

/-- A turn is over when a later one begins. -/
theorem StatsReads.InOrder.later (horder : StatsReads.InOrder reads) {i j : Nat} (hij : i < j) :
    (reads i).instrethAgain < (reads j).cycleh := by
  induction j, hij using Nat.le_induction with
  | base => exact horder.next i
  | succ j _ ih =>
    have hturn := horder.turn j
    have hnext := horder.next j
    omega

/-- The reads of a turn lie between its first and its last. -/
theorem StatsReads.InOrder.within (horder : StatsReads.InOrder reads) (k : Nat) :
    (reads k).cycleh ≤ (reads k).cyclehAgain ∧
      (reads k).cyclehAgain ≤ (reads k).instrethAgain ∧
      (reads k).cycleh ≤ (reads k).instreth ∧ (reads k).instreth ≤ (reads k).instrethAgain := by
  have hturn := horder.turn k
  omega

/-- The first three turns enclose each of them. -/
theorem StatsReads.InOrder.span (horder : StatsReads.InOrder reads) {k : Nat} (hk : k < 3) :
    (reads 0).cycleh ≤ (reads k).cycleh ∧ (reads k).instrethAgain ≤ (reads 2).instrethAgain := by
  obtain ⟨h₀, h₁, -, -⟩ := horder.within 2
  constructor
  · rcases Nat.eq_zero_or_pos k with rfl | hpos
    · exact le_rfl
    · obtain ⟨h₂, h₃, -, -⟩ := horder.within 0
      have hnext := horder.later hpos
      omega
  · rcases Nat.lt_or_eq_of_le (Nat.le_of_lt_succ hk) with hlt | rfl
    · have hnext := horder.later hlt
      omega
    · exact le_rfl

/-- **It returns**: of three turns in a row one finds no change, since each counter can
    spoil one of them only. -/
theorem statsGet_returns (h : CoreRun D tr inp) (hstats : conf.stats = true)
    (horder : StatsReads.InOrder reads)
    (hquick : (reads 2).instrethAgain < (reads 0).cycleh + 2 ^ 32) :
    ∃ m, m < 3 ∧ ReturnsIn tr t reads m ∧
      statsGet tr t reads 3 0 = some (statsBody tr t (reads m)) := by
  -- two of the turns, in the time of all three
  have hspan : ∀ i j, i < j → j < 3 → (reads i).instrethAgain < (reads j).cycleh ∧
      (reads j).instrethAgain < (reads i).cycleh + 2 ^ 32 := by
    intro i j hij hj
    have hlater := horder.later hij
    obtain ⟨hfirst, -⟩ := horder.span (hij.trans hj)
    obtain ⟨-, hlast⟩ := horder.span hj
    omega
  obtain ⟨m, hm, hkept⟩ := SplitCounter.exists_attempt
    (p := fun m => UpperKept (fun c => (tr c).csr.regCycle t) (reads m).cycleh
      (reads m).cyclehAgain)
    (q := fun m => UpperKept (fun c => (tr c).csr.regInstret t) (reads m).instreth
      (reads m).instrethAgain) (by
      intro i j hij hj
      obtain ⟨hnext, hshort⟩ := hspan i j hij hj
      obtain ⟨hi, hi', -, -⟩ := horder.within i
      obtain ⟨hj, hj', -, -⟩ := horder.within j
      have hle := Core.cyclesCounted_le tr t (reads i).cycleh
        ((reads j).cyclehAgain - (reads i).cycleh)
      rw [Nat.add_sub_cancel' (by omega)] at hle
      exact upper_steady (fun c => h.regCycle_eq hstats t c) (Core.cyclesCounted_mono tr t hi)
        (Core.cyclesCounted_mono tr t (by omega)) (Core.cyclesCounted_mono tr t hj) (by omega)) (by
      intro i j hij hj
      obtain ⟨hnext, hshort⟩ := hspan i j hij hj
      obtain ⟨-, -, hi, hi'⟩ := horder.within i
      obtain ⟨-, -, hj, hj'⟩ := horder.within j
      have hle := Core.instrsCounted_le tr t (reads i).instreth
        ((reads j).instrethAgain - (reads i).instreth)
      rw [Nat.add_sub_cancel' (by omega)] at hle
      exact upper_steady (fun c => h.regInstret_eq hstats t c)
        (Core.instrsCounted_mono tr t hi') (Core.instrsCounted_mono tr t (by omega))
        (Core.instrsCounted_mono tr t hj') (by omega))
  have hagain := (statsAgain_eq_false hstats (reads m)).mpr hkept
  have hsome : (statsGet tr t reads 3 0).isSome = true :=
    statsGet_isSome (Nat.zero_le m) (by omega) hagain
  obtain ⟨s, hs⟩ := Option.isSome_iff_exists.mp hsome
  obtain ⟨m', hm', hreturns, rfl⟩ := statsGet_some (fun j hj => absurd hj (Nat.not_lt_zero j)) hs
  exact ⟨m', by omega, hreturns, hs⟩

end result

/-- **Two calls of stats_get** by thread `t`, each of whose first three turns are over
    within `2^32` cycles, the second after the first has returned: both return, and the
    differences of what they return are how often the thread was scheduled and how many
    instructions it completed between the readings of the two turns that return.  An
    instruction is issued four cycles before it is in execute. -/
theorem statsGet_interval (hstats : conf.stats = true) (D : DecodeLogic conf)
    (sys : Nat → SystemState conf) (pins : Nat → Pins conf) (h : SystemRun D sys pins)
    (t : conf.Tid) (first last : Nat → StatsReads) (hfirst : StatsReads.InOrder first)
    (hlast : StatsReads.InOrder last) (hstart : 4 ≤ (first 0).cycleh)
    (hquick : (first 2).instrethAgain < (first 0).cycleh + 2 ^ 32)
    (hquick' : (last 2).instrethAgain < (last 0).cycleh + 2 ^ 32)
    (hafter : ∀ i, i < 3 → ReturnsIn (fun c => (sys c).core) t first i →
      (first i).instrethAgain ≤ (last 0).cycleh) :
    ∃ s e i j, i < 3 ∧ j < 3 ∧ ReturnsIn (fun c => (sys c).core) t first i ∧
      ReturnsIn (fun c => (sys c).core) t last j ∧
      statsGet (fun c => (sys c).core) t first 3 0 = some s ∧
      statsGet (fun c => (sys c).core) t last 3 0 = some e ∧
      e.cycles - s.cycles =
        BitVec.ofNat 64 (issueCount sys t ((first i).cycle - 4) ((last j).cycle - 4)) ∧
      e.instrs - s.instrs =
        BitVec.ofNat 64 (completedCount (fun c => (sys c).core) t (first i).instret
          (last j).instret) := by
  obtain ⟨i, hi, hreturns, hs⟩ := statsGet_returns h.core hstats hfirst (t := t) hquick
  obtain ⟨j, hj, hreturns', he⟩ := statsGet_returns h.core hstats hlast (t := t) hquick'
  have hbetween := hafter i hi hreturns
  obtain ⟨hfi, hi2⟩ := hfirst.span hi
  obtain ⟨hlj, hj2⟩ := hlast.span hj
  obtain ⟨hcycles, hinstrs⟩ :=
    statsBody_eq h.core hstats hfirst (k := i) (by omega) hreturns.kept
  obtain ⟨hcycles', hinstrs'⟩ :=
    statsBody_eq h.core hstats hlast (k := j) (by omega) hreturns'.kept
  have hturn := hfirst.turn i
  have hturn' := hlast.turn j
  refine ⟨_, _, i, j, hi, hj, hreturns, hreturns', hs, he, ?_, ?_⟩
  · have hsub := h.cyclesCounted_sub t
      (show (first i).cycle - 4 ≤ (last j).cycle - 4 by omega)
    rw [Nat.sub_add_cancel (by omega), Nat.sub_add_cancel (by omega)] at hsub
    rw [hcycles, hcycles', h.core.regCycle_eq hstats, h.core.regCycle_eq hstats, hsub,
      BitVec.ofNat_add, BitVec.add_comm, BitVec.add_sub_cancel]
  · have hsub := Core.instrsCounted_sub (fun c => (sys c).core) t
      (show (first i).instret ≤ (last j).instret by omega)
    rw [hinstrs, hinstrs', h.core.regInstret_eq hstats, h.core.regInstret_eq hstats, hsub,
      BitVec.ofNat_add, BitVec.add_comm, BitVec.add_sub_cancel]

/-- The reads of a call that begins in cycle `a`, a thread alone. -/
def readsFrom (a k : Nat) : StatsReads where
  cycleh := a + 20 * k
  instreth := a + 20 * k + 2
  cycle := a + 20 * k + 4
  instret := a + 20 * k + 6
  cyclehAgain := a + 20 * k + 8
  instrethAgain := a + 20 * k + 10

theorem readsFrom_inOrder (a : Nat) : StatsReads.InOrder (readsFrom a) := by
  constructor
  all_goals
    intro k
    simp only [readsFrom]
    omega

/-- The first turn of a call early in the run returns. -/
theorem readsFrom_returns {i : Nat}
    (h : ReturnsIn (fun c => (Core.callAfterRun 0x13 c).core) (0 : Fin 2) (readsFrom 100) i) :
    i = 0 := by
  have hrun : SystemRun (DecodeLogic.zeros Core.conf2tAll) (Core.callAfterRun 0x13)
      fun _ => Core.noPins Core.conf2tAll := Core.systemRun_trace _ _ _
  have hkept : statsAgain (fun c => (Core.callAfterRun 0x13 c).core) (0 : Fin 2)
      (readsFrom 100 0) _ = false :=
    statsAgain_early hrun.core rfl (readsFrom_inOrder 100) rfl rfl (by decide)
  by_contra hne
  rw [h.again 0 (Nat.pos_of_ne_zero hne)] at hkept
  contradiction

/-- Thread 0 makes two calls, the second right after the first has returned. -/
theorem readsFrom_interval :
    ∃ s e i j, i < 3 ∧ j < 3 ∧
      ReturnsIn (fun c => (Core.callAfterRun 0x13 c).core) (0 : Fin 2) (readsFrom 100) i ∧
      ReturnsIn (fun c => (Core.callAfterRun 0x13 c).core) (0 : Fin 2) (readsFrom 111) j ∧
      statsGet (fun c => (Core.callAfterRun 0x13 c).core) (0 : Fin 2) (readsFrom 100) 3 0 = some s ∧
      statsGet (fun c => (Core.callAfterRun 0x13 c).core) (0 : Fin 2) (readsFrom 111) 3 0 = some e ∧
      e.cycles - s.cycles = BitVec.ofNat 64 (issueCount (Core.callAfterRun 0x13) (0 : Fin 2)
        ((readsFrom 100 i).cycle - 4) ((readsFrom 111 j).cycle - 4)) ∧
      e.instrs - s.instrs = BitVec.ofNat 64 (completedCount
        (fun c => (Core.callAfterRun 0x13 c).core) (0 : Fin 2) (readsFrom 100 i).instret
          (readsFrom 111 j).instret) :=
  statsGet_interval rfl (DecodeLogic.zeros Core.conf2tAll) (Core.callAfterRun 0x13)
    (fun _ => Core.noPins Core.conf2tAll) (Core.systemRun_trace _ _ _) (0 : Fin 2)
    (readsFrom 100) (readsFrom 111) (readsFrom_inOrder 100) (readsFrom_inOrder 111)
    (by decide) (by decide) (by decide) (by
      intro i _ hreturns
      rw [readsFrom_returns hreturns]
      decide)

/-! ## Section 3: stats_print -/

/-- `itoa_hex`: eight digits. -/
def itoaHex (n : BitVec 32) : List Byte :=
  (List.range 8).map fun i => hexDigit (n >>> (4 * (7 - i)))

/-- `stats_print`: what goes to the output. -/
def statsPrint (s e : Stats) : List Byte :=
  itoaHex (e.cycleh - s.cycleh) ++ itoaHex (e.cycle - s.cycle) ++ [10] ++
    (itoaHex (e.instreth - s.instreth) ++ itoaHex (e.instret - s.instret) ++ [10])

/-- A line with the sixteen digits of a number. -/
def hexLine (n : BitVec 64) : List Byte :=
  (List.range 16).map (fun i => hexDigit ((n >>> (4 * (15 - i))).setWidth 32)) ++ [10]

/-- A digit shows the lowest four bits. -/
theorem hexDigit_eq_iff {m n : BitVec 32} :
    hexDigit m = hexDigit n ↔ ∀ j, j < 4 → m.getLsbD j = n.getLsbD j := by
  have hmask : ∀ x : BitVec 32, x &&& 15 = (x.setWidth 4).setWidth 32 := by
    intro x
    refine BitVec.eq_of_toNat_eq ?_
    rw [BitVec.toNat_and, BitVec.toNat_setWidth, BitVec.toNat_setWidth,
      show (15 : BitVec 32).toNat = 2 ^ 4 - 1 from rfl, Nat.and_two_pow_sub_one_eq_mod]
    omega
  have hdigits : ∀ x y : BitVec 4, hexDigit (x.setWidth 32) = hexDigit (y.setWidth 32) → x = y := by
    unfold hexDigit
    decide
  have hfour : ∀ x : BitVec 32, hexDigit x = hexDigit ((x.setWidth 4).setWidth 32) := by
    intro x
    rw [hexDigit, hexDigit, ← hmask, BitVec.and_assoc, BitVec.and_self]
  rw [hfour m, hfour n]
  constructor
  · intro h j hj
    have hbits := congrArg (BitVec.getLsbD · j) (hdigits _ _ h)
    simpa [hj] using hbits
  · intro h
    have hbits : m.setWidth 4 = n.setWidth 4 := by
      refine BitVec.eq_of_getLsbD_eq fun j hj => ?_
      rw [BitVec.getLsbD_setWidth, BitVec.getLsbD_setWidth, h j hj]
    rw [hbits]

/-- **Round trip**: the digits tell the number. -/
theorem itoaHex_inj {m n : BitVec 32} (h : itoaHex m = itoaHex n) : m = n := by
  refine BitVec.eq_of_getLsbD_eq fun k hk => ?_
  have hdigit := List.map_inj_left.mp h (7 - k / 4) (List.mem_range.mpr (by omega))
  have hbit := hexDigit_eq_iff.mp hdigit (k % 4) (Nat.mod_lt k (by decide))
  rw [BitVec.getLsbD_ushiftRight, BitVec.getLsbD_ushiftRight,
    show 4 * (7 - (7 - k / 4)) + k % 4 = k by omega] at hbit
  exact hbit

@[simp] theorem length_itoaHex (n : BitVec 32) : (itoaHex n).length = 8 := by
  rw [itoaHex, List.length_map, List.length_range]

/-- The digits of two words are those of the number they make up. -/
theorem hexLine_eq (hi lo : BitVec 32) :
    hexLine (hi ++ lo) = itoaHex hi ++ itoaHex lo ++ [10] := by
  have hrange : List.range 16 = List.range 8 ++ (List.range 8).map (8 + ·) := rfl
  rw [hexLine, hrange, List.map_append, List.map_map, itoaHex, itoaHex]
  congr 2
  · refine List.map_congr_left fun i hi8 => hexDigit_eq_iff.mpr fun j hj => ?_
    have hi8 := List.mem_range.mp hi8
    rw [BitVec.getLsbD_setWidth, BitVec.getLsbD_ushiftRight, BitVec.getLsbD_ushiftRight,
      BitVec.getLsbD_append, if_neg (by omega)]
    simp only [show j < 32 by omega, decide_true, Bool.true_and]
    congr 1
    omega
  · refine List.map_congr_left fun i hi8 => hexDigit_eq_iff.mpr fun j hj => ?_
    have hi8 := List.mem_range.mp hi8
    show (((hi ++ lo) >>> (4 * (15 - (8 + i)))).setWidth 32).getLsbD j = _
    rw [BitVec.getLsbD_setWidth, BitVec.getLsbD_ushiftRight, BitVec.getLsbD_ushiftRight,
      BitVec.getLsbD_append, if_pos (by omega)]
    simp only [show j < 32 by omega, decide_true, Bool.true_and]
    congr 1
    omega

/-- The words of a difference: the upper one gives what the lower one borrows. -/
theorem sub_words (hi lo hi' lo' : BitVec 32) :
    (hi' ++ lo') - (hi ++ lo) =
      (hi' - hi - if lo ≤ lo' then 0 else 1) ++ (lo' - lo) := by
  refine BitVec.eq_of_toNat_eq ?_
  have hhi := hi.isLt
  have hhi' := hi'.isLt
  have hlo := lo.isLt
  have hlo' := lo'.isLt
  rw [BitVec.toNat_sub, toNat_join, toNat_join, toNat_join, BitVec.toNat_sub, BitVec.toNat_sub,
    BitVec.toNat_sub]
  by_cases hle : lo ≤ lo'
  · rw [if_pos hle]
    rw [BitVec.le_def] at hle
    have hzero : (0 : BitVec 32).toNat = 0 := rfl
    omega
  · rw [if_neg hle]
    rw [BitVec.le_def] at hle
    have hone : (1 : BitVec 32).toNat = 1 := rfl
    omega

/-- A line of `stats_print` has the digits of the difference when nothing is borrowed. -/
theorem sub_line_iff (hi lo hi' lo' : BitVec 32) :
    itoaHex (hi' - hi) ++ itoaHex (lo' - lo) ++ [10] = hexLine ((hi' ++ lo') - (hi ++ lo)) ↔
      lo ≤ lo' := by
  rw [sub_words, hexLine_eq, List.append_left_inj, List.append_left_inj]
  constructor
  · intro h
    by_contra hle
    have hwords := congrArg BitVec.toNat (itoaHex_inj h)
    rw [if_neg hle] at hwords
    generalize hi' - hi = d at hwords
    rw [BitVec.toNat_sub, show (1 : BitVec 32).toNat = 1 from rfl] at hwords
    have hlt := d.isLt
    omega
  · intro hle
    rw [if_pos hle]
    exact congrArg itoaHex (BitVec.sub_zero _).symm

/-- **stats_print** prints the differences of the two counters, unless a lower word has
    wrapped in between: it loses the borrow. -/
theorem statsPrint_iff (s e : Stats) :
    statsPrint s e = hexLine (e.cycles - s.cycles) ++ hexLine (e.instrs - s.instrs) ↔
      s.cycle ≤ e.cycle ∧ s.instret ≤ e.instret := by
  have hlength : ∀ n : BitVec 64, (hexLine n).length = 17 := by
    intro n
    rw [hexLine, List.length_append, List.length_map, List.length_range]
    rfl
  rw [← sub_line_iff s.cycleh s.cycle e.cycleh e.cycle,
    ← sub_line_iff s.instreth s.instret e.instreth e.instret]
  constructor
  · intro h
    refine List.append_inj h ?_
    rw [hlength]
    simp
  · rintro ⟨hcycles, hinstrs⟩
    rw [statsPrint, hcycles, hinstrs]
    rfl

end Flexpret.Os
