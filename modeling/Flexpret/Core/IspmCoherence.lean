import Flexpret.Core.InstructionStream

/-! # Coherence of the Instruction Scratchpad

    The port that fetches takes the word index from the bits of the PC above
    the lowest two, `iMemAddrBits` of them.  The port that loads and stores
    takes bits `iMemAddrBits - 1` down to 2 of the address, which are two bits
    fewer: it reaches the first quarter of the scratchpad only.
-/

open Transition

namespace Flexpret.Core

variable {conf : FlexpretConfiguration}

/-! ## Section 1: The scratchpad, cycle by cycle -/

variable (conf) in
/-- The word that a load or store addresses: `io.addr(conf.iMemAddrBits-1, 2)`. -/
def rwAddr (addr : BitVec 32) : BitVec conf.iMemAddrBits :=
  ((addr >>> 2).setWidth (conf.iMemAddrBits - 2)).setWidth conf.iMemAddrBits

variable (conf) in
/-- What the scratchpad gets in a cycle: the PC to fetch from, and what the
    `LoadStore` unit gets. -/
structure IspmIn where
  fetch : Bool
  pc : BitVec 32
  data : LoadStoreIn conf

/-- One cycle. -/
def ISpm.cycle (m : ISpm conf) (x : IspmIn conf) : ISpm conf :=
  m.next x.fetch (fetchAddr conf x.pc) x.data

/-- A store is written to the scratchpad. -/
def LoadStoreIn.writesIspm (i : LoadStoreIn conf) : Bool := imemOp i.addr && i.store && i.write

theorem LoadStoreIn.store_of_write {i : LoadStoreIn conf} (h : i.write = true) :
    i.store = true := by
  simp only [LoadStoreIn.write, Bool.and_eq_true] at h
  exact h.1.1.1.1

theorem cycle_ispm (m : ISpm conf) (x : IspmIn conf) :
    (m.cycle x).ispm =
      if x.data.writesIspm then Function.update m.ispm (rwAddr conf x.data.addr) x.data.dataIn
      else m.ispm := by
  show (if (imemOp x.data.addr && (x.data.load || x.data.store)) && x.data.write then _ else _) = _
  have hsame : ((imemOp x.data.addr && (x.data.load || x.data.store)) && x.data.write) =
      x.data.writesIspm := by
    unfold LoadStoreIn.writesIspm
    cases hw : x.data.write with
    | false => rw [Bool.and_false, Bool.and_false]
    | true => rw [LoadStoreIn.store_of_write hw, Bool.or_true]
  rw [hsame]
  rfl

theorem cycle_doutR (m : ISpm conf) (x : IspmIn conf) :
    (m.cycle x).doutR = if x.fetch then m.ispm (fetchAddr conf x.pc) else m.doutR := rfl

theorem cycle_doutRw {m : ISpm conf} {x : IspmIn conf} (hop : imemOp x.data.addr = true)
    (hload : x.data.load = true) :
    (m.cycle x).doutRw = m.ispm (rwAddr conf x.data.addr) := by
  show (if imemOp x.data.addr && (x.data.load || x.data.store) then _ else _) = _
  rw [hop, hload]
  rfl

/-! ## Section 2: The property -/

/-- A word-aligned address of the scratchpad. -/
structure IspmAddr (conf : FlexpretConfiguration) (a : BitVec 32) : Prop where
  imemOp : imemOp a = true
  aligned : a.toNat % 4 = 0
  inRange : a.toNat < 4 * conf.iMemDepth

/-- A committed SW of `v` to `a`, by a thread that may write there. -/
structure LoadStoreIn.StoresWord (i : LoadStoreIn conf) (a v : BitVec 32) : Prop where
  addr : i.addr = a
  memType : i.memType = memSW
  dataIn : i.dataIn = v
  write : i.write = true

/-- An LW from `a`. -/
structure LoadStoreIn.LoadsWord (i : LoadStoreIn conf) (a : BitVec 32) : Prop where
  addr : i.addr = a
  memType : i.memType = memLW
  load : i.load = true

variable (conf) in
/-- The protection region of an address. -/
def imemRegion (addr : BitVec 32) : Fin 8 :=
  Fin.ofNat 8 (addrBits addr conf.iMemHighIndex conf.iMemLowIndex)

/-- The address of a word. -/
def wordAddr (w : BitVec conf.iMemAddrBits) : BitVec 32 := BitVec.ofNat 32 (4 * w.toNat)

/-- What a store of `v` to `a` in cycle `x` has to do. -/
structure StoreCoherent (m : ISpm conf) (x : IspmIn conf) (a v : BitVec 32) : Prop where
  /-- A later LW with no store in between. -/
  load : ∀ (inp : Nat → IspmIn conf) n, (∀ k, k < n → (inp k).data.writesIspm = false) →
    (inp n).data.LoadsWord a →
    (Machine.trace ISpm.cycle (m.cycle x) inp (n + 1)).doutRw = v
  /-- A later fetch with none up to its cycle. -/
  fetch : ∀ (inp : Nat → IspmIn conf) n, (∀ k, k ≤ n → (inp k).data.writesIspm = false) →
    (inp n).fetch = true → (inp n).pc = a →
    (Machine.trace ISpm.cycle (m.cycle x) inp (n + 1)).doutR = v
  others : ∀ w, w ≠ fetchAddr conf a → (m.cycle x).ispm w = m.ispm w
  region : ∀ w, (m.cycle x).ispm w ≠ m.ispm w →
    imemRegion conf (wordAddr w) = imemRegion conf a

/-- The two ports agree on `a`. -/
structure CoherentAt (conf : FlexpretConfiguration) (a : BitVec 32) : Prop where
  store : ∀ (m : ISpm conf) x v, x.data.StoresWord a v → StoreCoherent m x a v
  /-- LW returns the word that a fetch would deliver. -/
  load : ∀ (m : ISpm conf) (x y : IspmIn conf), x.data.LoadsWord a → y.fetch = true → y.pc = a →
    (m.cycle x).doutRw = (m.cycle y).doutR

/-! ## Section 3: The word index of the two ports -/

theorem iMemAddrBits_ge (h : 0 < conf.iMemKB) : 8 ≤ conf.iMemAddrBits := by
  have hdepth : 256 ≤ conf.iMemDepth := by
    show 256 ≤ 256 * conf.iMemKB
    omega
  have hclog : Nat.clog 2 256 ≤ Nat.clog 2 conf.iMemDepth := Nat.clog_mono_right 2 hdepth
  have h256 : Nat.clog 2 256 = 8 := by
    rw [show 256 = 2 ^ 8 from rfl, Nat.clog_pow 2 8 Nat.one_lt_two]
  have hmax : Nat.clog 2 conf.iMemDepth ≤ conf.iMemAddrBits := Nat.le_max_right _ _
  omega

theorem iMemDepth_le (conf : FlexpretConfiguration) : conf.iMemDepth ≤ 2 ^ conf.iMemAddrBits :=
  (Nat.le_pow_clog Nat.one_lt_two _).trans
    (Nat.pow_le_pow_right Nat.two_pos (Nat.le_max_right _ _))

theorem fetchAddr_toNat {a : BitVec 32} (h : IspmAddr conf a) :
    (fetchAddr conf a).toNat = a.toNat / 4 := by
  have hlt : a.toNat / 4 < 2 ^ conf.iMemAddrBits := by
    have hdepth := iMemDepth_le conf
    have hrange := h.inRange
    omega
  rw [fetchAddr, BitVec.toNat_setWidth, BitVec.toNat_ushiftRight, Nat.shiftRight_eq_div_pow]
  exact Nat.mod_eq_of_lt hlt

theorem rwAddr_toNat (a : BitVec 32) :
    (rwAddr conf a).toNat = a.toNat / 4 % 2 ^ (conf.iMemAddrBits - 2) := by
  rw [rwAddr, BitVec.toNat_setWidth, BitVec.toNat_setWidth, BitVec.toNat_ushiftRight,
    Nat.shiftRight_eq_div_pow]
  refine Nat.mod_eq_of_lt ?_
  exact Nat.lt_of_lt_of_le (Nat.mod_lt _ (Nat.two_pow_pos _))
    (Nat.pow_le_pow_right Nat.two_pos (Nat.sub_le _ _))

/-- The ports take the same word in the first quarter only. -/
theorem rwAddr_eq_iff (hsize : 0 < conf.iMemKB) {a : BitVec 32} (h : IspmAddr conf a) :
    rwAddr conf a = fetchAddr conf a ↔ a.toNat < 2 ^ conf.iMemAddrBits := by
  have hbits := iMemAddrBits_ge hsize
  have hpow : 2 ^ conf.iMemAddrBits = 4 * 2 ^ (conf.iMemAddrBits - 2) := by
    rw [show 4 = 2 ^ 2 from rfl, ← Nat.pow_add]
    congr 1
    omega
  rw [← BitVec.toNat_inj, rwAddr_toNat, fetchAddr_toNat h]
  constructor
  · intro heq
    have hlt : a.toNat / 4 < 2 ^ (conf.iMemAddrBits - 2) := by
      rw [← heq]
      exact Nat.mod_lt _ (Nat.two_pow_pos _)
    omega
  · intro hlt
    exact Nat.mod_eq_of_lt (by omega)

theorem wordAddr_fetchAddr {a : BitVec 32} (h : IspmAddr conf a) :
    wordAddr (fetchAddr conf a) = a := by
  have haligned := h.aligned
  rw [wordAddr, fetchAddr_toNat h, ← BitVec.toNat_inj, BitVec.toNat_ofNat]
  have hmul : 4 * (a.toNat / 4) = a.toNat := by omega
  rw [hmul]
  exact Nat.mod_eq_of_lt a.isLt

/-! ## Section 4: When the ports agree -/

/-- Cycles without a store keep the words. -/
theorem trace_ispm {m : ISpm conf} {inp : Nat → IspmIn conf} {n : Nat}
    (h : ∀ k, k < n → (inp k).data.writesIspm = false) :
    (Machine.trace ISpm.cycle m inp n).ispm = m.ispm := by
  induction n with
  | zero => rfl
  | succ n ih =>
    rw [Machine.trace_succ, cycle_ispm, h n (Nat.lt_succ_self n)]
    exact ih fun k hk => h k (Nat.lt_succ_of_lt hk)

theorem LoadStoreIn.StoresWord.writesIspm {i : LoadStoreIn conf} {a v : BitVec 32}
    (h : i.StoresWord a v) (ha : IspmAddr conf a) : i.writesIspm = true := by
  rw [LoadStoreIn.writesIspm, h.addr, ha.imemOp, LoadStoreIn.store_of_write h.write, h.write]
  rfl

/-- A store writes the word its port addresses. -/
theorem store_ispm {m : ISpm conf} {x : IspmIn conf} {a v : BitVec 32}
    (h : x.data.StoresWord a v) (ha : IspmAddr conf a) :
    (m.cycle x).ispm = Function.update m.ispm (rwAddr conf a) v := by
  rw [cycle_ispm, if_pos (h.writesIspm ha), h.addr, h.dataIn]

theorem coherentAt_of_rwAddr {a : BitVec 32} (ha : IspmAddr conf a)
    (haddr : rwAddr conf a = fetchAddr conf a) : CoherentAt conf a where
  store := by
    intro m x v hstore
    have hispm := store_ispm (m := m) hstore ha
    constructor
    case load =>
      intro inp n hquiet hload
      have hop : imemOp (inp n).data.addr = true := by
        rw [hload.addr]
        exact ha.imemOp
      rw [Machine.trace_succ, cycle_doutRw hop hload.load, trace_ispm hquiet, hispm, hload.addr,
        Function.update_self]
    case fetch =>
      intro inp n hquiet hfetch hpc
      rw [Machine.trace_succ, cycle_doutR, if_pos hfetch, hpc,
        trace_ispm fun k hk => hquiet k hk.le, hispm, haddr, Function.update_self]
    case others =>
      intro w hw
      rw [hispm, haddr, Function.update_of_ne hw]
    case region =>
      intro w hw
      have hwa : w = fetchAddr conf a := by
        by_contra hne
        rw [hispm, haddr, Function.update_of_ne hne] at hw
        exact hw rfl
      rw [hwa, wordAddr_fetchAddr ha]
  load := by
    intro m x y hload hfetch hpc
    have hop : imemOp x.data.addr = true := by
      rw [hload.addr]
      exact ha.imemOp
    rw [cycle_doutRw hop hload.load, cycle_doutR, if_pos hfetch, hload.addr, hpc, haddr]

variable (conf) in
/-- A cycle with an LW from `a`, and a fetch at `a`. -/
def readBoth (a : BitVec 32) : IspmIn conf where
  fetch := true
  pc := a
  data :=
    { addr := a
      thread := 0
      load := true
      store := false
      memType := memLW
      dataIn := 0
      imemProtection := fun _ => 0
      dmemProtection := fun _ => 0
      kill := false }

theorem rwAddr_of_coherentAt {a : BitVec 32} (ha : IspmAddr conf a) (h : CoherentAt conf a) :
    rwAddr conf a = fetchAddr conf a := by
  -- A scratchpad in which only the fetched word is not zero.
  let m : ISpm conf :=
    { ispm := fun w => if w = fetchAddr conf a then 1 else 0, doutR := 0, doutRw := 0 }
  have hsame := h.load m (readBoth conf a) (readBoth conf a) ⟨rfl, rfl, rfl⟩ rfl rfl
  rw [cycle_doutRw (x := readBoth conf a) ha.imemOp rfl, cycle_doutR,
    if_pos (show (readBoth conf a).fetch = true from rfl)] at hsame
  by_contra hne
  have hload : m.ispm (rwAddr conf a) = 0 := if_neg hne
  have hfetch : m.ispm (fetchAddr conf a) = 1 := if_pos rfl
  rw [show m.ispm (rwAddr conf (readBoth conf a).data.addr) = 0 from hload,
    show m.ispm (fetchAddr conf (readBoth conf a).pc) = 1 from hfetch] at hsame
  exact absurd hsame (by decide)

/-! ## Section 5: In the core -/

namespace CoreState

variable (D : DecodeLogic conf)

/-- What the core sends to the scratchpad. -/
def ispmIn (s : CoreState conf) : IspmIn conf where
  fetch := s.nextReg.valid
  pc := s.nextPc D
  data := s.loadStoreIn

/-- The scratchpad of the core runs on what the core sends. -/
theorem imem_trace (s₀ : CoreState conf) (inp : Nat → CoreIn conf) (c : Nat) :
    (Machine.trace (CoreState.next D) s₀ inp c).imem =
      Machine.trace ISpm.cycle s₀.imem
        (fun k => (Machine.trace (CoreState.next D) s₀ inp k).ispmIn D) c := by
  induction c with
  | zero => rfl
  | succ c ih =>
    rw [Machine.trace_succ, Machine.trace_succ, ← ih]
    rfl

/-- What a load from the scratchpad returns. -/
theorem loadDataOut_ispm {s : CoreState conf} (h : imemOp s.exeAddress = true) (i : CoreIn conf)
    (busDataOut : BitVec 32) : (s.next D i).loadDataOut busDataOut = (s.next D i).imem.doutRw := by
  have hdmem : dmemOp s.exeAddress = false := by
    have htop := of_decide_eq_true h
    exact decide_eq_false (by rw [htop]; decide)
  show (if dmemOp s.exeAddress then _ else if imemOp s.exeAddress then _ else _) = _
  rw [hdmem, h]
  rfl

end CoreState

/-- In every run of the core: what a store has written below
    `2 ^ iMemAddrBits` is loaded and fetched from there until the next store to
    the scratchpad. -/
theorem core_store_coherent (D : DecodeLogic conf) (hsize : 0 < conf.iMemKB) {a v : BitVec 32}
    (ha : IspmAddr conf a) (hlow : a.toNat < 2 ^ conf.iMemAddrBits) (s₀ : CoreState conf)
    (inp : Nat → CoreIn conf) (c n : Nat)
    (hstore : (Machine.trace (CoreState.next D) s₀ inp c).loadStoreIn.StoresWord a v)
    (hquiet : ∀ k, k ≤ n →
      (Machine.trace (CoreState.next D) s₀ inp (c + 1 + k)).loadStoreIn.writesIspm = false) :
    ((Machine.trace (CoreState.next D) s₀ inp (c + 1 + n)).loadStoreIn.LoadsWord a →
      ∀ busDataOut,
        (Machine.trace (CoreState.next D) s₀ inp (c + 1 + n + 1)).loadDataOut busDataOut = v) ∧
    ((Machine.trace (CoreState.next D) s₀ inp (c + 1 + n)).nextReg.valid = true →
      (Machine.trace (CoreState.next D) s₀ inp (c + 1 + n)).nextPc D = a →
        (Machine.trace (CoreState.next D) s₀ inp (c + 1 + n + 1)).ifInst = v) := by
  have hcoherent := coherentAt_of_rwAddr ha ((rwAddr_eq_iff hsize ha).mpr hlow)
  have hafter := hcoherent.store (Machine.trace (CoreState.next D) s₀ inp c).imem
    ((Machine.trace (CoreState.next D) s₀ inp c).ispmIn D) v hstore
  -- The scratchpad after the store, as a run of its own.
  have himem : (Machine.trace (CoreState.next D) s₀ inp (c + 1 + n + 1)).imem =
      Machine.trace ISpm.cycle
        ((Machine.trace (CoreState.next D) s₀ inp c).imem.cycle
          ((Machine.trace (CoreState.next D) s₀ inp c).ispmIn D))
        (fun k => (Machine.trace (CoreState.next D) s₀ inp (c + 1 + k)).ispmIn D) (n + 1) := by
    rw [CoreState.imem_trace, Nat.add_assoc (c + 1) n 1, Machine.trace_add,
      ← CoreState.imem_trace]
    rfl
  constructor
  · intro hload busDataOut
    have hop : imemOp (Machine.trace (CoreState.next D) s₀ inp (c + 1 + n)).exeAddress = true := by
      have haddr := hload.addr
      rw [← haddr] at ha
      exact ha.imemOp
    have hout : (Machine.trace (CoreState.next D) s₀ inp (c + 1 + n + 1)).loadDataOut busDataOut =
        (Machine.trace (CoreState.next D) s₀ inp (c + 1 + n + 1)).imem.doutRw :=
      CoreState.loadDataOut_ispm D hop _ busDataOut
    rw [hout, himem]
    exact hafter.load _ n (fun k hk => hquiet k hk.le) hload
  · intro hfetch hpc
    rw [CoreState.ifInst, himem]
    exact hafter.fetch _ n hquiet hfetch hpc

/-- **Coherence**: at a word-aligned address of the scratchpad, stores and
    loads agree with fetches if and only if the address is below
    `2 ^ iMemAddrBits`, a quarter of the bytes. -/
theorem ispm_coherent_iff (hsize : 0 < conf.iMemKB) {a : BitVec 32} (ha : IspmAddr conf a) :
    CoherentAt conf a ↔ a.toNat < 2 ^ conf.iMemAddrBits := by
  rw [← rwAddr_eq_iff hsize ha]
  exact ⟨rwAddr_of_coherentAt ha, coherentAt_of_rwAddr ha⟩

theorem ispm_coherent_0x100 : CoherentAt conf4tf 0x100 :=
  (ispm_coherent_iff (by decide) ⟨by decide, by decide, by decide⟩).mpr (by decide)

/-- SW of a word to `0x1000`, in region 2 that thread 0 may write. -/
def storeAt0x1000 : IspmIn conf4tf where
  fetch := false
  pc := 0
  data :=
    { addr := 0x1000
      thread := 0
      load := false
      store := true
      memType := memSW
      dataIn := 0x13
      imemProtection := fun r => if r = 2 then 0 else 9
      dmemProtection := fun _ => 0
      kill := false }

/-- The store changes word 0, in a region that is read-only. -/
theorem ispm_not_coherent_0x1000 :
    IspmAddr conf4tf 0x1000 ∧ storeAt0x1000.data.StoresWord 0x1000 0x13 ∧
      ¬ CoherentAt conf4tf 0x1000 := by
  have haddr : IspmAddr conf4tf 0x1000 := ⟨by decide, by decide, by decide⟩
  have hstore : storeAt0x1000.data.StoresWord 0x1000 0x13 := ⟨rfl, rfl, rfl, by decide⟩
  refine ⟨haddr, hstore, ?_⟩
  intro h
  let m : ISpm conf4tf := { ispm := fun _ => 0, doutR := 0, doutRw := 0 }
  have hregion := (h.store m storeAt0x1000 0x13 hstore).region 0
  have hispm : (m.cycle storeAt0x1000).ispm 0 = 0x13 := by
    rw [store_ispm hstore haddr]
    exact Function.update_self ..
  rw [hispm] at hregion
  exact absurd (hregion (by decide)) (by decide)

end Flexpret.Core
