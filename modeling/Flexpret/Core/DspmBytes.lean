import Flexpret.Core.Protection
import Flexpret.Lib.ByteMemory

/-! # The Data Scratchpad Is a Byte-Addressed Memory

    Stores are formatted on the way in, loads on the way out one stage later.
    Together they implement a little-endian memory of bytes, whatever loads and
    stores of whatever threads come in consecutive cycles.
-/

open ByteMemory

namespace Flexpret.Core

variable {conf : FlexpretConfiguration}

/-! ## Section 1: Formats -/

/-- The types of stores. -/
def IsStoreType (memType : BitVec 4) : Prop :=
  memType = memSB ∨ memType = memSH ∨ memType = memSW

/-- The types of loads. -/
def IsLoadType (memType : BitVec 4) : Prop :=
  memType = memLB ∨ memType = memLBU ∨ memType = memLH ∨ memType = memLHU ∨ memType = memLW

/-- The bytes that a load reads. -/
def loadSize (memType : BitVec 4) : Nat :=
  if memType = memLH ∨ memType = memLHU then 2 else if memType = memLW then 4 else 1

theorem storeSize_cases {memType : BitVec 4} (h : IsStoreType memType) :
    (memType = memSB ∧ storeSize memType = 1) ∨ (memType = memSH ∧ storeSize memType = 2) ∨
      (memType = memSW ∧ storeSize memType = 4) := by
  obtain rfl | rfl | rfl := h
  · exact .inl ⟨rfl, rfl⟩
  · exact .inr (.inl ⟨rfl, rfl⟩)
  · exact .inr (.inr ⟨rfl, rfl⟩)

/-- **The mask** has the bytes of the store. -/
theorem storeMask_getLsbD {memType : BitVec 4} (h : IsStoreType memType) {o : BitVec 2}
    (haligned : o.toNat % storeSize memType = 0) {k : Nat} (hk : k < 4) :
    (storeMask o memType).getLsbD k =
      decide (o.toNat ≤ k ∧ k < o.toNat + storeSize memType) := by
  obtain rfl | rfl | rfl := h
  all_goals
    revert o k
    decide

/-- **The format** puts the byte for each place of the mask there. -/
theorem byte_storeFormat {memType : BitVec 4} (h : IsStoreType memType) (v : BitVec 32)
    {o k : Nat} (haligned : o % storeSize memType = 0) (hlow : o ≤ k)
    (hhigh : k < o + storeSize memType) (hk : k < 4) :
    byte (storeFormat v memType) k = byte v (k - o) := by
  obtain ⟨rfl, hsize⟩ | ⟨rfl, hsize⟩ | ⟨rfl, hsize⟩ := storeSize_cases h
  · rw [hsize] at hhigh
    obtain rfl : k = o := by omega
    rw [Nat.sub_self]
    show byte ((v.setWidth 8).replicate 4) k = byte v 0
    apply BitVec.eq_of_getLsbD_eq
    intro i hi
    obtain rfl | rfl | rfl | rfl : k = 0 ∨ k = 1 ∨ k = 2 ∨ k = 3 := by omega
    all_goals
      simp only [byte, BitVec.getLsbD_extractLsb', BitVec.getLsbD_replicate,
        BitVec.getLsbD_setWidth]
      grind
  · rw [hsize] at hhigh haligned
    show byte ((v.setWidth 16).replicate 2) k = _
    obtain ⟨rfl, rfl⟩ | ⟨rfl, rfl⟩ | ⟨rfl, rfl⟩ | ⟨rfl, rfl⟩ :
        (o = 0 ∧ k = 0) ∨ (o = 0 ∧ k = 1) ∨ (o = 2 ∧ k = 2) ∨ (o = 2 ∧ k = 3) := by omega
    all_goals
      apply BitVec.eq_of_getLsbD_eq
      intro i hi
      simp only [byte, BitVec.getLsbD_extractLsb', BitVec.getLsbD_replicate,
        BitVec.getLsbD_setWidth]
      grind
  · rw [hsize] at hhigh haligned
    obtain rfl : o = 0 := by omega
    rfl

/-- The bytes of a merged word. -/
theorem byte_mergeBytes (mask : BitVec 4) (new current : BitVec 32) {k : Nat} (hk : k < 4) :
    byte (mergeBytes mask new current) k =
      if mask.getLsbD k then byte new k else byte current k :=
  byte_ofBytes (fun k => if mask.getLsbD k then byte new k else byte current k) hk

/-- What a load returns of the bytes of a memory: sign- or zero-extended. -/
def loadedValue (mem : Bytes) (a : BitVec 32) (memType : BitVec 4) : BitVec 32 :=
  if memType = memLB then (mem a).signExtend 32
  else if memType = memLBU then (mem a).setWidth 32
  else if memType = memLH then (mem (a + 1) ++ mem a).signExtend 32
  else if memType = memLHU then (mem (a + 1) ++ mem a).setWidth 32
  else mem (a + 3) ++ mem (a + 2) ++ mem (a + 1) ++ mem a

/-- **Formatting** a word of which the memory holds the bytes. -/
theorem loadFormat_eq {mem : Bytes} {a word : BitVec 32} {memType : BitVec 4}
    (htype : IsLoadType memType) (haligned : a.toNat % loadSize memType = 0)
    (hbytes : ∀ j, a.toNat % 4 + j < 4 →
      mem (a + BitVec.ofNat 32 j) = byte word (a.toNat % 4 + j)) :
    loadFormat word (a.setWidth 2) memType = loadedValue mem a memType := by
  have hoffset : (a.setWidth 2).toNat = a.toNat % 4 := BitVec.toNat_setWidth ..
  have hfirst : mem a = byte word (a.toNat % 4) := by
    have hzero := hbytes 0 (Nat.mod_lt _ (by decide))
    rw [BitVec.add_zero] at hzero
    exact hzero
  obtain rfl | rfl | rfl | rfl | rfl := htype
  · show ((word >>> (8 * (a.setWidth 2).toNat)).setWidth 8).signExtend 32 = (mem a).signExtend 32
    rw [hoffset, low_eq, hfirst]
  · show ((word >>> (8 * (a.setWidth 2).toNat)).setWidth 8).setWidth 32 = (mem a).setWidth 32
    rw [hoffset, low_eq, hfirst]
  · have heven : a.toNat % 2 = 0 := haligned
    show ((word >>> (8 * (a.setWidth 2).toNat)).setWidth 16).signExtend 32 =
      (mem (a + 1) ++ mem a).signExtend 32
    rw [hoffset, half_eq, hfirst, ← hbytes 1 (by omega)]
    rfl
  · have heven : a.toNat % 2 = 0 := haligned
    show ((word >>> (8 * (a.setWidth 2).toNat)).setWidth 16).setWidth 32 =
      (mem (a + 1) ++ mem a).setWidth 32
    rw [hoffset, half_eq, hfirst, ← hbytes 1 (by omega)]
    rfl
  · have hzero : a.toNat % 4 = 0 := haligned
    show word >>> (8 * (a.setWidth 2).toNat) =
      mem (a + 3) ++ mem (a + 2) ++ mem (a + 1) ++ mem a
    have hword : mem (a + 3) ++ mem (a + 2) ++ mem (a + 1) ++ mem a = ofBytes (byte word) := by
      rw [hzero] at hfirst hbytes
      have h1 : mem (a + 1) = byte word (0 + 1) := hbytes 1 (by decide)
      have h2 : mem (a + 2) = byte word (0 + 2) := hbytes 2 (by decide)
      have h3 : mem (a + 3) = byte word (0 + 3) := hbytes 3 (by decide)
      rw [hfirst, h1, h2, h3]
      rfl
    rw [hword, ofBytes_byte, hoffset, hzero]
    rfl

/-! ## Section 2: Addresses -/

variable (conf) in
/-- The address lies in the data scratchpad. -/
def InDspm (a : BitVec 32) : Prop :=
  dmemOp a = true ∧ a.toNat % 2 ^ 29 < 4 * conf.dMemDepth

instance (a : BitVec 32) : Decidable (InDspm conf a) := inferInstanceAs (Decidable (_ ∧ _))

variable (conf) in
/-- The word of an address. -/
def dspmIndex (a : BitVec 32) : BitVec (conf.dMemAddrBits - 2) :=
  (a >>> 2).setWidth (conf.dMemAddrBits - 2)

/-- The bytes of the scratchpad by their address. -/
def DSpm.bytes (m : DSpm conf) : Bytes := fun a =>
  byte (m.dspm (dspmIndex conf a)) (a.toNat % 4)

section addresses

variable {a k : BitVec 32}

theorem toNat_of_dmemOp (h : dmemOp a = true) : a.toNat = 2 ^ 29 + a.toNat % 2 ^ 29 := by
  have htop : a.toNat / 2 ^ 29 % 2 ^ 3 = 1 := of_decide_eq_true h
  have hlt := a.isLt
  omega

theorem dMemDepth_le : 4 * conf.dMemDepth ≤ 2 ^ conf.dMemAddrBits :=
  (Nat.le_pow_clog Nat.one_lt_two _).trans
    (Nat.pow_le_pow_right Nat.two_pos (Nat.le_max_right _ _))

theorem dspmIndex_toNat (a : BitVec 32) :
    (dspmIndex conf a).toNat = a.toNat / 4 % 2 ^ (conf.dMemAddrBits - 2) := by
  rw [dspmIndex, BitVec.toNat_setWidth, BitVec.toNat_ushiftRight, Nat.shiftRight_eq_div_pow]

/-- The index depends on the address of the word. -/
theorem dspmIndex_congr (h : a.toNat / 4 = k.toNat / 4) : dspmIndex conf a = dspmIndex conf k := by
  apply BitVec.eq_of_toNat_eq
  rw [dspmIndex_toNat, dspmIndex_toNat, h]

/-- **No aliases** among the addresses below the size. -/
theorem dspmIndex_inj (ha : dmemOp a = true) (hk : dmemOp k = true)
    (harange : a.toNat % 2 ^ 29 < 2 ^ conf.dMemAddrBits)
    (hkrange : k.toNat % 2 ^ 29 < 2 ^ conf.dMemAddrBits)
    (h : dspmIndex conf a = dspmIndex conf k) : a.toNat / 4 = k.toNat / 4 := by
  have hindex := congrArg BitVec.toNat h
  rw [dspmIndex_toNat, dspmIndex_toNat] at hindex
  have hquarter : ∀ q, q < 2 ^ conf.dMemAddrBits → q / 4 < 2 ^ (conf.dMemAddrBits - 2) := by
    intro q hq
    by_cases hbits : 2 ≤ conf.dMemAddrBits
    · have hpow : 2 ^ conf.dMemAddrBits = 4 * 2 ^ (conf.dMemAddrBits - 2) := by
        rw [show 4 = 2 ^ 2 from rfl, ← Nat.pow_add, Nat.add_sub_cancel' hbits]
      omega
    · have hpow : 2 ^ conf.dMemAddrBits ≤ 2 ^ 1 := Nat.pow_le_pow_right Nat.two_pos (by omega)
      have hone := Nat.two_pow_pos (conf.dMemAddrBits - 2)
      omega
  have ha' := toNat_of_dmemOp ha
  have hk' := toNat_of_dmemOp hk
  have hadiv : a.toNat / 4 = 2 ^ 27 + a.toNat % 2 ^ 29 / 4 := by omega
  have hkdiv : k.toNat / 4 = 2 ^ 27 + k.toNat % 2 ^ 29 / 4 := by omega
  rw [hadiv, hkdiv] at hindex
  have hcancel : a.toNat % 2 ^ 29 / 4 ≡ k.toNat % 2 ^ 29 / 4 [MOD 2 ^ (conf.dMemAddrBits - 2)] :=
    Nat.ModEq.add_left_cancel' _ hindex
  have heq := Nat.ModEq.eq_of_lt_of_lt hcancel (hquarter _ harange) (hquarter _ hkrange)
  omega

/-- The bytes of one word. -/
theorem bytes_add (m : DSpm conf) {j : Nat} (h : a.toNat % 4 + j < 4) :
    m.bytes (a + BitVec.ofNat 32 j) = byte (m.dspm (dspmIndex conf a)) (a.toNat % 4 + j) := by
  have hlt := a.isLt
  have hsum : (a + BitVec.ofNat 32 j).toNat = a.toNat + j := by
    rw [BitVec.toNat_add, BitVec.toNat_ofNat]
    omega
  have hindex : dspmIndex conf (a + BitVec.ofNat 32 j) = dspmIndex conf a :=
    dspmIndex_congr (by omega)
  rw [DSpm.bytes, hindex, hsum]
  congr 1
  omega

end addresses

/-! ## Section 3: Stores -/

section stores

variable {i : LoadStoreIn conf} {k : BitVec 32}

/-- The byte that a cycle leaves. -/
theorem bytes_next (m : DSpm conf) (i : LoadStoreIn conf) (k : BitVec 32) :
    (m.next i).bytes k =
      if (dmemOp i.addr && (i.load || i.store)) = true ∧ dspmIndex conf k = dspmIndex conf i.addr ∧
          i.write = true ∧ (storeMask (i.addr.setWidth 2) i.memType).getLsbD (k.toNat % 4) = true
      then byte (storeFormat i.dataIn i.memType) (k.toNat % 4)
      else m.bytes k := by
  have hmod : k.toNat % 4 < 4 := Nat.mod_lt _ (by decide)
  show byte ((if (dmemOp i.addr && (i.load || i.store)) = true then
    Function.update m.dspm (dspmIndex conf i.addr) (mergeBytes
      (if i.write = true then storeMask (i.addr.setWidth 2) i.memType else 0)
      (storeFormat i.dataIn i.memType) (m.dspm (dspmIndex conf i.addr))) else m.dspm)
    (dspmIndex conf k)) (k.toNat % 4) = _
  by_cases henable : (dmemOp i.addr && (i.load || i.store)) = true
  · by_cases hindex : dspmIndex conf k = dspmIndex conf i.addr
    · rw [if_pos henable, hindex, Function.update_self, byte_mergeBytes _ _ _ hmod]
      by_cases hwrite : i.write = true
      · simp only [henable, hwrite, if_true, true_and, DSpm.bytes, hindex]
      · simp [henable, hwrite, DSpm.bytes, hindex]
    · rw [if_pos henable, Function.update_of_ne hindex, if_neg (fun h => hindex h.2.1)]
      rfl
  · rw [if_neg henable, if_neg (fun h => henable h.1)]
    rfl

/-- A cycle that writes nothing changes no byte. -/
theorem bytes_next_of_not_write (m : DSpm conf)
    (h : dmemOp i.addr = false ∨ i.write = false) (k : BitVec 32) :
    (m.next i).bytes k = m.bytes k := by
  rw [bytes_next]
  refine if_neg fun hcase => ?_
  obtain hop | hwrite := h
  · rw [hop, Bool.false_and] at hcase
    exact Bool.false_ne_true hcase.1
  · exact Bool.false_ne_true (hwrite.symm.trans hcase.2.2.1)

/-- The part of an address in its word. -/
theorem offset_mod {memType : BitVec 4} (h : IsStoreType memType) (a : BitVec 32) :
    a.toNat % 4 % storeSize memType = a.toNat % storeSize memType := by
  obtain ⟨-, hsize⟩ | ⟨-, hsize⟩ | ⟨-, hsize⟩ := storeSize_cases h
  all_goals
    rw [hsize]
    omega

/-- **A store that is written** changes the addressed bytes. -/
theorem bytes_next_of_write (m : DSpm conf) (htype : IsStoreType i.memType)
    (hop : dmemOp i.addr = true) (hstore : i.store = true) (hwrite : i.write = true)
    (haligned : i.addr.toNat % storeSize i.memType = 0)
    (hrange : i.addr.toNat % 2 ^ 29 < 2 ^ conf.dMemAddrBits) (hk : InDspm conf k) :
    (m.next i).bytes k = store m.bytes i.addr (storeSize i.memType) i.dataIn k := by
  have henable : (dmemOp i.addr && (i.load || i.store)) = true := by
    rw [hop, hstore, Bool.or_true, Bool.and_self]
  have hmod : k.toNat % 4 < 4 := Nat.mod_lt _ (by decide)
  have hoffset : (i.addr.setWidth 2).toNat = i.addr.toNat % 4 := BitVec.toNat_setWidth ..
  have haligned' : (i.addr.setWidth 2).toNat % storeSize i.memType = 0 := by
    rw [hoffset, offset_mod htype, haligned]
  have hsame : dspmIndex conf k = dspmIndex conf i.addr ↔ k.toNat / 4 = i.addr.toNat / 4 :=
    ⟨dspmIndex_inj hk.1 hop (hk.2.trans_le dMemDepth_le) hrange, dspmIndex_congr⟩
  have hmask : (storeMask (i.addr.setWidth 2) i.memType).getLsbD (k.toNat % 4) = true ↔
      i.addr.toNat % 4 ≤ k.toNat % 4 ∧
        k.toNat % 4 < i.addr.toNat % 4 + storeSize i.memType := by
    rw [storeMask_getLsbD htype haligned' hmod, hoffset, decide_eq_true_eq]
  rw [bytes_next, store]
  have hblock : i.addr.toNat % 4 + storeSize i.memType ≤ 4 := by
    rw [hoffset] at haligned'
    obtain ⟨-, hsize⟩ | ⟨-, hsize⟩ | ⟨-, hsize⟩ := storeSize_cases htype
    all_goals
      rw [hsize] at haligned' ⊢
      omega
  by_cases hin : i.addr.toNat ≤ k.toNat ∧ k.toNat < i.addr.toNat + storeSize i.memType
  · have hword : k.toNat / 4 = i.addr.toNat / 4 := by omega
    rw [if_pos hin, if_pos ⟨henable, hsame.mpr hword, hwrite, hmask.mpr (by omega)⟩,
      byte_storeFormat htype _ (hoffset ▸ haligned') (by omega) (by omega) hmod]
    congr 1
    omega
  · rw [if_neg hin]
    refine if_neg fun ⟨_, hindex, _, hbyte⟩ => hin ?_
    have hword := hsame.mp hindex
    have hplace := hmask.mp hbyte
    omega

/-- A store behind the last word changes no byte. -/
theorem bytes_next_of_behind (m : DSpm conf) (hop : dmemOp i.addr = true)
    (hrange : i.addr.toNat % 2 ^ 29 < 2 ^ conf.dMemAddrBits)
    (hbehind : 4 * conf.dMemDepth ≤ i.addr.toNat % 2 ^ 29) (hk : InDspm conf k) :
    (m.next i).bytes k = m.bytes k := by
  rw [bytes_next]
  refine if_neg fun hcase => ?_
  have hword := dspmIndex_inj hk.1 hop (hk.2.trans_le dMemDepth_le) hrange hcase.2.1
  have ha := toNat_of_dmemOp hop
  have hk' := toNat_of_dmemOp hk.1
  have hlast := hk.2
  omega

end stores

/-! ## Section 4: One cycle -/

namespace LoadStoreIn

variable (i : LoadStoreIn conf)

/-- A store to the data scratchpad that is in range, aligned for its width,
    permitted and not killed. -/
structure CommitsData : Prop where
  store : i.store = true
  inDspm : InDspm conf i.addr
  aligned : i.addr.toNat % storeSize i.memType = 0
  permitted : i.permission = true
  alive : i.kill = false

instance : Decidable i.CommitsData :=
  decidable_of_iff
    (i.store = true ∧ InDspm conf i.addr ∧ i.addr.toNat % storeSize i.memType = 0 ∧
      i.permission = true ∧ i.kill = false)
    ⟨fun ⟨h₁, h₂, h₃, h₄, h₅⟩ => ⟨h₁, h₂, h₃, h₄, h₅⟩,
      fun ⟨h₁, h₂, h₃, h₄, h₅⟩ => ⟨h₁, h₂, h₃, h₄, h₅⟩⟩

/-- What a store does to the bytes. -/
def commitStore (mem : Bytes) : Bytes :=
  if i.CommitsData then ByteMemory.store mem i.addr (storeSize i.memType) i.dataIn else mem

/-- A permitted store to the data scratchpad that is not killed. -/
structure ReachesData : Prop where
  store : i.store = true
  dmem : dmemOp i.addr = true
  permitted : i.permission = true
  alive : i.kill = false

/-- **A refused request** writes nothing to the scratchpad: it is not a store there, it is
    killed or not permitted, or the core has the exception for what is wrong with it. -/
inductive Refused : Prop
  | noStore (h : i.store = false)
  | elsewhere (h : dmemOp i.addr = false)
  | killed (h : i.kill = true)
  | notPermitted (h : i.permission = false)
  | misaligned (hcause : conf.causes.contains Causes.misalignedStore = true)
      (h : i.addr.toNat % storeSize i.memType ≠ 0)
  | outOfRange (hcause : conf.causes.contains Causes.faultStore = true)
      (h : ¬ InDspm conf i.addr)

/-- Such a store is aligned, or the core has the exception for those that are not;
    and it is in range, or the core has the fault. -/
structure Checked : Prop where
  misaligned : i.ReachesData → i.addr.toNat % storeSize i.memType = 0 ∨
    conf.causes.contains Causes.misalignedStore = true
  outOfRange : i.ReachesData → InDspm conf i.addr ∨
    conf.causes.contains Causes.faultStore = true

variable {i}

theorem CommitsData.range (h : i.CommitsData) :
    i.addr.toNat % 2 ^ 29 < 2 ^ conf.dMemAddrBits := h.inDspm.2.trans_le dMemDepth_le

/-- A store that commits is written. -/
theorem CommitsData.write (h : i.CommitsData) : i.write = true := by
  have hmis : i.storeMisaligned = false := by
    cases hcause : conf.causes.contains Causes.misalignedStore with
    | false => rw [storeMisaligned, hcause, Bool.false_and, Bool.false_and]
    | true =>
      rw [storeMisaligned_eq hcause h.store, LoadStoreIn.aligned, h.aligned]
      rfl
  have hfault : i.storeFault = false := by
    have hbad : i.badAddress = false := by
      rw [badAddress_eq h.inDspm.1, inRange, decide_eq_true h.range, Bool.not_true]
    rw [storeFault, hbad, h.permitted, Bool.not_true, Bool.or_false, Bool.and_false]
  rw [LoadStoreIn.write, h.store, h.permitted, hmis, hfault, h.alive]
  rfl

/-- Where both checks are made, what does not commit is refused. -/
theorem refused_of_checked (hnot : ¬ i.CommitsData) (hchecked : i.Checked) : i.Refused := by
  by_contra hno
  have hreaches : i.ReachesData := by
    constructor
    case store =>
      rw [← Bool.not_eq_false]
      exact fun h => hno (.noStore h)
    case dmem =>
      rw [← Bool.not_eq_false]
      exact fun h => hno (.elsewhere h)
    case permitted =>
      rw [← Bool.not_eq_false]
      exact fun h => hno (.notPermitted h)
    case alive => exact Bool.eq_false_iff.mpr fun h => hno (.killed h)
  -- what is wrong with its address would be one of the two exceptions
  have haligned : i.addr.toNat % storeSize i.memType = 0 := by
    obtain haligned | hcause := hchecked.misaligned hreaches
    · exact haligned
    · exact not_not.mp fun h => hno (.misaligned hcause h)
  have hin : InDspm conf i.addr := by
    obtain hin | hcause := hchecked.outOfRange hreaches
    · exact hin
    · exact not_not.mp fun h => hno (.outOfRange hcause h)
  exact hnot ⟨hreaches.store, hin, haligned, hreaches.permitted, hreaches.alive⟩

/-- A misaligned store is not written where there is an exception for it. -/
theorem not_write_of_misaligned (hcause : conf.causes.contains Causes.misalignedStore = true)
    (h : i.addr.toNat % storeSize i.memType ≠ 0) : i.write = false := by
  rw [Bool.eq_false_iff]
  intro hwrite
  simp only [LoadStoreIn.write, Bool.and_eq_true, Bool.not_eq_true'] at hwrite
  obtain ⟨⟨⟨⟨hstore, -⟩, hmis⟩, -⟩, -⟩ := hwrite
  rw [storeMisaligned_eq hcause hstore, aligned, Bool.not_eq_false'] at hmis
  exact h (of_decide_eq_true hmis)

/-- A store beyond the decoded range is not written where there is a fault for it. -/
theorem not_write_of_beyond (hcause : conf.causes.contains Causes.faultStore = true)
    (hop : dmemOp i.addr = true) (h : ¬ i.addr.toNat % 2 ^ 29 < 2 ^ conf.dMemAddrBits) :
    i.write = false := by
  rw [Bool.eq_false_iff]
  intro hwrite
  simp only [LoadStoreIn.write, Bool.and_eq_true, Bool.not_eq_true'] at hwrite
  obtain ⟨⟨⟨⟨hstore, -⟩, -⟩, hfault⟩, -⟩ := hwrite
  have hbad : i.badAddress = true := by
    rw [badAddress_eq hop, inRange, decide_eq_false h, Bool.not_false]
  rw [storeFault, hcause, hstore, hbad] at hfault
  exact Bool.noConfusion hfault

end LoadStoreIn

section cycle

variable {i : LoadStoreIn conf} {k : BitVec 32}

/-- **A store that commits** changes exactly the bytes it addresses. -/
theorem bytes_next_of_commits (m : DSpm conf) (htype : IsStoreType i.memType)
    (h : i.CommitsData) (hk : InDspm conf k) :
    (m.next i).bytes k = store m.bytes i.addr (storeSize i.memType) i.dataIn k :=
  bytes_next_of_write m htype h.inDspm.1 h.store h.write h.aligned h.range hk

/-- **A refused request** changes no byte. -/
theorem bytes_next_of_refused (m : DSpm conf) (h : i.Refused) (hk : InDspm conf k) :
    (m.next i).bytes k = m.bytes k := by
  cases h with
  | noStore h => exact bytes_next_of_not_write m (.inr (by simp [LoadStoreIn.write, h])) k
  | elsewhere h => exact bytes_next_of_not_write m (.inl h) k
  | killed h => exact bytes_next_of_not_write m (.inr (by simp [LoadStoreIn.write, h])) k
  | notPermitted h => exact bytes_next_of_not_write m (.inr (by simp [LoadStoreIn.write, h])) k
  | misaligned hcause h =>
    exact bytes_next_of_not_write m (.inr (LoadStoreIn.not_write_of_misaligned hcause h)) k
  | outOfRange hcause h =>
    cases hop : dmemOp i.addr with
    | false => exact bytes_next_of_not_write m (.inl hop) k
    | true =>
      by_cases hrange : i.addr.toNat % 2 ^ 29 < 2 ^ conf.dMemAddrBits
      · -- the index of such an address is that of no byte in the scratchpad
        exact bytes_next_of_behind m hop hrange (Nat.not_lt.mp fun hlt => h ⟨hop, hlt⟩) hk
      · exact bytes_next_of_not_write m
          (.inr (LoadStoreIn.not_write_of_beyond hcause hop hrange)) k

/-- **The step** of the bytes. -/
theorem bytes_next_eq (m : DSpm conf) (htype : i.store = true → IsStoreType i.memType)
    (hchecked : i.Checked) (hk : InDspm conf k) :
    (m.next i).bytes k = i.commitStore m.bytes k := by
  unfold LoadStoreIn.commitStore
  split
  · next h => exact bytes_next_of_commits m (htype h.store) h hk
  · next h => exact bytes_next_of_refused m (LoadStoreIn.refused_of_checked h hchecked) hk

/-- **The step** of a load: the word it reads, formatted one stage later. -/
theorem dout_next_eq (m : DSpm conf) (hload : i.load = true) (htype : IsLoadType i.memType)
    (hop : dmemOp i.addr = true) (haligned : i.addr.toNat % loadSize i.memType = 0) :
    loadFormat (m.next i).dout (i.addr.setWidth 2) i.memType =
      loadedValue m.bytes i.addr i.memType := by
  have hdout : (m.next i).dout = m.dspm (dspmIndex conf i.addr) := by
    show (if (dmemOp i.addr && (i.load || i.store)) = true then _ else m.dout) = _
    rw [hop, hload, Bool.true_or, Bool.and_self, if_pos rfl]
    rfl
  rw [hdout]
  exact loadFormat_eq htype haligned fun j hj => bytes_add m hj

end cycle

/-! ## Section 5: Runs -/

variable (conf) in
/-- The scratchpad with the registers that the unit keeps for the memory stage. -/
structure LoadStoreUnit where
  dmem : DSpm conf
  addrByteReg : BitVec 2
  memTypeReg : BitVec 4
  dmemOpReg : Bool
  imemOpReg : Bool

namespace LoadStoreUnit

/-- One cycle. -/
def next (u : LoadStoreUnit conf) (i : LoadStoreIn conf) : LoadStoreUnit conf where
  dmem := u.dmem.next i
  addrByteReg := i.addr.setWidth 2
  memTypeReg := i.memType
  dmemOpReg := dmemOp i.addr
  imemOpReg := imemOp i.addr

/-- `io.data_out`. -/
def dataOut (u : LoadStoreUnit conf) (imemDataOut busDataOut : BitVec 32) : BitVec 32 :=
  if u.dmemOpReg then loadFormat u.dmem.dout u.addrByteReg u.memTypeReg
  else if u.imemOpReg then imemDataOut
  else busDataOut

end LoadStoreUnit

variable (conf) in
/-- Requests of any threads, one in each cycle.  A store has the type of a
    store. -/
structure DspmRun where
  unit : Nat → LoadStoreUnit conf
  request : Nat → LoadStoreIn conf
  next : ∀ c, unit (c + 1) = (unit c).next (request c)
  storeType : ∀ c, (request c).store = true → IsStoreType (request c).memType

/-- The bytes after the stores of the first `c` cycles. -/
def storesOf (mem : Bytes) (request : Nat → LoadStoreIn conf) : Nat → Bytes
  | 0 => mem
  | c + 1 => (request c).commitStore (storesOf mem request c)

/-- The bytes that a load reads lie in the scratchpad when the first does. -/
theorem inDspm_add {a : BitVec 32} (h : InDspm conf a) {j : Nat} (hj : a.toNat % 4 + j < 4) :
    InDspm conf (a + BitVec.ofNat 32 j) := by
  have ha := toNat_of_dmemOp h.1
  have hlt := a.isLt
  have hdepth := h.2
  have hsum : (a + BitVec.ofNat 32 j).toNat = a.toNat + j := by
    rw [BitVec.toNat_add, BitVec.toNat_ofNat]
    omega
  refine ⟨decide_eq_true ?_, ?_⟩
  · show (a + BitVec.ofNat 32 j).toNat / 2 ^ 29 % 2 ^ 3 = 1
    rw [hsum]
    omega
  · rw [hsum]
    omega

/-- A load depends only on the bytes of the scratchpad. -/
theorem loadedValue_congr {mem mem' : Bytes} {a : BitVec 32} {memType : BitVec 4}
    (h : ∀ k, InDspm conf k → mem k = mem' k) (ha : InDspm conf a) (htype : IsLoadType memType)
    (haligned : a.toNat % loadSize memType = 0) :
    loadedValue mem a memType = loadedValue mem' a memType := by
  have hfirst := h a ha
  obtain rfl | rfl | rfl | rfl | rfl := htype
  · exact congrArg (BitVec.signExtend 32) hfirst
  · exact congrArg (BitVec.setWidth 32) hfirst
  · have heven : a.toNat % 2 = 0 := haligned
    have hsecond : mem (a + 1) = mem' (a + 1) := h _ (inDspm_add ha (j := 1) (by omega))
    show (mem (a + 1) ++ mem a).signExtend 32 = (mem' (a + 1) ++ mem' a).signExtend 32
    rw [hfirst, hsecond]
  · have heven : a.toNat % 2 = 0 := haligned
    have hsecond : mem (a + 1) = mem' (a + 1) := h _ (inDspm_add ha (j := 1) (by omega))
    show (mem (a + 1) ++ mem a).setWidth 32 = (mem' (a + 1) ++ mem' a).setWidth 32
    rw [hfirst, hsecond]
  · have hzero : a.toNat % 4 = 0 := haligned
    have h1 : mem (a + 1) = mem' (a + 1) := h _ (inDspm_add ha (j := 1) (by omega))
    have h2 : mem (a + 2) = mem' (a + 2) := h _ (inDspm_add ha (j := 2) (by omega))
    have h3 : mem (a + 3) = mem' (a + 3) := h _ (inDspm_add ha (j := 3) (by omega))
    show mem (a + 3) ++ mem (a + 2) ++ mem (a + 1) ++ mem a =
      mem' (a + 3) ++ mem' (a + 2) ++ mem' (a + 1) ++ mem' a
    rw [hfirst, h1, h2, h3]

namespace DspmRun

variable (r : DspmRun conf)

/-- The bytes before cycle `c`. -/
def bytes (c : Nat) : Bytes := (r.unit c).dmem.bytes

/-- The stores of the first `c` cycles are checked. -/
def CheckedBefore (c : Nat) : Prop :=
  ∀ c', c' < c → (r.request c').Checked

variable {r} {c : Nat} {k : BitVec 32}

/-- **Refinement**: the scratchpad holds what the stores so far have left. -/
theorem bytes_eq (hchecked : r.CheckedBefore c) (hk : InDspm conf k) :
    r.bytes c k = storesOf (r.bytes 0) r.request c k := by
  induction c generalizing k with
  | zero => rfl
  | succ c ih =>
    have hbefore : r.CheckedBefore c := fun c' hc' => hchecked c' (Nat.lt_succ_of_lt hc')
    have hstep : r.bytes (c + 1) k = (r.request c).commitStore (r.bytes c) k := by
      rw [bytes, r.next c]
      exact bytes_next_eq _ (r.storeType c) (hchecked c (Nat.lt_succ_self c)) hk
    rw [hstep, storesOf, LoadStoreIn.commitStore, LoadStoreIn.commitStore]
    split
    · exact store_congr (fun k hk => ih hbefore hk) _ _ _ hk
    · exact ih hbefore hk

/-- **A load** returns the bytes that the cycles before it have left. -/
theorem load_eq (hload : (r.request c).load = true) (htype : IsLoadType (r.request c).memType)
    (hop : dmemOp (r.request c).addr = true)
    (haligned : (r.request c).addr.toNat % loadSize (r.request c).memType = 0)
    (imemDataOut busDataOut : BitVec 32) :
    (r.unit (c + 1)).dataOut imemDataOut busDataOut =
      loadedValue (r.bytes c) (r.request c).addr (r.request c).memType := by
  have hout : (r.unit (c + 1)).dataOut imemDataOut busDataOut =
      loadFormat ((r.unit c).dmem.next (r.request c)).dout ((r.request c).addr.setWidth 2)
        (r.request c).memType := by
    rw [r.next c]
    exact if_pos hop
  rw [hout, dout_next_eq _ hload htype hop haligned]
  rfl

/-- **A memory of bytes**: a store that commits changes exactly the bytes it
    addresses, to the low bytes of its value; a request that is refused, for whatever
    reason, changes none; a load returns the extended bytes as the cycles before it
    have left them; and where all stores are checked these bytes are those that the
    committed stores have left. -/
theorem dspm_byteAddressed (r : DspmRun conf) (c : Nat) :
    ((r.request c).CommitsData → ∀ k, InDspm conf k →
      r.bytes (c + 1) k = store (r.bytes c) (r.request c).addr
        (storeSize (r.request c).memType) (r.request c).dataIn k) ∧
    ((r.request c).Refused → ∀ k, InDspm conf k → r.bytes (c + 1) k = r.bytes c k) ∧
    ((r.request c).load = true → IsLoadType (r.request c).memType →
      InDspm conf (r.request c).addr →
      (r.request c).addr.toNat % loadSize (r.request c).memType = 0 →
      ∀ imemDataOut busDataOut, (r.unit (c + 1)).dataOut imemDataOut busDataOut =
        loadedValue (r.bytes c) (r.request c).addr (r.request c).memType) ∧
    (r.CheckedBefore c → ∀ k, InDspm conf k →
      r.bytes c k = storesOf (r.bytes 0) r.request c k) := by
  refine ⟨?_, ?_, ?_, ?_⟩
  · intro hcommits k hk
    rw [bytes, r.next c]
    exact bytes_next_of_commits _ (r.storeType c hcommits.store) hcommits hk
  · intro hrefused k hk
    rw [bytes, r.next c]
    exact bytes_next_of_refused _ hrefused hk
  · exact fun hload htype hin haligned => load_eq hload htype hin.1 haligned
  · exact fun hchecked k hk => bytes_eq hchecked hk

end DspmRun

/-! ## Section 6: The core -/

section core

variable {D : DecodeLogic conf} {s : CoreState conf} {st : Nat → CoreState conf}
  {inp : Nat → CoreIn conf}

/-- A row that stores has the type of a store. -/
theorem Instr.row_storeType (k : Instr) (h : (k.row conf).store = true) :
    ∃ memType, (k.row conf).memType = some memType ∧ IsStoreType memType := by
  revert h
  cases k <;> simp only [row, mulRow]
  case sb => exact fun _ => ⟨memSB, rfl, .inl rfl⟩
  case sh => exact fun _ => ⟨memSH, rfl, .inr (.inl rfl)⟩
  case sw => exact fun _ => ⟨memSW, rfl, .inr (.inr rfl)⟩
  -- the rows that depend on the configuration
  case mul | mulh | mulhsu | mulhu | sret | du | wu | ie =>
    split <;> simp [defaultRow]
  all_goals simp [branchRow, loadRow, aluImmRow, aluRegRow, csrRegRow, csrImmRow]

theorem DecodeLogic.storeType (D : DecodeLogic conf) {inst : BitVec 32}
    (h : (D.decode inst).store = true) : IsStoreType (D.decode inst).memType := by
  have hrow : (decodeRow conf inst).store = true :=
    (congrArg Flags.store (D.flags inst)).symm.trans h
  obtain ⟨memType, hsome, htype⟩ :=
    decodeRow_cases (P := fun row => row.store = true →
      ∃ memType, row.memType = some memType ∧ IsStoreType memType) nofun Instr.row_storeType inst
      hrow
  rw [(D.agrees inst).memType memType hsome]
  exact htype

/-- The unit in the core. -/
def CoreState.loadStoreUnit (s : CoreState conf) : LoadStoreUnit conf where
  dmem := s.dmem
  addrByteReg := s.memReg.addrByte
  memTypeReg := s.memReg.memType
  dmemOpReg := s.memReg.dmemOp
  imemOpReg := s.memReg.imemOp

/-- The memory stage of the core reads the unit. -/
theorem CoreState.loadDataOut_eq (busDataOut : BitVec 32) :
    s.loadDataOut busDataOut = s.loadStoreUnit.dataOut s.imem.doutRw busDataOut := rfl

/-- **Refinement**: the core makes one request in each cycle. -/
def CoreRun.dspmRun (h : CoreRun D st inp) : DspmRun conf where
  unit := fun c => (st c).loadStoreUnit
  request := fun c => (st c).loadStoreIn
  next := fun c => by
    rw [h.next c]
    rfl
  storeType := fun c hstore => by
    have hboth : ((st c).exeReg.sig.store && (st c).exeReg.valid) = true := hstore
    rw [Bool.and_eq_true] at hboth
    have hsig := (h.exeDecoded c).sig hboth.2
    have hstores : (D.decode (st c).exeReg.inst).store = true := by
      rw [← hsig]
      exact hboth.1
    show IsStoreType (st c).exeReg.sig.memType
    rw [hsig]
    exact D.storeType hstores

end core

/-! ## Section 7: Stores that are not checked -/

/-- A core without exceptions. -/
def confMin : FlexpretConfiguration where
  threads := 4
  flex := true
  iMemKB := 16
  dMemKB := 16
  mul := false
  features := .min
  threads_pos := conf4tf.threads_pos
  threads_le := conf4tf.threads_le

/-- A store of thread 0 to a shared scratchpad. -/
def sharedStore (conf : FlexpretConfiguration) (addr : BitVec 32) (memType : BitVec 4) :
    LoadStoreIn conf where
  addr := addr
  thread := 0
  load := false
  store := true
  memType := memType
  dataIn := 1
  imemProtection := fun _ => mempSH
  dmemProtection := fun _ => mempSH
  kill := false

def DSpm.zeros (conf : FlexpretConfiguration) : DSpm conf := ⟨fun _ => 0, 0⟩

/-- Without the fault a store behind 16 kB comes back to the first byte; without
    the exception a word goes to the bytes before a misaligned address. -/
theorem unchecked_stores_change :
    (¬ InDspm conf4tf 0x20004000 ∧
      ((DSpm.zeros conf4tf).next (sharedStore conf4tf 0x20004000 memSB)).bytes 0x20000000 ≠
        (DSpm.zeros conf4tf).bytes 0x20000000) ∧
    (InDspm confMin 0x20000002 ∧ (0x20000002 : BitVec 32).toNat % storeSize memSW ≠ 0 ∧
      ((DSpm.zeros confMin).next (sharedStore confMin 0x20000002 memSW)).bytes 0x20000000 ≠
        (DSpm.zeros confMin).bytes 0x20000000) := by
  have hbits : conf4tf.dMemAddrBits = 14 := by decide +kernel
  have hbitsMin : confMin.dMemAddrBits = 14 := by decide +kernel
  refine ⟨⟨by decide, ?_⟩, by decide, by decide, ?_⟩
  · rw [bytes_next, if_pos]
    · decide
    · refine ⟨by decide, ?_, by decide +kernel, by decide⟩
      apply BitVec.eq_of_toNat_eq
      rw [dspmIndex_toNat, dspmIndex_toNat, hbits]
      decide
  · rw [bytes_next, if_pos]
    · decide
    · refine ⟨by decide, ?_, by decide +kernel, by decide⟩
      apply BitVec.eq_of_toNat_eq
      rw [dspmIndex_toNat, dspmIndex_toNat, hbitsMin]
      decide

end Flexpret.Core
