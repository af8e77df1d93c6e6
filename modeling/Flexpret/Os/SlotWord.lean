import Flexpret.Os.KernelStart

/-! # set_slot_num on the Slot CSR

    `get_slots` unpacks the word of the slot CSR into eight fields, the two
    loops of `set_slot_num` change some of them, and `set_slots` packs them
    again.
-/

namespace Flexpret.Os

/-! ## Section 1: Packing -/

/-- `get_slots_0`.  `__tmp` is a `long`, so its shift is an arithmetic one. -/
def getSlots0 (tmp : BitVec 32) : Slots :=
  Vector.ofFn fun i : Fin 8 => (tmp.sshiftRight (4 * i.val) &&& 0xF).setWidth 4

/-- `set_slots_0`. -/
def setSlots0 (s : Slots) : BitVec 32 :=
  ((s[7].setWidth 32 &&& 0xF) <<< 28) ||| ((s[6].setWidth 32 &&& 0xF) <<< 24) |||
  ((s[5].setWidth 32 &&& 0xF) <<< 20) ||| ((s[4].setWidth 32 &&& 0xF) <<< 16) |||
  ((s[3].setWidth 32 &&& 0xF) <<< 12) ||| ((s[2].setWidth 32 &&& 0xF) <<< 8) |||
  ((s[1].setWidth 32 &&& 0xF) <<< 4) ||| ((s[0].setWidth 32 &&& 0xF) <<< 0)

/-- `set_slot_num` on the word of the CSR. -/
def setSlotNumCsr (csr : BitVec 32) (tid : BitVec 4) (count : Nat) : BitVec 32 × OsStatus :=
  let slots := getSlots0 csr
  let threadCount := slots.count tid
  if count = threadCount then (csr, .osOK)
  else if count > threadCount then
    let slotToBeAdded := count - threadCount
    if slots.activeCount + slotToBeAdded > flexpretMaxHwThreadsNums - 1 then (csr, .osError)
    else (setSlots0 (slots.replace slotD tid slotToBeAdded), .osOK)
  else (setSlots0 (slots.replace tid slotD (threadCount - count)), .osOK)

/-- The fields are those the hardware sees. -/
theorem getSlots0_eq (csr : BitVec 32) : getSlots0 csr = wordSlots csr := by
  apply Vector.ext
  intro i hi
  rw [getSlots0, wordSlots, Vector.getElem_ofFn, Vector.getElem_ofFn]
  apply BitVec.eq_of_getLsbD_eq
  intro k hk
  have hlt : 4 * i + k < 32 := by omega
  have hmask : (0xF : BitVec 32).getLsbD k = true := by
    obtain rfl | rfl | rfl | rfl : k = 0 ∨ k = 1 ∨ k = 2 ∨ k = 3 := by omega
    all_goals rfl
  rw [BitVec.getLsbD_setWidth, BitVec.getLsbD_and, hmask, BitVec.getLsbD_sshiftRight, Core.field,
    BitVec.getLsbD_extractLsb']
  simp [hk, hlt]
  omega

theorem setWidth_and_mask (x : BitVec 4) : x.setWidth 32 &&& 0xF = x.setWidth 32 := by
  revert x
  decide

theorem or_reverse (x₀ x₁ x₂ x₃ x₄ x₅ x₆ x₇ : BitVec 32) :
    x₇ ||| x₆ ||| x₅ ||| x₄ ||| x₃ ||| x₂ ||| x₁ ||| x₀ =
      x₀ ||| (x₁ ||| (x₂ ||| (x₃ ||| (x₄ ||| (x₅ ||| (x₆ ||| (x₇ ||| 0#32))))))) := by
  rw [BitVec.or_zero]
  ac_rfl

/-- `set_slots` is the word the hardware makes of the fields. -/
theorem setSlots0_eq (s : Slots) : setSlots0 s = Core.toBits s.get := by
  have hall : List.finRange 8 = [0, 1, 2, 3, 4, 5, 6, 7] := by decide
  simp only [setSlots0, setWidth_and_mask, Core.toBits, hall, List.foldr_cons, List.foldr_nil]
  exact or_reverse _ _ _ _ _ _ _ _

/-- **Round trip**: what is packed is unpacked again. -/
@[simp] theorem getSlots0_setSlots0 (s : Slots) : getSlots0 (setSlots0 s) = s := by
  rw [getSlots0_eq, setSlots0_eq, wordSlots]
  apply Vector.ext
  intro i hi
  rw [Vector.getElem_ofFn]
  exact Core.field_toBits (by decide) s.get ⟨i, hi⟩

/-- On the fields `set_slot_num` is that of the model of the OS, and what is
    refused or needs no change is not written. -/
theorem setSlotNumCsr_eq (csr : BitVec 32) (tid : BitVec 4) (count : Nat) :
    getSlots0 (setSlotNumCsr csr tid count).1 = (setSlotNum (getSlots0 csr) tid count).1 ∧
      (setSlotNumCsr csr tid count).2 = (setSlotNum (getSlots0 csr) tid count).2 := by
  simp only [setSlotNumCsr, setSlotNum]
  split
  · exact ⟨rfl, rfl⟩
  · split
    · split
      · exact ⟨rfl, rfl⟩
      · exact ⟨getSlots0_setSlots0 _, rfl⟩
    · exact ⟨getSlots0_setSlots0 _, rfl⟩

/-! ## Section 2: The loops -/

section loops

variable {old new : BitVec 4}

/-- The loop changes at most `n` of the fields that hold `old`. -/
theorem count_old_replaceFirst (hne : old ≠ new) (n : Nat) (slots : List (BitVec 4)) :
    (replaceFirst old new n slots).count old = slots.count old - n := by
  fun_induction replaceFirst old new n slots with
  | case1 slots => rfl
  | case2 => simp
  | case3 n slots ih =>
    rw [List.count_cons_of_ne (Ne.symm hne), List.count_cons_self, ih]
    omega
  | case4 n s slots hs ih => rw [List.count_cons_of_ne hs, List.count_cons_of_ne hs, ih]

theorem count_new_replaceFirst (hne : old ≠ new) (n : Nat) (slots : List (BitVec 4)) :
    (replaceFirst old new n slots).count new = slots.count new + min n (slots.count old) := by
  fun_induction replaceFirst old new n slots with
  | case1 slots => simp
  | case2 => simp
  | case3 n slots ih =>
    rw [List.count_cons_self, List.count_cons_of_ne hne, List.count_cons_self, ih]
    omega
  | case4 n s slots hs ih =>
    rw [List.count_cons_of_ne hs, List.count_cons, List.count_cons, ih]
    omega

/-- A field is left as it is, or it held `old` and gets `new`. -/
theorem getElem?_replaceFirst (n : Nat) (slots : List (BitVec 4)) (i : Nat) :
    (replaceFirst old new n slots)[i]? = slots[i]? ∨
      slots[i]? = some old ∧ (replaceFirst old new n slots)[i]? = some new := by
  fun_induction replaceFirst old new n slots generalizing i with
  | case1 slots => exact .inl rfl
  | case2 => exact .inl rfl
  | case3 n slots ih =>
    cases i with
    | zero => exact .inr ⟨rfl, rfl⟩
    | succ i => exact ih i
  | case4 n s slots hs ih =>
    cases i with
    | zero => exact .inl rfl
    | succ i => exact ih i

end loops

namespace Slots

variable {slots : Slots} {old new : BitVec 4} {n : Nat}

theorem count_old_replace (hne : old ≠ new) :
    (slots.replace old new n).count old = slots.count old - n := by
  rw [← Vector.count_toList, ← Vector.count_toList]
  exact count_old_replaceFirst hne n slots.toList

theorem count_new_replace (hne : old ≠ new) :
    (slots.replace old new n).count new = slots.count new + min n (slots.count old) := by
  rw [← Vector.count_toList, ← Vector.count_toList, ← Vector.count_toList]
  exact count_new_replaceFirst hne n slots.toList

theorem getElem_replace (slots : Slots) (old new : BitVec 4) (n : Nat) (i : Fin 8) :
    (slots.replace old new n).get i = slots.get i ∨
      slots.get i = old ∧ (slots.replace old new n).get i = new := by
  have h := @getElem?_replaceFirst old new n slots.toList i.val
  show (slots.replace old new n)[i] = slots[i] ∨
    slots[i] = old ∧ (slots.replace old new n)[i] = new
  simpa [replace] using h

/-- The fields in use and the free ones. -/
theorem activeCount_add_count (slots : Slots) : slots.activeCount + slots.count slotD = 8 := by
  have hsplit : ∀ l : List (BitVec 4), l.countP (· ≠ slotD) + l.count slotD = l.length := by
    intro l
    rw [List.count_eq_countP, Nat.add_comm, List.length_eq_countP_add_countP (p := (· == slotD))]
    congr 1
    apply List.countP_congr
    intro x _
    simp
  have h := hsplit slots.toList
  rw [Vector.count_toList, Vector.length_toList] at h
  rw [activeCount, ← Vector.countP_toList]
  exact h

end Slots

/-! ## Section 3: The exact effect -/

/-- What a call that returns `osOK` has done to the fields. -/
structure SlotNumSet (slots slots' : Slots) (tid : BitVec 4) (count : Nat) : Prop where
  exactly : slots'.count tid = count
  others : ∀ i : Fin 8, slots.get i ≠ tid → slots.get i ≠ slotD → slots'.get i = slots.get i
  grows : slots.count tid ≤ count → ∀ i : Fin 8, slots.get i = tid → slots'.get i = tid
  shrinks : count ≤ slots.count tid →
    ∀ i : Fin 8, slots'.get i = slots.get i ∨ slots.get i = tid ∧ slots'.get i = slotD

/-- What a call does to the CSR and returns. -/
structure SlotNumEffect (csr : BitVec 32) (tid : BitVec 4) (count : Nat)
    (r : BitVec 32 × OsStatus) : Prop where
  ok_iff : r.2 = .osOK ↔ count ≤ (getSlots0 csr).count tid ∨
    (getSlots0 csr).activeCount + (count - (getSlots0 csr).count tid) ≤ 7
  ok : r.2 = .osOK → SlotNumSet (getSlots0 csr) (getSlots0 r.1) tid count
  error : r.2 ≠ .osOK → r.2 = .osError ∧ r.1 = csr

/-- Adding as many fields as are asked for; one free field is left at least. -/
theorem slotNumSet_grow {slots : Slots} {tid : BitVec 4} {count : Nat} (hd : tid ≠ slotD)
    (hgt : slots.count tid < count)
    (hcap : slots.activeCount + (count - slots.count tid) ≤ 7) :
    SlotNumSet slots (slots.replace slotD tid (count - slots.count tid)) tid count := by
  have hfree := slots.activeCount_add_count
  have hfields := slots.getElem_replace slotD tid (count - slots.count tid)
  constructor
  case exactly =>
    rw [Slots.count_new_replace hd.symm]
    omega
  case others =>
    intro i _ hi
    rcases hfields i with hsame | ⟨hold, -⟩
    · exact hsame
    · exact absurd hold hi
  case grows =>
    intro _ i hi
    rcases hfields i with hsame | ⟨hold, -⟩
    · rw [hsame, hi]
    · exact absurd (hi.symm.trans hold) hd
  case shrinks =>
    intro hle
    omega

/-- Taking fields away. -/
theorem slotNumSet_shrink {slots : Slots} {tid : BitVec 4} {count : Nat} (hd : tid ≠ slotD)
    (hlt : count < slots.count tid) :
    SlotNumSet slots (slots.replace tid slotD (slots.count tid - count)) tid count := by
  have hfields := slots.getElem_replace tid slotD (slots.count tid - count)
  constructor
  case exactly =>
    rw [Slots.count_old_replace hd]
    omega
  case others =>
    intro i hi _
    rcases hfields i with hsame | ⟨hold, -⟩
    · exact hsame
    · exact absurd hold hi
  case grows =>
    intro hle
    omega
  case shrinks => exact fun _ => hfields

/-- **set_slot_num**: for every word of the slot CSR, every id but `SLOT_D` and
    every count. -/
theorem setSlotNumCsr_effect (csr : BitVec 32) (tid : BitVec 4) (hd : tid ≠ slotD)
    (count : Nat) : SlotNumEffect csr tid count (setSlotNumCsr csr tid count) := by
  have hsame : SlotNumSet (getSlots0 csr) (getSlots0 csr) tid ((getSlots0 csr).count tid) :=
    ⟨rfl, fun _ _ _ => rfl, fun _ _ hi => hi, fun _ _ => .inl rfl⟩
  have hmax : flexpretMaxHwThreadsNums - 1 = 7 := rfl
  simp only [setSlotNumCsr]
  split
  · next heq =>
    refine ⟨iff_of_true rfl (.inl (Nat.le_of_eq heq)), fun _ => ?_, fun hne => absurd rfl hne⟩
    rw [heq]
    exact hsame
  · next hne =>
    split
    · next hgt =>
      split
      · next hcap =>
        -- the table is full
        have hnot : ¬ (count ≤ (getSlots0 csr).count tid ∨
            (getSlots0 csr).activeCount + (count - (getSlots0 csr).count tid) ≤ 7) := by
          omega
        exact ⟨iff_of_false (by simp) hnot, fun hok => absurd hok (by simp), fun _ => ⟨rfl, rfl⟩⟩
      · next hcap =>
        have hcap' : (getSlots0 csr).activeCount + (count - (getSlots0 csr).count tid) ≤ 7 := by
          omega
        refine ⟨iff_of_true rfl (.inr hcap'), fun _ => ?_, fun hne => absurd rfl hne⟩
        rw [getSlots0_setSlots0]
        exact slotNumSet_grow hd hgt hcap'
    · next hle =>
      have hlt : count < (getSlots0 csr).count tid := by omega
      refine ⟨iff_of_true rfl (.inl (Nat.le_of_lt hlt)), fun _ => ?_, fun hne => absurd rfl hne⟩
      rw [getSlots0_setSlots0]
      exact slotNumSet_shrink hd hlt

/-- Two more slots for the soft threads, beside thread 0. -/
theorem setSlotNumCsr_soft_effect :
    SlotNumEffect 0xfffffff0 slotS 2 (setSlotNumCsr 0xfffffff0 slotS 2) :=
  setSlotNumCsr_effect 0xfffffff0 slotS (by decide) 2

end Flexpret.Os
