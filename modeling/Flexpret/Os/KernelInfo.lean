import Flexpret.Lib.Buffer
import Flexpret.Os.Mutex

/-! # The Kernel Identification String

    `osKernelGetInfo` with the string functions it uses: what it writes to the
    caller's buffer, for every version and every size of the buffer.
-/

open Buffers

namespace Flexpret.Os

/-! ## Section 1: Strings -/

abbrev Byte : Type := BitVec 8

/-- The loop of `strncpy`: as long as there are characters and `size` allows. -/
def strncpyLoop : Buffer Byte → Nat → List Byte → Nat → Buffer Byte × Nat
  | dest, i, [], _ => (dest, i)
  | dest, i, _ :: _, 0 => (dest, i)
  | dest, i, c :: src, size + 1 => strncpyLoop (dest.store i c) (i + 1) src size

/-- `strncpy` to index `i` of a buffer.  It ends the string even where `size` is
    used up. -/
def strncpy (dest : Buffer Byte) (i : Nat) (src : List Byte) (size : BitVec 32) : Buffer Byte :=
  let copied := strncpyLoop dest i src size.toNat
  copied.1.store copied.2 0

/-- `strlen`. -/
def strlen (str : List Byte) : BitVec 32 := BitVec.ofNat 32 str.length

/-- A hexadecimal digit: `'0'` is 48, and `'A'` is 65. -/
def hexDigit (n : BitVec 32) : Byte :=
  let c := (n &&& 15).setWidth 8 + 48
  if c.toNat ≥ 58 then c + 7 else c

/-- Skip at most `k` zeros. -/
def skipZeros : Nat → List Byte → List Byte
  | _, [] => []
  | 0, l => l
  | k + 1, c :: l => if c = 48 then skipZeros k l else c :: l

/-- `itoa_hex_removing_ldz`: the eight digits without the leading zeros. -/
def itoaHexRemovingLdz (n : BitVec 32) : List Byte :=
  skipZeros 7 ((List.range 8).map fun i => hexDigit (n >>> (4 * (7 - i))))

/-! ## Section 2: osKernelGetInfo -/

/-- `osVersion_t`. -/
structure OsVersion where
  api : BitVec 32
  kernel : BitVec 32

def kernelVerMajor (ver : BitVec 32) : BitVec 32 := (ver >>> 16) &&& 0xFF
def kernelVerMinor (ver : BitVec 32) : BitVec 32 := (ver >>> 8) &&& 0xFF
def kernelVerPatchlevel (ver : BitVec 32) : BitVec 32 := ver &&& 0xFF

/-- The numbers and what is written behind each: `'.'`, and `'\n'` behind the
    last. -/
def components (ver : BitVec 32) : List (BitVec 32 × Byte) :=
  [(kernelVerMajor ver, 46), (kernelVerMinor ver, 46), (kernelVerPatchlevel ver, 10)]

/-- The loop over the components, at index `pos` of the buffer.  `id_size` is
    decremented without a check behind a component. -/
def writeComponents : List (BitVec 32 × Byte) → Buffer Byte → Nat → BitVec 32 → Buffer Byte
  | [], idBuf, _, _ => idBuf
  | (v, separator) :: rest, idBuf, pos, idSize =>
      let tmp := itoaHexRemovingLdz v
      let s := strlen tmp
      let buf := (strncpy (Buffer.fresh fun _ => 0) 0 tmp s).string 0 0 9
      if s ≤ idSize then
        let idBuf := strncpy idBuf pos buf s
        let idBuf := strncpy idBuf (pos + s.toNat) [separator] 1
        writeComponents rest idBuf (pos + s.toNat + 1) (idSize - s - 1)
      else strncpy idBuf pos buf idSize

/-- `osKernelGetInfo`; `ver` is `FLEXPRET_OS_VERSION`. -/
def osKernelGetInfo (ver : BitVec 32) (version : Option OsVersion)
    (idBuf : Option (Buffer Byte)) (idSize : BitVec 32) :
    OsStatus × Option OsVersion × Option (Buffer Byte) :=
  match version, idBuf with
  | none, idBuf => (.osError, none, idBuf)
  | some _, none => (.osError, some ⟨ver, ver⟩, none)
  | some _, some idBuf =>
      let idBuf := if idSize = 1 then idBuf.store 0 0 else idBuf
      (.osOK, some ⟨ver, ver⟩, some (writeComponents (components ver) idBuf 0 (idSize - 1)))

/-! ## Section 3: What the string functions do -/

section strings

variable {dest : Buffer Byte} {i k : Nat} {src : List Byte} {size : BitVec 32}

theorem strncpyLoop_eq (dest : Buffer Byte) (i : Nat) (src : List Byte) (size : Nat) :
    strncpyLoop dest i src size =
      (dest.storeAll i (src.take size), i + (src.take size).length) := by
  induction src generalizing dest i size with
  | nil =>
    cases size with
    | zero => rfl
    | succ size => rfl
  | cons c src ih =>
    cases size with
    | zero => rfl
    | succ size =>
      rw [strncpyLoop, ih, List.take_succ_cons, Buffer.storeAll, List.length_cons,
        Nat.add_assoc, Nat.add_comm 1]

theorem strncpy_eq : strncpy dest i src size =
    (dest.storeAll i (src.take size.toNat)).store (i + (src.take size.toNat).length) 0 := by
  rw [strncpy, strncpyLoop_eq]

/-- **The string** is there, as much of it as `size` allows. -/
theorem strncpy_stringAt (hno : ∀ c ∈ src, c ≠ 0) :
    StringAt 0 (strncpy dest i src size) i (src.take size.toNat) := by
  rw [strncpy_eq]
  constructor
  case starts =>
    intro k hk
    rw [Buffer.store_of_ne (by omega), Buffer.storeAll_cell hk]
  case ends => exact Buffer.store_self
  case noNul => exact fun c hc => hno c (List.mem_of_mem_take hc)

theorem strncpy_outside (h : k < i ∨ i + (src.take size.toNat).length < k) :
    (strncpy dest i src size).cell k = dest.cell k := by
  rw [strncpy_eq, Buffer.store_of_ne (by omega), Buffer.storeAll_outside (by omega)]

/-- **What it writes**: the characters and the end. -/
theorem mem_strncpy_written : k ∈ (strncpy dest i src size).written ↔
    k ∈ dest.written ∨ (i ≤ k ∧ k ≤ i + (src.take size.toNat).length) := by
  rw [strncpy_eq, Buffer.mem_store_written, Buffer.mem_storeAll_written]
  constructor
  · rintro (rfl | h | h)
    · exact .inr (by omega)
    · exact .inl h
    · exact .inr (by omega)
  · rintro (h | h)
    · exact .inr (.inl h)
    · by_cases hk : k = i + (src.take size.toNat).length
      · exact .inl hk
      · exact .inr (.inr (by omega))

/-! ### Numbers -/

theorem hexDigit_ne_zero (n : BitVec 32) : hexDigit n ≠ 0 := by
  have hlt : (n &&& 15).toNat < 16 := by
    rw [BitVec.toNat_and]
    exact Nat.lt_of_le_of_lt Nat.and_le_right (by decide)
  have hdigit : ((n &&& 15).setWidth 8 + 48).toNat = (n &&& 15).toNat + 48 := by
    rw [BitVec.toNat_add, BitVec.toNat_setWidth]
    show ((n &&& 15).toNat % 256 + 48) % 256 = _
    omega
  intro hzero
  have hnat := congrArg BitVec.toNat hzero
  unfold hexDigit at hnat
  simp only at hnat
  split at hnat
  · rw [BitVec.toNat_add, hdigit] at hnat
    change ((n &&& 15).toNat + 48 + 7) % 256 = 0 at hnat
    omega
  · rw [hdigit] at hnat
    exact absurd hnat (Nat.succ_ne_zero _)

/-- Something is skipped at the front, and never all of it. -/
theorem skipZeros_suffix (k : Nat) (l : List Byte) : skipZeros k l <:+ l := by
  induction l generalizing k with
  | nil =>
    cases k with
    | zero => exact List.suffix_refl _
    | succ k => exact List.suffix_refl _
  | cons c l ih =>
    cases k with
    | zero => exact List.suffix_refl _
    | succ k =>
      rw [skipZeros]
      split
      · exact (ih k).trans (List.suffix_cons c l)
      · exact List.suffix_refl _

theorem skipZeros_ne_nil {k : Nat} {l : List Byte} (h : k < l.length) : skipZeros k l ≠ [] := by
  induction l generalizing k with
  | nil => exact absurd h (Nat.not_lt_zero k)
  | cons c l ih =>
    cases k with
    | zero => exact List.cons_ne_nil c l
    | succ k =>
      rw [skipZeros]
      split
      · exact ih (Nat.lt_of_succ_lt_succ h)
      · exact List.cons_ne_nil c l

/-- **A number**: one to eight characters. -/
theorem itoaHexRemovingLdz_spec (n : BitVec 32) :
    0 < (itoaHexRemovingLdz n).length ∧ (itoaHexRemovingLdz n).length ≤ 8 ∧
      ∀ c ∈ itoaHexRemovingLdz n, c ≠ 0 := by
  unfold itoaHexRemovingLdz
  refine ⟨?_, ?_, ?_⟩
  · refine List.length_pos_iff.mpr (skipZeros_ne_nil ?_)
    rw [List.length_map, List.length_range]
    decide
  · refine (skipZeros_suffix 7 _).length_le.trans ?_
    rw [List.length_map, List.length_range]
  · intro c hc
    obtain ⟨i, -, rfl⟩ := List.mem_map.mp ((skipZeros_suffix 7 _).subset hc)
    exact hexDigit_ne_zero _

theorem strlen_toNat (n : BitVec 32) :
    (strlen (itoaHexRemovingLdz n)).toNat = (itoaHexRemovingLdz n).length := by
  have hle := (itoaHexRemovingLdz_spec n).2.1
  rw [strlen, BitVec.toNat_ofNat, Nat.mod_eq_of_lt (by omega)]

/-- The local copy of a number is the number. -/
theorem localCopy_eq (n : BitVec 32) (cell : Nat → Byte) :
    (strncpy (Buffer.fresh cell) 0 (itoaHexRemovingLdz n)
      (strlen (itoaHexRemovingLdz n))).string 0 0 9 = itoaHexRemovingLdz n := by
  obtain ⟨-, hle, hno⟩ := itoaHexRemovingLdz_spec n
  have hcopy : StringAt 0 (strncpy (Buffer.fresh cell) 0 (itoaHexRemovingLdz n)
      (strlen (itoaHexRemovingLdz n))) 0 _ := strncpy_stringAt hno
  rw [strlen_toNat, List.take_length] at hcopy
  exact hcopy.string_eq (by omega)

end strings

/-! ### The numeral -/

/-- A digit of a hexadecimal numeral. -/
def numeralDigit (d : Nat) : Byte := BitVec.ofNat 8 d.digitChar.toUpper.toNat

/-- The hexadecimal numeral of `n`, without leading zeros. -/
def hexNumeral (n : Nat) : List Byte :=
  (Nat.toDigits 16 n).map fun c => BitVec.ofNat 8 c.toUpper.toNat

/-- The last digit comes off the end. -/
theorem hexNumeral_eq_if (n : Nat) :
    hexNumeral n =
      if n < 16 then [numeralDigit n] else hexNumeral (n / 16) ++ [numeralDigit (n % 16)] := by
  unfold hexNumeral
  rw [Nat.toDigits_eq_if (by decide)]
  split
  · rfl
  · rw [List.map_append]
    rfl

/-- The last `w` digits of `n`. -/
def lastDigits (w n : Nat) : List Byte :=
  (List.range w).map fun i => numeralDigit (n / 16 ^ (w - 1 - i) % 16)

theorem hexDigit_eq (x : BitVec 32) : hexDigit x = numeralDigit (x.toNat % 16) := by
  have hmask : (x &&& 15).toNat = x.toNat % 16 := by
    rw [BitVec.toNat_and]
    exact Nat.and_two_pow_sub_one_eq_mod x.toNat 4
  -- above '9' the code adds 7 to come to 'A'
  have hdigits : ∀ d : Fin 16, (if (BitVec.ofNat 8 d.val + 48).toNat ≥ 58 then
      BitVec.ofNat 8 d.val + 48 + 7 else BitVec.ofNat 8 d.val + 48) = numeralDigit d.val := by
    decide
  have hbyte : (x &&& 15).setWidth 8 = BitVec.ofNat 8 (x.toNat % 16) := by
    rw [← hmask]
    rfl
  rw [hexDigit, hbyte]
  exact hdigits ⟨x.toNat % 16, Nat.mod_lt _ (by decide)⟩

theorem numeralDigit_eq_iff {d : Nat} (hd : d < 16) : numeralDigit d = 48 ↔ d = 0 := by
  have hdigits : ∀ d : Fin 16, numeralDigit d.val = 48 ↔ d.val = 0 := by decide
  exact hdigits ⟨d, hd⟩

theorem lastDigits_succ (w n : Nat) :
    lastDigits (w + 1) n = lastDigits w (n / 16) ++ [numeralDigit (n % 16)] := by
  rw [lastDigits, List.range_succ, List.map_append, List.map_singleton, lastDigits]
  congr 1
  · refine List.map_congr_left fun i hi => ?_
    have hlt := List.mem_range.mp hi
    rw [show w + 1 - 1 - i = (w - 1 - i) + 1 by omega, Nat.pow_succ', Nat.div_div_eq_div_mul]
  · simp

/-- Only the digits of zero are all zeros. -/
theorem lastDigits_zeros_iff {w n : Nat} (hn : n < 16 ^ w) :
    (∀ c ∈ lastDigits w n, c = 48) ↔ n = 0 := by
  induction w generalizing n with
  | zero =>
    have hzero : n = 0 := by omega
    simp [hzero, lastDigits]
  | succ w ih =>
    have hlast := numeralDigit_eq_iff (Nat.mod_lt n (by decide : 16 > 0))
    have hfront := ih (n := n / 16) (by rw [Nat.pow_succ] at hn; omega)
    rw [lastDigits_succ, List.forall_mem_append, hfront, List.forall_mem_singleton, hlast]
    omega

/-- What is skipped does not depend on a digit that is put behind, unless all are zeros. -/
theorem skipZeros_append {k : Nat} {l : List Byte} (hlen : l.length = k + 1) (d : Byte) :
    skipZeros (k + 1) (l ++ [d]) =
      if ∀ c ∈ l, c = 48 then [d] else skipZeros k l ++ [d] := by
  induction l generalizing k with
  | nil => exact absurd hlen (Nat.succ_ne_zero k).symm
  | cons c l ih =>
    rw [List.cons_append, skipZeros]
    by_cases hc : c = 48
    · -- one more zero is skipped, but never the digit behind
      rw [if_pos hc]
      cases k with
      | zero =>
        obtain rfl := List.length_eq_zero_iff.mp (Nat.succ.inj hlen)
        simp [hc, skipZeros]
      | succ k =>
        rw [ih (Nat.succ.inj hlen), skipZeros, if_pos hc]
        simp [hc]
    · have hkeep : skipZeros k (c :: l) = c :: l := by
        cases k with
        | zero => rfl
        | succ k => rw [skipZeros, if_neg hc]
      have hsome : ¬ ∀ c' ∈ c :: l, c' = 48 := fun hall => hc (hall c List.mem_cons_self)
      rw [if_neg hc, if_neg hsome, hkeep, List.cons_append]

/-- **The numeral**: what is left of the digits behind the leading zeros. -/
theorem skipZeros_lastDigits {w n : Nat} (hn : n < 16 ^ (w + 1)) :
    skipZeros w (lastDigits (w + 1) n) = hexNumeral n := by
  -- induction on the number of digits that may be skipped
  induction w generalizing n with
  | zero =>
    have hsmall : n < 16 := hn
    rw [hexNumeral_eq_if, if_pos hsmall, lastDigits_succ, Nat.mod_eq_of_lt hsmall]
    rfl
  | succ w ih =>
    have hlen : (lastDigits (w + 1) (n / 16)).length = w + 1 := by
      rw [lastDigits, List.length_map, List.length_range]
    have hfront : n / 16 < 16 ^ (w + 1) := by
      rw [Nat.pow_succ] at hn
      omega
    rw [lastDigits_succ, skipZeros_append hlen, ih hfront, hexNumeral_eq_if n]
    by_cases hsmall : n < 16
    · rw [if_pos ((lastDigits_zeros_iff hfront).mpr (Nat.div_eq_of_lt hsmall)), if_pos hsmall,
        Nat.mod_eq_of_lt hsmall]
    · have hsome : ¬ ∀ c ∈ lastDigits (w + 1) (n / 16), c = 48 := by
        rw [lastDigits_zeros_iff hfront]
        omega
      rw [if_neg hsome, if_neg hsmall]

/-- **itoa_hex_removing_ldz** gives the hexadecimal numeral. -/
theorem itoaHexRemovingLdz_eq (n : BitVec 32) : itoaHexRemovingLdz n = hexNumeral n.toNat := by
  have hdigits : (List.range 8).map (fun i => hexDigit (n >>> (4 * (7 - i)))) =
      lastDigits (7 + 1) n.toNat := by
    refine List.map_congr_left fun i _ => ?_
    rw [hexDigit_eq, BitVec.toNat_ushiftRight, Nat.shiftRight_eq_div_pow, Nat.pow_mul]
  rw [itoaHexRemovingLdz, hdigits]
  exact skipZeros_lastDigits n.isLt

/-! ## Section 4: The text and where it is cut -/

/-- The text of some components. -/
def componentText (cs : List (BitVec 32 × Byte)) : List Byte :=
  cs.flatMap fun c => itoaHexRemovingLdz c.1 ++ [c.2]

/-- The full text. -/
def versionText (ver : BitVec 32) : List Byte := componentText (components ver)

/-- The text is the three numbers in hexadecimal. -/
theorem versionText_eq (ver : BitVec 32) :
    versionText ver = hexNumeral (kernelVerMajor ver).toNat ++ [46] ++
      (hexNumeral (kernelVerMinor ver).toNat ++ [46]) ++
      (hexNumeral (kernelVerPatchlevel ver).toNat ++ [10]) := by
  rw [versionText, componentText, components, List.flatMap_cons, List.flatMap_cons,
    List.flatMap_singleton, itoaHexRemovingLdz_eq, itoaHexRemovingLdz_eq, itoaHexRemovingLdz_eq,
    ← List.append_assoc]

/-- The lengths of the text up to the end of each number, from `pos` on. -/
def componentEnds : List (BitVec 32 × Byte) → Nat → List Nat
  | [], _ => []
  | (v, _) :: rest, pos =>
      let last := pos + (itoaHexRemovingLdz v).length
      last :: componentEnds rest (last + 1)

section writing

variable {cs : List (BitVec 32 × Byte)} {idBuf : Buffer Byte} {pos k : Nat} {size : BitVec 32}

/-- The ends come behind what they begin with. -/
theorem componentEnds_le (h : k ∈ componentEnds cs pos) : pos ≤ k := by
  induction cs generalizing pos with
  | nil => exact absurd h List.not_mem_nil
  | cons c cs ih =>
    obtain rfl | hrest := List.mem_cons.mp h
    · exact Nat.le_add_right _ _
    · have hle := ih hrest
      omega

/-- One component, which fits or is cut. -/
theorem writeComponents_cons (v : BitVec 32) (separator : Byte) (idBuf : Buffer Byte) (pos : Nat)
    (size : BitVec 32) :
    writeComponents ((v, separator) :: cs) idBuf pos size =
      if (itoaHexRemovingLdz v).length ≤ size.toNat then
        writeComponents cs
          (strncpy (strncpy idBuf pos (itoaHexRemovingLdz v) (strlen (itoaHexRemovingLdz v)))
            (pos + (itoaHexRemovingLdz v).length) [separator] 1)
          (pos + (itoaHexRemovingLdz v).length + 1) (size - strlen (itoaHexRemovingLdz v) - 1)
      else strncpy idBuf pos (itoaHexRemovingLdz v) size := by
  rw [writeComponents]
  simp only [localCopy_eq, strlen_toNat, BitVec.le_def]

/-- What has been written stays written. -/
theorem writeComponents_written (h : k ∈ idBuf.written) :
    k ∈ (writeComponents cs idBuf pos size).written := by
  induction cs generalizing idBuf pos size with
  | nil => exact h
  | cons c cs ih =>
    obtain ⟨v, separator⟩ := c
    rw [writeComponents_cons]
    split
    · exact ih (mem_strncpy_written.mpr (.inl (mem_strncpy_written.mpr (.inl h))))
    · exact mem_strncpy_written.mpr (.inl h)

/-- Something is always written at the first index. -/
theorem writeComponents_first (hcs : cs ≠ []) :
    pos ∈ (writeComponents cs idBuf pos size).written := by
  cases cs with
  | nil => exact absurd rfl hcs
  | cons c cs =>
    obtain ⟨v, separator⟩ := c
    rw [writeComponents_cons]
    split
    · refine writeComponents_written (mem_strncpy_written.mpr (.inl ?_))
      exact mem_strncpy_written.mpr (.inr (by omega))
    · exact mem_strncpy_written.mpr (.inr (by omega))

/-- What is left of the size behind a component. -/
theorem rest_toNat {v : BitVec 32} (h : (itoaHexRemovingLdz v).length < size.toNat) :
    (size - strlen (itoaHexRemovingLdz v) - 1).toNat =
      size.toNat - (itoaHexRemovingLdz v).length - 1 := by
  have hlen := strlen_toNat v
  have hsub : (size - strlen (itoaHexRemovingLdz v)).toNat =
      size.toNat - (itoaHexRemovingLdz v).length := by
    rw [BitVec.toNat_sub_of_le (BitVec.le_def.mpr (by omega)), hlen]
  have hone : (1 : BitVec 32).toNat = 1 := rfl
  rw [BitVec.toNat_sub_of_le (BitVec.le_def.mpr (by omega)), hsub, hone]

/-- **Overflow**: where the size is used up right behind a number, the separator's
    end is written behind the last index. -/
theorem writeComponents_overflow (h : pos + size.toNat ∈ componentEnds cs pos) :
    pos + size.toNat + 1 ∈ (writeComponents cs idBuf pos size).written := by
  induction cs generalizing idBuf pos size with
  | nil => exact absurd h List.not_mem_nil
  | cons c cs ih =>
    obtain ⟨v, separator⟩ := c
    rw [writeComponents_cons]
    obtain hlast | hrest := List.mem_cons.mp h
    · have hsize : size.toNat = (itoaHexRemovingLdz v).length := Nat.add_left_cancel hlast
      rw [if_pos (by omega)]
      apply writeComponents_written
      rw [mem_strncpy_written]
      refine .inr ⟨by omega, ?_⟩
      show _ ≤ pos + (itoaHexRemovingLdz v).length + ([separator].take 1).length
      rw [List.take_succ_cons, List.length_cons]
      omega
    · have hlow := componentEnds_le hrest
      have hlt : (itoaHexRemovingLdz v).length < size.toNat := by omega
      have hsize := rest_toNat hlt
      rw [if_pos (by omega)]
      have hpos : pos + (itoaHexRemovingLdz v).length + 1 +
          (size - strlen (itoaHexRemovingLdz v) - 1).toNat = pos + size.toNat := by omega
      rw [← hpos] at hrest ⊢
      exact ih hrest

/-- What is left behind when `text` has been written from `pos` on, with room for
    `size` characters. -/
structure Wrote (text : List Byte) (idBuf idBuf' : Buffer Byte) (pos size : Nat) : Prop where
  within : ∀ k ∈ idBuf'.written, k ∈ idBuf.written ∨ k ≤ pos + size
  before : ∀ k, k < pos → idBuf'.cell k = idBuf.cell k
  text : StringAt 0 idBuf' pos (text.take size)

/-- A number and its separator. -/
theorem component_wrote (v : BitVec 32) {separator : Byte} (hsep : separator ≠ 0)
    (idBuf : Buffer Byte) (pos : Nat) :
    Wrote (itoaHexRemovingLdz v ++ [separator]) idBuf
      (strncpy (strncpy idBuf pos (itoaHexRemovingLdz v) (strlen (itoaHexRemovingLdz v)))
        (pos + (itoaHexRemovingLdz v).length) [separator] 1)
      pos ((itoaHexRemovingLdz v).length + 1) := by
  have hlen : (itoaHexRemovingLdz v).take (strlen (itoaHexRemovingLdz v)).toNat =
      itoaHexRemovingLdz v := by
    rw [strlen_toNat, List.take_length]
  have hone : [separator].take (1 : BitVec 32).toNat = [separator] := rfl
  constructor
  case within =>
    intro k hk
    rw [mem_strncpy_written, mem_strncpy_written, hlen, hone, List.length_singleton] at hk
    obtain (hbefore | hnumber) | hend := hk
    · exact .inl hbefore
    · exact .inr (by omega)
    · exact .inr (by omega)
  case before =>
    intro k hk
    rw [strncpy_outside (.inl (by omega)), strncpy_outside (.inl hk)]
  case text =>
    have hnumber : StringAt 0 (strncpy idBuf pos (itoaHexRemovingLdz v)
        (strlen (itoaHexRemovingLdz v))) pos _ := strncpy_stringAt (itoaHexRemovingLdz_spec v).2.2
    have hend : StringAt 0 (strncpy (strncpy idBuf pos (itoaHexRemovingLdz v)
        (strlen (itoaHexRemovingLdz v))) (pos + (itoaHexRemovingLdz v).length) [separator] 1)
        (pos + (itoaHexRemovingLdz v).length) _ :=
      strncpy_stringAt fun c hc => List.mem_singleton.mp hc ▸ hsep
    rw [hlen] at hnumber
    rw [hone] at hend
    -- the separator replaces the end of the number
    rw [List.take_of_length_le (by rw [List.length_append, List.length_singleton])]
    exact hend.append (hnumber.starts.congr fun k _ hhigh => strncpy_outside (.inl hhigh))
      hnumber.noNul

/-- **Next**: one text behind the other. -/
theorem Wrote.append {text text' : List Byte} {b b' b'' : Buffer Byte} {size : Nat}
    (h : Wrote text b b' pos text.length) (h' : Wrote text' b' b'' (pos + text.length) size) :
    Wrote (text ++ text') b b'' pos (text.length + size) := by
  have htext := h.text
  rw [List.take_length] at htext
  constructor
  case within =>
    intro k hk
    obtain hk | hk := h'.within k hk
    · exact (h.within k hk).imp_right fun h => by omega
    · exact .inr (by omega)
  case before => exact fun k hk => (h'.before k (by omega)).trans (h.before k hk)
  case text =>
    rw [List.take_length_add_append]
    exact h'.text.append (htext.starts.congr fun k _ hhigh => h'.before k hhigh) htext.noNul

/-- **No overflow**: elsewhere the text is written, as much of it as fits. -/
theorem writeComponents_wrote (hno : ∀ c ∈ cs, c.2 ≠ 0)
    (hends : pos + size.toNat ∉ componentEnds cs pos) (hzero : cs = [] → idBuf.cell pos = 0) :
    Wrote (componentText cs) idBuf (writeComponents cs idBuf pos size) pos size.toNat := by
  induction cs generalizing idBuf pos size with
  | nil =>
    constructor
    case within => exact fun k hk => .inl hk
    case before => exact fun k _ => rfl
    case text =>
      rw [componentText, List.flatMap_nil, List.take_nil]
      exact ⟨fun k hk => absurd hk (Nat.not_lt_zero k), hzero rfl,
        fun v hv => absurd hv List.not_mem_nil⟩
  | cons c cs ih =>
    obtain ⟨v, separator⟩ := c
    obtain ⟨hlast, hrest⟩ := not_or.mp (fun h => hends (List.mem_cons.mpr h))
    have htext : componentText ((v, separator) :: cs) =
        itoaHexRemovingLdz v ++ [separator] ++ componentText cs := List.flatMap_cons ..
    rw [writeComponents_cons, htext]
    split
    · next hfits =>
      have hlt : (itoaHexRemovingLdz v).length < size.toNat := by omega
      have hsize := rest_toNat hlt
      have hsep : separator ≠ 0 := hno (v, separator) List.mem_cons_self
      have hfirst := component_wrote v hsep idBuf pos
      have hlength : (itoaHexRemovingLdz v ++ [separator]).length =
          (itoaHexRemovingLdz v).length + 1 := by
        rw [List.length_append, List.length_singleton]
      have hpos : pos + (itoaHexRemovingLdz v).length + 1 +
          (size - strlen (itoaHexRemovingLdz v) - 1).toNat = pos + size.toNat := by omega
      have hend := hfirst.text.ends
      rw [List.take_of_length_le (by omega), hlength] at hend
      rw [← hpos] at hrest
      have hnext := ih (fun c hc => hno c (List.mem_cons_of_mem _ hc)) hrest (fun _ => hend)
      rw [← hlength] at hfirst
      rw [Nat.add_assoc pos, ← hlength] at hnext
      have hboth := hfirst.append hnext
      rw [hlength, hsize, show (itoaHexRemovingLdz v).length + 1 +
        (size.toNat - (itoaHexRemovingLdz v).length - 1) = size.toNat by omega] at hboth
      exact hboth
    · next hcut =>
      have htake : (itoaHexRemovingLdz v ++ [separator] ++ componentText cs).take size.toNat =
          (itoaHexRemovingLdz v).take size.toNat := by
        rw [List.append_assoc, List.take_append_of_le_length (by omega)]
      constructor
      case within =>
        intro k hk
        refine (mem_strncpy_written.mp hk).imp_right fun h => ?_
        rw [List.length_take] at h
        omega
      case before => exact fun k hk => strncpy_outside (.inl hk)
      case text =>
        have hcopied : StringAt 0 (strncpy idBuf pos (itoaHexRemovingLdz v) size) pos _ :=
          strncpy_stringAt (itoaHexRemovingLdz_spec v).2.2
        rw [← htake] at hcopied
        exact hcopied

end writing

/-! ## Section 5: The caller's buffer -/

/-- **The buffer is respected**: what is written lies below `id_size`, and where
    there is room for the end of a string the buffer holds as much of the text as
    fits before it. -/
structure RespectsBuffer (ver idSize : BitVec 32) (idBuf : Buffer Byte) : Prop where
  within : ∀ k ∈ idBuf.written, k < idSize.toNat
  text : 1 ≤ idSize.toNat → StringAt 0 idBuf 0 ((versionText ver).take (idSize.toNat - 1))

/-- Where the buffer does not end right behind a number of the text. -/
def SizeFits (ver idSize : BitVec 32) : Prop :=
  idSize ≠ 0 ∧ idSize.toNat - 1 ∉ componentEnds (components ver) 0

/-- `osKernelGetInfo` for a version pointer and a buffer that are there. -/
theorem osKernelGetInfo_some (ver : BitVec 32) (version : OsVersion) (cell : Nat → Byte)
    (idSize : BitVec 32) :
    osKernelGetInfo ver (some version) (some (Buffer.fresh cell)) idSize =
      (.osOK, some ⟨ver, ver⟩, some (writeComponents (components ver)
        (if idSize = 1 then (Buffer.fresh cell).store 0 0 else Buffer.fresh cell) 0
          (idSize - 1))) := rfl

/-- **When the buffer is respected**: exactly where its size is not zero and it does
    not end right behind a number. -/
theorem osKernelGetInfo_respects_iff (ver : BitVec 32) (version : OsVersion) (cell : Nat → Byte)
    (idSize : BitVec 32) :
    (∃ idBuf, osKernelGetInfo ver (some version) (some (Buffer.fresh cell)) idSize =
        (.osOK, some ⟨ver, ver⟩, some idBuf) ∧ RespectsBuffer ver idSize idBuf) ↔
      SizeFits ver idSize := by
  rw [osKernelGetInfo_some]
  have hcomponents : components ver ≠ [] := List.cons_ne_nil _ _
  constructor
  · rintro ⟨idBuf, hresult, hrespects⟩
    obtain rfl := Option.some.inj (congrArg (fun r => r.2.2) hresult)
    have hzero := hrespects.within 0 (writeComponents_first hcomponents)
    have hne : idSize ≠ 0 := fun h => by
      rw [h] at hzero
      exact absurd hzero (Nat.lt_irrefl 0)
    refine ⟨hne, fun hend => ?_⟩
    have hone : (1 : BitVec 32).toNat = 1 := rfl
    have hsize : (idSize - 1).toNat = idSize.toNat - 1 := by
      rw [BitVec.toNat_sub_of_le (BitVec.le_def.mpr (by omega)), hone]
    have hend' : 0 + (idSize - 1).toNat ∈ componentEnds (components ver) 0 := by
      rw [hsize, Nat.zero_add]
      exact hend
    have hover := hrespects.within _ (writeComponents_overflow hend')
    omega
  · rintro ⟨hne, hends⟩
    have hpos : idSize.toNat ≠ 0 := fun h => hne (BitVec.eq_of_toNat_eq h)
    have hone : (1 : BitVec 32).toNat = 1 := rfl
    have hsize : (idSize - 1).toNat = idSize.toNat - 1 := by
      rw [BitVec.toNat_sub_of_le (BitVec.le_def.mpr (by omega)), hone]
    have hseparators : ∀ c ∈ components ver, c.2 ≠ 0 := by
      intro c hc
      simp only [components, List.mem_cons, List.not_mem_nil, or_false] at hc
      obtain rfl | rfl | rfl := hc
      · exact nofun
      · exact nofun
      · exact nofun
    have hends' : 0 + (idSize - 1).toNat ∉ componentEnds (components ver) 0 := by
      rw [hsize, Nat.zero_add]
      exact hends
    have hwrote := @writeComponents_wrote _
      (if idSize = 1 then (Buffer.fresh cell).store 0 0 else Buffer.fresh cell) 0 (idSize - 1)
      hseparators hends' (fun h => absurd h hcomponents)
    rw [hsize] at hwrote
    refine ⟨_, rfl, ?_, fun _ => hwrote.text⟩
    intro k hk
    obtain hbefore | hle := hwrote.within k hk
    · split at hbefore
      · obtain rfl | hnone := Buffer.mem_store_written.mp hbefore
        · omega
        · exact absurd hnone List.not_mem_nil
      · exact absurd hbefore List.not_mem_nil
    · omega

/-- For version 1.0.0 the text must not be cut behind 1, 3 or 5 characters. -/
example : componentEnds (components 0x00010000) 0 = [1, 3, 5] := by decide

/-- **Two bytes** for version 1.0.0: the loop writes to index 2. -/
theorem osKernelGetInfo_twoBytes :
    ¬ ∃ idBuf, osKernelGetInfo 0x00010000 (some ⟨0, 0⟩) (some (Buffer.fresh fun _ => 0)) 2 =
        (.osOK, some ⟨0x00010000, 0x00010000⟩, some idBuf) ∧
      RespectsBuffer 0x00010000 2 idBuf := by
  rintro ⟨idBuf, hresult, hrespects⟩
  obtain rfl := Option.some.inj (congrArg (fun r => r.2.2) hresult)
  have hend : 0 + (1 : BitVec 32).toNat ∈ componentEnds (components 0x00010000) 0 := by decide
  have hover := hrespects.within _ (writeComponents_overflow hend)
  exact absurd hover (by decide)

end Flexpret.Os
