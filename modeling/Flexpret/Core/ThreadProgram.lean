import Flexpret.Core.IsaRefinement

/-! # A Program on the Core

    A thread whose program stays in the thread's own regions of the data scratchpad runs
    on the core as the program runs alone: whatever the scheduler decides, and whatever
    the other threads and the world outside do.
-/

open ByteMemory Rv32 Transition

namespace Flexpret.Core

variable {conf : FlexpretConfiguration}

/-! ## Section 1: Programs -/

/-- The instruction jumps to an even sum, or accesses aligned bytes of `P`. -/
def StaysIn (P : BitVec 32 → Prop) (op : Op) (h : Hart) : Prop :=
  match op with
  | .int w => EvenTarget (h.reg w.rs1) w
  | .load op rd rs1 imm =>
    ((Op.load op rd rs1 imm).address h).toNat % op.size = 0 ∧
      ∀ j, j < op.size → P ((Op.load op rd rs1 imm).address h + BitVec.ofNat 32 j)
  | .store op rs1 rs2 imm =>
    ((Op.store op rs1 rs2 imm).address h).toNat % op.size = 0 ∧
      ∀ j, j < op.size → P ((Op.store op rs1 rs2 imm).address h + BitVec.ofNat 32 j)

theorem StaysIn.readsIn {P : BitVec 32 → Prop} (op : Op) (h : Hart) (hstays : StaysIn P op h) :
    op.ReadsIn h P := by
  cases op with
  | int w => trivial
  | load op rd rs1 imm => exact hstays.2
  | store op rs1 rs2 imm => trivial

/-- The first byte of a load is one of them. -/
theorem StaysIn.load_access {P : BitVec 32 → Prop} {op : LoadOp} {rd rs1 : BitVec 5}
    {imm : BitVec 12} {h : Hart} (hstays : StaysIn P (.load op rd rs1 imm) h) :
    ((Op.load op rd rs1 imm).address h).toNat % op.size = 0 ∧
      P ((Op.load op rd rs1 imm).address h) := by
  obtain ⟨haligned, hall⟩ := hstays
  have hfirst := hall 0 (by cases op <;> decide)
  rw [BitVec.add_zero] at hfirst
  exact ⟨haligned, hfirst⟩

/-- The first byte of a store is one of them. -/
theorem StaysIn.store_access {P : BitVec 32 → Prop} {op : StoreOp} {rs1 rs2 : BitVec 5}
    {imm : BitVec 12} {h : Hart} (hstays : StaysIn P (.store op rs1 rs2 imm) h) :
    ((Op.store op rs1 rs2 imm).address h).toNat % op.size = 0 ∧
      P ((Op.store op rs1 rs2 imm).address h) := by
  obtain ⟨haligned, hall⟩ := hstays
  have hfirst := hall 0 (by cases op <;> decide)
  rw [BitVec.add_zero] at hfirst
  exact ⟨haligned, hfirst⟩

variable (conf) in
/-- The PCs of a program are aligned and in the instruction scratchpad, and the core has
    its instructions. -/
structure Fetchable (program : Program) : Prop where
  aligned : ∀ a op, program a = some op → a.toNat % 4 = 0
  inRange : ∀ a op, program a = some op → a.toNat < 2 ^ (conf.iMemAddrBits + 2)
  has : ∀ a w, program a = some (.int w) → Has conf w

/-- The words of a program lie in the instruction scratchpad. -/
def ISpm.Holds (m : ISpm conf) (program : Program) : Prop :=
  ∀ a op, program a = some op → m.ispm (fetchAddr conf a) = op.encode

variable (conf) in
/-- The region of the data scratchpad that an address lies in. -/
def regionOf (a : BitVec 32) : Fin 8 :=
  Fin.ofNat 8 (addrBits a conf.dMemHighIndex conf.dMemLowIndex)

/-- The bytes of `P` lie in regions of the scratchpad that are marked as those of `t`. -/
structure CoreState.PrivateTo (s : CoreState conf) (t : conf.Tid) (P : BitVec 32 → Prop) :
    Prop where
  inDspm : ∀ k, P k → InDspm conf k
  mode : ∀ k, P k → s.csr.regDmemProtection (regionOf conf k) = BitVec.ofNat 4 t.val

/-- A mode that names a thread permits that thread. -/
theorem permits_own (t u : conf.Tid) :
    permits conf (BitVec.ofNat 4 t.val) u = decide (u = t) := by
  have ht : t.val < 8 := t.isLt.trans_le conf.threads_le
  have htoNat : (BitVec.ofNat 4 t.val).toNat = t.val := by
    rw [BitVec.toNat_ofNat]
    omega
  have hne : BitVec.ofNat 4 t.val ≠ mempSH ∧ BitVec.ofNat 4 t.val ≠ mempRO := by
    constructor
    · intro heq
      have hval := congrArg BitVec.toNat heq
      rw [htoNat] at hval
      exact absurd hval (by rw [mempSH]; show t.val ≠ 8; omega)
    · intro heq
      have hval := congrArg BitVec.toNat heq
      rw [htoNat] at hval
      exact absurd hval (by rw [mempRO]; show t.val ≠ 12; omega)
  have hlow : ((BitVec.ofNat 4 t.val).setWidth conf.threadBits).toNat = t.val := by
    rw [BitVec.toNat_setWidth, htoNat]
    exact Nat.mod_eq_of_lt (conf.tid_lt_two_pow t)
  rw [permits, hlow, decide_eq_false hne.1, Bool.false_or, decide_eq_true hne.2, Bool.and_true]
  exact decide_eq_decide.mpr ⟨fun h => Fin.ext h.symm, fun h => congrArg Fin.val h.symm⟩

/-- The region of an address is that of the byte in the scratchpad that it comes to, also
    where it lies behind the scratchpad. -/
theorem regionOf_congr {a k : BitVec 32} (hk : InDspm conf k)
    (h : dspmIndex conf k = dspmIndex conf a) : regionOf conf k = regionOf conf a := by
  have hten : 10 ≤ conf.dMemAddrBits := by
    have hdepth : 1 ≤ conf.dMemKB := by
      have hlt := hk.2
      unfold FlexpretConfiguration.dMemDepth at hlt
      omega
    have hbits : Nat.clog 2 (2 ^ 10) ≤ Nat.clog 2 (4 * conf.dMemDepth) := by
      apply Nat.clog_mono_right
      unfold FlexpretConfiguration.dMemDepth
      omega
    rw [Nat.clog_pow 2 10 (by decide)] at hbits
    exact hbits.trans (Nat.le_max_right _ _)
  have hhigh : conf.dMemHighIndex + 1 = conf.dMemAddrBits :=
    Nat.sub_add_cancel (Nat.le_trans (by decide) hten)
  have hlow : 2 ≤ conf.dMemLowIndex ∧ conf.dMemLowIndex ≤ conf.dMemAddrBits := by
    have hthree : log2Up FlexpretConfiguration.memRegions = 3 := by decide
    unfold FlexpretConfiguration.dMemLowIndex
    omega
  -- the bits that choose the region are the high ones of the index
  have hfield : ∀ b : BitVec 32, addrBits b conf.dMemHighIndex conf.dMemLowIndex =
      (dspmIndex conf b).toNat / 2 ^ (conf.dMemLowIndex - 2) := by
    intro b
    have hsplit : conf.dMemAddrBits - 2 =
        conf.dMemLowIndex - 2 + (conf.dMemAddrBits - conf.dMemLowIndex) := by omega
    have hword : b.toNat / 4 / 2 ^ (conf.dMemLowIndex - 2) =
        b.toNat / 2 ^ conf.dMemLowIndex := by
      rw [Nat.div_div_eq_div_mul, show 4 = 2 ^ 2 from rfl, ← Nat.pow_add,
        Nat.add_sub_cancel' hlow.1]
    rw [addrBits, hhigh, dspmIndex_toNat, hsplit, Nat.pow_add, Nat.mod_mul_right_div_self, hword]
  rw [regionOf, regionOf, hfield k, hfield a, h]

/-! ## Section 2: No trap -/

theorem checkExceptions_absent {l : List (Bool × Cause)} (h : ∀ e ∈ l, e.1 = false) :
    (checkExceptions conf l).1 = false := by
  rw [Bool.eq_false_iff]
  intro hset
  obtain ⟨e, hmem, he, -⟩ := checkExceptions_present hset
  rw [h e hmem] at he
  exact Bool.noConfusion he

section turn

variable {D : DecodeLogic conf} {st : Nat → CoreState conf} {inp : Nat → CoreIn conf}
  {t : conf.Tid} {c : Nat} {program : Program} {P : BitVec 32 → Prop} {op : Op}

/-- Fetching an aligned PC in the instruction scratchpad is no exception. -/
theorem CoreState.ifExc_of_fetchable {s : CoreState conf} (haligned : s.ifPc.toNat % 4 = 0)
    (hrange : s.ifPc.toNat < 2 ^ (conf.iMemAddrBits + 2)) : s.ifExc.1 = false := by
  have hlow : addrBits s.ifPc 1 0 = 0 := by
    rw [addrBits, Nat.pow_zero, Nat.div_one]
    exact haligned
  have hhigh : addrBits s.ifPc 31 (conf.iMemAddrBits + 2) = 0 := by
    rw [addrBits, Nat.div_eq_of_lt hrange, Nat.zero_mod]
  apply checkExceptions_absent
  intro e he
  obtain rfl | he := List.mem_cons.mp he
  · show (_ && decide (addrBits s.ifPc 1 0 ≠ 0)) = false
    rw [hlow]
    exact Bool.and_false _
  · obtain rfl := List.mem_singleton.mp he
    show (_ && decide (addrBits s.ifPc 31 (conf.iMemAddrBits + 2) ≠ 0)) = false
    rw [hhigh]
    exact Bool.and_false _

/-- What is in execute had no exception before. -/
theorem CoreRun.exc_of_fetchable (h : CoreRun D st inp) (hexe : (st c).inExe t = true)
    (haligned : (st c).exeReg.pc.toNat % 4 = 0)
    (hrange : (st c).exeReg.pc.toNat < 2 ^ (conf.iMemAddrBits + 2))
    (hlegal : (D.decode (st c).exeReg.inst).legal = true)
    (hscall : (D.decode (st c).exeReg.inst).scall = false) : (st c).exeReg.exc = false := by
  obtain ⟨c, rfl, -, -⟩ := h.inDec_of_inExe hexe
  rw [h.next (c + 2)] at haligned hrange hlegal hscall ⊢
  show ((st (c + 2)).decReg.exc || ((st (c + 2)).decExc D).1) = false
  have hdecExc : ((st (c + 2)).decExc D).1 = false := by
    apply checkExceptions_absent
    intro e he
    obtain rfl | he := List.mem_cons.mp he
    · show (!(D.decode (st (c + 2)).decReg.inst).legal) = false
      rw [Bool.not_eq_false']
      exact hlegal
    · obtain rfl := List.mem_singleton.mp he
      exact hscall
  rw [hdecExc, Bool.or_false, h.next (c + 1)]
  have hpc : ((st (c + 2)).next D (inp (c + 2))).exeReg.pc = (st (c + 1)).ifPc := by
    rw [h.next (c + 1)]
    rfl
  rw [hpc] at haligned hrange
  exact CoreState.ifExc_of_fetchable haligned hrange

/-- A load or a store of aligned bytes of the thread's own regions is no exception. -/
theorem CoreState.instExc_of_staysIn {s : CoreState conf}
    (hload : s.exeReg.sig.load = true → ∃ op, s.exeReg.sig.memType = loadTypeOf op ∧
      s.exeAddress.toNat % op.size = 0 ∧ InDspm conf s.exeAddress)
    (hstore : s.exeReg.sig.store = true → ∃ op, s.exeReg.sig.memType = storeTypeOf op ∧
      s.exeAddress.toNat % op.size = 0 ∧ InDspm conf s.exeAddress ∧
        s.loadStoreIn.permission = true) : s.exeInstExc.1 = false := by
  have hbad : InDspm conf s.exeAddress → s.loadStoreIn.badAddress = false := by
    intro hin
    rw [LoadStoreIn.badAddress_eq (i := s.loadStoreIn) hin.1, Bool.not_eq_false']
    exact decide_eq_true (hin.2.trans_le dMemDepth_le)
  have hloads : s.loadStoreIn.load = true → s.exeReg.sig.load = true :=
    fun h => (Bool.and_eq_true_iff.mp h).1
  have hstores : s.loadStoreIn.store = true → s.exeReg.sig.store = true :=
    fun h => (Bool.and_eq_true_iff.mp h).1
  apply checkExceptions_absent
  intro e he
  simp only [List.mem_cons, List.not_mem_nil, or_false] at he
  rcases he with rfl | rfl | rfl | rfl | rfl
  · rfl
  · rw [Bool.eq_false_iff]
    intro hmis
    have hmis : s.loadStoreIn.loadMisaligned = true := hmis
    simp only [LoadStoreIn.loadMisaligned, Bool.and_eq_true, Bool.or_eq_true,
      decide_eq_true_eq] at hmis
    obtain ⟨⟨-, hl⟩, hcase⟩ := hmis
    obtain ⟨op, htype, haligned, -⟩ := hload (hloads hl)
    have htype' : s.loadStoreIn.memType = loadTypeOf op := htype
    have hbits : ∀ n, addrBits s.loadStoreIn.addr n 0 = s.exeAddress.toNat % 2 ^ (n + 1) := by
      intro n
      rw [addrBits, Nat.pow_zero, Nat.div_one]
      rfl
    rw [htype', hbits, hbits] at hcase
    cases op with
    | lb => rcases hcase with ⟨hhalf | hhalf, -⟩ | ⟨hword, -⟩ <;> contradiction
    | lbu => rcases hcase with ⟨hhalf | hhalf, -⟩ | ⟨hword, -⟩ <;> contradiction
    | lh =>
      rcases hcase with ⟨-, hodd⟩ | ⟨hword, -⟩
      · exact hodd haligned
      · contradiction
    | lhu =>
      rcases hcase with ⟨-, hodd⟩ | ⟨hword, -⟩
      · exact hodd haligned
      · contradiction
    | lw =>
      rcases hcase with ⟨hhalf | hhalf, -⟩ | ⟨-, hodd⟩
      · contradiction
      · contradiction
      · exact hodd haligned
  · rw [Bool.eq_false_iff]
    intro hfault
    have hfault : s.loadStoreIn.loadFault = true := hfault
    simp only [LoadStoreIn.loadFault, Bool.and_eq_true] at hfault
    obtain ⟨op, -, -, hin⟩ := hload (hloads hfault.1.2)
    rw [hbad hin] at hfault
    exact Bool.noConfusion hfault.2
  · rw [Bool.eq_false_iff]
    intro hmis
    have hmis : s.loadStoreIn.storeMisaligned = true := hmis
    have hcause : conf.causes.contains Causes.misalignedStore = true ∧
        s.loadStoreIn.store = true := by
      simp only [LoadStoreIn.storeMisaligned, Bool.and_eq_true] at hmis
      exact hmis.1
    obtain ⟨op, htype, haligned, -⟩ := hstore (hstores hcause.2)
    rw [LoadStoreIn.storeMisaligned_eq hcause.1 hcause.2, Bool.not_eq_true'] at hmis
    have haligned' : s.loadStoreIn.aligned = true := by
      show decide (s.exeAddress.toNat % storeSize s.exeReg.sig.memType = 0) = true
      rw [htype, storeSize_eq]
      exact decide_eq_true haligned
    rw [haligned'] at hmis
    exact Bool.noConfusion hmis
  · rw [Bool.eq_false_iff]
    intro hfault
    have hfault : s.loadStoreIn.storeFault = true := hfault
    simp only [LoadStoreIn.storeFault, Bool.and_eq_true] at hfault
    obtain ⟨op, -, -, hin, hpermission⟩ := hstore (hstores hfault.1.2)
    rw [hbad hin, hpermission] at hfault
    exact Bool.noConfusion hfault.2

/-! ## Section 3: A turn of the program -/

/-- What is loaded or stored is in the scratchpad and permitted. -/
theorem CoreState.PrivateTo.permission {s : CoreState conf} (h : s.PrivateTo t P)
    (hprot : conf.memProtection = true) (htid : s.exeReg.tid = t) (hP : P s.exeAddress) :
    s.loadStoreIn.permission = true := by
  have hin := h.inDspm _ hP
  rw [LoadStoreIn.permission_eq (i := s.loadStoreIn) hprot hin.1]
  show permits conf (s.csr.regDmemProtection (regionOf conf s.exeAddress)) s.exeReg.tid = true
  rw [h.mode _ hP, permits_own, htid]
  exact decide_eq_true rfl

/-- **Privacy**: a cycle in which `t` has nothing in execute leaves its private bytes, also
    when another thread stores to an address that is not checked. -/
theorem CoreRun.private_stays (h : CoreRun D st inp) (hprot : conf.memProtection = true)
    (hprivate : (st c).PrivateTo t P) (hexe : (st c).inExe t = false) {k : BitVec 32}
    (hP : P k) : (st (c + 1)).dmem.bytes k = (st c).dmem.bytes k := by
  have hin := hprivate.inDspm k hP
  rw [h.next c]
  show ((st c).dmem.next (st c).loadStoreIn).bytes k = _
  rw [bytes_next]
  refine if_neg fun hcase => ?_
  obtain ⟨hop, hindex, hwrite, -⟩ := hcase
  simp only [LoadStoreIn.write, Bool.and_eq_true] at hop hwrite
  obtain ⟨⟨⟨⟨hstore, hpermitted⟩, -⟩, -⟩, -⟩ := hwrite
  -- the region of the store is that of the byte, so the store is one of `t`
  rw [LoadStoreIn.permission_eq (i := (st c).loadStoreIn) hprot hop.1] at hpermitted
  have hpermits : permits conf
      ((st c).csr.regDmemProtection (regionOf conf (st c).loadStoreIn.addr))
      (st c).exeReg.tid = true := hpermitted
  rw [← regionOf_congr hin hindex, hprivate.mode k hP, permits_own] at hpermits
  have hvalid : ((st c).exeReg.sig.store && (st c).exeReg.valid) = true := hstore
  rw [CoreState.inExe_iff.mpr ⟨(Bool.and_eq_true_iff.mp hvalid).2, of_decide_eq_true hpermits⟩]
    at hexe
  exact Bool.noConfusion hexe

/-- A JALR reads the register that it names. -/
theorem evenTarget_field (w : Inst) (reg : BitVec 5 → BitVec 32)
    (heven : EvenTarget (reg w.rs1) w) :
    EvenTarget (reg (w.encode.extractLsb' 15 5)) w := by
  cases w with
  | jalr rd rs1 imm =>
    rw [show (Inst.jalr rd rs1 imm).encode.extractLsb' 15 5 = rs1 from field_rs1 ..]
    exact heven
  | _ => trivial

/-- The word in execute is that of the program at the thread's PC. -/
theorem CoreRun.inst_of_holds (h : CoreRun D st inp) (hexe : (st c).inExe t = true)
    (hholds : (st (c - 3)).imem.Holds program)
    (hop : program ((st c).hart (inp c).busDataOut t).pc = some op) :
    (st c).exeReg.inst = op.encode := by
  have htrace := h.eq_trace
  have hpc : ((st c).hart (inp c).busDataOut t).pc = (st c).exeReg.pc := by
    show (st c).hartPc t = _
    rw [CoreState.hartPc, hexe, if_pos rfl]
  have hvalid := (CoreState.inExe_iff.mp hexe).1
  rw [htrace c] at hvalid
  obtain ⟨-, hword⟩ := fetched_word D inp h.reset hvalid
  rw [← htrace c, ← htrace (c - 3)] at hword
  rw [hpc] at hop
  exact hword.trans (hholds _ op hop)

/-- An instruction of the program is legal and no system call. -/
theorem op_legal (hfetch : Fetchable conf program) {a : BitVec 32} (hop : program a = some op) :
    ((opEntry op).row conf).legal = true ∧ ((opEntry op).row conf).scall = false := by
  cases op with
  | int w =>
    have hflags := int_flags (hfetch.has _ w hop)
    exact ⟨hflags.1, hflags.2.1⟩
  | load op rd rs1 imm =>
    rw [opEntry, loadEntry_row]
    exact ⟨rfl, rfl⟩
  | store op rs1 rs2 imm =>
    rw [opEntry, storeEntry_row]
    exact ⟨rfl, rfl⟩

/-- An instruction that stays in private bytes is no exception in execute. -/
theorem FromDecode.instExc_of_staysIn {d : CoreState conf} {i : CoreIn conf}
    (hd : FromDecode D st inp t c d i) (hinst : d.decReg.inst = op.encode)
    (hprot : conf.memProtection = true) (htid : (st c).exeReg.tid = t)
    (hfetch : Fetchable conf program) (hprivate : (st c).PrivateTo t P) {a : BitVec 32}
    (hop : program a = some op) (hstays : StaysIn P op ((st c).hart (inp c).busDataOut t)) :
    (st c).exeInstExc.1 = false := by
  have hagrees := agrees_op (D := D) hinst
  have hsig : (st c).exeReg.sig = d.dec D := by
    rw [hd.next]
    rfl
  apply CoreState.instExc_of_staysIn
  · intro hload
    rw [hsig, congrArg Flags.load hagrees.flags] at hload
    cases op with
    | int w =>
      have hflags := int_flags (hfetch.has _ w hop)
      exact Bool.noConfusion (hload.symm.trans hflags.2.2.1)
    | load op rd rs1 imm =>
      rw [opEntry, loadEntry_row] at hagrees
      obtain ⟨haligned, hfirst⟩ := hstays.load_access
      rw [← hd.load_address hinst] at haligned hfirst
      exact ⟨op, hsig ▸ hagrees.memType _ rfl, haligned, hprivate.inDspm _ hfirst⟩
    | store op rs1 rs2 imm =>
      rw [opEntry, storeEntry_row] at hload
      exact Bool.noConfusion hload
  · intro hstore
    rw [hsig, congrArg Flags.store hagrees.flags] at hstore
    cases op with
    | int w =>
      have hflags := int_flags (hfetch.has _ w hop)
      exact Bool.noConfusion (hstore.symm.trans hflags.2.2.2.1)
    | load op rd rs1 imm =>
      rw [opEntry, loadEntry_row] at hstore
      exact Bool.noConfusion hstore
    | store op rs1 rs2 imm =>
      rw [opEntry, storeEntry_row] at hagrees
      obtain ⟨haligned, hfirst⟩ := hstays.store_access
      rw [← hd.store_address hinst] at haligned hfirst
      exact ⟨op, hsig ▸ hagrees.memType _ rfl, haligned, hprivate.inDspm _ hfirst,
        hprivate.permission hprot htid hfirst⟩

/-- **An instruction of the program** gets its turn. -/
theorem CoreRun.retires_program (h : CoreRun D st inp) (hflex : conf.flex = true)
    (hprot : conf.memProtection = true) (hexe : (st c).inExe t = true)
    (hfetch : Fetchable conf program) (hholds : (st (c - 3)).imem.Holds program)
    (hprivate : (st c).PrivateTo t P) (hquiet : (st c).exeAnyExc.1 = false)
    (hop : program ((st c).hart (inp c).busDataOut t).pc = some op)
    (hstays : StaysIn P op ((st c).hart (inp c).busDataOut t)) :
    Retires st inp c (.exec t op) := by
  obtain ⟨hvalid, htid⟩ := CoreState.inExe_iff.mp hexe
  obtain ⟨d, i, hd⟩ := h.fromDecode hflex hexe
  have hinst := h.inst_of_holds hexe hholds hop
  have hinst' : d.decReg.inst = op.encode := by
    rw [← hinst, hd.next]
    rfl
  have hagrees := agrees_op (D := D) hinst'
  have hsig : (st c).exeReg.sig = d.dec D := by
    rw [hd.next]
    rfl
  have hpc : ((st c).hart (inp c).busDataOut t).pc = (st c).exeReg.pc := by
    show (st c).hartPc t = _
    rw [CoreState.hartPc, hexe, if_pos rfl]
  -- neither the fetch, nor the decoding, nor the access is an exception
  have hexc : (st c).exeReg.exc = false := by
    have hdecode : D.decode (st c).exeReg.inst = d.dec D := by
      rw [hd.next]
      rfl
    obtain ⟨hlegal, hscall⟩ := op_legal hfetch hop
    refine h.exc_of_fetchable hexe (hpc ▸ hfetch.aligned _ op hop)
      (hpc ▸ hfetch.inRange _ op hop) ?_ ?_
    · rw [hdecode, congrArg Flags.legal hagrees.flags]
      exact hlegal
    · rw [hdecode, congrArg Flags.scall hagrees.flags]
      exact hscall
  have hinstExc := hd.instExc_of_staysIn hinst' hprot htid hfetch hprivate hop hstays
  have htrap : (st c).exeException = false := by
    rw [CoreState.exeException, hexc, hinstExc, hquiet, Bool.or_self, Bool.or_self,
      Bool.and_false]
  have hcommit : (st c).exeValid = true := by
    rw [CoreState.exeValid, hvalid, htrap]
    rfl
  rw [← htid]
  refine .exec op hcommit hinst ?_
  cases op with
  | int w =>
    have hrs1 : (st c).exeReg.rs1Data =
        ((st c).hart (inp c).busDataOut t).reg (w.encode.extractLsb' 15 5) := by
      rw [← show d.decReg.inst = w.encode from hinst', ← hd.rs1, hd.next]
      rfl
    refine ⟨hfetch.has _ w hop, ?_⟩
    rw [hrs1]
    exact evenTarget_field w _ hstays
  | load op rd rs1 imm =>
    obtain ⟨haligned, hfirst⟩ := hstays.load_access
    rw [← hd.load_address hinst'] at haligned hfirst
    exact ⟨hprivate.inDspm _ hfirst, haligned⟩
  | store op rs1 rs2 imm =>
    rw [opEntry, storeEntry_row] at hagrees
    obtain ⟨haligned, hfirst⟩ := hstays.store_access
    rw [← hd.store_address hinst'] at haligned hfirst
    constructor
    case store =>
      show ((st c).exeReg.sig.store && (st c).exeReg.valid) = true
      rw [hsig, congrArg Flags.store hagrees.flags, hvalid]
      rfl
    case inDspm => exact hprivate.inDspm _ hfirst
    case aligned =>
      show (st c).exeAddress.toNat % storeSize (st c).exeReg.sig.memType = 0
      rw [hsig, hagrees.memType _ rfl, storeSize_eq]
      exact haligned
    case permitted => exact hprivate.permission hprot htid hfirst
    case alive =>
      show ((st c).exeReg.exc || (st c).exeAnyExc.1) = false
      rw [hexc, hquiet]
      rfl

/-- What stores as an instruction of RV32 needs no check. -/
theorem CoreRun.checked_of_exec (h : CoreRun D st inp) (hflex : conf.flex = true) {u : conf.Tid}
    (hretires : Retires st inp c (.exec u op)) : (st c).loadStoreIn.Checked := by
  obtain ⟨hvalid, hinst, hplain⟩ : (st c).exeValid = true ∧ (st c).exeReg.inst = op.encode ∧
      (st c).Plain op := by
    cases hretires with
    | exec op hvalid hinst hplain => exact ⟨hvalid, hinst, hplain⟩
  have hexe := CoreState.inExe_iff.mpr ⟨CoreState.exeReg_valid_of_valid hvalid, rfl⟩
  obtain ⟨d, i, hd⟩ := h.fromDecode hflex hexe
  have hinst' : d.decReg.inst = op.encode := by
    rw [← hinst, hd.next]
    rfl
  have hagrees := agrees_op (D := D) hinst'
  have hsig : (st c).exeReg.sig = d.dec D := by
    rw [hd.next]
    rfl
  have hnone : ((opEntry op).row conf).toFlags.store = false →
      ¬ (st c).loadStoreIn.ReachesData := by
    intro hno hreaches
    have hstore : ((st c).exeReg.sig.store && (st c).exeReg.valid) = true := hreaches.store
    rw [hsig, congrArg Flags.store hagrees.flags, hno, Bool.false_and] at hstore
    exact Bool.noConfusion hstore
  cases op with
  | int w =>
    have hno := hnone (int_flags hplain.1).2.2.2.1
    exact ⟨fun hreaches => absurd hreaches hno, fun hreaches => absurd hreaches hno⟩
  | load op rd rs1 imm =>
    have hno := hnone (by
      rw [opEntry, loadEntry_row]
      rfl)
    exact ⟨fun hreaches => absurd hreaches hno, fun hreaches => absurd hreaches hno⟩
  | store op rs1 rs2 imm => exact ⟨fun _ => .inl hplain.aligned, fun _ => .inl hplain.inDspm⟩

end turn

/-! ## Section 4: Runs -/

section runs

variable {D : DecodeLogic conf} {st : Nat → CoreState conf} {inp : Nat → CoreIn conf}
  {t : conf.Tid} {program : Program} {P : BitVec 32 → Prop} {c₀ n N : Nat}

/-- The instructions of `t` that have been in execute in the `n` cycles from `c₀` on. -/
def turnsOf (st : Nat → CoreState conf) (t : conf.Tid) (c₀ : Nat) : Nat → Nat
  | 0 => 0
  | n + 1 => turnsOf st t c₀ n + if (st (c₀ + n)).inExe t then 1 else 0

/-- A thread and the scratchpad in cycle `c`. -/
def viewOf (st : Nat → CoreState conf) (inp : Nat → CoreIn conf) (t : conf.Tid) (c : Nat) :
    View :=
  ((st c).machine (inp c).busDataOut).view t

/-- What holds in the `n` cycles from `c₀` on: the bytes of `P` are those of `t`, and no
    timer and no interrupt ends an instruction of `t`.  Its program lies in the instruction
    scratchpad from the fetch of what is in execute in cycle `c₀` on. -/
structure LeftAlone (st : Nat → CoreState conf) (t : conf.Tid) (program : Program)
    (P : BitVec 32 → Prop) (c₀ n : Nat) : Prop where
  holds : ∀ c, c₀ ≤ c + 3 → c < c₀ + n → (st c).imem.Holds program
  isPrivate : ∀ c, c₀ ≤ c → c < c₀ + n → (st c).PrivateTo t P
  quiet : ∀ c, c₀ ≤ c → c < c₀ + n → (st c).inExe t = true → (st c).exeAnyExc.1 = false

theorem LeftAlone.before (h : LeftAlone st t program P c₀ (n + 1)) :
    LeftAlone st t program P c₀ n := by
  constructor
  case holds => exact fun c hc hc' => h.holds c hc (by omega)
  case isPrivate => exact fun c hc hc' => h.isPrivate c hc (by omega)
  case quiet => exact fun c hc hc' => h.quiet c hc (by omega)

/-- **One cycle**: the program goes on at its turn and stays at others. -/
theorem CoreRun.tracks_next (h : CoreRun D st inp) (hflex : conf.flex = true)
    (hprot : conf.memProtection = true) (hfetch : Fetchable conf program)
    (hsafe : program.Safe (StaysIn P) (viewOf st inp t c₀) N)
    (halone : LeftAlone st t program P c₀ (n + 1)) (hturns : turnsOf st t c₀ (n + 1) ≤ N)
    (htracks : Tracks program P t (viewOf st inp t c₀) (turnsOf st t c₀ n)
      ((st (c₀ + n)).machine (inp (c₀ + n)).busDataOut)) :
    Tracks program P t (viewOf st inp t c₀) (turnsOf st t c₀ (n + 1))
      ((st (c₀ + n + 1)).machine (inp (c₀ + n + 1)).busDataOut) := by
  have hprivate := halone.isPrivate (c₀ + n) (by omega) (by omega)
  rw [turnsOf] at hturns ⊢
  cases hexe : (st (c₀ + n)).inExe t with
  | true =>
    rw [hexe, if_pos rfl] at hturns
    obtain ⟨v, hrun, hagrees⟩ := id htracks
    obtain ⟨op, hop, hstays⟩ := hsafe _ v (by omega) hrun
    have hhart : v.hart = (st (c₀ + n)).hart (inp (c₀ + n)).busDataOut t := hagrees.hart
    rw [hhart] at hop hstays
    have hretires := h.retires_program hflex hprot hexe hfetch
      (halone.holds (c₀ + n - 3) (by omega) (by omega)) hprivate
      (halone.quiet (c₀ + n) (by omega) (by omega) hexe) hop hstays
    rw [h.machine_next hflex (h.checked_of_exec hflex hretires) hretires, if_pos rfl]
    exact htracks.exec hop hstays.readsIn
  | false =>
    rw [if_neg Bool.false_ne_true, Nat.add_zero]
    apply htracks.stay
    · exact h.hart_stay hflex hexe
    · intro k hk
      have hin := hprivate.inDspm k hk
      show (st (c₀ + n + 1)).scratchpad k = (st (c₀ + n)).scratchpad k
      rw [CoreState.scratchpad, CoreState.scratchpad, if_pos hin, if_pos hin]
      exact h.private_stays hprot hprivate hexe hk

/-- **A run** of the program. -/
theorem CoreRun.tracks_program (h : CoreRun D st inp) (hflex : conf.flex = true)
    (hprot : conf.memProtection = true) (hfetch : Fetchable conf program)
    (hsafe : program.Safe (StaysIn P) (viewOf st inp t c₀) N)
    (halone : LeftAlone st t program P c₀ n) (hturns : turnsOf st t c₀ n ≤ N) :
    Tracks program P t (viewOf st inp t c₀) (turnsOf st t c₀ n)
      ((st (c₀ + n)).machine (inp (c₀ + n)).busDataOut) := by
  induction n with
  | zero => exact tracks_zero _
  | succ n ih =>
    refine h.tracks_next hflex hprot hfetch hsafe halone hturns ?_
    exact ih halone.before (le_trans (Nat.le_add_right _ _) hturns)

end runs

/-- **A program on the core**: a thread whose program, run alone, keeps to aligned bytes
    of the thread's own regions is after each cycle where the program alone is after as
    many instructions as the thread has had in execute, with the same bytes in its
    regions.  While it is left alone the schedule, the other threads and the inputs do not
    matter. -/
theorem program_runs_alone (hflex : conf.flex = true) (hprot : conf.memProtection = true)
    (D : DecodeLogic conf) (st : Nat → CoreState conf) (inp : Nat → CoreIn conf)
    (h : CoreRun D st inp) (t : conf.Tid) (program : Program) (P : BitVec 32 → Prop)
    (hfetch : Fetchable conf program) (c₀ n N : Nat)
    (hsafe : program.Safe (StaysIn P) (viewOf st inp t c₀) N)
    (halone : LeftAlone st t program P c₀ n) (hturns : turnsOf st t c₀ n ≤ N) :
    ∃ v, program.run (turnsOf st t c₀ n) (viewOf st inp t c₀) = some v ∧
      v.Agrees P (viewOf st inp t (c₀ + n)) :=
  h.tracks_program hflex hprot hfetch hsafe halone hturns

/-- **Isolation**: in two runs that leave it alone, of whatever other threads, schedules
    and inputs, a thread that starts with the same registers and the same bytes in its
    regions has the same registers and bytes whenever it has had equally many instructions
    in execute. -/
theorem program_isolated (hflex : conf.flex = true) (hprot : conf.memProtection = true)
    (D D' : DecodeLogic conf) (st st' : Nat → CoreState conf) (inp inp' : Nat → CoreIn conf)
    (h : CoreRun D st inp) (h' : CoreRun D' st' inp') (t : conf.Tid) (program : Program)
    (P : BitVec 32 → Prop) (hfetch : Fetchable conf program) (c₀ c₀' n n' N : Nat)
    (hsame : (viewOf st inp t c₀).Agrees P (viewOf st' inp' t c₀'))
    (hsafe : program.Safe (StaysIn P) (viewOf st inp t c₀) N)
    (halone : LeftAlone st t program P c₀ n)
    (halone' : LeftAlone st' t program P c₀' n')
    (hturns : turnsOf st t c₀ n = turnsOf st' t c₀' n') (hN : turnsOf st t c₀ n ≤ N) :
    (viewOf st inp t (c₀ + n)).Agrees P (viewOf st' inp' t (c₀' + n')) := by
  have hsafe' := hsafe.of_agrees hsame StaysIn.readsIn
  obtain ⟨v, hrun, hagrees⟩ := h.tracks_program hflex hprot hfetch hsafe halone hN
  obtain ⟨v', hrun', hagrees'⟩ :=
    h'.tracks_program hflex hprot hfetch hsafe' halone' (hturns ▸ hN)
  obtain ⟨w, w', hw, hw', hww⟩ := Program.run_agrees hsame hsafe StaysIn.readsIn hN
  obtain rfl : w = v := Option.some.inj (hw.symm.trans hrun)
  rw [hturns] at hw'
  obtain rfl : w' = v' := Option.some.inj (hw'.symm.trans hrun')
  constructor
  case hart => exact hagrees.hart.symm.trans (hww.hart.trans hagrees'.hart)
  case mem =>
    intro k hk
    exact (hagrees.mem k hk).symm.trans ((hww.mem k hk).trans (hagrees'.mem k hk))

/-! ## Section 5: A thread that shares the core -/

/-- `csrrwi dMemProtection, MEMP_T0`, and then `lui x2, 0x20000`, `sw x1, 0(x2)` and
    `lb x3, 0(x2)`. -/
def ownRegion (a : Nat) : BitVec 32 :=
  if a = 0 then 0x50c05073 else if a = 1 then 0x20000137 else if a = 2 then 0x00112023
  else if a = 3 then 0x00010183 else 0x13

/-- What thread 0 does in its region. -/
def ownProgram : Program := fun a =>
  if a = 4 then some (.int (.lui 2 0x20000)) else if a = 8 then some (.store .sw 2 1 0)
  else if a = 12 then some (.load .lb 3 2 0) else none

/-- The first word of the scratchpad. -/
def FirstWord (k : BitVec 32) : Prop :=
  k = 0x20000000 ∨ k = 0x20000001 ∨ k = 0x20000002 ∨ k = 0x20000003

def ownRegionRun (turn : Nat → Fin 4) : Nat → CoreState conf4tf :=
  Machine.trace (CoreState.next (DecodeLogic.zeros conf4tf)) (coreZero conf4tf ownRegion)
    fun c => issue conf4tf (turn c)

/-- Thread 0 alone, and in turns with thread 1, whose store is not permitted. -/
def aloneTurn (_ : Nat) : Fin 4 := 0
def sharedTurn (c : Nat) : Fin 4 := if c % 2 = 0 then 0 else 1

/-- Thread 0 has its three instructions in the `n` cycles from `c₀` on. -/
abbrev OwnRegionStages (turn : Nat → Fin 4) (c₀ n : Nat) : Prop :=
  (∀ c, c < c₀ + n → (ownRegionRun turn c).imem.ispm (fetchAddr conf4tf 4) = 0x20000137 ∧
    (ownRegionRun turn c).imem.ispm (fetchAddr conf4tf 8) = 0x00112023 ∧
    (ownRegionRun turn c).imem.ispm (fetchAddr conf4tf 12) = 0x00010183) ∧
  (∀ k, k < n → (ownRegionRun turn (c₀ + k)).csr.regDmemProtection 0 = 0 ∧
    (ownRegionRun turn (c₀ + k)).exeAnyExc.1 = false) ∧
  (ownRegionRun turn c₀).hartPc (0 : Fin 4) = 4 ∧
  (∀ r, (ownRegionRun turn c₀).hartReg 0 (0 : Fin 4) r = 0) ∧
  (ownRegionRun turn c₀).dmem.dspm (dspmIndex conf4tf 0x20000000) = 0 ∧
  turnsOf (ownRegionRun turn) (0 : Fin 4) c₀ n = 3

/-- Both runs, and where the program and its region lie. -/
theorem ownRegion_facts : OwnRegionStages aloneTurn 5 3 ∧ OwnRegionStages sharedTurn 6 5 ∧
    12 < 2 ^ (conf4tf.iMemAddrBits + 2) ∧
    ∀ j, j < 4 → regionOf conf4tf (0x20000000 + BitVec.ofNat 32 j) = 0 := by
  decide +kernel

theorem ownRegion_alone : OwnRegionStages aloneTurn 5 3 := ownRegion_facts.1

theorem ownRegion_shared : OwnRegionStages sharedTurn 6 5 := ownRegion_facts.2.1

theorem ownProgram_cases {a : BitVec 32} {op : Op} (h : ownProgram a = some op) :
    (a = 4 ∧ op = .int (.lui 2 0x20000)) ∨ (a = 8 ∧ op = .store .sw 2 1 0) ∨
      (a = 12 ∧ op = .load .lb 3 2 0) := by
  unfold ownProgram at h
  split at h
  · next ha => exact .inl ⟨ha, (Option.some.inj h).symm⟩
  · split at h
    · next ha => exact .inr (.inl ⟨ha, (Option.some.inj h).symm⟩)
    · split at h
      · next ha => exact .inr (.inr ⟨ha, (Option.some.inj h).symm⟩)
      · contradiction

theorem ownProgram_fetchable : Fetchable conf4tf ownProgram := by
  have hrange := ownRegion_facts.2.2.1
  constructor
  case aligned =>
    intro a op hop
    obtain ⟨rfl, -⟩ | ⟨rfl, -⟩ | ⟨rfl, -⟩ := ownProgram_cases hop
    all_goals rfl
  case inRange =>
    intro a op hop
    have hle : a.toNat ≤ 12 := by
      obtain ⟨rfl, -⟩ | ⟨rfl, -⟩ | ⟨rfl, -⟩ := ownProgram_cases hop
      all_goals decide
    exact hle.trans_lt hrange
  case has =>
    intro a w hop
    obtain ⟨-, hw⟩ | ⟨-, hw⟩ | ⟨-, hw⟩ := ownProgram_cases hop
    · obtain rfl := Op.int.inj hw
      trivial
    · contradiction
    · contradiction

/-- The program alone stores and loads the first word. -/
theorem ownProgram_safe {v : View} (hpc : v.hart.pc = 4) :
    ownProgram.Safe (StaysIn FirstWord) v 3 := by
  have hlui : ownProgram.run 1 v = some ((Op.int (.lui 2 0x20000)).exec v) :=
    Program.run_succ rfl (by rw [hpc]; rfl)
  have hpc1 : ((Op.int (.lui 2 0x20000)).exec v).hart.pc = 8 := by
    show v.hart.pc + 4 = 8
    rw [hpc]
    rfl
  have hreg : ((Op.int (.lui 2 0x20000)).exec v).hart.reg 2 = 0x20000000 := rfl
  have hsw : ownProgram.run 2 v =
      some ((Op.store .sw 2 1 0).exec ((Op.int (.lui 2 0x20000)).exec v)) :=
    Program.run_succ hlui (by rw [hpc1]; rfl)
  have hbytes : ∀ j, j < 4 → FirstWord (0x20000000 + BitVec.ofNat 32 j) := by
    intro j hj
    obtain rfl | rfl | rfl | rfl : j = 0 ∨ j = 1 ∨ j = 2 ∨ j = 3 := by omega
    · exact .inl rfl
    · exact .inr (.inl rfl)
    · exact .inr (.inr (.inl rfl))
    · exact .inr (.inr (.inr rfl))
  intro n w hn hrun
  obtain rfl | rfl | rfl : n = 0 ∨ n = 1 ∨ n = 2 := by omega
  · obtain rfl := Option.some.inj hrun
    exact ⟨.int (.lui 2 0x20000), by rw [hpc]; rfl, trivial⟩
  · obtain rfl := Option.some.inj (hlui.symm.trans hrun)
    refine ⟨.store .sw 2 1 0, by rw [hpc1]; rfl, ?_⟩
    show ((((Op.int (.lui 2 0x20000)).exec v).hart.reg 2) + 0).toNat % 4 = 0 ∧ ∀ j, j < 4 →
      FirstWord ((((Op.int (.lui 2 0x20000)).exec v).hart.reg 2) + 0 + BitVec.ofNat 32 j)
    rw [hreg]
    exact ⟨rfl, hbytes⟩
  · obtain rfl := Option.some.inj (hsw.symm.trans hrun)
    have hpc2 : ((Op.store .sw 2 1 0).exec ((Op.int (.lui 2 0x20000)).exec v)).hart.pc = 12 := by
      show ((Op.int (.lui 2 0x20000)).exec v).hart.pc + 4 = 12
      rw [hpc1]
      rfl
    have hreg2 : ((Op.store .sw 2 1 0).exec
        ((Op.int (.lui 2 0x20000)).exec v)).hart.reg 2 = 0x20000000 := rfl
    refine ⟨.load .lb 3 2 0, by rw [hpc2]; rfl, ?_⟩
    show ((((Op.store .sw 2 1 0).exec ((Op.int (.lui 2 0x20000)).exec v)).hart.reg 2) + 0).toNat %
      1 = 0 ∧ ∀ j, j < 1 → FirstWord ((((Op.store .sw 2 1 0).exec
        ((Op.int (.lui 2 0x20000)).exec v)).hart.reg 2) + 0 + BitVec.ofNat 32 j)
    rw [hreg2]
    exact ⟨Nat.mod_one _, fun j hj => hbytes j (by omega)⟩

section stages

variable {turn : Nat → Fin 4} {c₀ n : Nat}

theorem ownRegion_leftAlone (h : OwnRegionStages turn c₀ n) :
    LeftAlone (ownRegionRun turn) (0 : Fin 4) ownProgram FirstWord c₀ n := by
  obtain ⟨hwords, hcycles, -⟩ := h
  have hcycle : ∀ c, c₀ ≤ c → c < c₀ + n →
      (ownRegionRun turn c).csr.regDmemProtection 0 = 0 ∧
        (ownRegionRun turn c).exeAnyExc.1 = false := by
    intro c hc hc'
    obtain ⟨k, rfl⟩ := Nat.exists_eq_add_of_le hc
    exact hcycles k (by omega)
  constructor
  case holds =>
    intro c _ hc a op hop
    obtain ⟨rfl, rfl⟩ | ⟨rfl, rfl⟩ | ⟨rfl, rfl⟩ := ownProgram_cases hop
    · exact (hwords c hc).1
    · exact (hwords c hc).2.1
    · exact (hwords c hc).2.2
  case isPrivate =>
    intro c hc hc'
    constructor
    case inDspm =>
      intro k hk
      obtain rfl | rfl | rfl | rfl := hk
      all_goals decide
    case mode =>
      intro k hk
      have hregion : regionOf conf4tf k = 0 := by
        obtain ⟨-, -, -, hregions⟩ := ownRegion_facts
        obtain rfl | rfl | rfl | rfl := hk
        · exact hregions 0 (by decide)
        · exact hregions 1 (by decide)
        · exact hregions 2 (by decide)
        · exact hregions 3 (by decide)
      rw [hregion]
      exact (hcycle c hc hc').1
  case quiet => exact fun c hc hc' _ => (hcycle c hc hc').2

theorem ownRegion_agrees {turn' : Nat → Fin 4} {c₀' n' : Nat} (h : OwnRegionStages turn c₀ n)
    (h' : OwnRegionStages turn' c₀' n') :
    (viewOf (ownRegionRun turn) (fun c => issue conf4tf (turn c)) (0 : Fin 4) c₀).Agrees FirstWord
      (viewOf (ownRegionRun turn') (fun c => issue conf4tf (turn' c)) (0 : Fin 4) c₀') := by
  obtain ⟨-, -, hpc, hregs, hword, -⟩ := h
  obtain ⟨-, -, hpc', hregs', hword', -⟩ := h'
  constructor
  case hart =>
    ext1
    · exact hpc.trans hpc'.symm
    · funext r
      exact (hregs r).trans (hregs' r).symm
  case mem =>
    intro k hk
    have hin : InDspm conf4tf k ∧ dspmIndex conf4tf k = dspmIndex conf4tf 0x20000000 := by
      obtain rfl | rfl | rfl | rfl := hk
      · exact ⟨by decide, rfl⟩
      · exact ⟨by decide, dspmIndex_congr rfl⟩
      · exact ⟨by decide, dspmIndex_congr rfl⟩
      · exact ⟨by decide, dspmIndex_congr rfl⟩
    show (ownRegionRun turn c₀).scratchpad k = (ownRegionRun turn' c₀').scratchpad k
    rw [CoreState.scratchpad, CoreState.scratchpad, if_pos hin.1, if_pos hin.1, DSpm.bytes,
      DSpm.bytes, hin.2, hword, hword']

theorem ownRegion_safe (h : OwnRegionStages turn c₀ n) :
    ownProgram.Safe (StaysIn FirstWord)
      (viewOf (ownRegionRun turn) (fun c => issue conf4tf (turn c)) (0 : Fin 4) c₀) 3 :=
  ownProgram_safe h.2.2.1

end stages

theorem ownRegion_coreRun (turn : Nat → Fin 4) :
    CoreRun (DecodeLogic.zeros conf4tf) (ownRegionRun turn) fun c => issue conf4tf (turn c) :=
  coreRun_trace _ (coreZero_reset conf4tf ownRegion) _

theorem ownRegion_runs_alone :
    ∃ v, ownProgram.run (turnsOf (ownRegionRun sharedTurn) (0 : Fin 4) 6 5)
        (viewOf (ownRegionRun sharedTurn) (fun c => issue conf4tf (sharedTurn c)) (0 : Fin 4) 6) =
          some v ∧
      v.Agrees FirstWord (viewOf (ownRegionRun sharedTurn)
        (fun c => issue conf4tf (sharedTurn c)) (0 : Fin 4) (6 + 5)) :=
  program_runs_alone rfl rfl (DecodeLogic.zeros conf4tf) (ownRegionRun sharedTurn)
    (fun c => issue conf4tf (sharedTurn c)) (ownRegion_coreRun sharedTurn) (0 : Fin 4) ownProgram
    FirstWord ownProgram_fetchable 6 5 3 (ownRegion_safe ownRegion_shared)
    (ownRegion_leftAlone ownRegion_shared) ownRegion_shared.2.2.2.2.2.le

theorem ownRegion_isolated :
    (viewOf (ownRegionRun aloneTurn) (fun c => issue conf4tf (aloneTurn c)) (0 : Fin 4)
        (5 + 3)).Agrees FirstWord
      (viewOf (ownRegionRun sharedTurn) (fun c => issue conf4tf (sharedTurn c)) (0 : Fin 4)
        (6 + 5)) :=
  program_isolated rfl rfl (DecodeLogic.zeros conf4tf) (DecodeLogic.zeros conf4tf)
    (ownRegionRun aloneTurn) (ownRegionRun sharedTurn) (fun c => issue conf4tf (aloneTurn c))
    (fun c => issue conf4tf (sharedTurn c)) (ownRegion_coreRun aloneTurn)
    (ownRegion_coreRun sharedTurn) (0 : Fin 4) ownProgram FirstWord ownProgram_fetchable 5 6 3 5 3
    (ownRegion_agrees ownRegion_alone ownRegion_shared) (ownRegion_safe ownRegion_alone)
    (ownRegion_leftAlone ownRegion_alone) (ownRegion_leftAlone ownRegion_shared)
    (ownRegion_alone.2.2.2.2.2.trans ownRegion_shared.2.2.2.2.2.symm)
    ownRegion_alone.2.2.2.2.2.le

end Flexpret.Core
