import Flexpret.Os.TrapCode

/-! # Runs of the Trap Routine

    All threads run at once: each executes a line of the trap routine, a piece of
    its own program or of a handler, or takes a trap.  The threads share the
    memory.  A program keeps to its own stack and to what it shares with others;
    the `epc` table belongs to the routine.
-/

open Assembly

namespace Flexpret.Os

variable {b : OsBuild}

/-! ## Section 1: Steps -/

/-- A thread. -/
structure Hart where
  x : RegFile
  csrs : HartCsrs
  pc : Word

/-- All threads and the memory. -/
structure TrapState (b : OsBuild) where
  mem : Memory
  hart : Tid b → Hart

/-- What one of them sees. -/
def TrapState.view (s : TrapState b) (t : Tid b) : Machine HartCsrs where
  x := (s.hart t).x
  csrs := (s.hart t).csrs
  mem := s.mem
  pc := (s.hart t).pc

/-- A thread executes a line of the routine, or code outside of it, or takes a
    trap. -/
inductive TrapEvent where
  | line
  | outside
  | trap (cause : Core.Cause)
  deriving DecidableEq

/-- What the programs of a thread leave alone: the stacks of the other threads,
    and the `epc` table. -/
def TrapLayout.Foreign (L : TrapLayout b) (t : Tid b) (a : Word) : Prop :=
  (∃ u, u ≠ t ∧ L.stack u a) ∨ ∃ u, a = L.epcAddr u

/-- A step of a program or a handler.  It enters the routine only where a handler
    returns. -/
structure OutsideStep (L : TrapLayout b) (hL : L.Sound) (t : Tid b) (s s' : TrapState b) :
    Prop where
  leaves : (trapRoutine L hL).Outside (s.hart t).pc
  enters : (trapRoutine L hL).Outside (s'.hart t).pc ∨ (s'.hart t).pc = L.addr restoreEpcLine
  mem : ∀ a, L.Foreign t a → s'.mem a = s.mem a

/-- What the step of another thread does to a thread: trap entry clears the
    interrupt enable bits of all threads. -/
def TrapEvent.others : TrapEvent → Hart → Hart
  | .trap _, h =>
      let csrs : HartCsrs := { h.csrs with ie := false }
      { h with csrs := csrs }
  | _, h => h

@[simp] theorem TrapEvent.others_x (ev : TrapEvent) (h : Hart) : (ev.others h).x = h.x := by
  cases ev <;> rfl

@[simp] theorem TrapEvent.others_pc (ev : TrapEvent) (h : Hart) : (ev.others h).pc = h.pc := by
  cases ev <;> rfl

/-- One step of thread `t`.  The startup code has set `evec`. -/
structure TrapStep (L : TrapLayout b) (hL : L.Sound) (t : Tid b) (ev : TrapEvent)
    (s s' : TrapState b) : Prop where
  others : ∀ u, u ≠ t → s'.hart u = ev.others (s.hart u)
  line : ev = .line → (trapRoutine L hL).step (csrFile t) (s.view t) = some (s'.view t)
  outside : ev = .outside → OutsideStep L hL t s s'
  trap : ∀ cause, ev = .trap cause →
    (s.hart t).csrs.evec = L.addr 0 ∧ s'.view t = takeTrap cause (s.view t)

/-- A run, in which all threads start outside the routine. -/
structure TrapRun (L : TrapLayout b) (hL : L.Sound) where
  state : Nat → TrapState b
  thread : Nat → Tid b
  event : Nat → TrapEvent
  init : ∀ t, (trapRoutine L hL).Outside ((state 0).hart t).pc
  step : ∀ k, TrapStep L hL (thread k) (event k) (state k) (state (k + 1))

/-! ## Section 2: The lines -/

/-- What there is to say of a line by its number: where it goes on, and what it
    stores. -/
def lineFits (line : Line TrapCsr) (i : Nat) : Bool :=
  match line with
  | .beq _ _ target => 41 ≤ i && i + 1 < 103 && 50 ≤ target && target < 103
  | .j target => 41 ≤ i && 50 ≤ target && target < 103
  | .jalr _ _ => i = 63 || i = 101
  | .sw r imm rs => (0 < i && i < 32 && imm = frameOff r && rs = sp) ||
      (i = 40 && r = a1 && imm = 0 && rs = a7)
  | _ => i + 1 < 103

theorem trapEntry_length (L : TrapLayout b) : (trapEntry L).length = 103 := rfl

theorem trapEntry_fits (L : TrapLayout b) :
    ((trapEntry L).zipIdx.all fun l => lineFits l.1 l.2) = true := rfl

theorem lineFits_of_line {L : TrapLayout b} {i : Nat} {line : Line TrapCsr}
    (h : (trapEntry L)[i]? = some line) : lineFits line i = true := by
  have hall := List.all_eq_true.mp (trapEntry_fits L)
  exact hall (line, i) (List.mem_zipIdx_iff_getElem?.mpr h)

/-- **Where a line goes on**: with the next one, further down, or where one of the
    two jumps through a register leads. -/
theorem next_cases {L : TrapLayout b} {i : Nat} {line : Line TrapCsr}
    (hline : (trapEntry L)[i]? = some line) (x : RegFile) :
    (line.straight = true ∧ i + 1 < 103 ∧ line.next L.addr i x = L.addr (i + 1)) ∨
      (41 ≤ i ∧ ∃ i', 41 < i' ∧ i' < 103 ∧ line.next L.addr i x = L.addr i') ∨
      (i = 63 ∨ i = 101) := by
  have hfits := lineFits_of_line hline
  cases line with
  | beq rs₁ rs₂ target =>
    simp only [lineFits, Bool.and_eq_true, decide_eq_true_eq] at hfits
    obtain ⟨⟨⟨hlow, hnext⟩, htarget⟩, hhigh⟩ := hfits
    refine .inr (.inl ⟨hlow, ?_⟩)
    by_cases heq : x rs₁ = x rs₂
    · exact ⟨target, by omega, hhigh, if_pos heq⟩
    · exact ⟨i + 1, by omega, hnext, if_neg heq⟩
  | j target =>
    simp only [lineFits, Bool.and_eq_true, decide_eq_true_eq] at hfits
    obtain ⟨⟨hlow, htarget⟩, hhigh⟩ := hfits
    exact .inr (.inl ⟨hlow, target, by omega, hhigh, rfl⟩)
  | jalr rd rs =>
    simp only [lineFits, Bool.or_eq_true, decide_eq_true_eq] at hfits
    exact .inr (.inr hfits)
  | sw r imm rs =>
    simp only [lineFits, Bool.or_eq_true, Bool.and_eq_true, decide_eq_true_eq] at hfits
    exact .inl ⟨rfl, by omega, rfl⟩
  | addi | add | slli | li | lw | csrr | csrw | csrrsi =>
    simp only [lineFits, decide_eq_true_eq] at hfits
    exact .inl ⟨rfl, hfits, rfl⟩

/-- **What a line stores to**: the frame, or the table. -/
theorem stores_cases {L : TrapLayout b} {i : Nat} {line : Line TrapCsr}
    (hline : (trapEntry L)[i]? = some line) {x : RegFile} {a : Word}
    (hstores : line.stores x = some a) :
    (0 < i ∧ i < 32 ∧ ∃ r, a = x sp + frameOff r) ∨ (i = 40 ∧ a = x a7) := by
  have hfits := lineFits_of_line hline
  cases line with
  | sw r imm rs =>
    simp only [lineFits, Bool.or_eq_true, Bool.and_eq_true, decide_eq_true_eq] at hfits
    obtain rfl := Option.some.inj hstores
    obtain ⟨⟨⟨hlow, hhigh⟩, rfl⟩, rfl⟩ | ⟨⟨⟨hi, rfl⟩, rfl⟩, rfl⟩ := hfits
    · exact .inl ⟨hlow, hhigh, r, rfl⟩
    · exact .inr ⟨hi, BitVec.add_zero _⟩
  | _ => exact nomatch hstores

/-! ## Section 3: The address in the table -/

theorem ofNat_shiftLeft (n k : Nat) : BitVec.ofNat 32 n <<< k = BitVec.ofNat 32 (2 ^ k * n) := by
  apply BitVec.eq_of_toNat_eq
  rw [BitVec.toNat_shiftLeft, BitVec.toNat_ofNat, BitVec.toNat_ofNat, Nat.shiftLeft_eq,
    Nat.mod_mul_mod, Nat.mul_comm]

theorem epcAddr_inj {L : TrapLayout b} {t u : Tid b} (h : L.epcAddr t = L.epcAddr u) : t = u := by
  have hoff := (BitVec.add_right_inj _).mp h
  have hnat := congrArg BitVec.toNat hoff
  rw [BitVec.toNat_ofNat, BitVec.toNat_ofNat] at hnat
  have hthreads := b.hwThreadsNums_le
  have ht := t.isLt
  have hu := u.isLt
  exact Fin.ext (by omega)

/-- What the lines before the store have left in the registers. -/
structure TableInv (L : TrapLayout b) (t : Tid b) (i : Nat) (x : RegFile) : Prop where
  tid : i = 35 → x a2 = BitVec.ofNat 32 t.val
  offset : i = 36 ∨ i = 37 → x a6 = BitVec.ofNat 32 (4 * t.val)
  base : i = 37 → x a7 = L.epcVector
  address : 38 ≤ i → i ≤ 40 → x a7 = L.epcAddr t

theorem tableInv_of_far {L : TrapLayout b} {t : Tid b} {i : Nat} (h : i < 35 ∨ 40 < i)
    (x : RegFile) : TableInv L t i x := by
  constructor <;> intros <;> omega

/-- Other registers do not matter. -/
theorem TableInv.congr {L : TrapLayout b} {t : Tid b} {i : Nat} {x y : RegFile}
    (h : TableInv L t i x) (hxy : ∀ r, r ≠ tp → y r = x r) : TableInv L t i y where
  tid := fun hi => (hxy a2 (by decide)).trans (h.tid hi)
  offset := fun hi => (hxy a6 (by decide)).trans (h.offset hi)
  base := fun hi => (hxy a7 (by decide)).trans (h.base hi)
  address := fun hi hi' => (hxy a7 (by decide)).trans (h.address hi hi')

/-- **One line** towards the store. -/
theorem tableInv_next {L : TrapLayout b} {t : Tid b} {i : Nat} {line : Line TrapCsr}
    {m : Machine HartCsrs} (hline : (trapEntry L)[i]? = some line) (link : Word)
    (h : TableInv L t i m.x) : TableInv L t (i + 1) (line.effect (csrFile t) link m).x := by
  constructor
  case tid =>
    intro hi
    obtain rfl : i = 34 := by omega
    obtain rfl : Line.csrr a2 .hartid = line := Option.some.inj hline
    rfl
  case offset =>
    intro hi
    obtain rfl | rfl : i = 35 ∨ i = 36 := by omega
    · obtain rfl : Line.slli a6 a2 2 = line := Option.some.inj hline
      show m.x a2 <<< 2 = _
      rw [h.tid rfl, ofNat_shiftLeft]
      rfl
    · obtain rfl : Line.li a7 L.epcVector = line := Option.some.inj hline
      exact h.offset (.inl rfl)
  case base =>
    intro hi
    obtain rfl : i = 36 := by omega
    obtain rfl : Line.li a7 L.epcVector = line := Option.some.inj hline
    rfl
  case address =>
    intro hlow hhigh
    obtain rfl | rfl | rfl : i = 37 ∨ i = 38 ∨ i = 39 := by omega
    · obtain rfl : Line.add a7 a7 a6 = line := Option.some.inj hline
      show m.x a7 + m.x a6 = L.epcAddr t
      rw [h.base rfl, h.offset (.inr rfl)]
      rfl
    · obtain rfl : Line.li a5 L.trapHandlerVector = line := Option.some.inj hline
      exact h.address (by decide) (by decide)
    · obtain rfl : Line.slli a2 a2 4 = line := Option.some.inj hline
      exact h.address (by decide) (by decide)

namespace TrapRun

variable {L : TrapLayout b} {hL : L.Sound} (r : TrapRun L hL)

/-- Thread `t` is at line `i` of the routine. -/
def AtLine (k : Nat) (t : Tid b) (i : Nat) : Prop :=
  i < (trapEntry L).length ∧ ((r.state k).hart t).pc = L.addr i

/-- **Disjoint stacks**: while a thread other than `t` saves its registers, its
    stack pointer points into its own stack; and a jump of the routine that leads
    it back into the routine is the return of a trap taken there, with the
    registers as they were but for `tp`. -/
structure OthersObey (t : Tid b) : Prop where
  stack : ∀ k u i, u ≠ t → r.AtLine k u i → 0 < i → i < 32 →
    ∀ q, L.stack u (((r.state k).hart u).x sp + frameOff q)
  resumes : ∀ k u i i', u ≠ t → r.thread k = u → r.event k = .line → r.AtLine k u i →
    i = 63 ∨ i = 101 → r.AtLine (k + 1) u i' → 0 < i' →
      ∃ j, j ≤ k ∧ r.AtLine j u i' ∧
        ∀ q, q ≠ tp → ((r.state (k + 1)).hart u).x q = ((r.state j).hart u).x q

variable {r} {t u : Tid b} {k i : Nat}

theorem AtLine.unique {i' : Nat} (h : r.AtLine k u i) (h' : r.AtLine k u i') : i = i' :=
  hL.inj i i' h.1 h'.1 (h.2.symm.trans h'.2)

theorem AtLine.not_outside (h : r.AtLine k u i) :
    ¬ (trapRoutine L hL).Outside ((r.state k).hart u).pc := by
  rw [h.2, Routine.Outside, show L.addr = (trapRoutine L hL).addr from rfl,
    Routine.lineAt_addr h.1]
  exact Option.some_ne_none i

theorem atLine_of_pc (hi : i < 103) (hpc : ((r.state k).hart u).pc = L.addr i) :
    r.AtLine k u i := ⟨hi, hpc⟩

/-- **What a line of the routine does** to the thread that executes it. -/
theorem line_cases (hline : r.event k = .line) :
    ∃ i line, r.AtLine k (r.thread k) i ∧ (trapEntry L)[i]? = some line ∧
      (r.state (k + 1)).view (r.thread k) =
        (trapRoutine L hL).execute (csrFile (r.thread k)) ((r.state k).view (r.thread k)) i
          line := by
  obtain ⟨i, line, hcode, hpc, -, hnext⟩ := Routine.step_cases ((r.step k).line hline)
  exact ⟨i, line, ⟨(List.getElem?_eq_some_iff.mp hcode).1, hpc⟩, hcode, hnext⟩

/-- **The table**: other threads have the address of their own word in the table
    when they store to it. -/
theorem tableInv (hobey : r.OthersObey t) (hu : u ≠ t) :
    ∀ i, r.AtLine k u i → TableInv L u i ((r.state k).hart u).x := by
  induction k using Nat.strong_induction_on with
  | _ k ih =>
    intro i hat
    cases k with
    | zero => exact absurd (r.init u) hat.not_outside
    | succ k =>
      by_cases hthread : r.thread k = u
      · subst hthread
        cases hev : r.event k with
        | outside =>
          obtain hout | hpc := ((r.step k).outside hev).enters
          · exact absurd hout hat.not_outside
          · obtain rfl : i = restoreEpcLine := hat.unique (atLine_of_pc (by decide) hpc)
            exact tableInv_of_far (by decide) _
        | trap cause =>
          obtain ⟨hevec, hview⟩ := (r.step k).trap cause hev
          have hpc : ((r.state (k + 1)).hart (r.thread k)).pc = L.addr 0 := by
            rw [← hevec]
            exact congrArg Machine.pc hview
          obtain rfl : i = 0 := hat.unique (atLine_of_pc (by decide) hpc)
          exact tableInv_of_far (by decide) _
        | line =>
          obtain ⟨i₀, line, hat₀, hcode, hview⟩ := line_cases hev
          have hinv := ih k (Nat.lt_succ_self k) i₀ hat₀
          have hpc : ((r.state (k + 1)).hart (r.thread k)).pc =
              line.next L.addr i₀ ((r.state k).hart (r.thread k)).x :=
            congrArg Machine.pc hview
          obtain ⟨-, hnext, hgoes⟩ | ⟨-, i', hlow, hhigh, hgoes⟩ | hjump :=
            next_cases hcode ((r.state k).hart (r.thread k)).x
          · obtain rfl : i = i₀ + 1 := hat.unique (atLine_of_pc hnext (hpc.trans hgoes))
            have hx : ((r.state (k + 1)).hart (r.thread k)).x = _ := congrArg Machine.x hview
            rw [hx]
            exact tableInv_next hcode _ hinv
          · obtain rfl : i = i' := hat.unique (atLine_of_pc hhigh (hpc.trans hgoes))
            exact tableInv_of_far (by omega) _
          · by_cases hzero : 0 < i
            · obtain ⟨j, hj, hat', hregs⟩ :=
                hobey.resumes k (r.thread k) i₀ i hu rfl hev hat₀ hjump hat hzero
              exact (ih j (Nat.lt_succ_of_le hj) i hat').congr hregs
            · exact tableInv_of_far (by omega) _
      · have hsame := (r.step k).others u (Ne.symm hthread)
        have hpc := hat.2
        rw [hsame, TrapEvent.others_pc] at hpc
        rw [hsame, TrapEvent.others_x]
        exact ih k (Nat.lt_succ_self k) i ⟨hat.1, hpc⟩

/-- **What the others leave alone**: a step of another thread changes neither a
    word of the stack of `t` nor the word of `t` in the table. -/
theorem mem_of_other (hobey : r.OthersObey t) (hthread : r.thread k ≠ t) {a : Word}
    (ha : L.stack t a ∨ a = L.epcAddr t) : (r.state (k + 1)).mem a = (r.state k).mem a := by
  cases hev : r.event k with
  | outside =>
    refine ((r.step k).outside hev).mem a ?_
    obtain hstack | rfl := ha
    · exact .inl ⟨t, hthread.symm, hstack⟩
    · exact .inr ⟨t, rfl⟩
  | trap cause => exact congrArg (fun m => Machine.mem m a) ((r.step k).trap cause hev).2
  | line =>
    obtain ⟨i, line, hat, hcode, hview⟩ := line_cases hev
    have hmem : (r.state (k + 1)).mem a =
        (line.effect (csrFile (r.thread k)) (L.addr (i + 1))
          ((r.state k).view (r.thread k))).mem a := congrArg (fun m => Machine.mem m a) hview
    rw [hmem]
    apply Line.effect_mem
    intro hstores
    obtain ⟨hlow, hhigh, q, rfl⟩ | ⟨rfl, rfl⟩ := stores_cases hcode hstores
    · have hown := hobey.stack k _ i hthread hat hlow hhigh q
      obtain hstack | htable := ha
      · exact hL.stacksApart _ _ _ hthread hown hstack
      · have hmine : L.stack (r.thread k) (L.epcAddr t) := by
          rw [← htable]
          exact hown
        exact hL.tablesApart _ _ hmine
    · have haddr : ((r.state k).view (r.thread k)).x a7 = L.epcAddr (r.thread k) :=
        (tableInv hobey hthread 40 hat).address (by decide) (by decide)
      rw [haddr] at ha
      obtain hstack | htable := ha
      · exact hL.tablesApart _ _ hstack
      · exact hthread (epcAddr_inj htable)

end TrapRun

end Flexpret.Os
