import Flexpret.Core.IssuePeriod
import Flexpret.Gcc.InsnTable
import Mathlib.Tactic.IntervalCases

/-! # The Instruction Table Against the Pipeline

    The cycles that the compiler charges for an instruction of a thread bound
    the time the pipeline takes from it to the next instruction.
-/

open Transition

namespace Flexpret.Core

/-! ## Section 1: Mnemonics -/

/-- The mnemonics that an instruction is written with or is part of. -/
def Instr.mnemonics : Instr → List String
  | .lui => ["lui", "li", "la"]
  | .auipc => ["auipc", "la", "lla", "call"]
  | .jal => ["jal", "j", "b", "call"]
  | .jalr => ["jalr", "jr", "ret", "call"]
  | .beq => ["beq", "beqz", "b"]
  | .bne => ["bne", "bnez"]
  | .blt => ["blt", "bgt", "bltz", "bgtz"]
  | .bge => ["bge", "ble", "bgez", "blez"]
  | .bltu => ["bltu", "bgtu"]
  | .bgeu => ["bgeu", "bleu"]
  | .lb => ["lb"]
  | .lh => ["lh"]
  | .lw => ["lw", "la"]
  | .lbu => ["lbu"]
  | .lhu => ["lhu"]
  | .sb => ["sb"]
  | .sh => ["sh"]
  | .sw => ["sw"]
  | .addi => ["addi", "add", "move", "mv", "nop", "li", "la", "lla"]
  | .slti => ["slti", "slt"]
  | .sltiu => ["sltiu", "sltu", "seqz"]
  | .xori => ["xori", "xor", "not"]
  | .ori => ["ori", "or"]
  | .andi => ["andi", "and"]
  | .slli => ["slli", "sll"]
  | .srli => ["srli", "srl"]
  | .srai => ["srai", "sra"]
  | .add => ["add", "move", "mv"]
  | .sub => ["sub", "neg"]
  | .sll => ["sll"]
  | .slt => ["slt", "sltz", "sgtz"]
  | .sltu => ["sltu", "snez"]
  | .xor => ["xor"]
  | .srl => ["srl"]
  | .sra => ["sra"]
  | .or => ["or"]
  | .and => ["and"]
  | .csrrw => ["csrrw", "csrw"]
  | .csrrs => ["csrrs", "csrr", "rdtime", "rdcycle", "rdinstret"]
  | .csrrc => ["csrrc"]
  | .csrrwi => ["csrrwi", "csrw"]
  | .csrrsi => ["csrrsi"]
  | .csrrci => ["csrrci"]
  | .fence => ["fence"]
  | .fenceI => ["fence.i"]
  | .scall => ["syscall"]
  | .du => ["custom0"]
  | .wu => ["custom1"]
  | .ie => ["custom2"]
  | .mtReg => ["custom3"]
  | .fd => ["custom3"]
  -- instructions without a row in the table
  | .mul | .mulh | .mulhsu | .mulhu | .sret => []

/-- The table's column for a thread that is issued every `p` cycles. -/
def column (p : Nat) : Fin 5 := if p = 1 then 0 else if p = 2 then 1 else if p = 3 then 2 else 3

/-! ## Section 2: The table covers the lost issues -/

variable {conf : FlexpretConfiguration}

/-- What an instruction costs does not depend on the configuration. -/
theorem Instr.issueSlots_row (k : Instr) (p : Nat) :
    issueSlots (k.row conf).toFlags p ≤ issueSlots (k.row conf4tf).toFlags p := by
  cases k
  case mul | mulh | mulhsu | mulhu | du | wu | ie =>
    simp only [row, mulRow]
    split <;> exact Nat.le_refl _
  all_goals exact Nat.le_refl _

/-- The row `cycles` charges at least the issues lost behind `k`. -/
def Instr.covered (k : Instr) (cycles : Gcc.Cycles) : Bool :=
  issueSlots (k.row conf4tf).toFlags 1 ≤ cycles 0 &&
    issueSlots (k.row conf4tf).toFlags 2 ≤ cycles 1 && 1 ≤ cycles 2 && 1 ≤ cycles 3

theorem Instr.mnemonics_covered (k : Instr) :
    (k.mnemonics.all fun m => (Gcc.insnCycles m).any k.covered) = true := by
  cases k <;> decide +kernel

theorem issueSlots_of_three_le (f : Flags) {p : Nat} (hp : 3 ≤ p) : issueSlots f p = 1 := by
  have hone : p ≠ 1 := by omega
  have htwo : p ≠ 2 := by omega
  simp [issueSlots, hone, htwo]

/-- **The table covers** every instruction at every period. -/
theorem issueSlots_le_cycles {k : Instr} {m : String} {cycles : Gcc.Cycles}
    (hm : m ∈ k.mnemonics) (hcycles : Gcc.insnCycles m = some cycles) {p : Nat} (hp : 0 < p) :
    issueSlots (k.row conf).toFlags p ≤ cycles (column p) := by
  have hcov := List.all_eq_true.mp k.mnemonics_covered m hm
  rw [hcycles, Option.any_some] at hcov
  simp only [Instr.covered, Bool.and_eq_true, decide_eq_true_eq] at hcov
  obtain ⟨⟨⟨hone, htwo⟩, hthree⟩, hfour⟩ := hcov
  have hrow : issueSlots (k.row conf).toFlags p ≤ issueSlots (k.row conf4tf).toFlags p :=
    k.issueSlots_row p
  unfold column
  split
  · next h => subst h; omega
  · split
    · next h => subst h; omega
    · have hle : 3 ≤ p := by omega
      rw [issueSlots_of_three_le _ hle] at hrow ⊢
      split <;> assumption

/-! ## Section 3: The bound -/

/-- **The table bounds the pipeline**: after an instruction of a quiet thread
    issued every `p` cycles, the thread's next one is in execute within the
    cycles charged, unless a fetch of the thread is lost to a FENCE.I that the
    thread does not go on to execute. -/
theorem cycleTable_bounds (hflex : conf.flex = true) (hmul : conf.mul = false)
    (D : DecodeLogic conf) {s₀ : CoreState conf} (hreset : CoreReset conf s₀)
    (inp : Nat → CoreIn conf) {t : conf.Tid} {a p : Nat} (hp : 0 < p)
    (hissue : IssuedEvery inp t a p) {c : Nat} {k : Instr} {m : String} {cycles : Gcc.Cycles}
    (hexe : (Machine.trace (CoreState.next D) s₀ inp c).inExe t = true)
    (hinstr : instrOf (Machine.trace (CoreState.next D) s₀ inp c).exeReg.inst = some k)
    (hm : m ∈ k.mnemonics) (hcycles : Gcc.insnCycles m = some cycles)
    (hquiet : ∀ x, x < c + p * cycles (column p) →
      (Machine.trace (CoreState.next D) s₀ inp x).Quiet t)
    (hown : ∀ x, x < c + p * cycles (column p) →
      (Machine.trace (CoreState.next D) s₀ inp x).OwnFence t D) :
    ∃ c', c < c' ∧ c' ≤ c + p * cycles (column p) ∧
      (Machine.trace (CoreState.next D) s₀ inp c').inExe t = true ∧
      (∀ x, c < x → x < c' → (Machine.trace (CoreState.next D) s₀ inp x).inExe t = false) ∧
      (Machine.trace (CoreState.next D) s₀ inp c').exeReg.pc =
        (Machine.trace (CoreState.next D) s₀ inp c).archNext := by
  have hvalid := (CoreState.inExe_iff.mp hexe).1
  have hflags := (exeDecoded_run D inp hreset c).flags hvalid
  rw [decodeRow, hinstr] at hflags
  -- the issues lost behind the instruction are within its row
  have hle : p * issueSlots (Machine.trace (CoreState.next D) s₀ inp c).exeReg.sig.toFlags p ≤
      p * cycles (column p) := by
    rw [hflags]
    exact Nat.mul_le_mul_left p (issueSlots_le_cycles hm hcycles hp)
  obtain ⟨c', hlt, hc', hexe', hnone⟩ := issuedEvery_next hflex hmul D hreset inp hp hissue hexe
    rfl (fun x hx => hquiet x (by omega)) (fun x hx => hown x (by omega))
  exact ⟨c', hlt, by omega, hexe', hnone,
    exePc_follows D inp hflex hreset hlt hexe hexe' hnone⟩

/-- Thread 0 alone, issued in every cycle. -/
def aloneRun (program : Nat → BitVec 32) (c : Nat) : CoreState conf4tf :=
  Machine.trace (CoreState.next (DecodeLogic.zeros conf4tf)) (coreZero conf4tf program)
    (fun _ => issue conf4tf 0) c

theorem alone_issuedEvery : IssuedEvery (fun _ => issue conf4tf 0) (0 : Fin 4) 0 1 := by
  intro c
  constructor
  · intro _
    exact ⟨c, by omega⟩
  · intro _
    exact ⟨rfl, rfl⟩

/-- The jump over an illegal word takes the three cycles of `j`. -/
theorem jumpOver_bounded :
    ∃ c', 4 < c' ∧ c' ≤ 7 ∧ (aloneRun jumpOver c').inExe (0 : Fin 4) = true ∧
      (∀ x, 4 < x → x < c' → (aloneRun jumpOver x).inExe (0 : Fin 4) = false) ∧
      (aloneRun jumpOver c').exeReg.pc = (aloneRun jumpOver 4).archNext := by
  have hcycles : Gcc.insnCycles "j" = some ![3, 2, 1, 1, 1] := rfl
  refine cycleTable_bounds rfl rfl (DecodeLogic.zeros conf4tf) (coreZero_reset conf4tf jumpOver)
    (fun _ => issue conf4tf 0) (p := 1) (k := .jal) (by decide) alone_issuedEvery ?_ ?_ ?_ hcycles
    ?_ ?_
  · decide +kernel
  · decide +kernel
  · decide
  · intro x hx
    have hlt : x < 7 := hx
    interval_cases x <;> constructor <;> decide +kernel
  · intro x hx
    have hlt : x < 7 := hx
    interval_cases x <;> constructor <;> decide +kernel

/-- `jal x0, 8` over a FENCE.I. -/
def jumpFence (a : Nat) : BitVec 32 :=
  if a = 0 then 0x0080006f else if a = 1 then 0x0000100f else 0x13

/-- **A FENCE.I behind a jump**: it is never executed, but it is in decode when
    the jump is in execute, and keeps the target from being fetched in time. -/
theorem jumpFence_late :
    CoreReset conf4tf (coreZero conf4tf jumpFence) ∧
    IssuedEvery (fun _ => issue conf4tf 0) (0 : Fin 4) 0 1 ∧
    (∀ x, x < 8 → (aloneRun jumpFence x).Quiet (0 : Fin 4)) ∧
    (∀ x, x < 8 → (aloneRun jumpFence x).exeReg.valid = true →
      (aloneRun jumpFence x).exeReg.sig.fenceI = true →
      (aloneRun jumpFence x).inExe (0 : Fin 4) = true) ∧
    (aloneRun jumpFence 4).inExe (0 : Fin 4) = true ∧
    (aloneRun jumpFence 4).exeValid = true ∧
    instrOf (aloneRun jumpFence 4).exeReg.inst = some .jal ∧
    "j" ∈ Instr.jal.mnemonics ∧ Gcc.insnCycles "j" = some ![3, 2, 1, 1, 1] ∧
    ∀ c', 4 < c' → c' ≤ 4 + 1 * ![3, 2, 1, 1, 1] (column 1) →
      (aloneRun jumpFence c').inExe (0 : Fin 4) = false := by
  refine ⟨coreZero_reset conf4tf jumpFence, alone_issuedEvery, ?_, ?_, ?_, ?_, ?_, ?_, rfl, ?_⟩
  · intro x hx
    interval_cases x <;> constructor <;> decide +kernel
  · intro x hx
    interval_cases x <;> decide +kernel
  · decide +kernel
  · decide +kernel
  · decide +kernel
  · decide
  · intro c' hlt hle
    have hle7 : c' ≤ 7 := hle
    interval_cases c' <;> decide +kernel

end Flexpret.Core
