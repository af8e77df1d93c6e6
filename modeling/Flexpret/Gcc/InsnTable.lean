import Flexpret.Lib.Numerals
import Mathlib.Data.Fin.VecNotation

/-! # The Instruction Table of the Timing Pass

    The cycles that the compiler charges for an assembler mnemonic, one number
    for each schedule frequency of the thread, and how the mnemonic of an
    instruction template is found.
-/

namespace Flexpret.Gcc

/-- Cycles of an instruction at the frequencies 1, 1/2, 1/3, 1/4 and below. -/
abbrev Cycles := Fin 5 → Nat

/-- `htab_rv32i_insn_entry`. -/
structure InsnEntry where
  name : String
  cycles : Cycles

/-- `rv32i_insn` with its row of `rv32i_insn_cycles`. -/
def rv32iInsn : List InsnEntry :=
  [⟨"la", ![3, 2, 2, 2, 2]⟩, ⟨"lla", ![2, 2, 2, 2, 2]⟩, ⟨"move", ![1, 1, 1, 1, 1]⟩,
    ⟨"mv", ![1, 1, 1, 1, 1]⟩, ⟨"nop", ![1, 1, 1, 1, 1]⟩, ⟨"li", ![4, 4, 4, 4, 4]⟩,
    ⟨"not", ![1, 1, 1, 1, 1]⟩, ⟨"neg", ![1, 1, 1, 1, 1]⟩, ⟨"seqz", ![1, 1, 1, 1, 1]⟩,
    ⟨"snez", ![1, 1, 1, 1, 1]⟩, ⟨"sltz", ![1, 1, 1, 1, 1]⟩, ⟨"sgtz", ![1, 1, 1, 1, 1]⟩,
    ⟨"beqz", ![3, 2, 1, 1, 1]⟩, ⟨"bnez", ![3, 2, 1, 1, 1]⟩, ⟨"blez", ![3, 2, 1, 1, 1]⟩,
    ⟨"bgez", ![3, 2, 1, 1, 1]⟩, ⟨"bltz", ![3, 2, 1, 1, 1]⟩, ⟨"bgtz", ![3, 2, 1, 1, 1]⟩,
    ⟨"bgt", ![3, 2, 1, 1, 1]⟩, ⟨"ble", ![3, 2, 1, 1, 1]⟩, ⟨"bgtu", ![3, 2, 1, 1, 1]⟩,
    ⟨"bleu", ![3, 2, 1, 1, 1]⟩, ⟨"lui", ![1, 1, 1, 1, 1]⟩, ⟨"auipc", ![1, 1, 1, 1, 1]⟩,
    ⟨"addi", ![1, 1, 1, 1, 1]⟩, ⟨"slti", ![1, 1, 1, 1, 1]⟩, ⟨"sltiu", ![1, 1, 1, 1, 1]⟩,
    ⟨"xori", ![1, 1, 1, 1, 1]⟩, ⟨"ori", ![1, 1, 1, 1, 1]⟩, ⟨"andi", ![1, 1, 1, 1, 1]⟩,
    ⟨"slli", ![1, 1, 1, 1, 1]⟩, ⟨"srli", ![1, 1, 1, 1, 1]⟩, ⟨"srai", ![1, 1, 1, 1, 1]⟩,
    ⟨"add", ![1, 1, 1, 1, 1]⟩, ⟨"sub", ![1, 1, 1, 1, 1]⟩, ⟨"sll", ![1, 1, 1, 1, 1]⟩,
    ⟨"slt", ![1, 1, 1, 1, 1]⟩, ⟨"sltu", ![1, 1, 1, 1, 1]⟩, ⟨"xor", ![1, 1, 1, 1, 1]⟩,
    ⟨"srl", ![1, 1, 1, 1, 1]⟩, ⟨"sra", ![1, 1, 1, 1, 1]⟩, ⟨"or", ![1, 1, 1, 1, 1]⟩,
    ⟨"and", ![1, 1, 1, 1, 1]⟩, ⟨"jal", ![3, 2, 1, 1, 1]⟩, ⟨"jalr", ![3, 2, 1, 1, 1]⟩,
    ⟨"beq", ![3, 2, 1, 1, 1]⟩, ⟨"bne", ![3, 2, 1, 1, 1]⟩, ⟨"blt", ![3, 2, 1, 1, 1]⟩,
    ⟨"bge", ![3, 2, 1, 1, 1]⟩, ⟨"bltu", ![3, 2, 1, 1, 1]⟩, ⟨"bgeu", ![3, 2, 1, 1, 1]⟩,
    ⟨"j", ![3, 2, 1, 1, 1]⟩, ⟨"jr", ![3, 2, 1, 1, 1]⟩, ⟨"call", ![3, 2, 1, 1, 1]⟩,
    ⟨"b", ![3, 2, 1, 1, 1]⟩, ⟨"sb", ![1, 1, 1, 1, 1]⟩, ⟨"sh", ![1, 1, 1, 1, 1]⟩,
    ⟨"sw", ![1, 1, 1, 1, 1]⟩, ⟨"lb", ![2, 1, 1, 1, 1]⟩, ⟨"lh", ![2, 1, 1, 1, 1]⟩,
    ⟨"lw", ![2, 1, 1, 1, 1]⟩, ⟨"lbu", ![2, 1, 1, 1, 1]⟩, ⟨"lhu", ![2, 1, 1, 1, 1]⟩,
    ⟨"csrrw", ![1, 1, 1, 1, 1]⟩, ⟨"csrrs", ![1, 1, 1, 1, 1]⟩, ⟨"csrrc", ![1, 1, 1, 1, 1]⟩,
    ⟨"csrrwi", ![1, 1, 1, 1, 1]⟩, ⟨"csrrsi", ![1, 1, 1, 1, 1]⟩, ⟨"csrrci", ![1, 1, 1, 1, 1]⟩,
    ⟨"syscall", ![4, 2, 2, 1, 1]⟩, ⟨"fence.i", ![4, 2, 2, 1, 1]⟩, ⟨"fence", ![1, 1, 1, 1, 1]⟩,
    ⟨"csrr", ![1, 1, 1, 1, 1]⟩, ⟨"csrw", ![1, 1, 1, 1, 1]⟩, ⟨"rdtime", ![1, 1, 1, 1, 1]⟩,
    ⟨"rdcycle", ![1, 1, 1, 1, 1]⟩, ⟨"rdinstret", ![1, 1, 1, 1, 1]⟩,
    ⟨"custom0", ![5, 3, 2, 2, 1]⟩, ⟨"custom1", ![5, 3, 2, 2, 1]⟩, ⟨"custom2", ![1, 1, 1, 1, 1]⟩,
    ⟨"custom3", ![1, 1, 1, 1, 1]⟩, ⟨"ret", ![3, 2, 1, 1, 1]⟩]

/-- `insn_table.find`: the entries are inserted under their names. -/
def insnCycles (name : String) : Option Cycles :=
  (rv32iInsn.find? fun entry => entry.name = name).map InsnEntry.cycles

/-- The characters of a mnemonic. -/
def insnChar (c : Char) : Bool :=
  ('a' ≤ c && c ≤ 'z') || c = '.' || ('0' ≤ c && c ≤ '9')

/-- `key2.name`: what an instruction template or asm text starts with. -/
def insnKey (insnName : String) : String :=
  String.ofList (insnName.toList.takeWhile insnChar)

end Flexpret.Gcc
