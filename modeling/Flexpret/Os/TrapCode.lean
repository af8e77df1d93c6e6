import Flexpret.Core.Csr
import Flexpret.Lib.Assembly
import Flexpret.Os.Scheduler

/-! # The Trap Routine

    The routine that the startup code enters in the `evec` CSR of every thread.
    It saves the registers in a frame below the stack pointer and the `epc` in a
    table, calls the handler that is registered for the thread and the cause, and
    jumps back through `tp`, as there is no `sret`.
-/

open Assembly

namespace Flexpret.Os

/-! ## Section 1: Registers -/

def ra : Reg := 1
def sp : Reg := 2
def tp : Reg := 4
def s0 : Reg := 8
def a0 : Reg := 10
def a1 : Reg := 11
def a2 : Reg := 12
def a3 : Reg := 13
def a5 : Reg := 15
def a6 : Reg := 16
def a7 : Reg := 17

/-- The CSRs that the routine uses. -/
inductive TrapCsr where
  | hartid
  | cause
  | epc
  | evec
  | status
  deriving DecidableEq

/-- Those of one thread. -/
structure HartCsrs where
  epc : Word
  cause : Core.Cause
  evec : Word
  ie : Bool
  mtie : Bool
  msip : Bool

/-- `Cat(cause(4), 0, cause(3, 0))`. -/
def causeWord (cause : Core.Cause) : Word :=
  cause.extractLsb' 4 1 ++ 0#27 ++ cause.extractLsb' 0 4

/-- The status word, where `ie` is bit 4. -/
def HartCsrs.statusWord (c : HartCsrs) : Word :=
  0#1 ++ BitVec.ofBool c.mtie ++ 0#20 ++ 0#2 ++ 0#1 ++ 3#2 ++ BitVec.ofBool c.ie ++
    BitVec.ofBool c.msip ++ 0#3

/-- All but the interrupt enable bit. -/
def HartCsrs.butIe (c : HartCsrs) : HartCsrs := { c with ie := false }

variable {b : OsBuild}

/-- How thread `t` reads and writes its CSRs.  `hartid` and `cause` are read
    only. -/
def csrFile (t : Tid b) : CsrFile TrapCsr HartCsrs where
  read := fun c csr =>
    match csr with
    | .hartid => BitVec.ofNat 32 t.val
    | .cause => causeWord c.cause
    | .epc => c.epc
    | .evec => c.evec
    | .status => c.statusWord
  write := fun c csr v =>
    match csr with
    | .hartid => c
    | .cause => c
    | .epc => { c with epc := v }
    | .evec => { c with evec := v }
    | .status => { c with ie := v.getLsbD 4, mtie := v.getLsbD 26, msip := v.getLsbD 3 }

/-- What the hardware does when a thread takes a trap. -/
def takeTrap (cause : Core.Cause) (m : Machine HartCsrs) : Machine HartCsrs :=
  let csrs : HartCsrs := { m.csrs with epc := m.pc, cause := cause, ie := false }
  { m with csrs := csrs, pc := m.csrs.evec }

/-! ## Section 2: Handlers -/

/-- `osTrapType_t`. -/
inductive OsTrapType where
  | interruptOnExpire
  | exceptionOnExpire
  | externalInterrupt
  | exception
  deriving DecidableEq

/-- Its value. -/
def OsTrapType.index : OsTrapType → Nat
  | .interruptOnExpire => 0
  | .exceptionOnExpire => 1
  | .externalInterrupt => 2
  | .exception => 3

/-- The type of a cause; `fd` goes with the expiry of an exception. -/
def osTrapType (cause : Core.Cause) : OsTrapType :=
  if cause = Core.Causes.ie then .interruptOnExpire
  else if cause = Core.Causes.ee then .exceptionOnExpire
  else if cause = Core.Causes.fd then .exceptionOnExpire
  else if cause = Core.Causes.externalInt then .externalInterrupt
  else .exception

/-- Where the linker puts the routine and its tables, and the part of the memory
    that holds the stack of each thread. -/
structure TrapLayout (b : OsBuild) where
  addr : Nat → Word
  trapHandlerVector : Word
  epcVector : Word
  stack : Tid b → Word → Prop

namespace TrapLayout

variable (L : TrapLayout b)

/-- `&trap_handler_vector[tid].handler[t]`. -/
def handlerAddr (tid : Tid b) (t : OsTrapType) : Word :=
  L.trapHandlerVector + BitVec.ofNat 32 (16 * tid.val + 4 * t.index)

/-- The word of `epc_vector` of a thread. -/
def epcAddr (tid : Tid b) : Word := L.epcVector + BitVec.ofNat 32 (4 * tid.val)

end TrapLayout

/-- `osThreadGetTrapHandler`. -/
def osThreadGetTrapHandler (L : TrapLayout b) (mem : Memory) (tid : Tid b) (t : OsTrapType) : Ptr :=
  mem (L.handlerAddr tid t)

/-- `osThreadSetTrapHandler`. -/
def osThreadSetTrapHandler (L : TrapLayout b) (mem : Memory) (tid : Tid b) (handler : Ptr)
    (t : OsTrapType) : Memory × OsStatus :=
  if handler = NULL then (mem, .osError)
  else (Function.update mem (L.handlerAddr tid t) handler, .osOK)

/-! ## Section 3: The code -/

/-- The place of a register in the frame. -/
def frameOff (r : Reg) : Word := BitVec.ofNat 32 (4 * r.val)

/-- The registers in the order in which they are saved: all of them. -/
def savedRegs : List Reg :=
  [1, 2, 3, 4, 5, 6, 7, 8, 9, 10, 11, 12, 13, 14, 15, 16, 17, 18, 19, 20, 21, 22, 23, 24, 25, 26,
    27, 28, 29, 30, 31]

/-- The registers in the order in which they are restored: all but `tp` and
    `sp`. -/
def restoredRegs : List Reg :=
  [31, 30, 29, 28, 27, 26, 25, 24, 23, 22, 21, 20, 19, 18, 17, 16, 15, 14, 13, 12, 11, 10, 9, 8,
    7, 6, 5, 3, 1]

/-- Lines that others go to. -/
def ieLine : Nat := 50
def eeLine : Nat := 53
def intLine : Nat := 56
def faultLine : Nat := 59
def callHandlerLine : Nat := 61
def restoreEpcLine : Nat := 64
def unreachableLine : Nat := 102

section code

variable (L : TrapLayout b)

def saveContext : List (Line TrapCsr) :=
  .addi sp sp (-128) :: saveRegs sp frameOff savedRegs

/-- Read the cause and the `epc`, and keep the `epc` in the table. -/
def loadCause : List (Line TrapCsr) :=
  [.csrr a0 .cause,
    .csrr a1 .epc,
    .csrr a2 .hartid,
    .slli a6 a2 2,
    .li a7 L.epcVector,
    .add a7 a7 a6,
    .li a5 L.trapHandlerVector,
    .slli a2 a2 4,
    .sw a1 0 a7]

/-- Go by the cause. -/
def selectCause : List (Line TrapCsr) :=
  [.li a3 0x8000000d,
    .beq a0 a3 ieLine,
    .li a3 0xd,
    .beq a0 a3 eeLine,
    .li a3 0xf,
    .beq a0 a3 eeLine,
    .li a3 0x8000000e,
    .beq a0 a3 intLine,
    .j faultLine]

/-- The offset of the handler, and what is added to the `epc`. -/
def selectHandler : List (Line TrapCsr) :=
  [.addi a2 a2 0,
    .addi s0 0 0,
    .j callHandlerLine,
    .addi a2 a2 4,
    .addi s0 0 0,
    .j callHandlerLine,
    .addi a2 a2 8,
    .addi s0 0 0,
    .j callHandlerLine,
    .addi a2 a2 12,
    .addi s0 0 4]

def callHandler : List (Line TrapCsr) :=
  [.add a5 a5 a2,
    .lw a5 0 a5,
    .jalr ra a5]

def restoreEpc : List (Line TrapCsr) :=
  [.csrr a2 .hartid,
    .slli a6 a2 2,
    .li a7 L.epcVector,
    .add a7 a7 a6,
    .lw tp 0 a7,
    .add tp tp s0]

def loadContext : List (Line TrapCsr) :=
  loadRegs sp frameOff restoredRegs ++ [.addi sp sp 128]

/-- Enable the interrupts again and go back. -/
def trapRet : List (Line TrapCsr) :=
  [.csrrsi .status 16,
    .jalr 0 tp,
    .j unreachableLine]

/-- `trap_entry`. -/
def trapEntry : List (Line TrapCsr) :=
  saveContext ++ loadCause L ++ selectCause ++ selectHandler ++ callHandler ++ restoreEpc L ++
    loadContext ++ trapRet

end code

/-- The lines are at different addresses, and neither a stack nor the table of
    another thread holds the `epc` of a thread. -/
structure TrapLayout.Sound (L : TrapLayout b) : Prop where
  inj : ∀ i j, i < (trapEntry L).length → j < (trapEntry L).length → L.addr i = L.addr j → i = j
  stacksApart : ∀ t u a, t ≠ u → L.stack t a → ¬ L.stack u a
  tablesApart : ∀ t u, ¬ L.stack t (L.epcAddr u)

/-- The routine in its place. -/
def trapRoutine (L : TrapLayout b) (hL : L.Sound) : Routine TrapCsr where
  code := trapEntry L
  addr := L.addr
  inj := hL.inj

section lines

variable (L : TrapLayout b)

/-- The labels name the lines they stand before. -/
theorem trapEntry_labels :
    (trapEntry L)[ieLine]? = some (.addi a2 a2 0) ∧ (trapEntry L)[eeLine]? = some (.addi a2 a2 4) ∧
      (trapEntry L)[intLine]? = some (.addi a2 a2 8) ∧
      (trapEntry L)[faultLine]? = some (.addi a2 a2 12) ∧
      (trapEntry L)[callHandlerLine]? = some (.add a5 a5 a2) ∧
      (trapEntry L)[restoreEpcLine]? = some (.csrr a2 .hartid) ∧
      (trapEntry L)[unreachableLine]? = some (.j unreachableLine) :=
  ⟨rfl, rfl, rfl, rfl, rfl, rfl, rfl⟩

end lines

end Flexpret.Os
