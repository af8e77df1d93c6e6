import Flexpret.Core.Csr

/-! # Loads, Stores and the Scratchpads

    The `LoadStore` unit, which sends the address of the execute stage to the
    data scratchpad, the instruction scratchpad or the bus, and the two
    scratchpad memories.
-/

namespace Flexpret.Core

/-! ## Section 1: Formats -/

/-- `LoadFormat`: the addressed bytes of the word, extended. -/
def loadFormat (data : BitVec 32) (address : BitVec 2) (memType : BitVec 4) : BitVec 32 :=
  let shifted := data >>> (8 * address.toNat)
  if memType = memLB then (shifted.setWidth 8).signExtend 32
  else if memType = memLBU then (shifted.setWidth 8).setWidth 32
  else if memType = memLH then (shifted.setWidth 16).signExtend 32
  else if memType = memLHU then (shifted.setWidth 16).setWidth 32
  else shifted

/-- `StoreFormat`: the stored byte or half-word in every place. -/
def storeFormat (data : BitVec 32) (memType : BitVec 4) : BitVec 32 :=
  if memType = memSB then (data.setWidth 8).replicate 4
  else if memType = memSH then (data.setWidth 16).replicate 2
  else data

/-- `StoreMask`: the bytes to write. -/
def storeMask (address : BitVec 2) (memType : BitVec 4) : BitVec 4 :=
  if memType = memSB then 1 <<< address.toNat
  else if memType = memSH then 3 <<< address.toNat
  else if memType = memSW then 15
  else 0

/-- The bits `hi` down to `lo` of an address. -/
def addrBits (addr : BitVec 32) (hi lo : Nat) : Nat :=
  addr.toNat / 2 ^ lo % 2 ^ (hi + 1 - lo)

/-! ## Section 2: The unit -/

variable (conf : FlexpretConfiguration)

/-- The inputs from the datapath and the control unit. -/
structure LoadStoreIn where
  addr : BitVec 32
  thread : conf.Tid
  load : Bool
  store : Bool
  memType : BitVec 4
  dataIn : BitVec 32
  imemProtection : Fin 8 → BitVec 4
  dmemProtection : Fin 8 → BitVec 4
  kill : Bool

/-- The destination of an address, by its top bits. -/
def dmemOp (addr : BitVec 32) : Bool := addrBits addr 31 29 = 0b001
def imemOp (addr : BitVec 32) : Bool := addrBits addr 31 29 = 0b000
def busOp (addr : BitVec 32) : Bool := addrBits addr 31 30 = 0b01

variable {conf}

namespace LoadStoreIn

variable (i : LoadStoreIn conf)

/-- The address overflows the size of its destination. -/
def badAddress : Bool :=
  (dmemOp i.addr && addrBits i.addr 28 conf.dMemAddrBits ≠ 0) ||
  (imemOp i.addr && addrBits i.addr 28 (conf.iMemAddrBits + 2) ≠ 0) ||
  (busOp i.addr &&
    addrBits i.addr 29 (FlexpretConfiguration.busAddrBits - conf.threadBits) ≠ 0)

/-- The region of the address. -/
def imemRegionMode : BitVec 4 :=
  i.imemProtection
    (Fin.ofNat 8 (addrBits i.addr conf.iMemHighIndex conf.iMemLowIndex))

def dmemRegionMode : BitVec 4 :=
  i.dmemProtection
    (Fin.ofNat 8 (addrBits i.addr conf.dMemHighIndex conf.dMemLowIndex))

def permission : Bool :=
  if conf.memProtection then
    (dmemOp i.addr && permits conf i.dmemRegionMode i.thread) ||
    (imemOp i.addr && permits conf i.imemRegionMode i.thread) ||
    busOp i.addr
  else true

def loadMisaligned : Bool :=
  conf.causes.contains Causes.misalignedLoad && i.load &&
    (((i.memType = memLH || i.memType = memLHU) && addrBits i.addr 0 0 ≠ 0) ||
      (i.memType = memLW && addrBits i.addr 1 0 ≠ 0))

def loadFault : Bool :=
  conf.causes.contains Causes.faultLoad && i.load && i.badAddress

def storeMisaligned : Bool :=
  conf.causes.contains Causes.misalignedStore && i.store &&
    ((i.memType = memSH && addrBits i.addr 0 0 ≠ 0) ||
      (i.memType = memSW && addrBits i.addr 1 0 ≠ 0))

def storeFault : Bool :=
  conf.causes.contains Causes.faultStore && i.store && (i.badAddress || !i.permission)

/-- The store is written. -/
def write : Bool :=
  i.store && i.permission && !i.storeMisaligned && !i.storeFault && !i.kill

/-- `io.bus.write`. -/
def busWrite : Bool := busOp i.addr && i.write

end LoadStoreIn

/-! ## Section 3: The scratchpads -/

variable (conf) in
/-- `ISpm`: a port to fetch and a port to load and store. -/
structure ISpm where
  ispm : BitVec conf.iMemAddrBits → BitVec 32
  doutR : BitVec 32
  doutRw : BitVec 32

variable (conf) in
/-- `DSpm`. -/
structure DSpm where
  dspm : BitVec (conf.dMemAddrBits - 2) → BitVec 32
  dout : BitVec 32

variable (conf) in
/-- The word of the instruction scratchpad that a PC addresses. -/
def fetchAddr (pc : BitVec 32) : BitVec conf.iMemAddrBits :=
  (pc >>> 2).setWidth conf.iMemAddrBits

/-- The scratchpads after the cycle.  A read and a write of one cycle meet as
    read before write. -/
def ISpm.next (m : ISpm conf) (enable : Bool) (addr : BitVec conf.iMemAddrBits)
    (i : LoadStoreIn conf) : ISpm conf :=
  let rwEnable := imemOp i.addr && (i.load || i.store)
  -- `io.addr(conf.iMemAddrBits-1, 2)`
  let rwAddr := ((i.addr >>> 2).setWidth (conf.iMemAddrBits - 2)).setWidth conf.iMemAddrBits
  { ispm := if rwEnable && i.write then Function.update m.ispm rwAddr i.dataIn else m.ispm
    doutR := if enable then m.ispm addr else m.doutR
    doutRw := if rwEnable then m.ispm rwAddr else m.doutRw }

/-- The bytes of `new` under the mask, the others of `current`. -/
def mergeBytes (mask : BitVec 4) (new current : BitVec 32) : BitVec 32 :=
  let byte (k : Nat) : BitVec 8 :=
    if mask.getLsbD k then new.extractLsb' (8 * k) 8 else current.extractLsb' (8 * k) 8
  byte 3 ++ byte 2 ++ byte 1 ++ byte 0

def DSpm.next (m : DSpm conf) (i : LoadStoreIn conf) : DSpm conf :=
  let enable := dmemOp i.addr && (i.load || i.store)
  let addr := (i.addr >>> 2).setWidth (conf.dMemAddrBits - 2)
  let byteWrite := if i.write then storeMask (i.addr.setWidth 2) i.memType else 0
  let current := m.dspm addr
  { dspm :=
      if enable then
        Function.update m.dspm addr
          (mergeBytes byteWrite (storeFormat i.dataIn i.memType) current)
      else m.dspm
    dout := if enable then current else m.dout }

end Flexpret.Core
