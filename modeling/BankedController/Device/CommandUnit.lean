import BankedController.Bus.Xdata
import BankedController.RegisterMap

/-! A command unit: sixteen registers through which one command at a time is issued. Writing the
start bit latches the command's fields and makes the unit busy. The start bit clears after so many
reads of the trigger register, the busy bit after so many reads of the status register, and an abort
clears both at once. -/

namespace BankedController

open RegisterMap

/-- How long a phase of a command takes, in reads of the register that shows it. -/
inductive Latency where
  /-- The bit reads set `n` times and clear from then on. -/
  | reads (n : UInt32)
  /-- The bit never clears by itself. -/
  | never
  deriving DecidableEq

/-- Whether the phase is over at the read with number `count`. -/
def Latency.elapsed : Latency → UInt32 → Bool
  | reads n, count => n < count
  | never, _ => false

/-- The fields of a command as the unit latched them. -/
structure IssuedCommand where
  opcode : UInt8
  param : UInt8
  tag : UInt8
  address : UInt32
  deriving DecidableEq

/-- The unit. The commands issued to it stand newest first. Its counters wrap. -/
structure CommandUnit where
  base : UInt16
  regs : Vector UInt8 16
  accept : Latency
  complete : Latency
  failNext : Bool
  triggerReads : UInt32
  statusReads : UInt32
  issued : List IssuedCommand
  aborts : UInt32
  enables : UInt32
  deriving DecidableEq

namespace CommandUnit

/-- An idle unit that accepts and completes at once. -/
def ofBase (base : UInt16) : CommandUnit :=
  ⟨base, Vector.replicate 16 0, .reads 0, .reads 0, false, 0, 0, [], 0, 0⟩

def setLatency (u : CommandUnit) (accept complete : Latency) : CommandUnit :=
  { u with accept := accept, complete := complete }

def trigger (u : CommandUnit) : UInt8 := u.regs[8]

def status (u : CommandUnit) : UInt8 := u.regs[9]

def setTrigger (u : CommandUnit) (value : UInt8) : CommandUnit :=
  { u with regs := u.regs.set 8 value }

def setStatus (u : CommandUnit) (value : UInt8) : CommandUnit :=
  { u with regs := u.regs.set 9 value }

/-- Latches the fields and goes busy. -/
def start (u : CommandUnit) : CommandUnit :=
  let command : IssuedCommand :=
    ⟨u.regs[0], u.regs[1], u.regs[2],
      RegisterBus.joinBytes u.regs[4] u.regs[5] u.regs[6] u.regs[7]⟩
  let u := u.setTrigger (u.trigger ||| startBit)
  let u := u.setStatus (u.status ||| busyBit)
  { u with issued := command :: u.issued, triggerReads := 0, statusReads := 0 }

/-- Drops the command in flight. -/
def abort (u : CommandUnit) : CommandUnit :=
  let u := u.setTrigger (u.trigger &&& ~~~startBit)
  let u := u.setStatus (u.status &&& ~~~busyBit)
  { u with aborts := u.aborts + 1 }

/-- What a read of the trigger register does while the start bit is set. -/
def pollTrigger (u : CommandUnit) : CommandUnit :=
  if u.trigger &&& startBit = 0 then u
  else
    let count := u.triggerReads + 1
    let u := { u with triggerReads := count }
    if u.accept.elapsed count then u.setTrigger (u.trigger &&& ~~~startBit) else u

/-- What a read of the status register does while the busy bit is set. The pending failure shows
when the busy bit clears. -/
def pollStatus (u : CommandUnit) : CommandUnit :=
  if u.status &&& busyBit = 0 then u
  else
    let count := u.statusReads + 1
    let u := { u with statusReads := count }
    if u.complete.elapsed count then
      let idle := u.status &&& ~~~busyBit
      if u.failNext then { u.setStatus (idle ||| errorBit) with failNext := false }
      else u.setStatus idle
    else u

def offset (u : CommandUnit) (addr : UInt16) : Nat :=
  (addr - u.base).toNat

def read (addr : UInt16) (u : CommandUnit) : Except Fault (UInt8 × CommandUnit) :=
  let off := u.offset addr
  if h : off < 16 then
    let u :=
      if off = triggerOffset.toNat then u.pollTrigger
      else if off = statusOffset.toNat then u.pollStatus
      else u
    .ok (u.regs[off], u)
  else
    .error .indexOutOfRange

/-- What a write to the control register does. The abort bit is not kept. -/
def control (u : CommandUnit) (value : UInt8) : CommandUnit :=
  let u := if value &&& abortBit = 0 then u else u.abort
  let u := if value &&& enableBit = 0 then u else { u with enables := u.enables + 1 }
  { u with regs := u.regs.set 10 (value &&& ~~~abortBit) }

def write (addr : UInt16) (value : UInt8) (u : CommandUnit) : Except Fault CommandUnit :=
  let off := u.offset addr
  if h : off < 16 then
    .ok <|
      if off = triggerOffset.toNat then
        if value &&& startBit = 0 then u.setTrigger value else u.start
      else if off = statusOffset.toNat then u.setStatus (u.status &&& ~~~value)
      else if off = controlOffset.toNat then u.control value
      else { u with regs := u.regs.set off value }
  else
    .error .indexOutOfRange

/-- A reset keeps the latencies only. -/
def reset (u : CommandUnit) : CommandUnit :=
  (ofBase u.base).setLatency u.accept u.complete

instance : Peripheral CommandUnit := ⟨read, write, reset⟩

end CommandUnit

end BankedController
