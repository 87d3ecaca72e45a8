import BankedController.Bus.Register
import BankedController.CallStack
import BankedController.Interrupt

namespace BankedController.Bench

/-- What a step on the stack answers: what it popped, if it popped at all, or that the stack did
not allow it. -/
inductive StackReply where
  | ok
  | failed (cause : CallError)
  | entry (e : StackEntry)
  | bank (b : Bank)
  deriving DecidableEq

inductive StackStep where
  | push (entry : StackEntry)
  | pop
  | popExpect (entry : StackEntry)
  | popBank
  | truncate (depth : Nat)
  | reset
  deriving DecidableEq

namespace StackStep

def replyOf {α : Type} (reply : α → StackReply) : Except CallError α → StackReply
  | .ok a => reply a
  | .error e => .failed e

def run (stack : CallStack) : StackStep → StackReply × CallStack
  | push entry =>
    match stack.push entry with
    | .ok stack => (.ok, stack)
    | .error e => (.failed e, stack)
  | pop =>
    let (r, stack) := stack.pop
    (replyOf .entry r, stack)
  | popExpect entry =>
    let (r, stack) := stack.popExpect entry
    (replyOf (fun _ => .ok) r, stack)
  | popBank =>
    let (r, stack) := stack.popBank
    (replyOf .bank r, stack)
  | truncate depth => (.ok, stack.truncate depth)
  | reset => (.ok, stack.reset)

end StackStep

inductive IrqStep where
  | enable (bits : UInt8)
  | priority (bits : UInt8)
  | setGlobal (on : Bool)
  | raise (line : IrqLine)
  | acknowledge (line : IrqLine)
  | complete (line : IrqLine)
  | reset
  /-- Acknowledges the line that can be delivered, if there is one. -/
  | vector
  deriving DecidableEq

inductive IrqReply where
  | ok
  | line (l : Option IrqLine)
  deriving DecidableEq

namespace IrqStep

def run (irq : InterruptController) : IrqStep → IrqReply × InterruptController
  | enable bits => (.ok, { irq with enable := bits })
  | priority bits => (.ok, { irq with priority := bits })
  | setGlobal on => (.ok, irq.setGlobal on)
  | raise line => (.ok, irq.raise line)
  | acknowledge line => (.ok, irq.acknowledge line)
  | complete line => (.ok, irq.complete line)
  | reset => (.ok, .initial)
  | vector =>
    match irq.next? with
    | some line => (.line (some line), irq.acknowledge line)
    | none => (.line none, irq)

end IrqStep

inductive BusStep where
  | read (addr : UInt16)
  | read32 (addr : UInt16)
  | write (addr : UInt16) (value : UInt8)
  | write32 (addr : UInt16) (value : UInt32)
  | setBits (addr : UInt16) (mask : UInt8)
  | clearBits (addr : UInt16) (mask : UInt8)
  | fill (start : UInt16) (count : Nat) (value : UInt8)
  | dump (start : UInt16) (count : Nat)
  deriving DecidableEq

inductive BusReply where
  | ok
  | number (n : Nat)
  | bytes (bs : List UInt8)
  deriving DecidableEq

namespace BusStep

def run {β : Type} [RegisterBus β] : BusStep → Run β BusReply
  | read addr => do
    let v ← RegisterBus.read addr
    pure (.number v.toNat)
  | read32 addr => do
    let v ← RegisterBus.read32 addr
    pure (.number v.toNat)
  | write addr value => do
    RegisterBus.write addr value
    pure .ok
  | write32 addr value => do
    RegisterBus.write32 addr value
    pure .ok
  | setBits addr mask => do
    RegisterBus.setBits addr mask
    pure .ok
  | clearBits addr mask => do
    RegisterBus.clearBits addr mask
    pure .ok
  | fill start count value => do
    RegisterBus.fill start count value
    pure .ok
  | dump start count => do
    let bs ← RegisterBus.readBytes start count
    pure (.bytes bs)

end BusStep

end BankedController.Bench
