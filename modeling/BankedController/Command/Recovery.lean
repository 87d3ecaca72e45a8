import BankedController.Machine
import BankedController.RegisterMap

namespace BankedController

open RegisterMap

/-- A toggle of the bits `mask` of a control register. -/
inductive Toggle where
  /-- Set, then clear. -/
  | pulse (register : UInt16) (mask : UInt8)
  /-- Clear, then set. -/
  | cycle (register : UInt16) (mask : UInt8)
  deriving DecidableEq

/-- The toggles that recover a unit, in order. -/
def CommandKind.toggles : CommandKind → List Toggle
  | nvme =>
    [.cycle powerControl nvmeRailBit, .pulse phyControl laneResetBit,
      .pulse timerControl timerClearBit]
  | flash => [.pulse flashMode softResetBit]
  | phy => [.pulse phyControl pllHoldBit, .cycle powerControl phyRailBit]

variable {β : Type} [RegisterBus β]

def Toggle.run : Toggle → Run (Machine β) Unit
  | pulse register mask => do
    Machine.setBits register mask
    Machine.clearBits register mask
  | cycle register mask => do
    Machine.clearBits register mask
    Machine.setBits register mask

def Toggle.runAll : List Toggle → Run (Machine β) Unit
  | [] => pure ()
  | toggle :: rest => do
    toggle.run
    runAll rest

/-- Recovers a unit and counts the recovery. -/
def CommandKind.recover (kind : CommandKind) : Run (Machine β) Unit := do
  Toggle.runAll kind.toggles
  Machine.write (kind.block + controlOffset) abortBit
  Machine.write (kind.block + controlOffset) enableBit
  let before ← Machine.read recoveryCount
  let count := before + 1
  Machine.write recoveryCount count
  Machine.note (.engineRearmed kind count)

end BankedController
