import BankedController.Linkage
import BankedController.RegisterMap

namespace BankedController

open RegisterMap

/-- What a test looks at: the sample that its line took, or a register read afresh, since an earlier
handler may have changed it. -/
inductive TestSource where
  /-- The sample taken when the line was entered. -/
  | snapshot
  /-- The register as it is when the test runs. -/
  | reread (register : UInt16)
  deriving DecidableEq

/-- Who clears the condition after the slot has run. -/
inductive Acknowledge where
  /-- The handler. -/
  | handler
  /-- The router writes the mask to a write-one-to-clear register. -/
  | writeMask (register : UInt16)
  /-- The router reads the register and writes it back with the mask clear. -/
  | clearMask (register : UInt16)
  deriving DecidableEq

structure StatusTest where
  source : TestSource
  mask : UInt8
  slot : SlotId
  ack : Acknowledge
  deriving DecidableEq

/-- The register a line samples, and its tests in order. -/
structure LineRoute where
  status : UInt16
  tests : List StatusTest
  deriving DecidableEq

namespace LineRoute

def endpoint : LineRoute :=
  ⟨usbStatus,
    [⟨.snapshot, usbMasterBit, .usbMaster, .handler⟩,
      ⟨.reread endpointStatus, 0xFF, .endpointScan, .handler⟩,
      ⟨.reread peripheralStatus, busEventBit, .usbBusEvent, .clearMask peripheralStatus⟩,
      ⟨.snapshot, usbCommandBit, .cbwReceived, .handler⟩,
      ⟨.reread systemStatus, systemEventBit, .systemEvent, .handler⟩,
      ⟨.snapshot, usbLinkBit, .usbLinkEvent, .writeMask usbStatus⟩]⟩

def system : LineRoute :=
  ⟨pcieStatus,
    [⟨.snapshot, nvmeQueueBit, .nvmeQueueEvent, .handler⟩,
      ⟨.snapshot, pcieEventBit, .pcieEvent, .handler⟩,
      ⟨.snapshot, pcieLinkBit, .pcieLinkEvent, .handler⟩,
      ⟨.reread systemStatus, systemPowerBit, .powerEvent, .handler⟩,
      ⟨.reread timerStatus, timerTickBit, .timerTick, .writeMask timerStatus⟩]⟩

def ofLine : IrqLine → LineRoute
  | .endpoint => endpoint
  | .system => system

end LineRoute

namespace Linkage

variable {β : Type} [RegisterBus β]

def acknowledge (test : StatusTest) : Run (Machine β) Unit :=
  match test.ack with
  | .handler => pure ()
  | .writeMask register => Machine.write register test.mask
  | .clearMask register => Machine.clearBits register test.mask

def runTest (l : Linkage β) (snapshot : UInt8) (test : StatusTest) : Run (Machine β) Unit := do
  let value ← match test.source with
    | .snapshot => pure snapshot
    | .reread register => Machine.read register
  if value &&& test.mask = 0 then
    pure ()
  else
    l.dispatch test.slot none
    acknowledge test

def runTests (l : Linkage β) (snapshot : UInt8) : List StatusTest → Run (Machine β) Unit
  | [] => pure ()
  | test :: rest => do
    l.runTest snapshot test
    l.runTests snapshot rest

/-- Samples the status register of a line and runs the line's tests. -/
def route (l : Linkage β) (line : IrqLine) : Run (Machine β) Unit := do
  let snapshot ← Machine.read (LineRoute.ofLine line).status
  Machine.note (.route line snapshot)
  l.runTests snapshot (LineRoute.ofLine line).tests

end Linkage

end BankedController
