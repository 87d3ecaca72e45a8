import BankedController.Command.Kind
import BankedController.Device.CommandUnit
import BankedController.Device.EndpointBlock
import BankedController.Device.Latch
import BankedController.Device.WriteLog
import BankedController.Machine
import BankedController.RegisterMap

namespace BankedController

open RegisterMap

/-- A register block of the controller, or a byte that cannot be changed. -/
inductive Block where
  | control
  | endpoints
  | interruptStatus
  | timerStatus
  | unit (kind : CommandKind)
  | stuck (value : UInt8)
  deriving DecidableEq

structure Blocks where
  control : WriteLog
  endpoints : EndpointBlock
  interruptStatus : Latch
  timerStatus : Latch
  nvme : CommandUnit
  flash : CommandUnit
  phy : CommandUnit
  deriving DecidableEq

namespace Blocks

def initial : Blocks :=
  ⟨.empty, .initial, .ofRange interruptStatusBase interruptStatusSize,
    .ofRange RegisterMap.timerStatus 1, .ofBase nvmeBlock, .ofBase flashBlock, .ofBase phyBlock⟩

def unit (b : Blocks) : CommandKind → CommandUnit
  | .nvme => b.nvme
  | .flash => b.flash
  | .phy => b.phy

def setUnit (b : Blocks) (kind : CommandKind) (u : CommandUnit) : Blocks :=
  match kind with
  | .nvme => { b with nvme := u }
  | .flash => { b with flash := u }
  | .phy => { b with phy := u }

theorem unit_setUnit (b : Blocks) (kind other : CommandKind) (u : CommandUnit) :
    (b.setUnit kind u).unit other = if other = kind then u else b.unit other := by
  cases kind <;> cases other <;> rfl

def read (block : Block) (addr : UInt16) (b : Blocks) : Except Fault (UInt8 × Blocks) :=
  match block with
  | .control => (Peripheral.read addr b.control).map fun r => (r.1, { b with control := r.2 })
  | .endpoints =>
    (Peripheral.read addr b.endpoints).map fun r => (r.1, { b with endpoints := r.2 })
  | .interruptStatus =>
    (Peripheral.read addr b.interruptStatus).map fun r => (r.1, { b with interruptStatus := r.2 })
  | .timerStatus =>
    (Peripheral.read addr b.timerStatus).map fun r => (r.1, { b with timerStatus := r.2 })
  | .unit kind => (Peripheral.read addr (b.unit kind)).map fun r => (r.1, b.setUnit kind r.2)
  | .stuck value => .ok (value, b)

def write (block : Block) (addr : UInt16) (value : UInt8) (b : Blocks) : Except Fault Blocks :=
  match block with
  | .control => (Peripheral.write addr value b.control).map fun d => { b with control := d }
  | .endpoints => (Peripheral.write addr value b.endpoints).map fun d => { b with endpoints := d }
  | .interruptStatus =>
    (Peripheral.write addr value b.interruptStatus).map fun d => { b with interruptStatus := d }
  | .timerStatus =>
    (Peripheral.write addr value b.timerStatus).map fun d => { b with timerStatus := d }
  | .unit kind => (Peripheral.write addr value (b.unit kind)).map fun d => b.setUnit kind d
  | .stuck _ => .ok b

def reset (block : Block) (b : Blocks) : Blocks :=
  match block with
  | .control => { b with control := Peripheral.reset b.control }
  | .endpoints => { b with endpoints := Peripheral.reset b.endpoints }
  | .interruptStatus => { b with interruptStatus := Peripheral.reset b.interruptStatus }
  | .timerStatus => { b with timerStatus := Peripheral.reset b.timerStatus }
  | .unit kind => b.setUnit kind (Peripheral.reset (b.unit kind))
  | .stuck _ => b

instance : DeviceStore Block Blocks := ⟨read, write, reset⟩

end Blocks

abbrev RigBus : Type := XdataBus Block Blocks

namespace RigBus

/-- Where the blocks are mapped, in the order of wiring. -/
def wiring : List (MappedRange Block) :=
  [⟨powerControl, 1, .control⟩, ⟨phyControl, 1, .control⟩, ⟨timerControl, 1, .control⟩,
    ⟨flashMode, 1, .control⟩, ⟨endpointStatus, 1, .endpoints⟩,
    ⟨endpointSecondaryBase, 8, .endpoints⟩,
    ⟨interruptStatusBase, interruptStatusSize, .interruptStatus⟩, ⟨timerStatus, 1, .timerStatus⟩,
    ⟨nvmeBlock, blockSize, .unit .nvme⟩, ⟨flashBlock, blockSize, .unit .flash⟩,
    ⟨phyBlock, blockSize, .unit .phy⟩]

/-- The same ranges by ascending start. -/
def ranges : List (MappedRange Block) :=
  [⟨endpointSecondaryBase, 8, .endpoints⟩, ⟨endpointStatus, 1, .endpoints⟩,
    ⟨powerControl, 1, .control⟩, ⟨nvmeBlock, blockSize, .unit .nvme⟩,
    ⟨interruptStatusBase, interruptStatusSize, .interruptStatus⟩,
    ⟨flashBlock, blockSize, .unit .flash⟩, ⟨flashMode, 1, .control⟩,
    ⟨timerControl, 1, .control⟩, ⟨timerStatus, 1, .timerStatus⟩,
    ⟨phyBlock, blockSize, .unit .phy⟩, ⟨phyControl, 1, .control⟩]

def initial : RigBus := .ofRanges Ram.zero .initial ranges

/-- Wiring the blocks one after the other succeeds and gives this bus. -/
example : (XdataBus.ofDevices Blocks.initial).mapAll wiring = .ok initial := rfl

end RigBus

/-- The wired bus, and what the surroundings remember. -/
structure Rig (ω : Type) where
  bus : RigBus
  record : ω

namespace Rig

variable {ω α : Type}

/-- Runs `m` on the bus. -/
@[inline] def onBus (m : Run RigBus α) : Run (Rig ω) α
  | ⟨bus, record⟩ =>
    match m bus with
    | .done a bus => .done a ⟨bus, record⟩
    | .fault cause bus => .fault cause ⟨bus, record⟩
    | .exhausted => .exhausted

instance : RegisterBus (Rig ω) where
  read addr := onBus (XdataBus.read addr)
  write addr value := onBus (XdataBus.write addr value)

def blocks (rig : Rig ω) : Blocks := rig.bus.devices

/-- Works on the register blocks from the hardware side. -/
def onBlocks (f : Blocks → Except Fault Blocks) : Run (Machine (Rig ω)) Unit :=
  Machine.onBus fun rig =>
    match f rig.bus.devices with
    | .ok blocks => .done () { rig with bus := { rig.bus with devices := blocks } }
    | .error cause => .fault cause rig

def remember (f : ω → ω) : Run (Machine (Rig ω)) Unit :=
  Machine.onBus (Run.modify fun rig => { rig with record := f rig.record })

def raiseEndpoint (endpoint : Nat) (mask : UInt8) : Run (Machine (Rig ω)) Unit :=
  onBlocks fun b => (b.endpoints.raise endpoint mask).map fun e => { b with endpoints := e }

def forceEndpoints (value : Option UInt8) : Run (Machine (Rig ω)) Unit :=
  onBlocks fun b => .ok { b with endpoints := b.endpoints.force value }

def assertInterrupt (addr : UInt16) (mask : UInt8) : Run (Machine (Rig ω)) Unit :=
  onBlocks fun b =>
    (b.interruptStatus.assertBits addr mask).map fun l => { b with interruptStatus := l }

def assertTimer (mask : UInt8) : Run (Machine (Rig ω)) Unit :=
  onBlocks fun b => (b.timerStatus.assertBits timerStatus mask).map fun l => { b with timerStatus := l }

def setLatency (kind : CommandKind) (accept complete : Latency) : Run (Machine (Rig ω)) Unit :=
  onBlocks fun b => .ok (b.setUnit kind ((b.unit kind).setLatency accept complete))

def failNext (kind : CommandKind) : Run (Machine (Rig ω)) Unit :=
  onBlocks fun b => .ok (b.setUnit kind { b.unit kind with failNext := true })

end Rig

/-- What an event does to the blocks, to memory and to the interrupt lines. -/
def Stimulus.apply {ω : Type} : Stimulus → Run (Machine (Rig ω)) Unit
  | endpointReady endpoint mask => do
    Rig.raiseEndpoint (endpoint.toNat % 8) mask
    Rig.assertInterrupt usbStatus usbMasterBit
    Machine.raiseIrq .endpoint
  | cbw => do
    Rig.assertInterrupt usbStatus usbCommandBit
    Machine.raiseIrq .endpoint
  | usbLink => do
    Rig.assertInterrupt usbStatus usbLinkBit
    Machine.raiseIrq .endpoint
  | systemEvent => do
    Rig.assertInterrupt systemStatus systemEventBit
    Machine.raiseIrq .endpoint
  | nvmeQueue => do
    Rig.assertInterrupt pcieStatus nvmeQueueBit
    Machine.raiseIrq .system
  | pcieEvent => do
    Rig.assertInterrupt pcieStatus pcieEventBit
    Machine.raiseIrq .system
  | pcieLink => do
    Rig.assertInterrupt pcieStatus pcieLinkBit
    Machine.raiseIrq .system
  | power => do
    Rig.assertInterrupt systemStatus systemPowerBit
    Machine.raiseIrq .system
  | timerTick => do
    Rig.assertTimer timerTickBit
    Machine.raiseIrq .system
  | masterReady => Machine.setBits peripheralStatus masterReadyBit
  | deferEndpoint => Machine.setBits systemState deferredEndpoint
  | stall unit => Rig.setLatency unit (.reads 0) .never
  | release unit reads => Rig.setLatency unit (.reads 0) (.reads reads)

end BankedController
