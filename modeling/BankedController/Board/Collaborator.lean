import BankedController.Firmware
import BankedController.Rig

namespace BankedController.Board

open RegisterMap

/-- A call of a stand-in: the slot, the byte it got, and the bank that was mapped. -/
structure Activity where
  slot : SlotId
  param : Option UInt8
  bank : Bank
  deriving DecidableEq

/-- What a board remembers: the calls of stand-ins, the newest first, the tag of the next command,
and the number of passes since power-on. -/
structure Record where
  activity : List Activity
  nextTag : UInt8
  passes : Nat
  deriving DecidableEq

def Record.initial : Record := ⟨[], 0, 0⟩

/-- What a stand-in does besides being recorded. -/
inductive Behaviour where
  | nothing
  /-- Writes the mask to a write-one-to-clear register. -/
  | acknowledge (register : UInt16) (mask : UInt8)
  | clearMasterReady
  | linkUp
  /-- Acknowledges a received command, posts a read and defers host work to the main loop. -/
  | relayCommand
  deriving DecidableEq

def Behaviour.ofSlot (slot : SlotId) : Behaviour :=
  if slot = .usbMaster then .acknowledge usbStatus usbMasterBit
  else if slot = .cbwReceived then .relayCommand
  else if slot = .systemEvent then .acknowledge systemStatus systemEventBit
  else if slot = .usbLinkEvent then .linkUp
  else if slot = .nvmeQueueEvent then .acknowledge pcieStatus nvmeQueueBit
  else if slot = .pcieEvent then .acknowledge pcieStatus pcieEventBit
  else if slot = .pcieLinkEvent then .acknowledge pcieStatus pcieLinkBit
  else if slot = .powerEvent then .acknowledge systemStatus systemPowerBit
  else if slot = .masterEvent then .clearMasterReady
  else .nothing

def readOpcode : UInt8 := 0x02

def readCommand (tag : UInt8) : CommandRequest :=
  ⟨.nvme, readOpcode, 0, tag, tag.toUInt32 * 8⟩

def takeTag : Run (Machine (Rig Record)) UInt8 := do
  let tag ← Run.gets fun s => s.bus.record.nextTag
  Rig.remember fun r => { r with nextTag := tag + 1 }
  pure tag

def Behaviour.run : Behaviour → Run (Machine (Rig Record)) Unit
  | nothing => pure ()
  | acknowledge register mask => Machine.write register mask
  | clearMasterReady => Machine.clearBits peripheralStatus masterReadyBit
  | linkUp => Machine.setBits systemState RegisterMap.linkUp
  | relayCommand => do
    Machine.write usbStatus usbCommandBit
    let tag ← takeTag
    (readCommand tag).post
    Machine.setBits systemState deferredHost

/-- The stand-in for a slot. It acknowledges the condition it was called for, as the first
instructions of the real handler do, and is recorded. -/
def standIn (slot : SlotId) : Routine (Rig Record) := fun _ param => do
  let bank ← Run.gets fun s => s.window.active
  Rig.remember fun r => { r with activity := ⟨slot, param, bank⟩ :: r.activity }
  (Behaviour.ofSlot slot).run

/-- The stand-ins for all collaborator slots of the shipped table, at their targets. -/
def standIns : List (Placed (Routine (Rig Record))) :=
  (DispatchEntry.standard.filter fun e => !e.slot.isCore).map fun e =>
    ⟨e.slot.text, e.target, standIn e.slot⟩

end BankedController.Board
