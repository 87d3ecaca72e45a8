import BankedController.Code.Address
import BankedController.Dispatch.Slot

namespace BankedController

/-- How control gets into, and back out of, the target of a slot. -/
inductive CallConvention where
  /-- The stub calls the target, which returns into the stub. -/
  | callReturn
  /-- The stub jumps to the target, whose return lands in the bank-restore epilogue. -/
  | tailJump
  deriving DecidableEq

def CallConvention.text : CallConvention → String
  | callReturn => "CallReturn"
  | tailJump => "TailJump"

/-- One row of a table's source. -/
structure DispatchEntry where
  slot : SlotId
  bank : Bank
  address : UInt16
  convention : CallConvention
  deriving DecidableEq

namespace DispatchEntry

/-- The code address that the slot leads to. -/
def target (e : DispatchEntry) : CodeAddr :=
  CodeAddr.ofLogical e.bank e.address

/-- The shipped table. -/
def standard : List DispatchEntry :=
  [⟨.hwInit, .bank0, 0x4A20, .callReturn⟩,
    ⟨.usbInit, .bank0, 0x8A3F, .callReturn⟩,
    ⟨.nvmeInit, .bank1, 0x8D0E, .callReturn⟩,
    ⟨.phyInit, .bank1, 0x9C52, .callReturn⟩,
    ⟨.timerPoll, .bank0, 0x8C2E, .callReturn⟩,
    ⟨.linkPoll, .bank0, 0x9310, .callReturn⟩,
    ⟨.phyPoll, .bank1, 0xA1B4, .callReturn⟩,
    ⟨.queuePoll, .bank0, 0xB07A, .callReturn⟩,
    ⟨.hostEvent, .bank0, 0xC2D0, .callReturn⟩,
    ⟨.endpointScan, .bank1, 0x9A3C, .callReturn⟩,
    ⟨.commandService, .bank1, 0xB410, .tailJump⟩,
    ⟨.usbMaster, .bank0, 0x9E66, .callReturn⟩,
    ⟨.usbBusEvent, .bank0, 0xA022, .callReturn⟩,
    ⟨.cbwReceived, .bank0, 0xA47C, .tailJump⟩,
    ⟨.systemEvent, .bank1, 0x8E9A, .callReturn⟩,
    ⟨.usbLinkEvent, .bank0, 0xA8C4, .callReturn⟩,
    ⟨.nvmeQueueEvent, .bank1, 0xBE30, .callReturn⟩,
    ⟨.pcieEvent, .bank1, 0xC110, .callReturn⟩,
    ⟨.pcieLinkEvent, .bank1, 0xC5F2, .callReturn⟩,
    ⟨.powerEvent, .bank0, 0xCB40, .callReturn⟩,
    ⟨.timerTick, .bank0, 0x5118, .callReturn⟩,
    ⟨.endpointHandler, .bank0, 0xD27C, .tailJump⟩,
    ⟨.masterEvent, .bank0, 0xD6A0, .callReturn⟩]

def standard? (slot : SlotId) : Option DispatchEntry :=
  standard.find? fun e => e.slot = slot

end DispatchEntry

end BankedController
