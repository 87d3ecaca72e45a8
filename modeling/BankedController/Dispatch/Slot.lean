namespace BankedController

/-- A dispatch slot. A slot is a number; the numbers that the shipped firmware uses have names. -/
structure SlotId where
  number : UInt16
  deriving DecidableEq, Inhabited

namespace SlotId

/-- The address of the stub of slot 0. -/
def stubBase : Nat := 0x300

def stubSize : Nat := 3

-- Startup sequence.
def hwInit : SlotId := ⟨0⟩
def usbInit : SlotId := ⟨1⟩
def nvmeInit : SlotId := ⟨2⟩
def phyInit : SlotId := ⟨3⟩
-- Main loop, in every pass.
def timerPoll : SlotId := ⟨4⟩
def linkPoll : SlotId := ⟨5⟩
def phyPoll : SlotId := ⟨6⟩
def queuePoll : SlotId := ⟨7⟩
-- Main loop, when events are pending.
def hostEvent : SlotId := ⟨8⟩
def endpointScan : SlotId := ⟨9⟩
def commandService : SlotId := ⟨10⟩
-- The endpoint interrupt line.
def usbMaster : SlotId := ⟨11⟩
def usbBusEvent : SlotId := ⟨12⟩
def cbwReceived : SlotId := ⟨13⟩
def systemEvent : SlotId := ⟨14⟩
def usbLinkEvent : SlotId := ⟨15⟩
-- The system interrupt line.
def nvmeQueueEvent : SlotId := ⟨16⟩
def pcieEvent : SlotId := ⟨17⟩
def pcieLinkEvent : SlotId := ⟨18⟩
def powerEvent : SlotId := ⟨19⟩
def timerTick : SlotId := ⟨20⟩
-- The endpoint scheduler.
def endpointHandler : SlotId := ⟨21⟩
def masterEvent : SlotId := ⟨22⟩

def names : List String :=
  ["HW_INIT", "USB_INIT", "NVME_INIT", "PHY_INIT", "TIMER_POLL", "LINK_POLL", "PHY_POLL",
    "QUEUE_POLL", "HOST_EVENT", "ENDPOINT_SCAN", "COMMAND_SERVICE", "USB_MASTER",
    "USB_BUS_EVENT", "CBW_RECEIVED", "SYSTEM_EVENT", "USB_LINK_EVENT", "NVME_QUEUE_EVENT",
    "PCIE_EVENT", "PCIE_LINK_EVENT", "POWER_EVENT", "TIMER_TICK", "ENDPOINT_HANDLER",
    "MASTER_EVENT"]

def name? (id : SlotId) : Option String :=
  names[id.number.toNat]?

/-- The slot as it stands in messages: its name, or its number if it has none. -/
def text (id : SlotId) : String :=
  id.name?.getD ("slot#" ++ toString id.number.toNat)

/-- The address of the slot's stub. For large slot numbers it lies past the code space. -/
def stub (id : SlotId) : Nat :=
  stubBase + stubSize * id.number.toNat

/-- The slot whose stub stands at a logical address. -/
def ofStub? (addr : UInt16) : Option SlotId :=
  let n := addr.toNat
  if n < stubBase then none
  else if (n - stubBase) % stubSize ≠ 0 then none
  else some ⟨UInt16.ofNat ((n - stubBase) / stubSize)⟩

/-- Whether the slot's routine is part of the firmware itself, and not of a collaborator. -/
def isCore (id : SlotId) : Bool :=
  id = endpointScan || id = commandService

def core : List SlotId := [endpointScan, commandService]

/-- The slot of a stub's address is the slot that owns the stub. -/
theorem ofStub?_stub (id : SlotId) (h : id.stub < 0x10000) :
    ofStub? (UInt16.ofNat id.stub) = some id := by
  have hmod : id.stub % 65536 = id.stub := Nat.mod_eq_of_lt h
  have hlow : ¬ id.stub < stubBase := by simp [stub]
  have hdiv : id.stub - stubBase = stubSize * id.number.toNat := by simp [stub]
  simp [ofStub?, hmod, hlow, hdiv, Nat.mul_mod_right, Nat.mul_div_cancel_left _ (show 0 < stubSize by decide)]

end SlotId

end BankedController
