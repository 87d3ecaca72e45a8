namespace BankedController.RegisterMap

-- Work memory of the firmware.
/-- Events for the main loop. -/
def eventFlags : UInt16 := 0x09F9
/-- State shared between interrupt handlers and the main loop. -/
def systemState : UInt16 := 0x0AE2
/-- The endpoint that a scan step chose. -/
def endpointIndex : UInt16 := 0x0A7B
/-- The offset that a scan step dispatched. -/
def endpointOffset : UInt16 := 0x0A7C
/-- The rolling counter of completed commands. -/
def commandState : UInt16 := 0x0A60
/-- The queue slot of the command in flight. -/
def commandSlot : UInt16 := 0x0A61
/-- The tail of the circular submission queue. -/
def queueTail : UInt16 := 0x0A62
/-- Iteration counters, four bytes each, one for each kind of wait. -/
def queueCounter : UInt16 := 0x0A64
def doorbellCounter : UInt16 := 0x0A68
def flashCounter : UInt16 := 0x0A6C
def phyCounter : UInt16 := 0x0A70
def recoveryCount : UInt16 := 0x0A74
/-- The posted command request: its kind, its fields, and its four address bytes. -/
def requestKind : UInt16 := 0x0A80
def requestOpcode : UInt16 := 0x0A81
def requestParam : UInt16 := 0x0A82
def requestTag : UInt16 := 0x0A83
def requestAddress : UInt16 := 0x0A84

-- Bits of the event byte and of the system-state byte.
def eventEndpoint : UInt8 := 0x01
def eventHost : UInt8 := 0x02
def deferredHost : UInt8 := 0x01
def deferredEndpoint : UInt8 := 0x02
def linkUp : UInt8 := 0x10

-- Interrupt status.
/-- The block of write-one-to-clear bytes that holds the three interrupt status registers. -/
def interruptStatusBase : UInt16 := 0xC800
def interruptStatusSize : UInt16 := 0x10
def usbStatus : UInt16 := 0xC802
def systemStatus : UInt16 := 0xC806
def pcieStatus : UInt16 := 0xC80A
def timerStatus : UInt16 := 0xCC33
def usbMasterBit : UInt8 := 0x01
def usbCommandBit : UInt8 := 0x04
def usbLinkBit : UInt8 := 0x10
def systemEventBit : UInt8 := 0x01
def systemPowerBit : UInt8 := 0x10
def pcieLinkBit : UInt8 := 0x10
def pcieEventBit : UInt8 := 0x20
def nvmeQueueBit : UInt8 := 0x40
def timerTickBit : UInt8 := 0x04

-- USB endpoints.
/-- The bitmap of endpoints with conditions pending. -/
def endpointStatus : UInt16 := 0x9118
/-- The first of the eight registers of pending conditions. -/
def endpointSecondaryBase : UInt16 := 0x9096
def peripheralStatus : UInt16 := 0x9101
def masterReadyBit : UInt8 := 0x01
def busEventBit : UInt8 := 0x20

-- Command blocks, and the offsets of the registers in a block.
def nvmeBlock : UInt16 := 0xC420
def flashBlock : UInt16 := 0xC8A0
def phyBlock : UInt16 := 0xE710
def blockSize : UInt16 := 0x10
def opcodeOffset : UInt16 := 0x00
def paramOffset : UInt16 := 0x01
def tagOffset : UInt16 := 0x02
def addressOffset : UInt16 := 0x04
def triggerOffset : UInt16 := 0x08
def statusOffset : UInt16 := 0x09
def controlOffset : UInt16 := 0x0A
def startBit : UInt8 := 0x01
def busyBit : UInt8 := 0x01
def errorBit : UInt8 := 0x02
def enableBit : UInt8 := 0x01
def abortBit : UInt8 := 0x02

-- Power, PHY, timer and flash control.
def powerControl : UInt16 := 0x92C0
def nvmeRailBit : UInt8 := 0x01
def phyRailBit : UInt8 := 0x02
def phyControl : UInt16 := 0xE7E3
def laneResetBit : UInt8 := 0x40
def pllHoldBit : UInt8 := 0x80
def timerControl : UInt16 := 0xCC11
def timerClearBit : UInt8 := 0x02
def flashMode : UInt16 := 0xC8B8
def softResetBit : UInt8 := 0x01

end BankedController.RegisterMap
