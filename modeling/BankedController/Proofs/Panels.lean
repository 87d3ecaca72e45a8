import BankedController.Board.Basic
import BankedController.Proofs.EndpointBuses
import BankedController.Proofs.Passes

namespace BankedController.Board

open RegisterMap Endpoint

/-- A byte of the panel: the four interrupt status registers, the peripheral status, and the two
bytes that handlers share with the main loop. -/
inductive Cell where
  | usb
  | system
  | pcie
  | timer
  | peripheral
  | state
  | events
  deriving DecidableEq

namespace Cell

def all : List Cell := [usb, system, pcie, timer, peripheral, state, events]

/-- Where the byte is read and written. -/
def addr : Cell → UInt16
  | usb => usbStatus
  | system => systemStatus
  | pcie => pcieStatus
  | timer => timerStatus
  | peripheral => peripheralStatus
  | state => systemState
  | events => eventFlags

/-- Interrupt status loses the bits that are written to it. The rest is memory. -/
def latched : Cell → Bool
  | usb | system | pcie | timer => true
  | peripheral | state | events => false

/-- The byte that a write leaves. -/
def written (c : Cell) (old value : UInt8) : UInt8 :=
  if c.latched then old &&& ~~~value else value

/-- The byte at an address. -/
def at? (addr : UInt16) : Option Cell := all.find? fun c => c.addr = addr

end Cell

/-- What can be followed of a board: the bytes, the endpoint block with the writes to it, the calls of
stand-ins, and the number of dispatches that failed. Clears and calls stand newest first. -/
structure Panel where
  byte : Cell → UInt8
  conditions : Vector UInt8 8
  forced : Option UInt8
  clears : List (Nat × UInt8)
  calls : List (SlotId × Option UInt8)
  failures : Nat

/-- The place of the lowest set bit. -/
def lowest? (value : UInt8) : Option (Fin 8) :=
  if h : (lowestBit value).toNat < 8 then some ⟨(lowestBit value).toNat, h⟩ else none

namespace Panel

variable (p : Panel)

/-- The bitmap of the endpoints with conditions pending. -/
def primary : UInt8 := p.forced.getD (EndpointBlock.pendingMap p.conditions)

/-- What is read at an address, if that is on the panel. -/
def load (addr : UInt16) : UInt8 :=
  if addr = endpointStatus then p.primary
  else match Cell.at? addr, Journaled.endpointAt? addr with
    | some c, _ => p.byte c
    | none, some e => p.conditions.get e
    | none, none => 0

def store (addr : UInt16) (value : UInt8) : Panel :=
  match Cell.at? addr, Journaled.endpointAt? addr with
  | some c, _ => { p with byte := Function.update p.byte c (c.written (p.byte c) value) }
  | none, some e =>
    { p with
      conditions := p.conditions.set e (p.conditions.get e &&& ~~~value) (Condition.endpoint_lt e)
      clears := (e.val, value) :: p.clears }
  | none, none => p

/-- What a stand-in does besides being recorded. -/
def behave : Behaviour → Panel
  | .nothing => p
  | .acknowledge register mask => p.store register mask
  | .clearMasterReady =>
    p.store peripheralStatus (p.load peripheralStatus &&& ~~~masterReadyBit)
  | .linkUp => p.store systemState (p.load systemState ||| RegisterMap.linkUp)
  | .relayCommand =>
    (p.store usbStatus usbCommandBit).store systemState (p.load systemState ||| deferredHost)

/-- A stand-in runs. -/
def called (slot : SlotId) (param : Option UInt8) : Panel :=
  { p with calls := (slot, param) :: p.calls }.behave (.ofSlot slot)

def failed : Panel := { p with failures := p.failures + 1 }

/-- A dispatch runs `body` with the room that its frame leaves, or fails. -/
def framed (room : Nat) (body : Nat → Panel → Panel) : Panel :=
  if 5 ≤ room then body (room - 5) p else p.failed

/-- A stand-in is dispatched. -/
def standIn (room : Nat) (slot : SlotId) (param : Option UInt8) : Panel :=
  p.framed room fun _ p => p.called slot param

/-- The condition that a scan step serves. -/
def next? : Option Condition :=
  (lowest? p.primary).bind fun endpoint =>
    (lowest? (p.conditions.get endpoint)).map fun bit => ⟨endpoint, bit⟩

/-- A scan step that serves a condition. -/
def serveCondition (room : Nat) (c : Condition) : Panel :=
  (p.standIn room .endpointHandler (some c.offset)).store (Condition.register c.endpoint) c.mask

def scanSteps (room : Nat) : Nat → Panel → Panel
  | 0, p => p
  | limit + 1, p =>
    match p.next? with
    | none => p
    | some c => scanSteps room limit (p.serveCondition room c)

/-- Whether the master asks to be dispatched. -/
def masterReady : Bool := p.load peripheralStatus &&& masterReadyBit ≠ 0

/-- The dispatch ahead of the steps of a scan. -/
def forcedFirst (room : Nat) : Panel :=
  if p.masterReady then p.standIn room .endpointHandler (some forcedOffset) else p

/-- The dispatch after them. -/
def masterLast (room : Nat) : Panel :=
  if p.masterReady then p.standIn room .masterEvent none else p

/-- A scan of at most `limit` steps. -/
def scan (limit room : Nat) : Panel :=
  ((p.forcedFirst room).scanSteps room limit).masterLast room

/-- A slot is dispatched. The command service leaves the panel alone. -/
def dispatch (limit room : Nat) (slot : SlotId) : Panel :=
  p.framed room fun room p =>
    if slot = .endpointScan then p.scan limit room
    else if slot = .commandService then p
    else p.called slot none

/-- Slots are dispatched in order. -/
def dispatchAll (limit room : Nat) : List SlotId → Panel → Panel
  | [], p => p
  | slot :: rest, p => dispatchAll limit room rest (p.dispatch limit room slot)

def acknowledge : Acknowledge → UInt8 → Panel
  | .handler, _ => p
  | .writeMask register, mask => p.store register mask
  | .clearMask register, mask => p.store register (p.load register &&& ~~~mask)

/-- A test of a route runs. -/
def runTest (limit room : Nat) (snapshot : UInt8) (test : StatusTest) : Panel :=
  let value := match test.source with
    | .snapshot => snapshot
    | .reread register => p.load register
  if value &&& test.mask = 0 then p
  else (p.dispatch limit room test.slot).acknowledge test.ack test.mask

def runTests (limit room : Nat) (snapshot : UInt8) : List StatusTest → Panel → Panel
  | [], p => p
  | test :: rest, p => runTests limit room snapshot rest (p.runTest limit room snapshot test)

/-- The route of a line runs. -/
def route (limit room : Nat) (line : IrqLine) : Panel :=
  p.runTests limit room (p.load (LineRoute.ofLine line).status) (LineRoute.ofLine line).tests

/-- The pass takes the event bits that it looks at. -/
def takeEvents : Panel :=
  if p.byte .events &&& passEvents = 0 then p
  else p.store eventFlags (p.byte .events &&& ~~~(p.byte .events &&& passEvents))

/-- The pass serves them. -/
def serveEvents (limit room : Nat) : Panel :=
  p.takeEvents.dispatchAll limit room (asked (p.byte .events &&& passEvents))

/-- Deferred work becomes events. -/
def promote : Panel :=
  let promoted := p.byte .state &&& deferredBits
  if promoted = 0 then p
  else (p.store systemState (p.byte .state &&& ~~~promoted)).store eventFlags
    (p.byte .events ||| eventsOfDeferred promoted)

end Panel

/-- The interrupt controller beside the panel. -/
structure Console where
  irq : InterruptController
  panel : Panel

namespace Console

variable (c : Console)

/-- A line is taken. Without room for its frame its service ends at once. -/
def service (limit room : Nat) (line : IrqLine) : Console where
  irq := (c.irq.acknowledge line).complete line
  panel := if 3 ≤ room then c.panel.route limit (room - 3) line else c.panel

/-- A preemption point, at which at most so many lines are taken. -/
def poll (limit room : Nat) : Nat → Console → Console
  | 0, c => c
  | count + 1, c =>
    match c.irq.next? with
    | none => c
    | some line => poll limit room count (c.service limit room line)

/-- Something is done to the panel. -/
def onPanel (f : Panel → Panel) : Console := { c with panel := f c.panel }

/-- Pollers run, each followed by a preemption point. There are two lines. -/
def runPollers (limit room : Nat) : List SlotId → Console → Console
  | [], c => c
  | slot :: rest, c =>
    runPollers limit room rest
      ((c.onPanel fun p => p.dispatch limit room slot).poll limit room 2)

/-- A pass of the main loop. -/
def pass (limit room : Nat) : Console :=
  ((c.runPollers limit room pollers).onPanel fun p =>
    (p.serveEvents limit room).promote).poll limit room 2

end Console

end BankedController.Board
