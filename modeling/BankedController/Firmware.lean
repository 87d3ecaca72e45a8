import BankedController.Code.Image
import BankedController.Command.Engine
import BankedController.Endpoint.Scan
import BankedController.FarCall
import BankedController.InterruptRoute
import BankedController.Pass

/-! The linked firmware: a checked configuration, a dispatch table, and the code image that the
table was checked against. Routines call slots and slots run routines, so the linkage that routines
see is defined by recursion on a bound: a linkage with bound `n + 1` runs routines against the
linkage with bound `n`. A run that a bound is too small for ends exhausted, which is different from
every result and from every fault. -/

namespace BankedController

inductive BuildError where
  | config (cause : ConfigError)
  | dispatch (cause : DispatchError)
  deriving DecidableEq

def BuildError.message : BuildError → String
  | config cause => cause.message
  | dispatch cause => cause.message

/-- Places the routines of the core slots at the targets of their entries, wherever nothing is
placed yet. -/
def CodeImage.installCore {ρ : Type} (scan commandService : ρ) (image : CodeImage ρ) :
    List DispatchEntry → CodeImage ρ
  | [] => image
  | e :: rest =>
    let placed :=
      if e.slot = .endpointScan then some (Placed.mk "endpoint_scan" e.target scan)
      else if e.slot = .commandService then
        some (Placed.mk "command_service" e.target commandService)
      else none
    match placed with
    | none => installCore scan commandService image rest
    | some p =>
      match image.place p with
      | .ok image => installCore scan commandService image rest
      | .error _ => installCore scan commandService image rest

structure Firmware (β : Type) where
  config : FirmwareConfig
  table : DispatchTable
  image : CodeImage (Routine β)

namespace Firmware

variable {β : Type} [RegisterBus β]

/-- Links an image against the entries of a table. The configuration is checked first. -/
def link (image : CodeImage (Routine β)) (entries : List DispatchEntry)
    (config : FirmwareConfig) : Except BuildError (Firmware β) :=
  match config.defect? with
  | some cause => .error (.config cause)
  | none =>
    let image := image.installCore scanRoutine commandServiceRoutine entries
    match DispatchTable.build entries image.contains with
    | .error cause => .error (.dispatch cause)
    | .ok table => .ok ⟨config, table, image⟩

/-- The machine before the first instruction: the firmware is linked, nothing has run. -/
def machine (fw : Firmware β) (bus : β) (threshold : Option Severity) : Machine β where
  bus := bus
  window := .initial
  stack := .ofBase fw.config.stackBase
  irq := .initial
  stats := .initial
  log := Log.record ⟨threshold, []⟩ (.tableBuilt fw.table.size fw.image.size)

/-- What the image holds at a logical address while a bank is mapped, against a linkage. -/
def resolver (fw : Firmware β) (l : Linkage β) : Resolver β := fun logical active =>
  (fw.image.resolve logical active).map fun placed => placed.body l

/-- Counts and carries out a call. The routine runs against `l`. -/
def callWith (fw : Firmware β) (l : Linkage β) (id : SlotId) (param : Option UInt8) :
    Run (Machine β) (Except CallError Unit) :=
  match fw.table.slot? id with
  | none => pure (.error (.unknownSlot id))
  | some slot => do
    Run.modify fun s => { s with stats := s.stats.called id }
    farCall (fw.resolver l) slot param

end Firmware

namespace Linkage

variable {β : Type} [RegisterBus β]

/-- Takes the frame of an interrupt off again and maps the bank that it saved. -/
def leaveInterrupt : Run (Machine β) (Except CallError Unit) := do
  match ← Machine.popBank with
  | .error e => pure (.error e)
  | .ok saved =>
    Machine.selectBank saved
    Machine.popExpect (.returnTo .interrupt)

def interruptFrame (l : Linkage β) (line : IrqLine) (bank : Bank) :
    Run (Machine β) (Except CallError Unit) := do
  match ← Machine.push (.returnTo .interrupt) with
  | .error e => pure (.error e)
  | .ok () =>
    match ← Machine.push (.savedBank bank) with
    | .error e => pure (.error e)
    | .ok () =>
      l.route line
      leaveInterrupt

/-- Ends the service of a line. If its frame did not come off as it was put on, the stack and the
bank are put back as they were. -/
def retire (line : IrqLine) (depth : Nat) (bank : Bank) (result : Except CallError Unit) :
    Run (Machine β) Unit := do
  match result with
  | .ok () => pure ()
  | .error e =>
    Machine.note (.frameCorrupted line e)
    FarCall.unwind depth bank
  Machine.onIrq fun irq => irq.complete line
  Machine.note (.interruptExit line)

/-- Takes a line: acknowledges it, runs its route in a frame and ends its service. -/
def serviceInterrupt (l : Linkage β) (line : IrqLine) : Run (Machine β) Unit := do
  Machine.onIrq fun irq => irq.acknowledge line
  let depth ← Run.gets fun s => s.stack.depth
  let bank ← Run.gets fun s => s.window.active
  Machine.note (.interruptEntry line bank depth)
  let result ← l.interruptFrame line bank
  retire line depth bank result

/-- The slots that run once at power-on, in order. -/
def startup : List SlotId := [.hwInit, .usbInit, .nvmeInit, .phyInit]

def dispatchAll (l : Linkage β) : List SlotId → Run (Machine β) Unit
  | [] => pure ()
  | slot :: rest => do
    l.dispatch slot none
    l.dispatchAll rest

/-- Power-on: clears the work memory, resets the controller, runs the startup slots and enables
interrupts. -/
def powerOn (l : Linkage β) : Run (Machine β) Unit := do
  Machine.onBus (RegisterBus.fill l.config.workRam.start l.config.workRam.size.toNat 0)
  Run.modify fun s => { s with stack := s.stack.reset }
  Machine.selectBank .bank0
  Machine.onIrq fun _ => { InterruptController.initial with priority := l.config.highLine.bit }
  let capacity ← Run.gets fun s => s.stack.capacity
  Machine.note (.powerOn l.config.workRam.size capacity)
  l.dispatchAll startup
  Machine.onIrq fun irq =>
    { irq with
      enable := InterruptController.globalBit ||| IrqLine.endpoint.bit ||| IrqLine.system.bit }
  Machine.note .startupComplete

def runPasses (l : Linkage β) : Nat → Run (Machine β) Unit
  | 0 => Run.giveUp
  | n + 1 => do
    let _ ← l.runPass
    l.runPasses n

/-- Power-on and then the main loop, until a fault ends it. -/
def boot (l : Linkage β) : Run (Machine β) Unit := do
  l.powerOn
  l.runPasses l.patience

end Linkage

namespace Firmware

variable {β : Type} [RegisterBus β]

/-- The linkage that routines see, with a bound on how deep calls nest and on how often one
preemption point is served. -/
def linkage (fw : Firmware β) : Nat → Linkage β
  | 0 => .exhausted fw.config fw.table
  | n + 1 =>
    { config := fw.config
      table := fw.table
      patience := n
      call := fun id param s => fw.callWith (fw.linkage n) id param s
      poll := fun s =>
        match s.irq.next? with
        | none => .done () s
        | some line =>
          (do
            (fw.linkage n).serviceInterrupt line
            (fw.linkage n).poll : Run (Machine β) Unit) s }

/-- A bound that no run of practical length reaches. -/
def bound : Nat := 1000000000000

/-- The linkage through which the firmware is driven from outside. -/
def entry (fw : Firmware β) : Linkage β := fw.linkage bound

end Firmware

end BankedController
