import BankedController.Bench.Session

namespace BankedController.Bench

inductive TraceItem where
  | enter (name : String) (param : Option UInt8) (bank : Bank) (depth used : Nat)
  | did (act : String) (reply : Reply)
  | exit (name : String) (bank : Bank) (depth : Nat)

/-- What a session remembers: how often the routine at each address has run, and the trace since it
was last taken, the last line first. -/
structure Notebook where
  runs : List (CodeAddr × Nat)
  trace : List TraceItem

namespace Notebook

def initial : Notebook := ⟨[], []⟩

def count (n : Notebook) (addr : CodeAddr) : Nat :=
  match n.runs.find? fun r => r.1 = addr with
  | some (_, count) => count
  | none => 0

def countRun (n : Notebook) (addr : CodeAddr) : Notebook :=
  { n with runs := (addr, n.count addr + 1) :: n.runs.filter fun r => r.1 ≠ addr }

def add (n : Notebook) (item : TraceItem) : Notebook :=
  { n with trace := item :: n.trace }

/-- Takes the trace, in order. -/
def drain (n : Notebook) : List TraceItem × Notebook :=
  (n.trace.reverse, { n with trace := [] })

end Notebook

/-- What a scripted routine does: the acts of its first runs, and the acts of every run after. -/
structure RoutineScript where
  runs : List (List (String × Act))
  rest : List (String × Act)

namespace RoutineScript

def nothing : RoutineScript := ⟨[], []⟩

/-- The acts of a run, counted from zero. -/
def acts (script : RoutineScript) (run : Nat) : List (String × Act) :=
  script.runs[run]?.getD script.rest

/-- Performs acts in order and traces each. -/
def perform (listing : List (String × CodeAddr)) (l : Linkage (Rig Notebook)) :
    List (String × Act) → Run (Machine (Rig Notebook)) Unit
  | [] => pure ()
  | (name, act) :: rest => do
    let reply ← act.run listing l
    Rig.remember fun n => n.add (.did name reply)
    perform listing l rest

/-- The routine that a placed script stands for. -/
def routine (listing : List (String × CodeAddr)) (p : Placed RoutineScript) :
    Routine (Rig Notebook) := fun l param => do
  let run ← Run.gets fun s => s.bus.record.count p.addr
  let bank ← Run.gets fun s => s.window.active
  let stack ← Run.gets fun s => s.stack
  Rig.remember fun n =>
    (n.countRun p.addr).add (.enter p.name param bank stack.depth stack.used)
  perform listing l (p.body.acts run)
  let bank ← Run.gets fun s => s.window.active
  let stack ← Run.gets fun s => s.stack
  Rig.remember fun n => n.add (.exit p.name bank stack.depth)

end RoutineScript

inductive Site where
  /-- At the target of the first entry of a slot. -/
  | ofSlot (slot : SlotId)
  | address (addr : CodeAddr)

structure RoutinePlan where
  site : Site
  name : Option String
  script : RoutineScript

inductive SetupError where
  | range (cause : RangeError)
  | collision (cause : Collision)
  /-- A routine is to stand at the target of a slot that has no entry. -/
  | noEntry (slot : SlotId)
  | build (cause : BuildError)

structure Setup where
  config : FirmwareConfig
  entries : List DispatchEntry
  /-- Bytes of the bus that cannot be changed. -/
  stuck : List (UInt16 × UInt8)
  routines : List RoutinePlan
  /-- Whether targets without a routine get one that does nothing. -/
  fill : Bool

namespace Setup

def bus (setup : Setup) : Except SetupError RigBus :=
  let bytes := setup.stuck.map fun s => MappedRange.mk s.1 1 (Block.stuck s.2)
  (RigBus.initial.mapAll bytes).mapError .range

/-- Where a planned routine stands and what it is called: by its slot, unless it has a name. -/
def placed (setup : Setup) (plan : RoutinePlan) : Except SetupError (Placed RoutineScript) :=
  match plan.site with
  | .address addr => .ok ⟨plan.name.getD "", addr, plan.script⟩
  | .ofSlot slot =>
    match setup.entries.find? fun e => e.slot = slot with
    | some e => .ok ⟨plan.name.getD slot.text, e.target, plan.script⟩
    | none => .error (.noEntry slot)

def placeRoutines (setup : Setup) :
    List RoutinePlan → CodeImage RoutineScript → Except SetupError (CodeImage RoutineScript)
  | [], image => .ok image
  | plan :: rest, image => do
    let p ← setup.placed plan
    let image ← (image.place p).mapError .collision
    setup.placeRoutines rest image

/-- Places a routine that does nothing wherever an entry of a collaborator's slot leads to no
routine yet. -/
def fillTargets : List DispatchEntry → CodeImage RoutineScript → CodeImage RoutineScript
  | [], image => image
  | e :: rest, image =>
    if e.slot.isCore then fillTargets rest image
    else
      match image.place ⟨e.slot.text, e.target, .nothing⟩ with
      | .ok image => fillTargets rest image
      | .error _ => fillTargets rest image

def image (setup : Setup) : Except SetupError (CodeImage RoutineScript) := do
  let image ← setup.placeRoutines setup.routines .empty
  pure (if setup.fill then fillTargets setup.entries image else image)

/-- The names and addresses of all routines once the core routines are placed, by address. -/
def listing (setup : Setup) (image : CodeImage RoutineScript) : List (String × CodeAddr) :=
  (image.installCore .nothing .nothing setup.entries).listing

def link (setup : Setup) (image : CodeImage RoutineScript) :
    Except SetupError (Firmware (Rig Notebook) × List (String × CodeAddr)) := do
  let listing := setup.listing image
  let fw ← (Firmware.link (image.map (RoutineScript.routine listing)) setup.entries
    setup.config).mapError .build
  pure (fw, listing)

end Setup

structure BootReport where
  trace : List TraceItem
  devices : Blocks
  log : List Event

/-- Boots, and reports once a fault has ended the main loop. -/
def boot (l : Linkage (Rig Notebook)) (s : Machine (Rig Notebook)) : Option BootReport :=
  match l.boot s with
  | .done () s | .fault _ s =>
    let ((trace, log), s) := collect Notebook.drain s
    some ⟨trace, s.bus.blocks, log⟩
  | .exhausted => none

/-- What a session came to: its steps, and what the boot after them left, if there was one. -/
structure SessionReport where
  steps : List (StepReport Reply TraceItem)
  boot : Option BootReport

/-- Runs a session: the steps, and after them, even if one faulted, a boot if `boots` says so. -/
def Setup.run (setup : Setup) (threshold : Option Severity) (steps : List Act) (boots : Bool) :
    Except SetupError SessionReport := do
  let bus ← setup.bus
  let image ← setup.image
  let (fw, listing) ← setup.link image
  let (reports, left) := runSteps Notebook.drain (Act.run listing fw.entry) steps
    (fw.machine ⟨bus, .initial⟩ threshold)
  pure ⟨reports, if boots then left.bind (boot fw.entry) else none⟩

end BankedController.Bench
