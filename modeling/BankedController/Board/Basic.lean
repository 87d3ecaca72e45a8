import BankedController.Board.Collaborator

namespace BankedController

open RegisterMap

structure RunReport where
  passes : Nat
  dispatches : Nat
  dispatchFailures : Nat
  endpointServices : Nat
  commandsIssued : Nat
  recoveries : UInt8
  stackHighWater : Nat
  bankSwitches : Nat
  deriving DecidableEq

def RunReport.counters (r : RunReport) : List (String × Nat) :=
  [("passes", r.passes), ("dispatches", r.dispatches), ("dispatch_failures", r.dispatchFailures),
    ("endpoint_services", r.endpointServices), ("commands_issued", r.commandsIssued),
    ("recoveries", r.recoveries.toNat), ("stack_high_water", r.stackHighWater),
    ("bank_switches", r.bankSwitches)]

namespace Board

abbrev BoardFirmware : Type := Firmware (Rig Record)

abbrev State : Type := Machine (Rig Record)

/-- Links the shipped table against the stand-ins. -/
def link (config : FirmwareConfig) : Except BuildError BoardFirmware :=
  Firmware.link (.ofList standIns) DispatchEntry.standard config

def initial (fw : BoardFirmware) (threshold : Option Severity) : State :=
  fw.machine ⟨RigBus.initial, .initial⟩ threshold

/-- Powers the board on. Passes are counted from here. -/
def powerOn (l : Linkage (Rig Record)) : Run State Unit := do
  Rig.remember fun r => { r with passes := 0 }
  l.powerOn

def inject (stimulus : Stimulus) : Run State Unit := do
  Machine.note (.inject stimulus)
  stimulus.apply

def runPass (l : Linkage (Rig Record)) : Run State PassSummary := do
  Rig.remember fun r => { r with passes := r.passes + 1 }
  l.runPass

def injectAll : List ScriptStep → Run State Unit
  | [] => pure ()
  | step :: rest => do
    inject step.stimulus
    injectAll rest

/-- Runs `count` passes from number `pass` on, each after the events that the script has for it.
`done` holds the summaries so far, the last first. -/
def runPasses (l : Linkage (Rig Record)) (script : Script) (pass : Nat)
    (done : List PassSummary) : Nat → Run State (List PassSummary)
  | 0 => pure done.reverse
  | count + 1 => do
    injectAll (script.steps.filter fun step => step.pass.toNat = pass)
    let summary ← runPass l
    runPasses l script (pass + 1) (summary :: done) count

def runScript (l : Linkage (Rig Record)) (script : Script) (passes : Nat) :
    Run State (List PassSummary) := do
  let summaries ← runPasses l script 0 [] passes
  Machine.note (.scriptFinished passes)
  pure summaries

def report : Run State RunReport := do
  let recoveries ← Machine.read recoveryCount
  Run.gets fun s =>
    let blocks := s.bus.blocks
    { passes := s.bus.record.passes
      dispatches := s.stats.total
      dispatchFailures := s.stats.failures
      endpointServices := blocks.endpoints.clears.length
      commandsIssued :=
        blocks.nvme.issued.length + blocks.flash.issued.length + blocks.phy.issued.length
      recoveries := recoveries
      stackHighWater := s.stack.highWater
      bankSwitches := s.window.switches }

/-- The calls of stand-ins since they were last cleared, in order. -/
def activity (s : State) : List Activity := s.bus.record.activity.reverse

def clearActivity : Run State Unit :=
  Rig.remember fun r => { r with activity := [] }

end Board

end BankedController
