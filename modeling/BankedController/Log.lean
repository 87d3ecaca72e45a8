import BankedController.CallStack
import BankedController.Command.Report
import BankedController.Endpoint.Tables
import BankedController.Interrupt
import BankedController.Stimulus

namespace BankedController

open Endpoint

inductive Severity where
  | error
  | warn
  | info
  | debug
  | trace
  deriving DecidableEq

namespace Severity

/-- Larger for less severe events. -/
def rank : Severity → Nat
  | error => 0
  | warn => 1
  | info => 2
  | debug => 3
  | trace => 4

def text : Severity → String
  | error => "ERROR"
  | warn => "WARN"
  | info => "INFO"
  | debug => "DEBUG"
  | trace => "TRACE"

end Severity

inductive Event where
  | tableBuilt (slots routines : Nat)
  | powerOn (workRam : UInt16) (capacity : Nat)
  | startupComplete
  | bankSwitch (old new : Bank)
  | farCall (slot : SlotId) (target : CodeAddr) (param : Option UInt8) (depth : Nat)
  | bankRestored (convention : CallConvention) (bank : Bank)
  | dispatchFailed (slot : SlotId) (cause : CallError)
  | interruptEntry (line : IrqLine) (bank : Bank) (depth : Nat)
  | interruptExit (line : IrqLine)
  | frameCorrupted (line : IrqLine) (cause : CallError)
  | route (line : IrqLine) (snapshot : UInt8)
  | conditionalDispatch (events : UInt8)
  | forcedDispatch
  | endpointStep (endpoint sub offset : UInt8)
  | scanLimitReached (limit : UInt8)
  | scanDone (report : ScanReport)
  | commandIssued (kind : CommandKind) (opcode tag : UInt8) (slot : Option UInt8)
  | commandError (kind : CommandKind) (iterations : UInt32)
  | commandTimedOut (kind : CommandKind) (iterations : UInt32) (register : UInt16)
  | engineRearmed (kind : CommandKind) (recoveries : UInt8)
  | commandComplete (kind : CommandKind) (entry : CompletionEntry) (state : UInt8)
  | unknownRequest (code : UInt8)
  | inject (stimulus : Stimulus)
  | scriptFinished (passes : Nat)
  deriving DecidableEq

namespace Event

def severity : Event → Severity
  | dispatchFailed .. | frameCorrupted .. => .error
  | commandTimedOut .. | engineRearmed .. | unknownRequest .. => .warn
  | powerOn .. | startupComplete | scriptFinished .. => .info
  | tableBuilt .. | interruptEntry .. | interruptExit .. | scanLimitReached .. |
    commandIssued .. | commandError .. | commandComplete .. | inject .. => .debug
  | bankSwitch .. | farCall .. | bankRestored .. | route .. | conditionalDispatch .. |
    forcedDispatch | endpointStep .. | scanDone .. => .trace

def message : Event → String
  | tableBuilt .. => "dispatch table built"
  | powerOn .. => "power on"
  | startupComplete => "startup complete, interrupts enabled"
  | bankSwitch .. => "bank switch"
  | farCall .. => "far call"
  | bankRestored .. => "bank restored"
  | dispatchFailed .. => "dispatch failed"
  | interruptEntry .. => "interrupt entry"
  | interruptExit .. => "interrupt exit"
  | frameCorrupted .. => "interrupt frame corrupted"
  | route .. => "route"
  | conditionalDispatch .. => "conditional dispatch"
  | forcedDispatch => "master ready on entry, forced endpoint dispatch"
  | endpointStep .. => "endpoint step"
  | scanLimitReached .. => "endpoint scan hit its step limit"
  | scanDone .. => "endpoint scan done"
  | commandIssued .. => "command issued"
  | commandError .. => "command finished with error status"
  | commandTimedOut .. => "command wait timed out, recovering"
  | engineRearmed .. => "engine re-armed"
  | commandComplete .. => "command complete"
  | unknownRequest .. => "dropping command request of unknown kind"
  | inject .. => "inject"
  | scriptFinished .. => "script finished"

/-- The events of the event byte, by name. -/
def eventNames (events : UInt8) : String :=
  let names := [(RegisterMap.eventEndpoint, "ENDPOINT"), (RegisterMap.eventHost, "HOST")]
  let set := (names.filter fun n => events &&& n.1 ≠ 0).map (·.2)
  "EventFlags(" ++ String.intercalate " | " set ++ ")"

def optionalByte (b : Option UInt8) : String :=
  Text.optionalNat (b.map UInt8.toNat)

def fields : Event → List (String × String)
  | tableBuilt slots routines => [("slots", toString slots), ("routines", toString routines)]
  | powerOn workRam capacity =>
    [("work_ram_len", toString workRam.toNat), ("stack_capacity", toString capacity)]
  | startupComplete => []
  | bankSwitch old new => [("from", old.text), ("to", new.text)]
  | farCall slot target param depth =>
    [("slot", slot.text), ("target", target.text), ("param", optionalByte param),
      ("depth", toString depth)]
  | bankRestored convention bank =>
    [("entry", match convention with
        | .callReturn => "Stub"
        | .tailJump => "Epilogue"),
      ("bank", bank.text)]
  | dispatchFailed slot cause => [("slot", slot.text), ("err", cause.message)]
  | interruptEntry line bank depth =>
    [("line", line.text), ("bank", bank.text), ("depth", toString depth)]
  | interruptExit line => [("line", line.text)]
  | frameCorrupted line cause => [("line", line.text), ("err", cause.message)]
  | route line snapshot => [("line", line.text), ("snapshot", toString snapshot.toNat)]
  | conditionalDispatch events => [("events", eventNames events)]
  | forcedDispatch => []
  | endpointStep endpoint sub offset =>
    [("endpoint", toString endpoint.toNat), ("sub", toString sub.toNat),
      ("offset", toString offset.toNat)]
  | scanLimitReached limit => [("limit", toString limit.toNat)]
  | scanDone report =>
    [("steps", toString report.steps), ("stop", report.stop.text),
      ("forced", Text.bool report.forced), ("master", Text.bool report.master)]
  | commandIssued kind opcode tag slot =>
    [("kind", kind.operation), ("opcode", toString opcode.toNat), ("tag", toString tag.toNat),
      ("slot", optionalByte slot)]
  | commandError kind iterations =>
    [("kind", kind.operation), ("iterations", toString iterations.toNat)]
  | commandTimedOut kind iterations register =>
    [("kind", kind.operation), ("iterations", toString iterations.toNat),
      ("reg", toString register.toNat)]
  | engineRearmed kind recoveries =>
    [("kind", kind.operation), ("recoveries", toString recoveries.toNat)]
  | commandComplete kind entry state =>
    [("kind", kind.operation), ("entry", entry.text), ("state", toString state.toNat)]
  | unknownRequest code => [("code", toString code.toNat)]
  | inject stimulus => [("stimulus", stimulus.text)]
  | scriptFinished passes => [("passes", toString passes)]

end Event

/-- The events kept so far, the newest first. Without a threshold none are kept. -/
structure Log where
  threshold : Option Severity
  events : List Event
  deriving DecidableEq

namespace Log

def keeps (log : Log) (severity : Severity) : Bool :=
  match log.threshold with
  | none => false
  | some threshold => severity.rank ≤ threshold.rank

def record (log : Log) (event : Event) : Log :=
  if log.keeps event.severity then { log with events := event :: log.events } else log

end Log

end BankedController
