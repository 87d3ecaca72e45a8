import BankedController.Command.Kind

namespace BankedController

structure CommandRequest where
  kind : CommandKind
  opcode : UInt8
  param : UInt8
  tag : UInt8
  address : UInt32
  deriving DecidableEq

/-- The states that a command passes through. -/
inductive CommandState where
  | idle
  | issued
  | polling
  | timedOut
  | complete
  deriving DecidableEq

def CommandState.text : CommandState → String
  | idle => "Idle"
  | issued => "Issued"
  | polling => "Polling"
  | timedOut => "TimedOut"
  | complete => "Complete"

/-- How a wait ended, and after how many iterations. -/
inductive WaitOutcome where
  | ready (iterations : UInt32)
  | error (iterations : UInt32)
  | timedOut (iterations : UInt32)
  deriving DecidableEq

def WaitOutcome.isTimedOut : WaitOutcome → Bool
  | timedOut _ => true
  | _ => false

/-- How the completion epilogue is entered. -/
inductive CompletionEntry where
  /-- After a wait that ended by itself. -/
  | normal
  /-- After recovery, which dropped the command already. -/
  | afterTimeout
  deriving DecidableEq

def CompletionEntry.text : CompletionEntry → String
  | normal => "Normal"
  | afterTimeout => "AfterTimeout"

/-- What became of a command: the queue slot it claimed, the states it passed and its waits. -/
structure CommandOutcome where
  kind : CommandKind
  slot : Option UInt8
  states : List CommandState
  waits : List WaitOutcome
  deriving DecidableEq

def CommandOutcome.isTimedOut (o : CommandOutcome) : Bool :=
  o.states.contains .timedOut

end BankedController
