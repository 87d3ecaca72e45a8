import BankedController.Command.BusyWait
import BankedController.Command.Recovery

/-! A command is issued to its unit, waited for, recovered if a wait runs out, and completed.
Whoever asks for a command never sees an error; the outcome says what happened. There is room for
one posted request. -/

namespace BankedController

open RegisterMap

variable {β : Type} [RegisterBus β]

/-- The number of a rolling counter modulo eight. -/
def commandStateMask : UInt8 := 0x07

/-- The number of a place in the submission queue, modulo 32. -/
def queueMask : UInt8 := 0x1F

namespace WaitKind

/-- The register that a wait polls: the trigger register for a doorbell wait, the status register
for every other. -/
def register (wait : WaitKind) (kind : CommandKind) : UInt16 :=
  match wait with
  | .nvmeDoorbell => kind.block + triggerOffset
  | _ => kind.block + statusOffset

/-- The wait of a command for its unit. A doorbell wait ends when the start bit is clear and knows
no error. -/
def busyWait (wait : WaitKind) (kind : CommandKind) (timeouts : Timeouts) : BusyWait where
  register := wait.register kind
  busy := match wait with
    | .nvmeDoorbell => startBit
    | _ => busyBit
  error := match wait with
    | .nvmeDoorbell => 0
    | _ => errorBit
  counter := wait.counter
  threshold := timeouts.get wait

end WaitKind

namespace CommandRequest

/-- Stores the request in memory. The kind is stored last. -/
def post (r : CommandRequest) : Run (Machine β) Unit := do
  Machine.write requestOpcode r.opcode
  Machine.write requestParam r.param
  Machine.write requestTag r.tag
  Machine.write32 requestAddress r.address
  Machine.write requestKind r.kind.requestCode

/-- Takes the request out of memory, if there is one. A request of an unknown kind is dropped. -/
def take : Run (Machine β) (Option CommandRequest) := do
  let code ← Machine.read requestKind
  if code = 0 then
    pure none
  else
    Machine.write requestKind 0
    match CommandKind.ofRequest? code with
    | none =>
      Machine.note (.unknownRequest code)
      pure none
    | some kind =>
      let opcode ← Machine.read requestOpcode
      let param ← Machine.read requestParam
      let tag ← Machine.read requestTag
      let address ← Machine.read32 requestAddress
      pure (some ⟨kind, opcode, param, tag, address⟩)

def claimSlot : Run (Machine β) UInt8 := do
  let tail ← Machine.read queueTail
  let slot := tail &&& queueMask
  Machine.write commandSlot slot
  Machine.write queueTail ((slot + 1) &&& queueMask)
  pure slot

/-- The queue place of the command, which only a submission has. -/
def place (r : CommandRequest) : Run (Machine β) (Option UInt8) :=
  match r.kind with
  | .nvme => do
    let slot ← claimSlot
    pure (some slot)
  | _ => pure none

def send (r : CommandRequest) : Run (Machine β) Unit := do
  let block := r.kind.block
  Machine.write (block + opcodeOffset) r.opcode
  Machine.write (block + paramOffset) r.param
  Machine.write (block + tagOffset) r.tag
  Machine.write32 (block + addressOffset) r.address
  Machine.write (block + triggerOffset) startBit

def issue (r : CommandRequest) : Run (Machine β) (Option UInt8) := do
  let slot ← r.place
  r.send
  pure slot

end CommandRequest

/-- Clears what a command left in its unit. After recovery there is nothing to clear. -/
def CommandKind.settle (kind : CommandKind) (entry : CompletionEntry) : Run (Machine β) Unit :=
  match entry with
  | .normal => do
    Machine.write (kind.block + statusOffset) (busyBit ||| errorBit)
    Machine.write (kind.block + triggerOffset) 0
  | .afterTimeout => pure ()

def CommandKind.complete (kind : CommandKind) (entry : CompletionEntry) :
    Run (Machine β) Unit := do
  kind.settle entry
  let before ← Machine.read commandState
  let state := (before + 1) &&& commandStateMask
  Machine.write commandState state
  Machine.write commandSlot 0
  Machine.note (.commandComplete kind entry state)

def Linkage.await (l : Linkage β) (kind : CommandKind) (wait : WaitKind) :
    Run (Machine β) WaitOutcome :=
  (wait.busyWait kind l.config.timeouts).run l

/-- Runs waits in order until one does not end ready. A wait that runs out is recovered from. -/
def Linkage.awaitAll (l : Linkage β) (kind : CommandKind) :
    List WaitKind → Run (Machine β) (List WaitOutcome × CompletionEntry)
  | [] => pure ([], .normal)
  | wait :: rest => do
    match ← l.await kind wait with
    | .ready iterations =>
      let (outcomes, entry) ← l.awaitAll kind rest
      pure (.ready iterations :: outcomes, entry)
    | .error iterations =>
      Machine.note (.commandError kind iterations)
      pure ([.error iterations], .normal)
    | .timedOut iterations =>
      Machine.note (.commandTimedOut kind iterations (wait.register kind))
      kind.recover
      pure ([.timedOut iterations], .afterTimeout)

def Linkage.execute (l : Linkage β) (r : CommandRequest) : Run (Machine β) CommandOutcome := do
  let slot ← r.issue
  Machine.note (.commandIssued r.kind r.opcode r.tag slot)
  let (waits, entry) ← l.awaitAll r.kind r.kind.waits
  r.kind.complete entry
  let timedOut := match entry with
    | .normal => []
    | .afterTimeout => [CommandState.timedOut]
  pure ⟨r.kind, slot, [.idle, .issued, .polling] ++ timedOut ++ [.complete], waits⟩

/-- The routine of the command service: carries out the posted request. -/
def commandServiceRoutine : Routine β := fun l _ => do
  match ← CommandRequest.take with
  | none => pure ()
  | some request =>
    let _ ← l.execute request
    pure ()

end BankedController
