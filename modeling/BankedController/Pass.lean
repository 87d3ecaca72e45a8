import BankedController.Linkage
import BankedController.RegisterMap

namespace BankedController

open RegisterMap

/-- The slots that every pass runs, in order. -/
def pollers : List SlotId := [.timerPoll, .linkPoll, .phyPoll, .queuePoll]

/-- The event bits that a pass looks at. -/
def passEvents : UInt8 := eventEndpoint ||| eventHost

/-- The system-state bits that a pass moves into the event byte. -/
def deferredBits : UInt8 := deferredHost ||| deferredEndpoint

/-- The event bits that a pass saw and consumed, and the deferred bits that it moved. -/
structure PassSummary where
  events : UInt8
  promoted : UInt8
  deriving DecidableEq

def eventsOfDeferred (deferred : UInt8) : UInt8 :=
  (if deferred &&& deferredHost = 0 then 0 else eventHost) |||
    (if deferred &&& deferredEndpoint = 0 then 0 else eventEndpoint)

variable {β : Type} [RegisterBus β]

/-- Moves deferred work into the event byte. -/
def promoteDeferred : Run (Machine β) UInt8 := do
  let state ← Machine.read systemState
  let promoted := state &&& deferredBits
  if promoted = 0 then
    pure promoted
  else
    Machine.write systemState (state &&& ~~~promoted)
    Machine.setBits eventFlags (eventsOfDeferred promoted)
    pure promoted

namespace Linkage

/-- Dispatches pollers in order, each followed by a preemption point. -/
def runPollers (l : Linkage β) : List SlotId → Run (Machine β) Unit
  | [] => pure ()
  | slot :: rest => do
    l.dispatch slot none
    l.poll
    l.runPollers rest

/-- Consumes the event bits it sees and dispatches what they ask for. Bits set by a handler from
then on wait for the next pass. -/
def serveEvents (l : Linkage β) : Run (Machine β) UInt8 := do
  let raw ← Machine.read eventFlags
  let events := raw &&& passEvents
  if events ≠ 0 then
    Machine.note (.conditionalDispatch events)
    Machine.clearBits eventFlags events
    l.dispatch .hostEvent none
    if events &&& eventEndpoint ≠ 0 then
      l.dispatch .endpointScan none
    l.dispatch .commandService none
  pure events

/-- One pass: the pollers, then what the event byte asks for, then the work that interrupt handlers
deferred, which goes into the event byte for the next pass. -/
def runPass (l : Linkage β) : Run (Machine β) PassSummary := do
  l.runPollers pollers
  let events ← l.serveEvents
  let promoted ← Machine.critical promoteDeferred
  l.poll
  pure ⟨events, promoted⟩

end Linkage

end BankedController
