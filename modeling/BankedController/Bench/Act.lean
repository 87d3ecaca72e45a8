import BankedController.Bench.Part
import BankedController.Firmware
import BankedController.Rig

namespace BankedController.Bench

/-- Something that a bench can do with a linked firmware on a rig, from outside or from inside a
routine. -/
inductive Act where
  | call (slot : SlotId) (param : Option UInt8)
  | callStub (addr : UInt16) (param : Option UInt8)
  | dispatch (slot : SlotId) (param : Option UInt8)
  | selectBank (bank : Bank)
  | raiseIrq (line : IrqLine)
  | poll
  | bus (step : BusStep)
  | stack (step : StackStep)
  | irq (step : IrqStep)
  /-- Acts inside one critical section. -/
  | critical (acts : List (String × Act))
  | execute (request : CommandRequest)
  | post (request : CommandRequest)
  | take
  | finish (kind : CommandKind) (entry : CompletionEntry)
  | wait (w : BusyWait)
  | scan
  | route (line : IrqLine)
  | pass
  | powerOn
  | raiseEndpoint (endpoint : Nat) (mask : UInt8)
  | forceEndpoints (value : Option UInt8)
  | assertInterrupt (addr : UInt16) (mask : UInt8)
  | assertTimer (mask : UInt8)
  | latency (unit : CommandKind) (accept complete : Latency)
  | failNext (unit : CommandKind)
  | devices
  | controller
  | stats
  | image
  | halt

inductive Reply where
  | ok
  | failed (cause : CallError)
  | bus (reply : BusReply)
  | stack (reply : StackReply)
  | irq (reply : IrqReply)
  | all (replies : List Reply)
  | outcome (o : CommandOutcome)
  | request (r : Option CommandRequest)
  | wait (o : WaitOutcome)
  | scan (r : Endpoint.ScanReport)
  | pass (s : PassSummary)
  | devices (b : Blocks)
  | controller (c : InterruptController)
  | stats (counts : List (SlotId × Nat))
  | image (routines : List (String × CodeAddr))

variable {ω : Type}

def Reply.ofCall : Except CallError Unit → Reply
  | .ok () => .ok
  | .error e => .failed e

/-- Runs `m` and answers that it is done. -/
def done (m : Run (Machine (Rig ω)) Unit) : Run (Machine (Rig ω)) Reply := do
  m
  pure .ok

/-- How often each slot of a table was called. -/
def counts (table : DispatchTable) (stats : DispatchStats) : List (SlotId × Nat) :=
  table.slots.map fun slot => (slot.id, stats.count slot.id)

mutual

/-- Carries out an act. `listing` is what the image holds. -/
def Act.run (listing : List (String × CodeAddr)) (l : Linkage (Rig ω)) :
    Act → Run (Machine (Rig ω)) Reply
  | .call slot param => Reply.ofCall <$> l.call slot param
  | .callStub addr param => Reply.ofCall <$> l.callStub addr param
  | .dispatch slot param => done (l.dispatch slot param)
  | .selectBank bank => done (Machine.selectBank bank)
  | .raiseIrq line => done (Machine.raiseIrq line)
  | .poll => done l.poll
  | .bus step => Reply.bus <$> Machine.onBus step.run
  | .stack step => Reply.stack <$> Machine.onStack step.run
  | .irq step => fun s =>
    let (reply, irq) := step.run s.irq
    .done (.irq reply) { s with irq := irq }
  | .critical acts => Reply.all <$> Machine.critical (runAll listing l acts)
  | .execute request => Reply.outcome <$> l.execute request
  | .post request => done request.post
  | .take => Reply.request <$> CommandRequest.take
  | .finish kind entry => done (kind.complete entry)
  | .wait w => Reply.wait <$> w.run l
  | .scan => Reply.scan <$> l.scan
  | .route line => done (l.route line)
  | .pass => Reply.pass <$> l.runPass
  | .powerOn => done l.powerOn
  | .raiseEndpoint endpoint mask => done (Rig.raiseEndpoint endpoint mask)
  | .forceEndpoints value => done (Rig.forceEndpoints value)
  | .assertInterrupt addr mask => done (Rig.assertInterrupt addr mask)
  | .assertTimer mask => done (Rig.assertTimer mask)
  | .latency unit accept complete => done (Rig.setLatency unit accept complete)
  | .failNext unit => done (Rig.failNext unit)
  | .devices => Run.gets fun s => .devices s.bus.blocks
  | .controller => Run.gets fun s => .controller s.irq
  | .stats => Run.gets fun s => .stats (counts l.table s.stats)
  | .image => pure (.image listing)
  | .halt => Run.throw .halted

def runAll (listing : List (String × CodeAddr)) (l : Linkage (Rig ω)) :
    List (String × Act) → Run (Machine (Rig ω)) (List Reply)
  | [] => pure []
  | (_, act) :: rest => do
    let reply ← act.run listing l
    let replies ← runAll listing l rest
    pure (reply :: replies)

end

end BankedController.Bench
