import BankedController.Bench.Act

namespace BankedController.Bench

open RegisterMap

/-- What shows of a machine after a step. -/
structure Snapshot where
  window : BankWindow
  stack : CallStack
  stats : DispatchStats
  irq : InterruptController
  events : UInt8
  system : UInt8
  /-- The bytes of command state, counters and requests. -/
  memory : List UInt8

def Snapshot.memorySize : Nat := 40

inductive StepEnd (ρ : Type) where
  | answered (reply : ρ) (shown : Snapshot)
  | faulted (cause : Fault)
  | exhausted

/-- What a step came to: how it ended, and the trace and the log of it in order. -/
structure StepReport (ρ τ : Type) where
  finish : StepEnd ρ
  trace : List τ
  log : List Event

variable {ω τ κ ρ : Type}

/-- Shows the machine. The bytes are read through the bus. -/
def snapshot : Run (Machine (Rig ω)) Snapshot := do
  let events ← Machine.read eventFlags
  let system ← Machine.read systemState
  let memory ← Machine.onBus (RegisterBus.readBytes commandState Snapshot.memorySize)
  Run.gets fun s => ⟨s.window, s.stack, s.stats, s.irq, events, system, memory⟩

/-- Takes the trace and the log off a machine. `drain` takes the trace off what the surroundings
remember. -/
def collect (drain : ω → List τ × ω) (s : Machine (Rig ω)) :
    (List τ × List Event) × Machine (Rig ω) :=
  let (trace, record) := drain s.bus.record
  ((trace, s.log.events.reverse),
    { s with bus := { s.bus with record := record }, log := { s.log with events := [] } })

def runShown (run : κ → Run (Machine (Rig ω)) ρ) (step : κ) :
    Run (Machine (Rig ω)) (ρ × Snapshot) := do
  let reply ← run step
  let shown ← snapshot
  pure (reply, shown)

/-- Carries out steps in order up to the first that faults. The machine is left over unless the run
was given up. -/
def runSteps (drain : ω → List τ × ω) (run : κ → Run (Machine (Rig ω)) ρ) :
    List κ → Machine (Rig ω) → List (StepReport ρ τ) × Option (Machine (Rig ω))
  | [], s => ([], some s)
  | step :: rest, s =>
    match runShown run step s with
    | .done (reply, shown) s =>
      let ((trace, log), s) := collect drain s
      let (reports, left) := runSteps drain run rest s
      (⟨.answered reply shown, trace, log⟩ :: reports, left)
    | .fault cause s =>
      let ((trace, log), s) := collect drain s
      ([⟨.faulted cause, trace, log⟩], some s)
    | .exhausted => ([⟨.exhausted, [], []⟩], none)

end BankedController.Bench
