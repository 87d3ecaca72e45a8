import BankedController.Command.Report
import BankedController.Linkage

namespace BankedController

/-- A wait: the register, the bits that mean it is still working, the bits that mean it finished
with an error, the address of the iteration counter, and the iteration at which the wait ends. -/
structure BusyWait where
  register : UInt16
  busy : UInt8
  error : UInt8
  counter : UInt16
  threshold : UInt32
  deriving DecidableEq

namespace BusyWait

variable {β : Type} [RegisterBus β]

/-- The register and the counter. -/
@[inline] def sample (w : BusyWait) : Run β (UInt8 × UInt32) := do
  let value ← RegisterBus.read w.register
  let iterations ← RegisterBus.read32 w.counter
  pure (value, iterations)

/-- Polls at most `patience` times. Every iteration that leaves the register busy ends in a preemption
point. -/
def poll (w : BusyWait) (l : Linkage β) : Nat → Run (Machine β) WaitOutcome
  | 0 => Run.giveUp
  | patience + 1 => do
    let (value, iterations) ← Machine.onBus w.sample
    if value &&& w.error ≠ 0 then
      pure (.error iterations)
    else if value &&& w.busy = 0 then
      pure (.ready iterations)
    else
      let iterations := iterations + 1
      Machine.write32 w.counter iterations
      if w.threshold ≤ iterations then
        pure (.timedOut iterations)
      else
        l.poll
        w.poll l patience

/-- Waits until the register is no longer busy, shows an error, or the counter reaches the
threshold. An error counts also while the register is busy. -/
def run (w : BusyWait) (l : Linkage β) : Run (Machine β) WaitOutcome := do
  Machine.write32 w.counter 0
  w.poll l l.patience

end BusyWait

end BankedController
