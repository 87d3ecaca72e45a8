import BankedController.Linkage
import BankedController.RegisterMap

/-! The endpoint scan. A step picks the lowest ready endpoint, then the lowest pending condition of
that endpoint, hands the combined offset to the endpoint handler and clears the condition. A scan
takes steps until nothing is ready or its limit runs out. -/

namespace BankedController.Linkage

open RegisterMap Endpoint

variable {β : Type} [RegisterBus β]

/-- Whether the master asks to be dispatched. -/
def masterReady : Run (Machine β) Bool := do
  let value ← Machine.read peripheralStatus
  pure (value &&& masterReadyBit ≠ 0)

/-- One step: the offset it dispatched, or nothing when nothing is ready. The chosen endpoint is
stored and read back, and the value read back is the one that counts. -/
def scanStep (l : Linkage β) : Run (Machine β) (Option UInt8) := do
  let primary ← Machine.read endpointStatus
  let chosen := lowestBit primary
  Machine.write endpointIndex chosen
  if chosen ≥ count then
    pure none
  else
    let index ← Machine.read endpointIndex
    if index ≥ count then
      pure none
    else
      let register := endpointSecondaryBase + index.toUInt16
      let secondary ← Machine.read register
      let sub := lowestBit secondary
      if sub ≥ count then
        pure none
      else
        let offset := offsetBase index + sub
        Machine.write endpointOffset offset
        Machine.note (.endpointStep index sub offset)
        l.dispatch .endpointHandler (some offset)
        Machine.write register (conditionBit sub)
        pure (some offset)

/-- Up to `limit` steps: their offsets, and why they ended. -/
def scanSteps (l : Linkage β) : Nat → Run (Machine β) (List UInt8 × ScanStop)
  | 0 => pure ([], .exhausted)
  | limit + 1 => do
    match ← l.scanStep with
    | none => pure ([], .idle)
    | some offset =>
      let (rest, stop) ← l.scanSteps limit
      pure (offset :: rest, stop)

/-- A scan from its first step on: at most `limit` steps, and then the master is looked at. -/
def scanFrom (l : Linkage β) (forced : Bool) (limit : UInt8) : Run (Machine β) ScanReport := do
  let (serviced, stop) ← l.scanSteps limit.toNat
  let master ← masterReady
  if master then
    l.dispatch .masterEvent none
  if stop = .exhausted then
    Machine.note (.scanLimitReached limit)
  pure ⟨forced, serviced, stop, master⟩

/-- One scan. The master is looked at before the steps and again after them. -/
def scan (l : Linkage β) : Run (Machine β) ScanReport := do
  let forced ← masterReady
  if forced then
    Machine.note .forcedDispatch
    l.dispatch .endpointHandler (some forcedOffset)
  l.scanFrom forced (min l.config.scanLimit FirmwareConfig.maxScanSteps)

end BankedController.Linkage

namespace BankedController

def scanRoutine {β : Type} [RegisterBus β] : Routine β := fun l _ => do
  let report ← l.scan
  Machine.note (.scanDone report)

end BankedController
