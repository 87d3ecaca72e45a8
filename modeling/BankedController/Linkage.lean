import BankedController.Config
import BankedController.Dispatch.Table
import BankedController.Machine

/-! What a routine is linked against. A routine reaches the rest of the firmware through two entry
points only: it calls slots, and it offers preemption points. Everything else that it can ask for is
built from these two and from the machine. -/

namespace BankedController

/-- The entry points, the table and the configuration that a routine sees, and how many iterations
one of its waits may take before the run is given up. -/
structure Linkage (β : Type) where
  config : FirmwareConfig
  table : DispatchTable
  patience : Nat
  /-- Calls a slot, with a byte for the routines that take one. -/
  call : SlotId → Option UInt8 → Run (Machine β) (Except CallError Unit)
  /-- A preemption point: every line that can be delivered is. -/
  poll : Run (Machine β) Unit

/-- A routine: what it does when it is entered with a linkage and perhaps a byte. -/
abbrev Routine (β : Type) : Type := Linkage β → Option UInt8 → Run (Machine β) Unit

namespace Linkage

variable {β : Type}

/-- The linkage of a run whose bound is exhausted. -/
def exhausted (config : FirmwareConfig) (table : DispatchTable) : Linkage β :=
  ⟨config, table, 0, fun _ _ => Run.giveUp, Run.giveUp⟩

/-- Calls the slot that owns the stub at a logical address. -/
def callStub (l : Linkage β) (addr : UInt16) (param : Option UInt8) :
    Run (Machine β) (Except CallError Unit) :=
  match l.table.atStub? addr with
  | none => pure (.error (.unknownStub addr))
  | some slot => l.call slot.id param

/-- Calls a slot where nobody can act on a failure. The failure is counted and reported. -/
def dispatch (l : Linkage β) (id : SlotId) (param : Option UInt8) : Run (Machine β) Unit := do
  match ← l.call id param with
  | .ok () => pure ()
  | .error e =>
    Run.modify fun s => { s with stats := s.stats.failed }
    Machine.note (.dispatchFailed id e)

end Linkage

end BankedController
