import BankedController.Dispatch.Table
import BankedController.Machine

/-! The frame of a call is the same by both conventions, the newest entry last: the return to the
caller, the bank that was mapped, and the site that the routine returns to. Restoring takes the
entries off again and maps the saved bank. A call that fails drops its frame and maps the caller's
bank again. -/

namespace BankedController

variable {β : Type}

/-- What a call finds at a logical address while a bank is mapped: what to run there. -/
abbrev Resolver (β : Type) : Type :=
  UInt16 → Bank → Option (Option UInt8 → Run (Machine β) Unit)

namespace FarCall

/-- Takes the frame off after the routine has returned. -/
@[inline] def restore (slot : DispatchSlot) : Run (Machine β) (Except CallError Unit) := do
  match ← Machine.popExpect (.returnTo slot.convention.returnSite) with
  | .error e => pure (.error e)
  | .ok () =>
    match ← Machine.popBank with
    | .error e => pure (.error e)
    | .ok bank =>
      Machine.selectBank bank
      Machine.note (.bankRestored slot.convention bank)
      Machine.popExpect (.returnTo .caller)

/-- Maps the bank of the target. Common code needs none. -/
@[inline] def mapTarget (slot : DispatchSlot) : Run (Machine β) Unit :=
  match slot.target.bank? with
  | some bank => Machine.selectBank bank
  | none => pure ()

/-- Completes the frame, runs what the target's address leads to and restores. -/
@[inline] def land (resolve : Resolver β) (slot : DispatchSlot) (param : Option UInt8) :
    Run (Machine β) (Except CallError Unit) := do
  let active ← Run.gets fun s => s.window.active
  match resolve slot.target.logical active with
  | none => pure (.error (.unresolved slot.target.logical active))
  | some routine =>
    match ← Machine.push (.returnTo slot.convention.returnSite) with
    | .error e => pure (.error e)
    | .ok () =>
      let depth ← Run.gets fun s => s.stack.depth
      Machine.note (.farCall slot.id slot.target param depth)
      routine param
      restore slot

/-- Builds the frame, maps the target's bank, runs the routine and restores. -/
@[inline] def enter (resolve : Resolver β) (slot : DispatchSlot) (param : Option UInt8) (caller : Bank) :
    Run (Machine β) (Except CallError Unit) := do
  match ← Machine.push (.returnTo .caller) with
  | .error e => pure (.error e)
  | .ok () =>
    match ← Machine.push (.savedBank caller) with
    | .error e => pure (.error e)
    | .ok () =>
      mapTarget slot
      land resolve slot param

/-- Drops what a failed call left of its frame and maps the caller's bank again. -/
@[inline] def unwind (depth : Nat) (caller : Bank) : Run (Machine β) Unit := do
  Run.modify fun s => { s with stack := s.stack.truncate depth }
  Machine.selectBank caller

end FarCall

/-- Calls a slot. On failure the frame is dropped and the caller's bank is mapped again. -/
@[inline] def farCall (resolve : Resolver β) (slot : DispatchSlot) (param : Option UInt8) :
    Run (Machine β) (Except CallError Unit) := do
  let depth ← Run.gets fun s => s.stack.depth
  let caller ← Run.gets fun s => s.window.active
  match ← FarCall.enter resolve slot param caller with
  | .ok () => pure (.ok ())
  | .error e =>
    FarCall.unwind depth caller
    pure (.error e)

end BankedController
