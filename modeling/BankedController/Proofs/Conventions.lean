import BankedController.Proofs.Interrupts

namespace BankedController

variable {β : Type}

/-- The entry with one site in place of the two that the conventions return to. -/
def StackEntry.plain : StackEntry → StackEntry
  | returnTo .bankRestore => returnTo .stubResume
  | entry => entry

/-- The error with such an entry, if it is about one for which there was no room. -/
def CallError.plain : CallError → CallError
  | stackOverflow entry used capacity => stackOverflow entry.plain used capacity
  | e => e

/-- The row of a table with one convention in place of both. -/
def DispatchEntry.plain (e : DispatchEntry) : DispatchEntry := { e with convention := .callReturn }

def DispatchSlot.plain (slot : DispatchSlot) : DispatchSlot :=
  { slot with convention := .callReturn }

def DispatchTable.plain (table : DispatchTable) : DispatchTable :=
  ⟨table.slots.map DispatchSlot.plain⟩

def CallStack.plain (s : CallStack) : CallStack :=
  { s with entries := s.entries.map StackEntry.plain }

/-- The machine without a log, and with one convention in place of both. -/
def Machine.plain (s : Machine β) : Machine β :=
  { s with stack := s.stack.plain, log := ⟨none, []⟩ }

theorem StackEntry.size_plain (entry : StackEntry) : entry.plain.size = entry.size := by
  cases entry with
  | returnTo site => cases site <;> rfl
  | savedBank bank => rfl

theorem StackEntry.plain_site (convention : CallConvention) :
    (StackEntry.returnTo convention.returnSite).plain = .returnTo .stubResume := by
  cases convention <;> rfl

namespace DispatchTable

theorem slot?_plain (table : DispatchTable) (id : SlotId) :
    table.plain.slot? id = (table.slot? id).map DispatchSlot.plain :=
  List.find?_map ..

theorem atStub?_plain (table : DispatchTable) (addr : UInt16) :
    table.plain.atStub? addr = (table.atStub? addr).map DispatchSlot.plain :=
  List.find?_map ..

theorem plain_plain (table : DispatchTable) : table.plain.plain = table.plain := by
  unfold plain
  rw [List.map_map]
  rfl

end DispatchTable

namespace CallStack

variable (s : CallStack)

theorem bytes_plain (entries : List StackEntry) :
    bytes (entries.map StackEntry.plain) = bytes entries := by
  induction entries with
  | nil => rfl
  | cons entry rest ih => rw [List.map_cons, bytes, bytes, ih, StackEntry.size_plain]

@[simp] theorem depth_plain : s.plain.depth = s.depth := List.length_map _

@[simp] theorem used_plain : s.plain.used = s.used := rfl

@[simp] theorem capacity_plain : s.plain.capacity = s.capacity := rfl

theorem plain_pushed (entry : StackEntry) :
    (s.pushed entry).plain = s.plain.pushed entry.plain := by
  simp only [pushed, plain, StackEntry.size_plain, List.map_cons]

theorem plain_truncate (depth : Nat) : (s.truncate depth).plain = s.plain.truncate depth := by
  simp only [truncate, depth_plain]
  simp only [plain, List.map_drop, ← List.map_take, bytes_plain]

end CallStack

namespace Machine

variable (s : Machine β)

@[simp] theorem bus_plain : s.plain.bus = s.bus := rfl

@[simp] theorem window_plain : s.plain.window = s.window := rfl

@[simp] theorem stack_plain : s.plain.stack = s.stack.plain := rfl

@[simp] theorem irq_plain : s.plain.irq = s.irq := rfl

@[simp] theorem stats_plain : s.plain.stats = s.stats := rfl

theorem plain_restacked (stack : CallStack) :
    (s.restacked stack).plain = s.plain.restacked stack.plain := rfl

/-- A report is not seen in the plain view, nor would it be in one that it was made to. -/
theorem plain_noted (event event' : Event) : (s.noted event).plain = s.plain.noted event' := rfl

theorem plain_mapped (bank : Bank) : (s.mapped bank).plain = s.plain.mapped bank := by
  unfold mapped
  rw [window_plain]
  split <;> rfl

end Machine

namespace FarCall

variable (slot : DispatchSlot) (s : Machine β)

/-- The error of a call that is refused names the convention by its site alone. -/
theorem plain_overflow (caller : Bank) (stack : CallStack) :
    (overflow slot caller stack).plain = overflow slot.plain caller stack.plain := by
  unfold overflow
  rw [CallStack.used_plain, CallStack.capacity_plain]
  split
  · rfl
  · split
    · rfl
    · rw [CallError.plain, StackEntry.plain_site]
      rfl

theorem plain_unwound (depth : Nat) (caller : Bank) :
    (unwound depth caller s).plain = unwound depth caller s.plain := by
  unfold unwound
  rw [Machine.plain_mapped, Machine.plain_restacked, CallStack.plain_truncate, Machine.stack_plain]

theorem plain_attempted : (attempted slot s).plain = attempted slot.plain s.plain := by
  unfold attempted
  dsimp only
  by_cases hcaller : s.stack.capacity < s.stack.used + 2
  · have hcaller' : s.plain.stack.capacity < s.plain.stack.used + 2 := hcaller
    rw [if_pos hcaller, if_pos hcaller']
  have hcaller' : ¬s.plain.stack.capacity < s.plain.stack.used + 2 := hcaller
  rw [if_neg hcaller, if_neg hcaller']
  by_cases hbank : s.stack.capacity < s.stack.used + 3
  · have hbank' : s.plain.stack.capacity < s.plain.stack.used + 3 := hbank
    rw [if_pos hbank, if_pos hbank', Machine.plain_restacked, CallStack.plain_pushed]
    rfl
  · have hbank' : ¬s.plain.stack.capacity < s.plain.stack.used + 3 := hbank
    rw [if_neg hbank, if_neg hbank', Machine.plain_mapped, Machine.plain_restacked]
    rw [Machine.plain_restacked, CallStack.plain_pushed, Machine.stack_restacked]
    rw [CallStack.plain_pushed]
    rfl

theorem plain_refused : (refused slot s).plain = refused slot.plain s.plain := by
  unfold refused
  rw [plain_unwound, plain_attempted, Machine.stack_plain, CallStack.depth_plain]
  rfl

theorem plain_framed (caller : Bank) (stack : CallStack) :
    (framed slot caller stack).plain = framed slot.plain caller stack.plain := by
  unfold framed
  rw [CallStack.plain_pushed, CallStack.plain_pushed, CallStack.plain_pushed, StackEntry.plain_site]
  rfl

theorem plain_opened (param : Option UInt8) :
    (opened slot param s).plain = opened slot.plain param s.plain := by
  unfold opened
  dsimp only
  rw [Machine.plain_noted, Machine.plain_restacked, Machine.plain_mapped, plain_framed]
  rfl

theorem plain_closed (bank : Bank) (rest : List StackEntry) :
    (closed slot bank rest s).plain =
      closed slot.plain bank (rest.map StackEntry.plain) s.plain := by
  unfold closed
  dsimp only
  rw [Machine.plain_noted, Machine.plain_restacked, Machine.plain_mapped]
  rfl

end FarCall

namespace Linkage

variable (line : IrqLine) (s : Machine β)

theorem plain_retired : (retired line s).plain = retired line s.plain := rfl

theorem plain_refused : (refused line s).plain = refused line s.plain := by
  have hattempted : (attempted line s).plain = attempted line s.plain := by
    unfold attempted
    by_cases hreturn : s.stack.capacity < s.stack.used + 2
    · have hreturn' : s.plain.stack.capacity < s.plain.stack.used + 2 := hreturn
      rw [if_pos hreturn, if_pos hreturn']
      rfl
    · have hreturn' : ¬s.plain.stack.capacity < s.plain.stack.used + 2 := hreturn
      rw [if_neg hreturn, if_neg hreturn', Machine.plain_restacked, CallStack.plain_pushed]
      rfl
  unfold refused
  dsimp only
  rw [plain_retired, FarCall.plain_unwound, Machine.plain_noted, hattempted]
  rw [Machine.stack_plain, CallStack.depth_plain]
  rfl

theorem plain_interrupted : (interrupted line s).plain = interrupted line s.plain := by
  unfold interrupted
  rw [Machine.plain_restacked, CallStack.plain_pushed, CallStack.plain_pushed]
  rfl

end Linkage

end BankedController
