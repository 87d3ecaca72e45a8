import BankedController.FarCall
import BankedController.Proofs.Runs

namespace BankedController

variable {β : Type}

namespace Machine

/-- The machine with another stack. -/
def restacked (s : Machine β) (stack : CallStack) : Machine β := { s with stack := stack }

@[simp] theorem bus_restacked (s : Machine β) (stack : CallStack) :
    (s.restacked stack).bus = s.bus := rfl

@[simp] theorem window_restacked (s : Machine β) (stack : CallStack) :
    (s.restacked stack).window = s.window := rfl

@[simp] theorem stack_restacked (s : Machine β) (stack : CallStack) :
    (s.restacked stack).stack = stack := rfl

@[simp] theorem irq_restacked (s : Machine β) (stack : CallStack) :
    (s.restacked stack).irq = s.irq := rfl

@[simp] theorem stats_restacked (s : Machine β) (stack : CallStack) :
    (s.restacked stack).stats = s.stats := rfl

/-- The machine with an event reported. -/
def noted (s : Machine β) (event : Event) : Machine β := { s with log := s.log.record event }

theorem note_apply (event : Event) (s : Machine β) : note event s = .done () (s.noted event) := rfl

/-- The machine with a bank mapped. -/
def mapped (s : Machine β) (bank : Bank) : Machine β :=
  if s.window.active = bank then s
  else
    { s with
      window := s.window.select bank
      log := s.log.record (.bankSwitch s.window.active bank) }

theorem selectBank_apply (s : Machine β) (bank : Bank) :
    selectBank bank s = .done () (s.mapped bank) := by
  unfold selectBank mapped
  split <;> rfl

theorem active_mapped (s : Machine β) (bank : Bank) : (s.mapped bank).window.active = bank := by
  unfold mapped
  split
  next h => exact h
  next => exact BankWindow.active_select ..

/-- All that selecting a bank leaves alone. -/
@[simp] theorem stack_mapped (s : Machine β) (bank : Bank) : (s.mapped bank).stack = s.stack := by
  unfold mapped
  split <;> rfl

@[simp] theorem bus_mapped (s : Machine β) (bank : Bank) : (s.mapped bank).bus = s.bus := by
  unfold mapped
  split <;> rfl

@[simp] theorem irq_mapped (s : Machine β) (bank : Bank) : (s.mapped bank).irq = s.irq := by
  unfold mapped
  split <;> rfl

@[simp] theorem stats_mapped (s : Machine β) (bank : Bank) : (s.mapped bank).stats = s.stats := by
  unfold mapped
  split <;> rfl

theorem restacked_mapped (s : Machine β) (stack : CallStack) (bank : Bank) :
    (s.restacked stack).mapped bank = (s.mapped bank).restacked stack := by
  unfold mapped restacked
  split <;> rfl

theorem mapped_self (s : Machine β) : s.mapped s.window.active = s := if_pos rfl

end Machine

namespace CallStack

/-- The stack with an entry more. -/
def pushed (s : CallStack) (entry : StackEntry) : CallStack :=
  ⟨entry :: s.entries, s.used + entry.size, s.capacity, max s.highWater (s.used + entry.size)⟩

theorem push_fits {s : CallStack} {entry : StackEntry} (h : s.used + entry.size ≤ s.capacity) :
    s.push entry = .ok (s.pushed entry) := by
  simp only [push, if_neg (Nat.not_lt.2 h), pushed]

/-- Cutting a stack back to the entries below `extra` drops `extra` and its bytes. -/
theorem truncate_of_append {s : CallStack} {extra entries : List StackEntry}
    (h : s.entries = extra ++ entries) :
    s.truncate entries.length = { s with entries := entries, used := s.used - bytes extra } := by
  have hsurplus : s.depth - entries.length = extra.length := by
    simp only [depth, h, List.length_append]
    omega
  simp only [truncate, hsurplus, h, List.drop_left, List.take_left]

/-- The stack without its newest entry, when that takes `size` bytes and lies on `rest`. -/
def lowered (s : CallStack) (size : Nat) (rest : List StackEntry) : CallStack :=
  { s with entries := rest, used := s.used - size }

theorem popExpect_of_cons {s : CallStack} {entry : StackEntry} {rest : List StackEntry}
    (h : s.entries = entry :: rest) : s.popExpect entry = (.ok (), s.lowered entry.size rest) := by
  simp only [popExpect, pop, h, if_pos, lowered]

theorem popBank_of_cons {s : CallStack} {bank : Bank} {rest : List StackEntry}
    (h : s.entries = .savedBank bank :: rest) : s.popBank = (.ok bank, s.lowered 1 rest) := by
  simp only [popBank, pop, h, lowered, StackEntry.size]

theorem push_overflows {s : CallStack} {entry : StackEntry} (h : s.capacity < s.used + entry.size) :
    s.push entry = .error (.stackOverflow entry s.used s.capacity) := by
  simp only [push, if_pos h]

end CallStack

namespace Machine

theorem push_apply_fits {s : Machine β} {entry : StackEntry}
    (h : s.stack.used + entry.size ≤ s.stack.capacity) :
    push entry s = .done (.ok ()) (s.restacked (s.stack.pushed entry)) := by
  simp only [push, onStack, CallStack.push_fits h, restacked]

theorem push_apply_overflows {s : Machine β} {entry : StackEntry}
    (h : s.stack.capacity < s.stack.used + entry.size) :
    push entry s = .done (.error (.stackOverflow entry s.stack.used s.stack.capacity)) s := by
  simp only [push, onStack, CallStack.push_overflows h]

theorem popExpect_apply {s : Machine β} {entry : StackEntry} {rest : List StackEntry}
    (h : s.stack.entries = entry :: rest) :
    popExpect entry s = .done (.ok ()) (s.restacked (s.stack.lowered entry.size rest)) := by
  simp only [popExpect, onStack, CallStack.popExpect_of_cons h, restacked]

theorem popBank_apply {s : Machine β} {bank : Bank} {rest : List StackEntry}
    (h : s.stack.entries = .savedBank bank :: rest) :
    popBank s = .done (.ok bank) (s.restacked (s.stack.lowered 1 rest)) := by
  simp only [popBank, onStack, CallStack.popBank_of_cons h, restacked]

end Machine

namespace FarCall

/-- The bank that is mapped while the routine of a slot runs. -/
def bankOf (slot : DispatchSlot) (caller : Bank) : Bank :=
  slot.target.bank?.getD caller

/-- It is the bank of the target, if that has one. -/
theorem eq_bankOf {slot : DispatchSlot} (caller : Bank) :
    ∀ bank, slot.target.bank? = some bank → bank = bankOf slot caller := by
  intro bank hbank
  rw [bankOf, hbank, Option.getD_some]

/-- The stack with the frame of a call. -/
def framed (slot : DispatchSlot) (caller : Bank) (stack : CallStack) : CallStack :=
  ((stack.pushed (.returnTo .caller)).pushed (.savedBank caller)).pushed
    (.returnTo slot.convention.returnSite)

/-- The machine as the routine of a slot finds it. -/
def opened (slot : DispatchSlot) (param : Option UInt8) (s : Machine β) : Machine β :=
  let m := (s.mapped (bankOf slot s.window.active)).restacked (framed slot s.window.active s.stack)
  m.noted (.farCall slot.id slot.target param m.stack.depth)

@[simp] theorem bus_opened (slot : DispatchSlot) (param : Option UInt8) (s : Machine β) :
    (opened slot param s).bus = s.bus :=
  Machine.bus_mapped s _

@[simp] theorem irq_opened (slot : DispatchSlot) (param : Option UInt8) (s : Machine β) :
    (opened slot param s).irq = s.irq :=
  Machine.irq_mapped s _

@[simp] theorem stats_opened (slot : DispatchSlot) (param : Option UInt8) (s : Machine β) :
    (opened slot param s).stats = s.stats :=
  Machine.stats_mapped s _

theorem mapTarget_apply (slot : DispatchSlot) (s : Machine β) :
    mapTarget slot s = .done () (s.mapped (bankOf slot s.window.active)) := by
  unfold mapTarget bankOf
  cases slot.target.bank? with
  | some bank => exact Machine.selectBank_apply s bank
  | none => exact congrArg (Outcome.done ()) (Machine.mapped_self s).symm

theorem land_of_fits {resolve : Resolver β} {slot : DispatchSlot} {param : Option UInt8}
    {s : Machine β} {routine : Option UInt8 → Run (Machine β) Unit}
    (hfits : s.stack.used + 2 ≤ s.stack.capacity)
    (hresolve : resolve slot.target.logical s.window.active = some routine) :
    land resolve slot param s =
      let m := s.restacked (s.stack.pushed (.returnTo slot.convention.returnSite))
      (routine param >>= fun _ => restore slot)
        (m.noted (.farCall slot.id slot.target param m.stack.depth)) := by
  unfold land
  rw [Run.bind_of_done (Run.gets_apply _ _)]
  simp only [hresolve]
  rw [Run.bind_of_done (Machine.push_apply_fits hfits)]
  rfl

theorem land_of_overflow {resolve : Resolver β} {slot : DispatchSlot} (param : Option UInt8)
    {s : Machine β} {routine : Option UInt8 → Run (Machine β) Unit}
    (hover : s.stack.capacity < s.stack.used + 2)
    (hresolve : resolve slot.target.logical s.window.active = some routine) :
    land resolve slot param s = .done (.error (.stackOverflow
      (.returnTo slot.convention.returnSite) s.stack.used s.stack.capacity)) s := by
  unfold land
  rw [Run.bind_of_done (Run.gets_apply _ _)]
  simp only [hresolve]
  rw [Run.bind_of_done (Machine.push_apply_overflows hover)]
  rfl

theorem enter_of_fits {resolve : Resolver β} {slot : DispatchSlot} {param : Option UInt8}
    {s : Machine β} {routine : Option UInt8 → Run (Machine β) Unit}
    (hfits : s.stack.used + 5 ≤ s.stack.capacity)
    (hresolve : resolve slot.target.logical (bankOf slot s.window.active) = some routine) :
    enter resolve slot param s.window.active s =
      (routine param >>= fun _ => restore slot) (opened slot param s) := by
  unfold enter
  rw [Run.bind_of_done (Machine.push_apply_fits (by simp only [StackEntry.size]; omega))]
  dsimp only
  rw [Run.bind_of_done (Machine.push_apply_fits
    (by simp only [Machine.restacked, CallStack.pushed, StackEntry.size]; omega))]
  dsimp only
  rw [Run.bind_of_done (mapTarget_apply slot _)]
  rw [land_of_fits]
  · simp only [Machine.restacked_mapped]
    rfl
  · simp only [Machine.stack_mapped, Machine.restacked, CallStack.pushed, StackEntry.size]
    omega
  · rw [Machine.active_mapped]
    exact hresolve

/-- What becomes of a call once its frame was tried: a failure is unwound. -/
def conclude (depth : Nat) (caller : Bank) :
    Except CallError Unit → Run (Machine β) (Except CallError Unit)
  | .ok () => pure (.ok ())
  | .error e => do
    unwind depth caller
    pure (.error e)

theorem farCall_apply (resolve : Resolver β) (slot : DispatchSlot) (param : Option UInt8)
    (s : Machine β) :
    farCall resolve slot param s =
      (enter resolve slot param s.window.active >>= conclude s.stack.depth s.window.active) s := by
  unfold farCall
  rw [Run.bind_of_done (Run.gets_apply _ _), Run.bind_of_done (Run.gets_apply _ _)]
  simp only [Run.bind_apply]
  cases enter resolve slot param s.window.active s with
  | done result t => cases result <;> rfl
  | fault cause t => rfl
  | exhausted => rfl

/-- The frame fits: the routine runs on the opened machine, and its frame comes off afterwards. -/
theorem farCall_of_fits {resolve : Resolver β} {slot : DispatchSlot} {param : Option UInt8}
    {s : Machine β} {routine : Option UInt8 → Run (Machine β) Unit}
    (hfits : s.stack.used + 5 ≤ s.stack.capacity)
    (hresolve : resolve slot.target.logical (bankOf slot s.window.active) = some routine) :
    farCall resolve slot param s =
      (routine param >>= fun _ =>
        restore slot >>= conclude s.stack.depth s.window.active) (opened slot param s) := by
  rw [farCall_apply, Run.bind_apply, enter_of_fits hfits hresolve, ← Run.bind_apply, bind_assoc]

/-- The machine after a frame with the saved bank `bank` came off and left `entries`. -/
def closed (slot : DispatchSlot) (bank : Bank) (entries : List StackEntry) (s : Machine β) :
    Machine β :=
  let m := (s.mapped bank).restacked (s.stack.lowered 5 entries)
  m.noted (.bankRestored slot.convention bank)

@[simp] theorem bus_closed (slot : DispatchSlot) (bank : Bank) (entries : List StackEntry)
    (s : Machine β) : (closed slot bank entries s).bus = s.bus :=
  Machine.bus_mapped s bank

@[simp] theorem irq_closed (slot : DispatchSlot) (bank : Bank) (entries : List StackEntry)
    (s : Machine β) : (closed slot bank entries s).irq = s.irq :=
  Machine.irq_mapped s bank

@[simp] theorem stats_closed (slot : DispatchSlot) (bank : Bank) (entries : List StackEntry)
    (s : Machine β) : (closed slot bank entries s).stats = s.stats :=
  Machine.stats_mapped s bank

theorem restore_of_framed {slot : DispatchSlot} {bank : Bank} {entries : List StackEntry}
    {s : Machine β} (h : s.stack.entries =
      .returnTo slot.convention.returnSite :: .savedBank bank :: .returnTo .caller :: entries) :
    restore slot s = .done (.ok ()) (closed slot bank entries s) := by
  unfold restore
  rw [Run.bind_of_done (Machine.popExpect_apply h)]
  dsimp only
  rw [Run.bind_of_done (Machine.popBank_apply rfl)]
  dsimp only
  rw [Run.bind_of_done (Machine.selectBank_apply _ bank), Run.bind_of_done (Machine.note_apply _ _)]
  refine (Machine.popExpect_apply (show _ = _ :: entries from ?_)).trans ?_
  · simp only [Machine.restacked_mapped]
    rfl
  · simp only [Machine.restacked_mapped]
    rfl

/-- The error of the first entry of a frame for which there is no room. -/
def overflow (slot : DispatchSlot) (caller : Bank) (stack : CallStack) : CallError :=
  if stack.capacity < stack.used + 2 then
    .stackOverflow (.returnTo .caller) stack.used stack.capacity
  else if stack.capacity < stack.used + 3 then
    .stackOverflow (.savedBank caller) (stack.used + 2) stack.capacity
  else
    .stackOverflow (.returnTo slot.convention.returnSite) (stack.used + 3) stack.capacity

/-- All of a machine but the counts that a failed attempt moves: the high-water mark, the number of
bank switches and the log. -/
structure Unmoved (s t : Machine β) : Prop where
  bus : t.bus = s.bus
  irq : t.irq = s.irq
  stats : t.stats = s.stats
  active : t.window.active = s.window.active
  entries : t.stack.entries = s.stack.entries
  used : t.stack.used = s.stack.used
  capacity : t.stack.capacity = s.stack.capacity

/-- The machine after unwinding. -/
def unwound (depth : Nat) (caller : Bank) (s : Machine β) : Machine β :=
  (s.restacked (s.stack.truncate depth)).mapped caller

theorem unwind_apply (depth : Nat) (caller : Bank) (s : Machine β) :
    unwind depth caller s = .done () (unwound depth caller s) :=
  Machine.selectBank_apply _ caller

theorem conclude_error (depth : Nat) (caller : Bank) (e : CallError) (s : Machine β) :
    conclude depth caller (.error e) s = .done (.error e) (unwound depth caller s) := by
  rw [conclude, Run.bind_of_done (unwind_apply ..)]
  rfl

/-- Unwinding a machine of which the stack has grown, and on which perhaps another bank is
mapped. -/
theorem unmoved_unwound {s t : Machine β} {extra : List StackEntry} (hbus : t.bus = s.bus)
    (hirq : t.irq = s.irq) (hstats : t.stats = s.stats)
    (hentries : t.stack.entries = extra ++ s.stack.entries)
    (hused : t.stack.used = s.stack.used + CallStack.bytes extra)
    (hcapacity : t.stack.capacity = s.stack.capacity) :
    Unmoved s (unwound s.stack.depth s.window.active t) := by
  have hcut : t.stack.truncate s.stack.depth =
      { t.stack with entries := s.stack.entries, used := s.stack.used } := by
    rw [CallStack.depth, CallStack.truncate_of_append hentries, hused, Nat.add_sub_cancel]
  unfold unwound
  rw [hcut]
  constructor
  · simpa using hbus
  · simpa using hirq
  · simpa using hstats
  · exact Machine.active_mapped _ s.window.active
  · simp
  · simp
  · simpa using hcapacity

/-- The machine with as much of the frame of a call as fits. If only the last entry does not fit, the
bank of the target is mapped. -/
def attempted (slot : DispatchSlot) (s : Machine β) : Machine β :=
  let first := s.restacked (s.stack.pushed (.returnTo .caller))
  let second := first.restacked (first.stack.pushed (.savedBank s.window.active))
  if s.stack.capacity < s.stack.used + 2 then s
  else if s.stack.capacity < s.stack.used + 3 then first
  else second.mapped (bankOf slot s.window.active)

/-- The machine after a call that was refused. -/
def refused (slot : DispatchSlot) (s : Machine β) : Machine β :=
  unwound s.stack.depth s.window.active (attempted slot s)

theorem enter_refused {resolve : Resolver β} {slot : DispatchSlot} (param : Option UInt8)
    {s : Machine β} {routine : Option UInt8 → Run (Machine β) Unit}
    (hover : s.stack.capacity < s.stack.used + 5)
    (hresolve : resolve slot.target.logical (bankOf slot s.window.active) = some routine) :
    enter resolve slot param s.window.active s =
      .done (.error (overflow slot s.window.active s.stack)) (attempted slot s) := by
  unfold overflow attempted enter
  dsimp only
  by_cases hcaller : s.stack.capacity < s.stack.used + 2
  · rw [if_pos hcaller, if_pos hcaller, Run.bind_of_done (Machine.push_apply_overflows hcaller)]
    rfl
  let first := s.restacked (s.stack.pushed (.returnTo .caller))
  have hfirst : Machine.push (.returnTo .caller) s = .done (.ok ()) first :=
    Machine.push_apply_fits (Nat.le_of_not_lt hcaller)
  rw [if_neg hcaller, if_neg hcaller, Run.bind_of_done hfirst]
  dsimp only
  by_cases hbank : s.stack.capacity < s.stack.used + 3
  · rw [if_pos hbank, if_pos hbank, Run.bind_of_done (Machine.push_apply_overflows hbank)]
    rfl
  let second := first.restacked (first.stack.pushed (.savedBank s.window.active))
  have hsecond : Machine.push (.savedBank s.window.active) first = .done (.ok ()) second :=
    Machine.push_apply_fits (Nat.le_of_not_lt hbank)
  rw [if_neg hbank, if_neg hbank, Run.bind_of_done hsecond]
  dsimp only
  rw [Run.bind_of_done (mapTarget_apply slot second)]
  let target := second.mapped (bankOf slot s.window.active)
  have hstack : target.stack = second.stack := Machine.stack_mapped ..
  have htop : target.stack.capacity < target.stack.used + 2 := by
    rw [hstack]
    exact hover
  have htarget : resolve slot.target.logical target.window.active = some routine := by
    rw [Machine.active_mapped]
    exact hresolve
  have hland := land_of_overflow param htop htarget
  rw [hstack] at hland
  exact hland

/-- Without room for its frame a call is refused, whatever it would have entered. -/
theorem farCall_refused {resolve : Resolver β} {slot : DispatchSlot} (param : Option UInt8)
    {s : Machine β} {routine : Option UInt8 → Run (Machine β) Unit}
    (hover : s.stack.capacity < s.stack.used + 5)
    (hresolve : resolve slot.target.logical (bankOf slot s.window.active) = some routine) :
    farCall resolve slot param s =
      .done (.error (overflow slot s.window.active s.stack)) (refused slot s) := by
  rw [farCall_apply, Run.bind_of_done (enter_refused param hover hresolve), conclude_error]
  rfl

theorem unmoved_refused (slot : DispatchSlot) (s : Machine β) : Unmoved s (refused slot s) := by
  let first := s.restacked (s.stack.pushed (.returnTo .caller))
  let second := first.restacked (first.stack.pushed (.savedBank s.window.active))
  unfold refused attempted
  dsimp only
  split
  · exact @unmoved_unwound _ s s [] rfl rfl rfl rfl rfl rfl
  split
  · exact @unmoved_unwound _ s first [.returnTo .caller] rfl rfl rfl rfl rfl rfl
  · have hstack := Machine.stack_mapped second (bankOf slot s.window.active)
    apply @unmoved_unwound _ s _ [.savedBank s.window.active, .returnTo .caller]
    · exact Machine.bus_mapped second _
    · exact Machine.irq_mapped second _
    · exact Machine.stats_mapped second _
    · exact congrArg CallStack.entries hstack
    · exact congrArg CallStack.used hstack
    · exact (congrArg CallStack.capacity hstack :)

/-- A call that is refused raises the high-water mark at most to the capacity. -/
theorem highWater_refused (slot : DispatchSlot) (s : Machine β) :
    s.stack.highWater ≤ (refused slot s).stack.highWater ∧
      (refused slot s).stack.highWater ≤ max s.stack.highWater s.stack.capacity := by
  have hattempted : (refused slot s).stack.highWater = (attempted slot s).stack.highWater := by
    unfold refused unwound
    rw [Machine.stack_mapped]
    rfl
  rw [hattempted]
  unfold attempted
  dsimp only
  split
  · omega
  split
  · change _ ≤ max s.stack.highWater (s.stack.used + 2) ∧ max s.stack.highWater (s.stack.used + 2) ≤ _
    omega
  · rw [Machine.stack_mapped]
    change _ ≤ max (max s.stack.highWater (s.stack.used + 2)) (s.stack.used + 3) ∧
      max (max s.stack.highWater (s.stack.used + 2)) (s.stack.used + 3) ≤ _
    omega

/-- There is no room for the frame: whatever the target's address leads to is not run, and what was
built of the frame is unwound. -/
theorem farCall_of_overflow {slot : DispatchSlot} (param : Option UInt8) {s : Machine β}
    (hover : s.stack.capacity < s.stack.used + 5) :
    ∃ t, Unmoved s t ∧ ∀ {resolve : Resolver β} {routine : Option UInt8 → Run (Machine β) Unit},
      resolve slot.target.logical (bankOf slot s.window.active) = some routine →
      farCall resolve slot param s = .done (.error (overflow slot s.window.active s.stack)) t :=
  ⟨refused slot s, unmoved_refused slot s, fun hresolve => farCall_refused param hover hresolve⟩

end FarCall

end BankedController
