import BankedController.Bus.Register
import BankedController.Log

namespace BankedController

/-- How often each slot was called, in the order of the first calls, and how many dispatches
failed. -/
structure DispatchStats where
  calls : List (SlotId × Nat)
  failures : Nat
  deriving DecidableEq

namespace DispatchStats

def initial : DispatchStats := ⟨[], 0⟩

def bump (id : SlotId) : List (SlotId × Nat) → List (SlotId × Nat)
  | [] => [(id, 1)]
  | (k, n) :: rest => if k = id then (k, n + 1) :: rest else (k, n) :: bump id rest

def countIn (id : SlotId) : List (SlotId × Nat) → Nat
  | [] => 0
  | (k, n) :: rest => if k = id then n else countIn id rest

def sum : List (SlotId × Nat) → Nat
  | [] => 0
  | (_, n) :: rest => n + sum rest

def called (s : DispatchStats) (id : SlotId) : DispatchStats :=
  { s with calls := bump id s.calls }

def failed (s : DispatchStats) : DispatchStats :=
  { s with failures := s.failures + 1 }

def count (s : DispatchStats) (id : SlotId) : Nat := countIn id s.calls

def total (s : DispatchStats) : Nat := sum s.calls

theorem count_called (s : DispatchStats) (id other : SlotId) :
    (s.called id).count other = s.count other + if id = other then 1 else 0 := by
  simp only [count, called]
  induction s.calls with
  | nil => simp [bump, countIn]
  | cons entry rest ih =>
    obtain ⟨k, n⟩ := entry
    by_cases hk : k = id
    · by_cases ho : id = other <;> simp [bump, countIn, hk, ho]
    · by_cases ho : k = other
      · have : id ≠ other := fun h => hk (ho.trans h.symm)
        simp [bump, countIn, ← ho, hk, Ne.symm hk]
      · simp [bump, countIn, hk, ho, ih]

theorem total_called (s : DispatchStats) (id : SlotId) :
    (s.called id).total = s.total + 1 := by
  simp only [total, called]
  induction s.calls with
  | nil => rfl
  | cons entry rest ih =>
    obtain ⟨k, n⟩ := entry
    by_cases hk : k = id
    · simp only [bump, hk, if_true, sum]
      omega
    · simp only [bump, hk, if_false, sum, ih]
      omega

end DispatchStats

/-- The state of the controller, over the state `β` of its bus. -/
structure Machine (β : Type) where
  bus : β
  window : BankWindow
  stack : CallStack
  irq : InterruptController
  stats : DispatchStats
  log : Log

namespace Machine

variable {β α : Type}

/-- Runs `m` on the bus. -/
@[inline] def onBus (m : Run β α) : Run (Machine β) α
  | ⟨bus, window, stack, irq, stats, log⟩ =>
    match m bus with
    | .done a bus => .done a ⟨bus, window, stack, irq, stats, log⟩
    | .fault cause bus => .fault cause ⟨bus, window, stack, irq, stats, log⟩
    | .exhausted => .exhausted

/-- Works on the stack. -/
@[inline] def onStack (f : CallStack → α × CallStack) : Run (Machine β) α := fun s =>
  let r := f s.stack
  .done r.1 { s with stack := r.2 }

/-- Works on the interrupt controller. -/
@[inline] def onIrq (f : InterruptController → InterruptController) : Run (Machine β) Unit :=
  Run.modify fun s => { s with irq := f s.irq }

/-- Reports an event. -/
@[inline] def note (event : Event) : Run (Machine β) Unit :=
  Run.modify fun s => { s with log := s.log.record event }

/-- Maps a bank directly. -/
@[inline] def selectBank (bank : Bank) : Run (Machine β) Unit := fun s =>
  if s.window.active = bank then .done () s
  else
    .done () { s with
      window := s.window.select bank
      log := s.log.record (.bankSwitch s.window.active bank) }

/-- Pushes an entry. -/
@[inline] def push (entry : StackEntry) : Run (Machine β) (Except CallError Unit) :=
  onStack fun stack =>
    match stack.push entry with
    | .ok stack' => (.ok (), stack')
    | .error e => (.error e, stack)

/-- Pops an entry that should be `expected`. -/
@[inline] def popExpect (expected : StackEntry) : Run (Machine β) (Except CallError Unit) :=
  onStack fun stack => stack.popExpect expected

/-- Pops an entry that should be a saved bank. -/
@[inline] def popBank : Run (Machine β) (Except CallError Bank) :=
  onStack CallStack.popBank

/-- Latches an edge on a line. It is taken at the next preemption point. -/
def raiseIrq (line : IrqLine) : Run (Machine β) Unit :=
  onIrq fun irq => irq.raise line

/-- Runs `body` with the global enable clear and puts it back as it was. Latched edges stay
latched. -/
def critical (body : Run (Machine β) α) : Run (Machine β) α := do
  let enabled ← Run.gets fun s => s.irq.globallyEnabled
  onIrq fun irq => irq.setGlobal false
  let a ← body
  onIrq fun irq => irq.setGlobal enabled
  pure a

section Bus

variable [RegisterBus β]

def read (addr : UInt16) : Run (Machine β) UInt8 := onBus (RegisterBus.read addr)

def write (addr : UInt16) (value : UInt8) : Run (Machine β) Unit :=
  onBus (RegisterBus.write addr value)

def write32 (addr : UInt16) (value : UInt32) : Run (Machine β) Unit :=
  onBus (RegisterBus.write32 addr value)

def read32 (addr : UInt16) : Run (Machine β) UInt32 := onBus (RegisterBus.read32 addr)

/-- Sets bits by reading and writing back. -/
def setBits (addr : UInt16) (mask : UInt8) : Run (Machine β) Unit :=
  onBus (RegisterBus.setBits addr mask)

def clearBits (addr : UInt16) (mask : UInt8) : Run (Machine β) Unit :=
  onBus (RegisterBus.clearBits addr mask)

end Bus

end Machine

end BankedController
