/-! The interrupt controller: two edge-latched lines, each with an enable bit and a priority bit,
and a global enable. A latched line can be delivered when it is enabled, is not in service, and has
a level above every line in service. -/

namespace BankedController

inductive IrqLine where
  /-- USB endpoint, command and link events. -/
  | endpoint
  /-- NVMe queue, PCIe, power and timer events. -/
  | system
  deriving DecidableEq

namespace IrqLine

/-- The lines in the order in which the hardware polls them. -/
def all : List IrqLine := [endpoint, system]

/-- The line's bit in the enable register and in the priority register. -/
def bit : IrqLine → UInt8
  | endpoint => 0x01
  | system => 0x04

def text : IrqLine → String
  | endpoint => "int0/endpoint"
  | system => "int1/system"

/-- The line's name in a configuration. -/
def name : IrqLine → String
  | endpoint => "endpoint"
  | system => "system"

end IrqLine

structure PerLine (α : Type) where
  endpoint : α
  system : α
  deriving DecidableEq

namespace PerLine

variable {α : Type}

def get (p : PerLine α) : IrqLine → α
  | .endpoint => p.endpoint
  | .system => p.system

def set (p : PerLine α) (line : IrqLine) (a : α) : PerLine α :=
  match line with
  | .endpoint => { p with endpoint := a }
  | .system => { p with system := a }

def toList (p : PerLine α) : List α := [p.endpoint, p.system]

theorem get_set (p : PerLine α) (line other : IrqLine) (a : α) :
    (p.set line a).get other = if other = line then a else p.get other := by
  cases line <;> cases other <;> rfl

end PerLine

inductive Level where
  | low
  | high
  deriving DecidableEq

namespace Level

def text : Level → String
  | low => "Low"
  | high => "High"

def rank : Level → Nat
  | low => 0
  | high => 1

end Level

/-- The controller. Lines in service stand with the level they were taken at, the innermost
first. -/
structure InterruptController where
  enable : UInt8
  priority : UInt8
  pending : PerLine Bool
  inService : List (IrqLine × Level)
  delivered : PerLine Nat
  deriving DecidableEq

namespace InterruptController

def globalBit : UInt8 := 0x80

def initial : InterruptController :=
  ⟨0, 0, ⟨false, false⟩, [], ⟨0, 0⟩⟩

def globallyEnabled (c : InterruptController) : Bool :=
  c.enable &&& globalBit = globalBit

/-- Sets or clears the global enable and leaves the lines' own bits. -/
def setGlobal (c : InterruptController) (on : Bool) : InterruptController :=
  { c with enable := if on then c.enable ||| globalBit else c.enable &&& ~~~globalBit }

def lineEnabled (c : InterruptController) (line : IrqLine) : Bool :=
  c.enable &&& line.bit = line.bit

/-- The level that the priority register gives a line now. -/
def level (c : InterruptController) (line : IrqLine) : Level :=
  if c.priority &&& line.bit = line.bit then .high else .low

/-- Latches an edge on a line. -/
def raise (c : InterruptController) (line : IrqLine) : InterruptController :=
  { c with pending := c.pending.set line true }

def isInService (c : InterruptController) (line : IrqLine) : Bool :=
  c.inService.any fun entry => entry.1 = line

/-- Whether a level is above the innermost line in service. -/
def outranks (c : InterruptController) (level : Level) : Bool :=
  match c.inService with
  | [] => true
  | (_, ceiling) :: _ => ceiling.rank < level.rank

def deliverable (c : InterruptController) (line : IrqLine) : Bool :=
  c.globallyEnabled && c.pending.get line && c.lineEnabled line && !c.isInService line &&
    c.outranks (c.level line)

/-- The line that is taken now, if any: a high one before a low one, and of two lines at one level
the one that is polled first. -/
def next? (c : InterruptController) : Option IrqLine :=
  let candidates := IrqLine.all.filter c.deliverable
  match candidates.find? fun line => c.level line = .high with
  | some line => some line
  | none => candidates.head?

/-- Takes a line: its latch is cleared and it is in service at its present level. -/
def acknowledge (c : InterruptController) (line : IrqLine) : InterruptController :=
  { c with
    pending := c.pending.set line false
    delivered := c.delivered.set line (c.delivered.get line + 1)
    inService := (line, c.level line) :: c.inService }

/-- Ends the innermost service of a line, if it is in service at all. -/
def complete (c : InterruptController) (line : IrqLine) : InterruptController :=
  { c with inService := c.inService.eraseP fun entry => entry.1 = line }

end InterruptController

end BankedController
