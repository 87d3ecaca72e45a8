import BankedController.Bus.Xdata

namespace BankedController

/-- Status bytes from `base` on. The hardware sets their bits and the firmware clears them by
writing them back. -/
structure Latch where
  base : UInt16
  bytes : Array UInt8
  deriving DecidableEq

namespace Latch

def ofRange (base size : UInt16) : Latch :=
  ⟨base, Array.replicate size.toNat 0⟩

def index (l : Latch) (addr : UInt16) : Nat :=
  (addr - l.base).toNat

def value? (l : Latch) (addr : UInt16) : Option UInt8 :=
  l.bytes[l.index addr]?

def update (l : Latch) (addr : UInt16) (f : UInt8 → UInt8) : Except Fault Latch :=
  if h : l.index addr < l.bytes.size then
    .ok { l with bytes := l.bytes.set (l.index addr) (f l.bytes[l.index addr]) }
  else
    .error .indexOutOfRange

/-- The hardware sets bits. -/
def assertBits (l : Latch) (addr : UInt16) (mask : UInt8) : Except Fault Latch :=
  l.update addr (· ||| mask)

/-- The firmware clears the bits that it writes. -/
def write (addr : UInt16) (value : UInt8) (l : Latch) : Except Fault Latch :=
  l.update addr (· &&& ~~~value)

def read (addr : UInt16) (l : Latch) : Except Fault (UInt8 × Latch) :=
  match l.value? addr with
  | some v => .ok (v, l)
  | none => .error .indexOutOfRange

def reset (l : Latch) : Latch :=
  { l with bytes := l.bytes.map fun _ => 0 }

instance : Peripheral Latch := ⟨read, write, reset⟩

end Latch

end BankedController
