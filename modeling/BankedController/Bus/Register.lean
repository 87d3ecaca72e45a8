import BankedController.Run

namespace BankedController

/-- A state that carries registers and work memory in one space of addresses. Reading a register may
change it. -/
class RegisterBus (β : Type) where
  read : UInt16 → Run β UInt8
  write : UInt16 → UInt8 → Run β Unit

namespace RegisterBus

variable {β : Type} [RegisterBus β]

/-- The number whose bytes are given, the most significant first. -/
def joinBytes (b3 b2 b1 b0 : UInt8) : UInt32 :=
  b3.toUInt32 <<< 24 ||| b2.toUInt32 <<< 16 ||| b1.toUInt32 <<< 8 ||| b0.toUInt32

/-- Reads four bytes as one number. -/
@[specialize] def read32 (addr : UInt16) : Run β UInt32 := do
  let b3 ← read addr
  let b2 ← read (addr + 1)
  let b1 ← read (addr + 2)
  let b0 ← read (addr + 3)
  pure (joinBytes b3 b2 b1 b0)

/-- Writes a number as four bytes. -/
@[specialize] def write32 (addr : UInt16) (value : UInt32) : Run β Unit := do
  write addr (value >>> 24).toUInt8
  write (addr + 1) (value >>> 16).toUInt8
  write (addr + 2) (value >>> 8).toUInt8
  write (addr + 3) value.toUInt8

/-- Reads a byte and writes it back with the bits of `mask` set. -/
@[specialize] def setBits (addr : UInt16) (mask : UInt8) : Run β Unit := do
  let v ← read addr
  write addr (v ||| mask)

/-- Reads a byte and writes it back with the bits of `mask` clear. -/
@[specialize] def clearBits (addr : UInt16) (mask : UInt8) : Run β Unit := do
  let v ← read addr
  write addr (v &&& ~~~mask)

/-- Writes `value` to `count` addresses in turn. -/
@[specialize] def fill (start : UInt16) (count : Nat) (value : UInt8) : Run β Unit :=
  match count with
  | 0 => pure ()
  | n + 1 => do
    write start value
    fill (start + 1) n value

/-- Reads `count` bytes in turn. -/
@[specialize] def readBytes (start : UInt16) (count : Nat) : Run β (List UInt8) :=
  match count with
  | 0 => pure []
  | n + 1 => do
    let b ← read start
    let rest ← readBytes (start + 1) n
    pure (b :: rest)

end RegisterBus

end BankedController
