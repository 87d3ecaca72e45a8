import BankedController.Dispatch.Entry

namespace BankedController

/-- Where a popped return address sends control. -/
inductive ReturnSite where
  /-- Back to whoever invoked the stub. -/
  | caller
  /-- Back into the stub. -/
  | stubResume
  /-- Into the epilogue that restores the bank. -/
  | bankRestore
  /-- Out of an interrupt. -/
  | interrupt
  deriving DecidableEq

def ReturnSite.text : ReturnSite → String
  | caller => "Caller"
  | stubResume => "StubResume"
  | bankRestore => "BankRestore"
  | interrupt => "Interrupt"

/-- What the return of a target pops. -/
def CallConvention.returnSite : CallConvention → ReturnSite
  | callReturn => .stubResume
  | tailJump => .bankRestore

inductive StackEntry where
  | returnTo (site : ReturnSite)
  | savedBank (bank : Bank)
  deriving DecidableEq

namespace StackEntry

def size : StackEntry → Nat
  | returnTo _ => 2
  | savedBank _ => 1

def text : StackEntry → String
  | returnTo site => "Return(" ++ site.text ++ ")"
  | savedBank bank => "SavedBank(" ++ bank.name ++ ")"

end StackEntry

inductive CallError where
  | unknownSlot (slot : SlotId)
  | unknownStub (addr : UInt16)
  | unresolved (addr : UInt16) (bank : Bank)
  | stackOverflow (entry : StackEntry) (used capacity : Nat)
  | stackUnderflow
  | stackCorrupted (expected found : StackEntry)
  deriving DecidableEq

def CallError.message : CallError → String
  | unknownSlot slot => "unknown dispatch slot " ++ slot.text
  | unknownStub addr => "no dispatch stub at logical address " ++ Text.hex 4 addr.toNat
  | unresolved addr bank =>
    "logical address " ++ Text.hex 4 addr.toNat ++ " resolves to nothing with bank " ++
      bank.text ++ " mapped"
  | stackOverflow entry used capacity =>
    "call stack overflow pushing " ++ entry.text ++ " (" ++ toString used ++ " of " ++
      toString capacity ++ " bytes in use)"
  | stackUnderflow => "call stack underflow"
  | stackCorrupted expected found =>
    "call stack corrupted: expected " ++ expected.text ++ ", popped " ++ found.text

/-- The stack: its entries, the newest first, the bytes in use, the bytes there are, and the most
bytes that were in use since the last reset. -/
structure CallStack where
  entries : List StackEntry
  used : Nat
  capacity : Nat
  highWater : Nat
  deriving DecidableEq

namespace CallStack

/-- The empty stack that grows from `base` to the top of the 256 bytes of internal memory. -/
def ofBase (base : UInt8) : CallStack :=
  ⟨[], 0, 0x100 - base.toNat, 0⟩

def depth (s : CallStack) : Nat := s.entries.length

def bytes : List StackEntry → Nat
  | [] => 0
  | entry :: rest => entry.size + bytes rest

/-- Adds an entry if it fits. -/
@[inline] def push (s : CallStack) (entry : StackEntry) : Except CallError CallStack :=
  let used := s.used + entry.size
  if s.capacity < used then
    .error (.stackOverflow entry s.used s.capacity)
  else
    .ok ⟨entry :: s.entries, used, s.capacity, max s.highWater used⟩

/-- Takes the newest entry. -/
@[inline] def pop (s : CallStack) : Except CallError StackEntry × CallStack :=
  match s.entries with
  | [] => (.error .stackUnderflow, s)
  | entry :: rest => (.ok entry, { s with entries := rest, used := s.used - entry.size })

/-- Takes the newest entry, which should be `expected`. It is gone also when it is not. -/
@[inline] def popExpect (s : CallStack) (expected : StackEntry) : Except CallError Unit × CallStack :=
  match s.pop with
  | (.error e, s') => (.error e, s')
  | (.ok found, s') =>
    if found = expected then (.ok (), s') else (.error (.stackCorrupted expected found), s')

/-- Takes the newest entry, which should be a saved bank. It is gone also when it is not. -/
@[inline] def popBank (s : CallStack) : Except CallError Bank × CallStack :=
  match s.pop with
  | (.error e, s') => (.error e, s')
  | (.ok (.savedBank bank), s') => (.ok bank, s')
  | (.ok found, s') => (.error (.stackCorrupted (.savedBank .bank0) found), s')

/-- Drops the newest entries until at most `depth` are left. -/
def truncate (s : CallStack) (depth : Nat) : CallStack :=
  let surplus := s.depth - depth
  { s with
    entries := s.entries.drop surplus
    used := s.used - bytes (s.entries.take surplus) }

/-- Drops all entries and forgets the high-water mark. -/
def reset (s : CallStack) : CallStack :=
  { s with entries := [], used := 0, highWater := 0 }

end CallStack

end BankedController
