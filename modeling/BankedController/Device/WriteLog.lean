import BankedController.Bus.Paged
import BankedController.Bus.Xdata

namespace BankedController

/-- What was last written to an address, or zero, by the writes with the newest first. -/
def lastWritten (addr : UInt16) (writes : List (UInt16 × UInt8)) : UInt8 :=
  (writes.lookup addr).getD 0

theorem lastWritten_cons (addr other : UInt16) (byte : UInt8) (writes : List (UInt16 × UInt8)) :
    lastWritten other ((addr, byte) :: writes) =
      if addr = other then byte else lastWritten other writes := by
  by_cases h : addr = other
  · simp [lastWritten, h]
  · have hne : (other == addr) = false := beq_false_of_ne (Ne.symm h)
    simp only [lastWritten, List.lookup_cons, hne, h, if_false]

/-- The writes so far, the newest first, and the bytes that they leave. -/
structure WriteLog where
  writes : List (UInt16 × UInt8)
  latest : Ram
  latest_get : ∀ addr, latest.get addr = lastWritten addr writes
  deriving DecidableEq

namespace WriteLog

def empty : WriteLog := ⟨[], .zero, by simp [lastWritten]⟩

def value (log : WriteLog) (addr : UInt16) : UInt8 := log.latest.get addr

def add (log : WriteLog) (addr : UInt16) (value : UInt8) : WriteLog where
  writes := (addr, value) :: log.writes
  latest := log.latest.set addr value
  latest_get other := by rw [Paged.get_set, log.latest_get, lastWritten_cons]

/-- A write is read back at its address and nowhere else. -/
theorem value_add (log : WriteLog) (addr other : UInt16) (byte : UInt8) :
    (log.add addr byte).value other = if addr = other then byte else log.value other :=
  Paged.get_set ..

def writesTo (log : WriteLog) (addr : UInt16) : List UInt8 :=
  (log.writes.reverse.filter fun w => w.1 = addr).map (·.2)

instance : Peripheral WriteLog where
  read addr log := .ok (log.value addr, log)
  write addr value log := .ok (log.add addr value)
  reset _ := empty

end WriteLog

end BankedController
