import BankedController.Bus.Paged
import BankedController.Bus.Register
import BankedController.Text.Hex

/-! Plain memory with devices mapped over ranges of it. The bus holds a store of devices, in which a
key selects one, and beside the ranges the claim on every address, so that an access does not search
the ranges. That the two agree is part of the bus. -/

namespace BankedController

/-- A register block. It is addressed by absolute addresses; a fault leaves it unchanged. -/
class Peripheral (δ : Type) where
  read : UInt16 → δ → Except Fault (UInt8 × δ)
  write : UInt16 → UInt8 → δ → Except Fault δ
  /-- The block as it is after a reset of the bus. -/
  reset : δ → δ

/-- A store `σ` of register blocks, in which a key of type `κ` selects one. -/
class DeviceStore (κ σ : Type) where
  read : κ → UInt16 → σ → Except Fault (UInt8 × σ)
  write : κ → UInt16 → UInt8 → σ → Except Fault σ
  reset : κ → σ → σ

/-- A mapped range: `size` addresses from `start` on, and the key of the device behind them. -/
structure MappedRange (κ : Type) where
  start : UInt16
  size : UInt16
  device : κ
  deriving DecidableEq

namespace MappedRange

variable {κ : Type}

/-- The first address past the range. -/
def stop (r : MappedRange κ) : Nat := r.start.toNat + r.size.toNat

def contains (r : MappedRange κ) (addr : UInt16) : Bool :=
  r.start.toNat ≤ addr.toNat && addr.toNat < r.stop

theorem contains_iff (r : MappedRange κ) (addr : UInt16) :
    r.contains addr ↔ r.start.toNat ≤ addr.toNat ∧ addr.toNat < r.start.toNat + r.size.toNat := by
  simp only [contains, Bool.and_eq_true, decide_eq_true_eq]
  rfl

end MappedRange

/-- Why a range cannot be mapped. Where two ranges overlap, the report gives the first address and
the address past the last of both. -/
inductive RangeError where
  | empty
  | wraps (start size : UInt16)
  | overlapsPrevious (start stop previousStart previousStop : Nat)
  | overlapsNext (start stop nextStart nextStop : Nat)
  deriving DecidableEq

namespace RangeError

def interval (start stop : Nat) : String :=
  "[" ++ Text.hex 0 start ++ ".." ++ Text.hex 0 stop ++ ")"

def message : RangeError → String
  | empty => "XDATA range length must be non-zero"
  | wraps start size =>
    "XDATA range wraps past 0xFFFF: start=" ++ Text.hex 0 start.toNat ++ " len=" ++
      Text.hex 0 size.toNat
  | overlapsPrevious start stop previousStart previousStop =>
    "overlapping XDATA ranges: new=" ++ interval start stop ++ " prev=" ++
      interval previousStart previousStop
  | overlapsNext start stop nextStart nextStop =>
    "overlapping XDATA ranges: new=" ++ interval start stop ++ " next=" ++
      interval nextStart nextStop

end RangeError

namespace MappedRange

variable {κ : Type}

/-- Puts a range before the first range that does not start below it. `previous` is the range in
front of the given ones. The range in front is looked at before the range behind. -/
def insert (r : MappedRange κ) (previous : Option (MappedRange κ)) :
    List (MappedRange κ) → Except RangeError (List (MappedRange κ))
  | [] =>
    match previous.filter fun p => r.start.toNat < p.stop with
    | some p => .error (.overlapsPrevious r.start.toNat r.stop p.start.toNat p.stop)
    | none => .ok [r]
  | next :: rest =>
    if next.start < r.start then
      match insert r (some next) rest with
      | .ok rest => .ok (next :: rest)
      | .error e => .error e
    else
      match previous.filter fun p => r.start.toNat < p.stop with
      | some p => .error (.overlapsPrevious r.start.toNat r.stop p.start.toNat p.stop)
      | none =>
        if next.start.toNat < r.stop then
          .error (.overlapsNext r.start.toNat r.stop next.start.toNat next.stop)
        else
          .ok (r :: next :: rest)

/-- Adds a range to ranges by ascending start, or says why it cannot be mapped beside them. -/
def add (r : MappedRange κ) (ranges : List (MappedRange κ)) :
    Except RangeError (List (MappedRange κ)) :=
  if r.size = 0 then .error .empty
  else if 0x10000 < r.stop then .error (.wraps r.start r.size)
  else insert r none ranges

/-- Adds ranges in order, up to the first that cannot be mapped. -/
def addAll : List (MappedRange κ) → List (MappedRange κ) →
    Except RangeError (List (MappedRange κ))
  | [], ranges => .ok ranges
  | r :: rest, ranges =>
    match r.add ranges with
    | .ok ranges => addAll rest ranges
    | .error e => .error e

/-- The key of the device that claims an address. -/
def claimIn (addr : UInt16) (ranges : List (MappedRange κ)) : Option κ :=
  (ranges.find? fun r => r.contains addr).map MappedRange.device

def claims : List (MappedRange κ) → Paged (Option κ)
  | [] => .fill none
  | r :: rest => (claims rest).setFrom (some r.device) r.start.toNat r.size.toNat

theorem get_claims (ranges : List (MappedRange κ)) (addr : UInt16) :
    (claims ranges).get addr = claimIn addr ranges := by
  induction ranges with
  | nil => simp [claims, claimIn]
  | cons r rest ih =>
    rw [claims, Paged.get_setFrom, ih]
    simp only [claimIn, List.find?_cons]
    by_cases h : r.contains addr
    · rw [if_pos ((contains_iff r addr).1 h), h]
      rfl
    · rw [if_neg fun hin => h ((contains_iff r addr).2 hin), Bool.eq_false_iff.2 h]

end MappedRange

/-- The bus: memory, the devices it knows, and the mapped ranges by ascending start. -/
structure XdataBus (κ σ : Type) where
  ram : Ram
  devices : σ
  ranges : List (MappedRange κ)
  claims : Paged (Option κ)
  get_claims : ∀ addr, claims.get addr = MappedRange.claimIn addr ranges

namespace XdataBus

variable {κ σ : Type}

def ofRanges (ram : Ram) (devices : σ) (ranges : List (MappedRange κ)) : XdataBus κ σ :=
  ⟨ram, devices, ranges, MappedRange.claims ranges, MappedRange.get_claims ranges⟩

def ofDevices (devices : σ) : XdataBus κ σ := ofRanges .zero devices []

/-- The key of the device that an address belongs to. -/
def claim? (bus : XdataBus κ σ) (addr : UInt16) : Option κ := bus.claims.get addr

/-- The claim on an address is that of the first range that contains it. -/
theorem claim?_eq (bus : XdataBus κ σ) (addr : UInt16) :
    bus.claim? addr = MappedRange.claimIn addr bus.ranges :=
  bus.get_claims addr

def mapAll (bus : XdataBus κ σ) (ranges : List (MappedRange κ)) :
    Except RangeError (XdataBus κ σ) :=
  (MappedRange.addAll ranges bus.ranges).map (ofRanges bus.ram bus.devices)

def mapRange (bus : XdataBus κ σ) (r : MappedRange κ) : Except RangeError (XdataBus κ σ) :=
  bus.mapAll [r]

/-- Unmaps the range that was mapped as exactly `size` addresses from `start` on, if there is
one. -/
def unmapRange? (bus : XdataBus κ σ) (start size : UInt16) : Option (XdataBus κ σ) :=
  if bus.ranges.any fun r => r.start = start && r.size = size then
    some (ofRanges bus.ram bus.devices
      (bus.ranges.filter fun r => !(r.start = start && r.size = size)))
  else
    none

variable [DeviceStore κ σ]

def read (addr : UInt16) : Run (XdataBus κ σ) UInt8
  | ⟨ram, devices, ranges, claims, h⟩ =>
    match claims.get addr with
    | none => .done (ram.get addr) ⟨ram, devices, ranges, claims, h⟩
    | some key =>
      match DeviceStore.read key addr devices with
      | .ok (value, devices) => .done value ⟨ram, devices, ranges, claims, h⟩
      | .error cause => .fault cause ⟨ram, devices, ranges, claims, h⟩

def write (addr : UInt16) (value : UInt8) : Run (XdataBus κ σ) Unit
  | ⟨ram, devices, ranges, claims, h⟩ =>
    match claims.get addr with
    | none => .done () ⟨ram.set addr value, devices, ranges, claims, h⟩
    | some key =>
      match DeviceStore.write key addr value devices with
      | .ok devices => .done () ⟨ram, devices, ranges, claims, h⟩
      | .error cause => .fault cause ⟨ram, devices, ranges, claims, h⟩

instance : RegisterBus (XdataBus κ σ) where
  read := read
  write := write

/-- Clears memory and resets every device that is mapped somewhere. -/
def reset (bus : XdataBus κ σ) : XdataBus κ σ :=
  { bus with
    ram := Ram.zero
    devices := bus.ranges.foldl (fun ds r => DeviceStore.reset r.device ds) bus.devices }

end XdataBus

end BankedController
