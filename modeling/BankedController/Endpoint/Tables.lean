namespace BankedController.Endpoint

/-- The number of endpoints. As a lookup result it means that no bit is set. -/
def count : UInt8 := 8

/-- The index of the lowest set bit, below `count`. -/
def lowestBit (value : UInt8) : UInt8 :=
  if value &&& 0x01 ≠ 0 then 0
  else if value &&& 0x02 ≠ 0 then 1
  else if value &&& 0x04 ≠ 0 then 2
  else if value &&& 0x08 ≠ 0 then 3
  else if value &&& 0x10 ≠ 0 then 4
  else if value &&& 0x20 ≠ 0 then 5
  else if value &&& 0x40 ≠ 0 then 6
  else if value &&& 0x80 ≠ 0 then 7
  else count

def offsetBase (index : UInt8) : UInt8 := 8 * index

def conditionBit (sub : UInt8) : UInt8 := 1 <<< sub

/-- The lowest bit of every byte. -/
def indexTable : List UInt8 := (List.range 256).map fun v => lowestBit (UInt8.ofNat v)

def offsetTable : List UInt8 := (List.range 8).map fun i => offsetBase (UInt8.ofNat i)

def bitTable : List UInt8 := (List.range 8).map fun i => conditionBit (UInt8.ofNat i)

/-- The handler offset that is dispatched ahead of a scan when the master is ready. -/
def forcedOffset : UInt8 := 0x40

inductive ScanStop where
  /-- Nothing was ready. -/
  | idle
  /-- The step limit ran out. -/
  | exhausted
  deriving DecidableEq

def ScanStop.text : ScanStop → String
  | idle => "Idle"
  | exhausted => "Exhausted"

/-- What a scan did: whether the forced dispatch ran, the offset of each step in order, why it
stopped, and whether the master event was dispatched. -/
structure ScanReport where
  forced : Bool
  serviced : List UInt8
  stop : ScanStop
  master : Bool
  deriving DecidableEq

def ScanReport.steps (r : ScanReport) : Nat := r.serviced.length

end BankedController.Endpoint
