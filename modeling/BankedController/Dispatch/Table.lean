import BankedController.Dispatch.Entry

namespace BankedController

structure DispatchSlot where
  id : SlotId
  stub : UInt16
  target : CodeAddr
  convention : CallConvention
  deriving DecidableEq

/-- A defect of a table's source. Each would run unrelated code on the controller. -/
inductive DispatchError where
  | duplicateSlot (slot : SlotId)
  | stubOutsideCommon (slot : SlotId) (stub : Nat)
  | unresolvableTarget (slot : SlotId) (target : CodeAddr)
  | ambiguousAlias (first second : SlotId) (target : CodeAddr)
      (firstConvention secondConvention : CallConvention)
  deriving DecidableEq

def DispatchError.message : DispatchError → String
  | duplicateSlot slot => "slot " ++ slot.text ++ " registered twice"
  | stubOutsideCommon slot stub =>
    "slot " ++ slot.text ++ " stub address " ++ Text.hex 4 stub ++
      " is outside the common region"
  | unresolvableTarget slot target =>
    "slot " ++ slot.text ++ " target " ++ target.text ++ " has no routine in the code image"
  | ambiguousAlias first second target firstConvention secondConvention =>
    "slots " ++ first.text ++ " and " ++ second.text ++ " alias " ++ target.text ++
      " with different conventions (" ++ firstConvention.text ++ " vs " ++
      secondConvention.text ++ ")"

/-- The slots of a table, by ascending number. -/
structure DispatchTable where
  slots : List DispatchSlot
  deriving DecidableEq

namespace DispatchTable

def slotOf (e : DispatchEntry) : DispatchSlot :=
  ⟨e.slot, UInt16.ofNat e.slot.stub, e.target, e.convention⟩

/-- What is wrong with entry `e` after the entries `seen`, where `present` says which addresses
hold a routine. The stub is looked at first, then the target, then whether an earlier entry reaches
the target by another convention, then whether the slot is taken. -/
def defect? (present : CodeAddr → Bool) (seen : List DispatchEntry) (e : DispatchEntry) :
    Option DispatchError :=
  if 0x8000 < e.slot.stub + SlotId.stubSize then
    some (.stubOutsideCommon e.slot e.slot.stub)
  else if present e.target = false then
    some (.unresolvableTarget e.slot e.target)
  else
    match seen.find? fun f => f.target = e.target && f.convention ≠ e.convention with
    | some f => some (.ambiguousAlias f.slot e.slot e.target f.convention e.convention)
    | none =>
      if seen.any fun f => f.slot = e.slot then some (.duplicateSlot e.slot) else none

/-- The first defect of `entries`, which come after `seen`. -/
def firstDefect? (present : CodeAddr → Bool) (seen : List DispatchEntry) :
    List DispatchEntry → Option DispatchError
  | [] => none
  | e :: rest =>
    match defect? present seen e with
    | some defect => some defect
    | none => firstDefect? present (seen ++ [e]) rest

/-- Puts `slot` before the first slot with a larger number. -/
def insert (slot : DispatchSlot) : List DispatchSlot → List DispatchSlot
  | [] => [slot]
  | s :: rest => if slot.id.number < s.id.number then slot :: s :: rest else s :: insert slot rest

/-- Builds the table of `entries`, or reports their first defect. -/
def build (entries : List DispatchEntry) (present : CodeAddr → Bool) :
    Except DispatchError DispatchTable :=
  match firstDefect? present [] entries with
  | some defect => .error defect
  | none => .ok ⟨(entries.map slotOf).foldr insert []⟩

def slot? (table : DispatchTable) (id : SlotId) : Option DispatchSlot :=
  table.slots.find? fun s => s.id = id

def atStub? (table : DispatchTable) (addr : UInt16) : Option DispatchSlot :=
  table.slots.find? fun s => s.stub = addr

def size (table : DispatchTable) : Nat := table.slots.length

end DispatchTable

end BankedController
