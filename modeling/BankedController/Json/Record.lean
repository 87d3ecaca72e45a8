import BankedController.Json.Value

namespace BankedController.Json

/-- The value of a field among the members of an object: absent, or present once. A repeated field
is an error. -/
def single? (name : String) (members : List Member) : Option (Option Value) :=
  match members.filter fun m => m.1 = some name with
  | [] => some none
  | [m] => some (some m.2)
  | _ => none

def required? (name : String) (members : List Member) : Option Value :=
  match single? name members with
  | some (some v) => some v
  | _ => none

/-- The members of an object whose keys are all text. -/
def members? : Value → Option (List Member)
  | .object members => if members.all fun m => m.1.isSome then some members else none
  | _ => none

/-- The values of a record's fields, each perhaps absent. A record is an object in which the fields
stand in any order among others, or an array of the fields in their given order of which the last
may be missing. -/
def record? (names : List String) : Value → Option (List (Option Value))
  | .object members =>
    match members? (.object members) with
    | some members => names.mapM fun name => single? name members
    | none => none
  | .array elements =>
    if elements.length ≤ names.length then
      some (elements.map some ++ List.replicate (names.length - elements.length) none)
    else none
  | _ => none

/-- A field that has a value of its own when it is absent. -/
def orDefault {α : Type} (standard : α) (read : Value → Option α) : Option Value → Option α
  | none => some standard
  | some v => read v

/-- A natural number below `bound`, written as one. -/
def natBelow? (bound : Nat) : Value → Option Nat
  | .number n =>
    match n.toNat? with
    | some k => if k < bound then some k else none
    | none => none
  | _ => none

def uint8? (v : Value) : Option UInt8 := (natBelow? UInt8.size v).map UInt8.ofNat

def uint16? (v : Value) : Option UInt16 := (natBelow? UInt16.size v).map UInt16.ofNat

def uint32? (v : Value) : Option UInt32 := (natBelow? UInt32.size v).map UInt32.ofNat

def uint64? (v : Value) : Option UInt64 := (natBelow? UInt64.size v).map UInt64.ofNat

/-- One of several choices by name: the name itself, or an object with the name as its only key
and a value that is `isEmpty`. -/
def choice? {α : Type} (choices : List (String × α)) (isEmpty : Value → Bool) :
    Value → Option α
  | .string (some name) => choices.lookup name
  | .object [(some name, v)] => if isEmpty v then choices.lookup name else none
  | _ => none

def isNull : Value → Bool
  | .null => true
  | _ => false

def isNullOrEmpty : Value → Bool
  | .null => true
  | .object [] => true
  | _ => false

end BankedController.Json
