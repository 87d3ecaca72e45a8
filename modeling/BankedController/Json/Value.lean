import BankedController.Json.Token

namespace BankedController.Json

/-- A JSON value. Objects keep their members in order, repeated ones included. -/
inductive Value where
  | null
  | bool (b : Bool)
  | number (n : Numeral)
  | string (s : Literal)
  | array (elements : List Value)
  | object (members : List (Literal × Value))
  deriving Inhabited

abbrev Member : Type := Literal × Value

/-- A member with a key that is text. -/
def field (key : String) (v : Value) : Member := (some key, v)

namespace Value

def nat (n : Nat) : Value := number (.ofNat n)

def text (s : String) : Value := string (some s)

/-- A container that is not finished: what it holds so far, the last first. For an object, also the
key of the value to come. -/
inductive Frame where
  | array (done : List Value)
  | object (done : List Member) (key : Literal)

/-- What the reader has to see next. -/
inductive Expectation where
  | value (stack : List Frame)
  | firstElement (stack : List Frame)
  | firstMember (stack : List Frame)
  | member (done : List Member) (stack : List Frame)
  | colon (done : List Member) (key : Literal) (stack : List Frame)
  | complete (v : Value) (stack : List Frame)

/-- A token where a value has to stand. -/
def beginValue (token : Token) (stack : List Frame) : Option Expectation :=
  match token with
  | .null => some (.complete .null stack)
  | .bool b => some (.complete (.bool b) stack)
  | .number n => some (.complete (.number n) stack)
  | .string s => some (.complete (.string s) stack)
  | .openBracket => some (.firstElement stack)
  | .openBrace => some (.firstMember stack)
  | _ => none

def advance (state : Expectation) (token : Token) : Option Expectation :=
  match state with
  | .value stack => beginValue token stack
  | .firstElement stack =>
    match token with
    | .closeBracket => some (.complete (.array []) stack)
    | token => beginValue token (.array [] :: stack)
  | .firstMember stack =>
    match token with
    | .closeBrace => some (.complete (.object []) stack)
    | .string key => some (.colon [] key stack)
    | _ => none
  | .member done stack =>
    match token with
    | .string key => some (.colon done key stack)
    | _ => none
  | .colon done key stack =>
    match token with
    | .colon => some (.value (.object done key :: stack))
    | _ => none
  | .complete v (.array done :: stack) =>
    match token with
    | .comma => some (.value (.array (v :: done) :: stack))
    | .closeBracket => some (.complete (.array (v :: done).reverse) stack)
    | _ => none
  | .complete v (.object done key :: stack) =>
    match token with
    | .comma => some (.member ((key, v) :: done) stack)
    | .closeBrace => some (.complete (.object ((key, v) :: done).reverse) stack)
    | _ => none
  | .complete _ [] => none

def readFrom : Expectation → List Token → Option Value
  | .complete v [], [] => some v
  | _, [] => none
  | state, token :: rest =>
    match advance state token with
    | none => none
    | some state => readFrom state rest

def ofTokens? (tokens : List Token) : Option Value :=
  readFrom (.value []) tokens

def parse? (s : String) : Option Value :=
  match Token.scan s.toList with
  | none => none
  | some tokens => ofTokens? tokens

mutual

/-- Whether the value can be held in full: its strings are text, its numbers are within the range
of floats, and it does not nest deeper than `depth` containers. -/
def isHoldable (depth : Nat) : Value → Bool
  | .null => true
  | .bool _ => true
  | .number n => n.isFinite
  | .string s => s.isSome
  | .array elements =>
    match depth with
    | 0 => false
    | depth + 1 => areHoldable depth elements
  | .object members =>
    match depth with
    | 0 => false
    | depth + 1 => areMembersHoldable depth members

def areHoldable (depth : Nat) : List Value → Bool
  | [] => true
  | v :: rest => isHoldable depth v && areHoldable depth rest

def areMembersHoldable (depth : Nat) : List Member → Bool
  | [] => true
  | (key, v) :: rest => key.isSome && isHoldable depth v && areMembersHoldable depth rest

end

end Value

end BankedController.Json
