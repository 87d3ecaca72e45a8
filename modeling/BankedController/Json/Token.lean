import BankedController.Json.Numeral

namespace BankedController.Json

/-- The characters of a string literal. There are none if one of its escapes names half of a
surrogate pair without the other half: then the literal is well formed but is not text. -/
abbrev Literal : Type := Option String

inductive Token where
  | openBrace
  | closeBrace
  | openBracket
  | closeBracket
  | colon
  | comma
  | null
  | bool (b : Bool)
  | number (n : Numeral)
  | string (s : Literal)
  deriving DecidableEq

namespace Token

def isBlank (c : Char) : Bool :=
  c = ' ' || c = '\n' || c = '\t' || c = '\r'

def hexValue? (c : Char) : Option Nat :=
  if '0' ≤ c ∧ c ≤ '9' then some (c.toNat - '0'.toNat)
  else if 'a' ≤ c ∧ c ≤ 'f' then some (c.toNat - 'a'.toNat + 10)
  else if 'A' ≤ c ∧ c ≤ 'F' then some (c.toNat - 'A'.toNat + 10)
  else none

def hex4? (a b c d : Char) : Option Nat := do
  let a ← hexValue? a
  let b ← hexValue? b
  let c ← hexValue? c
  let d ← hexValue? d
  pure (((a * 16 + b) * 16 + c) * 16 + d)

/-- The character of a one-letter escape. -/
def escape? (c : Char) : Option Char :=
  match c with
  | '"' => some '"'
  | '\\' => some '\\'
  | '/' => some '/'
  | 'b' => some '\x08'
  | 'f' => some '\x0c'
  | 'n' => some '\n'
  | 'r' => some '\r'
  | 't' => some '\t'
  | _ => none

/-- Whether a UTF-16 unit is the first half of a surrogate pair. -/
def isHighSurrogate (u : Nat) : Bool := 0xD800 ≤ u && u < 0xDC00

def isLowSurrogate (u : Nat) : Bool := 0xDC00 ≤ u && u < 0xE000

/-- The rest of a string literal after its opening quote. `acc` holds the characters so far, the
last one first, or nothing once an escape was no character; `pending` is the first half of a
surrogate pair that the previous escape named. -/
def literal (acc : Option (List Char)) (pending : Option Nat) :
    List Char → Option (Literal × List Char)
  | [] => none
  | '"' :: rest =>
    let text := if pending.isSome then none else acc
    some (text.map fun cs => String.ofList cs.reverse, rest)
  | '\\' :: 'u' :: a :: b :: c :: d :: rest =>
    match hex4? a b c d with
    | none => none
    | some u =>
      match pending with
      | some high =>
        if isLowSurrogate u then
          let c := Char.ofNat (0x10000 + (high - 0xD800) * 0x400 + (u - 0xDC00))
          literal (acc.map (c :: ·)) none rest
        else
          literal none none rest
      | none =>
        if isHighSurrogate u then literal acc (some u) rest
        else if isLowSurrogate u then literal none none rest
        else literal (acc.map (Char.ofNat u :: ·)) none rest
  | '\\' :: e :: rest =>
    match escape? e with
    | none => none
    | some c => literal (if pending.isSome then none else acc.map (c :: ·)) none rest
  | c :: rest =>
    if c.toNat < 0x20 || c = '\\' then none
    else literal (if pending.isSome then none else acc.map (c :: ·)) none rest

def digits (cs : List Char) : List Char × List Char :=
  (cs.takeWhile Char.isDigit, cs.dropWhile Char.isDigit)

/-- The digits before the point: a zero, or digits that do not start with one. -/
def wholePart : List Char → Option (List Char × List Char)
  | '0' :: rest => some (['0'], rest)
  | cs =>
    match digits cs with
    | ([], _) => none
    | (ds, rest) => some (ds, rest)

def fractionPart : List Char → Option (List Char × List Char)
  | '.' :: rest =>
    match digits rest with
    | ([], _) => none
    | (ds, rest) => some (ds, rest)
  | cs => some ([], cs)

def exponentDigits (negative : Bool) (cs : List Char) :
    Option (Option (Bool × List Char) × List Char) :=
  match digits cs with
  | ([], _) => none
  | (ds, rest) => some (some (negative, ds), rest)

def exponentPart : List Char → Option (Option (Bool × List Char) × List Char)
  | 'e' :: '-' :: rest | 'E' :: '-' :: rest => exponentDigits true rest
  | 'e' :: '+' :: rest | 'E' :: '+' :: rest => exponentDigits false rest
  | 'e' :: rest | 'E' :: rest => exponentDigits false rest
  | cs => some (none, cs)

def unsignedNumber (negative : Bool) (cs : List Char) : Option (Token × List Char) := do
  let (whole, cs) ← wholePart cs
  let (fraction, cs) ← fractionPart cs
  let (exponent, cs) ← exponentPart cs
  pure (number ⟨negative, whole, fraction, exponent⟩, cs)

/-- The first token of a text that does not start with a blank. -/
def next? : List Char → Option (Token × List Char)
  | '\x7b' :: rest => some (openBrace, rest)
  | '\x7d' :: rest => some (closeBrace, rest)
  | '[' :: rest => some (openBracket, rest)
  | ']' :: rest => some (closeBracket, rest)
  | ':' :: rest => some (colon, rest)
  | ',' :: rest => some (comma, rest)
  | 'n' :: 'u' :: 'l' :: 'l' :: rest => some (null, rest)
  | 't' :: 'r' :: 'u' :: 'e' :: rest => some (bool true, rest)
  | 'f' :: 'a' :: 'l' :: 's' :: 'e' :: rest => some (bool false, rest)
  | '"' :: rest => (literal (some []) none rest).map fun r => (string r.1, r.2)
  | '-' :: rest => unsignedNumber true rest
  | cs => unsignedNumber false cs

/-- The tokens of a text, behind the tokens `acc`, the last of which comes first. Each round takes
at least one character, so a bound past the length of the text is enough. -/
def scanOnto : Nat → List Token → List Char → Option (List Token)
  | 0, _, _ => none
  | _ + 1, acc, [] => some acc.reverse
  | n + 1, acc, c :: rest =>
    if isBlank c then scanOnto n acc rest
    else
      match next? (c :: rest) with
      | none => none
      | some (token, rest) => scanOnto n (token :: acc) rest

def scan (cs : List Char) : Option (List Token) :=
  scanOnto (cs.length + 1) [] cs

end Token

end BankedController.Json
