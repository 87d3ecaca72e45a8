import BankedController.Json.Value
import BankedController.Text.Hex

namespace BankedController.Json

def escapeChar (c : Char) : List Char :=
  match c with
  | '"' => ['\\', '"']
  | '\\' => ['\\', '\\']
  | '\x08' => ['\\', 'b']
  | '\x0c' => ['\\', 'f']
  | '\n' => ['\\', 'n']
  | '\r' => ['\\', 'r']
  | '\t' => ['\\', 't']
  | c =>
    if c.toNat < 0x20 then ['\\', 'u'] ++ (Text.hexDigits 4 c.toNat).toList else [c]

/-- A string literal in front of `rest`. A literal that is no text is written as an empty one. -/
def writeLiteral (s : Literal) (rest : List Char) : List Char :=
  '"' :: ((s.getD "").toList.flatMap escapeChar ++ '"' :: rest)

def writeNumeral (n : Numeral) (rest : List Char) : List Char :=
  let exponent := match n.exponent with
    | none => rest
    | some (negative, digits) => 'e' :: (if negative then ['-'] else []) ++ digits ++ rest
  let fraction := if n.fraction = [] then exponent else '.' :: n.fraction ++ exponent
  (if n.negative then ['-'] else []) ++ n.whole ++ fraction

namespace Value

mutual

def write : Value → List Char → List Char
  | .null, rest => 'n' :: 'u' :: 'l' :: 'l' :: rest
  | .bool true, rest => 't' :: 'r' :: 'u' :: 'e' :: rest
  | .bool false, rest => 'f' :: 'a' :: 'l' :: 's' :: 'e' :: rest
  | .number n, rest => writeNumeral n rest
  | .string s, rest => writeLiteral s rest
  | .array [], rest => '[' :: ']' :: rest
  | .array (v :: vs), rest => '[' :: write v (writeElements vs (']' :: rest))
  | .object [], rest => '\x7b' :: '\x7d' :: rest
  | .object ((key, v) :: ms), rest =>
    '\x7b' :: writeLiteral key (':' :: write v (writeMembers ms ('\x7d' :: rest)))

/-- Elements after the first, each with the comma in front of it. -/
def writeElements : List Value → List Char → List Char
  | [], rest => rest
  | v :: vs, rest => ',' :: write v (writeElements vs rest)

def writeMembers : List Member → List Char → List Char
  | [], rest => rest
  | (key, v) :: ms, rest => ',' :: writeLiteral key (':' :: write v (writeMembers ms rest))

end

def render (v : Value) : String := String.ofList (v.write [])

end Value

/-- An object of numbers with a line for each member, indented by two blanks. -/
def renderCounters (counters : List (String × Nat)) : String :=
  let line (c : String × Nat) : String := "  \"" ++ c.1 ++ "\": " ++ toString c.2
  "\x7b\n" ++ String.intercalate ",\n" (counters.map line) ++ "\n\x7d"

end BankedController.Json
