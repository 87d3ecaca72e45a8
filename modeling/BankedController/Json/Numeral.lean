/-! Numbers as they are written. A numeral keeps its digits, so that an integer is told from a
number that merely equals one, and nothing is lost before somebody asks for the value. -/

namespace BankedController.Json

/-- A written number: its sign, the digits before the point, the digits after it (none if there is
no point), and the sign and digits of the exponent. -/
structure Numeral where
  negative : Bool
  whole : List Char
  fraction : List Char
  exponent : Option (Bool × List Char)
  deriving DecidableEq

namespace Numeral

/-- The value of decimal digits that follow a number. -/
def digitsValue (digits : List Char) : Nat :=
  Nat.ofDigitChars 10 digits 0

def ofNat (n : Nat) : Numeral :=
  ⟨false, Nat.toDigits 10 n, [], none⟩

/-- The value of a numeral that is written as a natural number, without sign, point or exponent. -/
def toNat? (n : Numeral) : Option Nat :=
  if n.negative || n.fraction ≠ [] || n.exponent.isSome then none
  else some (digitsValue n.whole)

theorem toNat?_ofNat (n : Nat) : (ofNat n).toNat? = some n := by
  simp [toNat?, ofNat, digitsValue, Nat.ofDigitChars_toDigits]

/-- The largest significand that is kept. -/
def significandBound : Nat := UInt64.size - 1

/-- Appends the digits before the point to a significand. From the first digit that does not fit,
each digit counts as a power of ten only. -/
def scaleWhole (significand : Nat) : List Char → Nat × Nat
  | [] => (significand, 0)
  | c :: rest =>
    let next := significand * 10 + (c.toNat - '0'.toNat)
    if significandBound < next then (significand, rest.length + 1) else scaleWhole next rest

/-- Appends the digits after the point, and counts them. From the first digit that does not fit,
digits are ignored. -/
def scaleFraction (significand : Nat) : List Char → Nat × Nat
  | [] => (significand, 0)
  | c :: rest =>
    let next := significand * 10 + (c.toNat - '0'.toNat)
    if significandBound < next then (significand, 0)
    else
      let (s, count) := scaleFraction next rest
      (s, count + 1)

/-- The nearest number with 53 binary digits and zeros after them; of two the one whose last digit
is even. -/
def round53 (n : Nat) : Nat :=
  if n.log2 < 53 then n
  else
    let unit := Nat.pow 2 (n.log2 - 52)
    let kept := n / unit
    let lost := n % unit
    let up := unit < 2 * lost || (unit = 2 * lost && kept % 2 = 1)
    (if up then kept + 1 else kept) * unit

/-- Whether the number is within the range of double-precision floats. The significand and the
power of ten are rounded before they are multiplied. -/
def isFinite (n : Numeral) : Bool :=
  let (significand, dropped) := scaleWhole 0 n.whole
  let (significand, added) := scaleFraction significand n.fraction
  let exponent : Int := (dropped : Int) - added + match n.exponent with
    | none => 0
    | some (false, digits) => digitsValue digits
    | some (true, digits) => - (digitsValue digits : Int)
  significand = 0 || exponent ≤ 0 ||
    (exponent ≤ 308 &&
      (round53 (round53 significand * round53 (Nat.pow 10 exponent.toNat))).log2 < 1024)

end Numeral

end BankedController.Json
