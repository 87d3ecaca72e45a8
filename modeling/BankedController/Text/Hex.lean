namespace BankedController.Text

/-- Lower-case hexadecimal digits of `n`, padded with zeros on the left to `width` digits. -/
def hexDigits (width n : Nat) : String :=
  let digits := Nat.toDigits 16 n
  String.ofList (List.replicate (width - digits.length) '0' ++ digits)

/-- `0x` and at least `width` hexadecimal digits. -/
def hex (width n : Nat) : String :=
  "0x" ++ hexDigits width n

/-- Two hexadecimal digits for each byte, nothing between them. -/
def hexBytes (bytes : List UInt8) : String :=
  String.join (bytes.map fun b => hexDigits 2 b.toNat)

def optionalNat : Option Nat → String
  | none => "None"
  | some n => "Some(" ++ toString n ++ ")"

def bool : Bool → String
  | true => "true"
  | false => "false"

end BankedController.Text
