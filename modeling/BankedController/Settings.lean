import BankedController.ConfigText
import BankedController.ScriptText
import BankedController.Text.Blank
import BankedController.Text.Quoted

namespace BankedController

inductive CountError where
  | empty
  | invalidDigit
  | tooLarge
  deriving DecidableEq

def CountError.message : CountError → String
  | empty => "cannot parse integer from empty string"
  | invalidDigit => "invalid digit found in string"
  | tooLarge => "number too large to fit in target type"

/-- Appends decimal digits to a count. The first character that is no digit, or takes the count out
of its range, decides. -/
def appendDigits (count : Nat) : List Char → Except CountError UInt64
  | [] => .ok (UInt64.ofNat count)
  | c :: rest =>
    if c.isDigit then
      let next := count * 10 + (c.toNat - '0'.toNat)
      if UInt64.size ≤ next then .error .tooLarge else appendDigits next rest
    else
      .error .invalidDigit

/-- The count that characters spell: decimal digits, perhaps after a plus sign. -/
def parseCount : List Char → Except CountError UInt64
  | [] => .error .empty
  | ['+'] => .error .invalidDigit
  | '+' :: digits => appendDigits 0 digits
  | digits => appendDigits 0 digits

inductive Cause where
  /-- A count that is none. -/
  | count (e : CountError)
  /-- A file that cannot be read. -/
  | unreadable
  /-- A text that does not describe what it should. -/
  | malformed
  /-- A configuration with a value that may not stand. -/
  | config (e : ConfigError)
  deriving DecidableEq

/-- The report of a cause, where it has wording of its own. -/
def Cause.message? : Cause → Option String
  | count e => some e.message
  | unreadable => none
  | malformed => none
  | config e => some e.message

/-- A failure: its cause, and what was being done, the outermost first. -/
structure Failure where
  contexts : List String
  cause : Cause
  deriving DecidableEq

/-- The outermost text of a failure. -/
def Failure.headline (f : Failure) : String :=
  match f.contexts with
  | context :: _ => context
  | [] => f.cause.message?.getD ""

structure Settings where
  configFile : Option String
  scriptFile : Option String
  passes : Option UInt64
  deriving DecidableEq

namespace Settings

/-- The variables that settings are taken from. -/
def configVariable : String := "BRIDGEFW_CONFIG"
def scriptVariable : String := "BRIDGEFW_SCRIPT"
def passesVariable : String := "BRIDGEFW_PASSES"

/-- The number of passes when none is given. -/
def standardPasses : UInt64 := 16

def ofVariables (value? : String → Option String) : Except Failure Settings :=
  match value? passesVariable with
  | none => .ok ⟨value? configVariable, value? scriptVariable, none⟩
  | some raw =>
    match parseCount (Text.trim raw.toList) with
    | .ok passes => .ok ⟨value? configVariable, value? scriptVariable, some passes⟩
    | .error e =>
      .error ⟨[passesVariable ++ "=" ++ Text.quoted raw ++ " is not a pass count"], .count e⟩

def passCount (s : Settings) : UInt64 := s.passes.getD standardPasses

def readFile (file? : String → Option String) (path : String) : Except Failure String :=
  match file? path with
  | some text => .ok text
  | none => .error ⟨["failed to read " ++ path], .unreadable⟩

def loadConfig (s : Settings) (file? : String → Option String) :
    Except Failure FirmwareConfig :=
  match s.configFile with
  | none => .ok .standard
  | some path => do
    let text ← readFile file? path
    match FirmwareConfig.parse text with
    | .ok config => .ok config
    | .error .malformed => .error ⟨["invalid config " ++ path], .malformed⟩
    | .error (.invalid e) => .error ⟨["invalid config " ++ path], .config e⟩

def loadScript (s : Settings) (file? : String → Option String) : Except Failure Script :=
  match s.scriptFile with
  | none => .ok .demo
  | some path => do
    let text ← readFile file? path
    match Script.parse? text with
    | some script => .ok script
    | none => .error ⟨["invalid script " ++ path], .malformed⟩

end Settings

end BankedController
