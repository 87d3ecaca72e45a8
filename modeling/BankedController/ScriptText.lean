import BankedController.Json.Printer
import BankedController.Json.Record
import BankedController.Stimulus

namespace BankedController

open Json

def CommandKind.choices : List (String × CommandKind) :=
  [CommandKind.nvme, .flash, .phy].map fun kind => (kind.name, kind)

def CommandKind.ofJson? (v : Value) : Option CommandKind :=
  choice? choices isNullOrEmpty v

namespace Stimulus

def eventNames : List String :=
  ["endpoint_ready", "cbw", "usb_link", "system_event", "nvme_queue", "pcie_event", "pcie_link",
    "power", "timer_tick", "master_ready", "defer_endpoint", "stall", "release"]

/-- The members of a stimulus: the event and its fields. -/
def toMembers : Stimulus → List Member
  | endpointReady endpoint mask =>
    [field "event" (.text "endpoint_ready"), field "endpoint" (.nat endpoint.toNat),
      field "mask" (.nat mask.toNat)]
  | cbw => [field "event" (.text "cbw")]
  | usbLink => [field "event" (.text "usb_link")]
  | systemEvent => [field "event" (.text "system_event")]
  | nvmeQueue => [field "event" (.text "nvme_queue")]
  | pcieEvent => [field "event" (.text "pcie_event")]
  | pcieLink => [field "event" (.text "pcie_link")]
  | power => [field "event" (.text "power")]
  | timerTick => [field "event" (.text "timer_tick")]
  | masterReady => [field "event" (.text "master_ready")]
  | deferEndpoint => [field "event" (.text "defer_endpoint")]
  | stall unit => [field "event" (.text "stall"), field "unit" (.text unit.name)]
  | release unit reads =>
    [field "event" (.text "release"), field "unit" (.text unit.name),
      field "reads" (.nat reads.toNat)]

def fieldNames : String → List String
  | "endpoint_ready" => ["endpoint", "mask"]
  | "stall" => ["unit"]
  | "release" => ["unit", "reads"]
  | _ => []

/-- The stimulus of a named event with the values of its fields in order. -/
def ofValues? (event : String) (values : List Value) : Option Stimulus :=
  match event, values with
  | "endpoint_ready", [endpoint, mask] => do
    let endpoint ← uint8? endpoint
    let mask ← uint8? mask
    pure (endpointReady endpoint mask)
  | "cbw", [] => some cbw
  | "usb_link", [] => some usbLink
  | "system_event", [] => some systemEvent
  | "nvme_queue", [] => some nvmeQueue
  | "pcie_event", [] => some pcieEvent
  | "pcie_link", [] => some pcieLink
  | "power", [] => some power
  | "timer_tick", [] => some timerTick
  | "master_ready", [] => some masterReady
  | "defer_endpoint", [] => some deferEndpoint
  | "stall", [unit] => stall <$> CommandKind.ofJson? unit
  | "release", [unit, reads] => do
    let unit ← CommandKind.ofJson? unit
    let reads ← uint32? reads
    pure (release unit reads)
  | _, _ => none

/-- The name of the event that a value picks. A number picks by place, where that is allowed. -/
def eventName? (byPlace : Bool) : Value → Option String
  | .string (some name) => some name
  | .number n => if byPlace then n.toNat?.bind fun k => eventNames[k]? else none
  | _ => none

def ofMembers? (byPlace : Bool) (members : List Member) : Option Stimulus := do
  let event ← (required? "event" members).bind (eventName? byPlace)
  let values ← (fieldNames event).mapM fun name => required? name members
  ofValues? event values

/-- The stimulus that an object describes, or an array of the event and all its fields in order. -/
def ofJson? : Value → Option Stimulus
  | .array (event :: values) => do
    let event ← eventName? false event
    ofValues? event values
  | v => (members? v).bind (ofMembers? false)

end Stimulus

namespace ScriptStep

def toJson (step : ScriptStep) : Value :=
  .object (field "pass" (.nat step.pass.toNat) :: step.stimulus.toMembers)

/-- How deep a value in a step may nest. -/
def nesting : Nat := 124

def ofJson? (v : Value) : Option ScriptStep := do
  let members ← members? v
  let pass ← (required? "pass" members).bind uint64?
  let others := members.filter fun m => m.1 ≠ some "pass"
  if others.all fun m => m.2.isHoldable nesting then
    let stimulus ← Stimulus.ofMembers? true others
    pure ⟨pass, stimulus⟩
  else
    none

end ScriptStep

namespace Script

def toJson (script : Script) : Value :=
  .object [field "steps" (.array (script.steps.map ScriptStep.toJson))]

def stepsOfJson? : Value → Option (List ScriptStep)
  | .array steps => steps.mapM ScriptStep.ofJson?
  | _ => none

def ofJson? (v : Value) : Option Script :=
  match record? ["steps"] v with
  | some [some steps] => (stepsOfJson? steps).map Script.mk
  | _ => none

/-- The script that a text describes. -/
def parse? (text : String) : Option Script :=
  (Value.parse? text).bind ofJson?

end Script

end BankedController
