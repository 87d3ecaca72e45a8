import BankedController.Config
import BankedController.Json.Printer
import BankedController.Json.Record

namespace BankedController

open Json

namespace Timeouts

def toJson (t : Timeouts) : Value :=
  .object
    [field "nvme_queue" (.nat t.nvmeQueue.toNat), field "nvme_doorbell" (.nat t.nvmeDoorbell.toNat),
      field "flash" (.nat t.flash.toNat), field "phy_settle" (.nat t.phySettle.toNat)]

def ofJson? (v : Value) : Option Timeouts :=
  match record? ["nvme_queue", "nvme_doorbell", "flash", "phy_settle"] v with
  | some [queue, doorbell, flash, phy] => do
    let queue ← orDefault standard.nvmeQueue uint32? queue
    let doorbell ← orDefault standard.nvmeDoorbell uint32? doorbell
    let flash ← orDefault standard.flash uint32? flash
    let phy ← orDefault standard.phySettle uint32? phy
    pure ⟨queue, doorbell, flash, phy⟩
  | _ => none

end Timeouts

namespace WorkRam

def toJson (w : WorkRam) : Value :=
  .object [field "start" (.nat w.start.toNat), field "len" (.nat w.size.toNat)]

def ofJson? (v : Value) : Option WorkRam :=
  match record? ["start", "len"] v with
  | some [start, size] => do
    let start ← orDefault FirmwareConfig.standard.workRam.start uint16? start
    let size ← orDefault FirmwareConfig.standard.workRam.size uint16? size
    pure ⟨start, size⟩
  | _ => none

end WorkRam

/-- The lines by name. -/
def IrqLine.choices : List (String × IrqLine) :=
  IrqLine.all.map fun line => (line.name, line)

def IrqLine.ofJson? (v : Value) : Option IrqLine :=
  choice? choices isNull v

namespace FirmwareConfig

/-- The base of the stack, which stands in a record of its own. -/
def stackOfJson? (v : Value) : Option UInt8 :=
  match record? ["base"] v with
  | some [base] => orDefault standard.stackBase uint8? base
  | _ => none

def toJson (c : FirmwareConfig) : Value :=
  .object
    [field "timeouts" c.timeouts.toJson,
      field "stack" (.object [field "base" (.nat c.stackBase.toNat)]),
      field "endpoint_scan_limit" (.nat c.scanLimit.toNat),
      field "interrupt_priority" (.text c.highLine.name),
      field "work_ram" c.workRam.toJson]

def ofJson? (v : Value) : Option FirmwareConfig :=
  match record?
      ["timeouts", "stack", "endpoint_scan_limit", "interrupt_priority", "work_ram"] v with
  | some [timeouts, stack, limit, line, workRam] => do
    let timeouts ← orDefault standard.timeouts Timeouts.ofJson? timeouts
    let stack ← orDefault standard.stackBase stackOfJson? stack
    let limit ← orDefault standard.scanLimit uint8? limit
    let line ← orDefault standard.highLine IrqLine.ofJson? line
    let workRam ← orDefault standard.workRam WorkRam.ofJson? workRam
    pure ⟨timeouts, stack, limit, line, workRam⟩
  | _ => none

end FirmwareConfig

inductive ConfigTextError where
  /-- The text does not describe a configuration. -/
  | malformed
  /-- The configuration has a value that may not stand. -/
  | invalid (cause : ConfigError)
  deriving DecidableEq

/-- The configuration that a text describes, if it is one that the firmware can be built with. -/
def FirmwareConfig.parse (text : String) : Except ConfigTextError FirmwareConfig :=
  match (Value.parse? text).bind FirmwareConfig.ofJson? with
  | none => .error .malformed
  | some c =>
    match c.defect? with
    | some cause => .error (.invalid cause)
    | none => .ok c

end BankedController
