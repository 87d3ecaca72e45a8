import BankedController.Command.Kind
import BankedController.Interrupt
import BankedController.Text.Hex

namespace BankedController

/-- How many iterations each wait may take. -/
structure Timeouts where
  nvmeQueue : UInt32
  nvmeDoorbell : UInt32
  flash : UInt32
  phySettle : UInt32
  deriving DecidableEq

namespace Timeouts

def get (t : Timeouts) : WaitKind → UInt32
  | .nvmeQueue => t.nvmeQueue
  | .nvmeDoorbell => t.nvmeDoorbell
  | .flash => t.flash
  | .phySettle => t.phySettle

def set (t : Timeouts) (wait : WaitKind) (value : UInt32) : Timeouts :=
  match wait with
  | .nvmeQueue => { t with nvmeQueue := value }
  | .nvmeDoorbell => { t with nvmeDoorbell := value }
  | .flash => { t with flash := value }
  | .phySettle => { t with phySettle := value }

theorem get_set (t : Timeouts) (wait other : WaitKind) (value : UInt32) :
    (t.set wait value).get other = if other = wait then value else t.get other := by
  cases wait <;> cases other <;> rfl

/-- The thresholds measured on the first silicon. -/
def standard : Timeouts := ⟨0x5D000, 0x20000, 0x20000, 0x20000⟩

end Timeouts

/-- The memory that is cleared at power-on. -/
structure WorkRam where
  start : UInt16
  size : UInt16
  deriving DecidableEq

structure FirmwareConfig where
  timeouts : Timeouts
  /-- The first byte of the stack in internal memory. -/
  stackBase : UInt8
  /-- The most steps that an endpoint scan takes. -/
  scanLimit : UInt8
  /-- The line of high priority. The other is low. -/
  highLine : IrqLine
  workRam : WorkRam
  deriving DecidableEq

/-- A value that a configuration may not have. -/
inductive ConfigError where
  | zeroTimeout (wait : WaitKind)
  | scanLimit (limit : UInt8)
  | stackBase (base : UInt8)
  | workRam (start size : UInt16)
  deriving DecidableEq

def ConfigError.message : ConfigError → String
  | zeroTimeout wait => "timeout threshold `" ++ wait.name ++ "` must be non-zero"
  | scanLimit limit => "endpoint scan limit " ++ toString limit.toNat ++ " is outside 1..=32"
  | stackBase base => "stack base " ++ Text.hex 2 base.toNat ++ " is outside 0x08..=0xF8"
  | workRam start size =>
    "work RAM " ++ Text.hex 4 start.toNat ++ "+" ++ Text.hex 4 size.toNat ++
      " runs past 0x8000"

namespace FirmwareConfig

/-- The most steps that a scan may be configured to take. -/
def maxScanSteps : UInt8 := 32

/-- The configuration that applies when none is given. -/
def standard : FirmwareConfig :=
  ⟨.standard, 0x72, maxScanSteps, .system, ⟨0x0000, 0x2000⟩⟩

/-- The first value that may not stand: thresholds in order, then the scan limit, the stack base
and the work memory. Eight bytes of stack have to be left, and the registers below it. -/
def defect? (c : FirmwareConfig) : Option ConfigError :=
  match WaitKind.all.find? fun wait => c.timeouts.get wait = 0 with
  | some wait => some (.zeroTimeout wait)
  | none =>
    if c.scanLimit < 1 || maxScanSteps < c.scanLimit then some (.scanLimit c.scanLimit)
    else if c.stackBase < 0x08 || 0xF8 < c.stackBase then some (.stackBase c.stackBase)
    else if 0x8000 < c.workRam.start.toNat + c.workRam.size.toNat then
      some (.workRam c.workRam.start c.workRam.size)
    else none

theorem defect?_standard : standard.defect? = none := by decide

end FirmwareConfig

end BankedController
