import BankedController.Bench.Part
import BankedController.Device.Model

namespace BankedController.Bench

inductive StepError where
  | range (cause : RangeError)
  | fault (cause : Fault)
  /-- No device of the kind has the name. -/
  | unbound
  deriving DecidableEq

/-- The report of a failed step, where it has wording of its own. -/
def StepError.message? : StepError → Option String
  | range cause => some cause.message
  | fault _ => none
  | unbound => none

/-- A bus on which devices are selected by their place. -/
abbrev OpenBus : Type := XdataBus Nat (Array Device)

structure DeviceSession where
  bus : OpenBus
  names : List (String × Nat)

inductive DeviceStep where
  | bus (step : BusStep)
  | reset
  | unmap (start size : UInt16)
  | mapLatch (name : String) (start size : UInt16)
  | mapEndpoints (name : String)
  | mapUnit (name : String) (start : UInt16)
  | mapLog (name : String) (start size : UInt16)
  | mapMixer (name : String) (start size : UInt16) (value : UInt8)
  /-- Maps a device at another range. -/
  | share (name : String) (start size : UInt16)
  | assertBits (name : String) (addr : UInt16) (mask : UInt8)
  | raise (name : String) (endpoint : Nat) (mask : UInt8)
  | force (name : String) (value : Option UInt8)
  | latency (name : String) (accept complete : Latency)
  | failNext (name : String)
  | view (name : String) (addr : UInt16)
  deriving DecidableEq

inductive DeviceReply where
  | bus (reply : BusReply)
  | ok
  | found (b : Bool)
  | byte (value : UInt8)
  | endpoints (b : EndpointBlock)
  | unit (u : CommandUnit)
  | log (w : WriteLog) (addr : UInt16)

namespace DeviceSession

def initial : DeviceSession := ⟨.ofDevices #[], []⟩

/-- Maps the device at a place over ranges in turn, up to the first that cannot be mapped. -/
def mapRanges (key : Nat) : List (UInt16 × UInt16) → OpenBus → Option RangeError × OpenBus
  | [], bus => (none, bus)
  | (start, size) :: rest, bus =>
    match bus.mapRange ⟨start, size, key⟩ with
    | .ok bus => mapRanges key rest bus
    | .error e => (some e, bus)

/-- Maps a new device over ranges in turn, and names it once all are mapped. A range that was
mapped stays mapped also when a later one cannot be. -/
def mapNew (s : DeviceSession) (name : String) (device : Device) (ranges : List (UInt16 × UInt16)) :
    Except StepError DeviceReply × DeviceSession :=
  let key := s.bus.devices.size
  match mapRanges key ranges { s.bus with devices := s.bus.devices.push device } with
  | (none, bus) => (.ok .ok, ⟨bus, (name, key) :: s.names⟩)
  | (some e, bus) => (.error (.range e), { s with bus := bus })

def find? (s : DeviceSession) (name : String) : Option (Nat × Device) := do
  let key ← s.names.lookup name
  let device ← s.bus.devices[key]?
  pure (key, device)

def update (s : DeviceSession) (name : String) (f : Device → Except StepError Device) :
    Except StepError DeviceReply × DeviceSession :=
  match s.find? name with
  | none => (.error .unbound, s)
  | some (key, device) =>
    match f device with
    | .error e => (.error e, s)
    | .ok device =>
      (.ok .ok, { s with bus := { s.bus with devices := s.bus.devices.setIfInBounds key device } })

def viewDevice (addr : UInt16) : Device → Except StepError DeviceReply
  | .latch l =>
    match l.value? addr with
    | some v => .ok (.byte v)
    | none => .error (.fault .indexOutOfRange)
  | .endpoints b => .ok (.endpoints b)
  | .unit u => .ok (.unit u)
  | .log w => .ok (.log w addr)
  | .mixer v => .ok (.byte v)

/-- A result that may fault, as the result of a step. -/
def liftFault {α β : Type} (f : α → β) : Except Fault α → Except StepError β
  | .ok a => .ok (f a)
  | .error cause => .error (.fault cause)

def run (s : DeviceSession) : DeviceStep → Except StepError DeviceReply × DeviceSession
  | .bus step =>
    match step.run s.bus with
    | .done reply bus => (.ok (.bus reply), { s with bus := bus })
    | .fault cause bus => (.error (.fault cause), { s with bus := bus })
    | .exhausted => (.ok .ok, s)
  | .reset => (.ok .ok, { s with bus := s.bus.reset })
  | .unmap start size =>
    match s.bus.unmapRange? start size with
    | some bus => (.ok (.found true), { s with bus := bus })
    | none => (.ok (.found false), s)
  | .mapLatch name start size =>
    s.mapNew name (.latch (.ofRange start size)) [(start, size)]
  | .mapEndpoints name =>
    s.mapNew name (.endpoints .initial)
      [(RegisterMap.endpointStatus, 1), (RegisterMap.endpointSecondaryBase, 8)]
  | .mapUnit name start => s.mapNew name (.unit (.ofBase start)) [(start, RegisterMap.blockSize)]
  | .mapLog name start size => s.mapNew name (.log .empty) [(start, size)]
  | .mapMixer name start size value => s.mapNew name (.mixer value) [(start, size)]
  | .share name start size =>
    match s.find? name with
    | none => (.error .unbound, s)
    | some (key, _) =>
      match s.bus.mapRange ⟨start, size, key⟩ with
      | .ok bus => (.ok .ok, { s with bus := bus })
      | .error e => (.error (.range e), s)
  | .assertBits name addr mask =>
    s.update name fun device =>
      match device with
      | .latch l => liftFault .latch (l.assertBits addr mask)
      | _ => .error .unbound
  | .raise name endpoint mask =>
    s.update name fun device =>
      match device with
      | .endpoints b => liftFault .endpoints (b.raise endpoint mask)
      | _ => .error .unbound
  | .force name value =>
    s.update name fun device =>
      match device with
      | .endpoints b => .ok (.endpoints (b.force value))
      | _ => .error .unbound
  | .latency name accept complete =>
    s.update name fun device =>
      match device with
      | .unit u => .ok (.unit (u.setLatency accept complete))
      | _ => .error .unbound
  | .failNext name =>
    s.update name fun device =>
      match device with
      | .unit u => .ok (.unit { u with failNext := true })
      | _ => .error .unbound
  | .view name addr =>
    match s.find? name with
    | none => (.error .unbound, s)
    | some (_, device) => (viewDevice addr device, s)

/-- Carries out steps in order, each after whatever the one before it came to. -/
def runAll (s : DeviceSession) : List DeviceStep → List (Except StepError DeviceReply)
  | [] => []
  | step :: rest =>
    let (reply, s) := s.run step
    reply :: s.runAll rest

end DeviceSession

end BankedController.Bench
