import BankedController.Device.CommandUnit
import BankedController.Device.EndpointBlock
import BankedController.Device.Latch
import BankedController.Device.WriteLog

namespace BankedController

inductive Device where
  | latch (l : Latch)
  | endpoints (b : EndpointBlock)
  | unit (u : CommandUnit)
  | log (w : WriteLog)
  /-- One stored byte, which reads differently at each address and survives a reset. -/
  | mixer (value : UInt8)

namespace Device

def read (addr : UInt16) : Device → Except Fault (UInt8 × Device)
  | latch l => (Peripheral.read addr l).map fun r => (r.1, latch r.2)
  | endpoints b => (Peripheral.read addr b).map fun r => (r.1, endpoints r.2)
  | unit u => (Peripheral.read addr u).map fun r => (r.1, unit r.2)
  | log w => (Peripheral.read addr w).map fun r => (r.1, log r.2)
  | mixer value => .ok (value ^^^ addr.toUInt8, mixer value)

def write (addr : UInt16) (value : UInt8) : Device → Except Fault Device
  | latch l => (Peripheral.write addr value l).map latch
  | endpoints b => (Peripheral.write addr value b).map endpoints
  | unit u => (Peripheral.write addr value u).map unit
  | log w => (Peripheral.write addr value w).map log
  | mixer _ => .ok (mixer value)

def reset : Device → Device
  | latch l => latch (Peripheral.reset l)
  | endpoints b => endpoints (Peripheral.reset b)
  | unit u => unit (Peripheral.reset u)
  | log w => log (Peripheral.reset w)
  | mixer value => mixer value

instance : Peripheral Device := ⟨read, write, reset⟩

end Device

/-- Any kind of device, by its place in a list. -/
instance {δ : Type} [Peripheral δ] : DeviceStore Nat (Array δ) where
  read key addr store :=
    match store[key]? with
    | some d => (Peripheral.read addr d).map fun r => (r.1, store.setIfInBounds key r.2)
    | none => .error .indexOutOfRange
  write key addr value store :=
    match store[key]? with
    | some d => (Peripheral.write addr value d).map fun d => store.setIfInBounds key d
    | none => .error .indexOutOfRange
  reset key store := store.modify key Peripheral.reset

end BankedController
