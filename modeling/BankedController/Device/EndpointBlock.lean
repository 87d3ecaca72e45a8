import BankedController.Bus.Xdata
import BankedController.RegisterMap

/-! The endpoint status block: eight secondary registers of pending conditions, and the primary
bitmap of the endpoints that have some. The secondary registers are write-one-to-clear and every
write to one is recorded. The primary bitmap follows the secondary registers unless a value is
forced. -/

namespace BankedController

/-- The block. Writes to secondary registers stand in `clears`, the newest first. -/
structure EndpointBlock where
  secondary : Vector UInt8 8
  forced : Option UInt8
  clears : List (Nat × UInt8)
  primaryReads : UInt32
  deriving DecidableEq

namespace EndpointBlock

def initial : EndpointBlock := ⟨Vector.replicate 8 0, none, [], 0⟩

/-- The bitmap of the endpoints with conditions pending. -/
def pendingMap (secondary : Vector UInt8 8) : UInt8 :=
  (List.range 8).foldl (fun acc i =>
    if secondary.toArray.getD i 0 = 0 then acc else acc ||| (1 <<< UInt8.ofNat i)) 0

def primary (b : EndpointBlock) : UInt8 :=
  b.forced.getD (pendingMap b.secondary)

/-- The hardware sets conditions on an endpoint. -/
def raise (b : EndpointBlock) (endpoint : Nat) (mask : UInt8) : Except Fault EndpointBlock :=
  if h : endpoint < 8 then
    .ok { b with secondary := b.secondary.set endpoint (b.secondary[endpoint] ||| mask) }
  else
    .error .indexOutOfRange

/-- Forces the primary register to a value, or lets it follow the conditions again. -/
def force (b : EndpointBlock) (value : Option UInt8) : EndpointBlock :=
  { b with forced := value }

/-- The endpoint whose secondary register stands at an address. -/
def endpointAt (addr : UInt16) : Except Fault (Fin 8) :=
  let base := RegisterMap.endpointSecondaryBase.toNat
  if addr.toNat < base then .error .overflow
  else if h : addr.toNat - base < 8 then .ok ⟨addr.toNat - base, h⟩
  else .error .indexOutOfRange

/-- Reads of the primary register are counted. -/
def read (addr : UInt16) (b : EndpointBlock) : Except Fault (UInt8 × EndpointBlock) :=
  if addr = RegisterMap.endpointStatus then
    .ok (b.primary, { b with primaryReads := b.primaryReads + 1 })
  else
    match endpointAt addr with
    | .ok i => .ok (b.secondary[i], b)
    | .error cause => .error cause

/-- The primary register ignores writes; a secondary register loses the bits written. -/
def write (addr : UInt16) (value : UInt8) (b : EndpointBlock) : Except Fault EndpointBlock :=
  if addr = RegisterMap.endpointStatus then
    .ok b
  else
    match endpointAt addr with
    | .ok i =>
      .ok { b with
        secondary := b.secondary.set i (b.secondary[i] &&& ~~~value)
        clears := (i.val, value) :: b.clears }
    | .error cause => .error cause

instance : Peripheral EndpointBlock := ⟨read, write, fun _ => initial⟩

end EndpointBlock

end BankedController
