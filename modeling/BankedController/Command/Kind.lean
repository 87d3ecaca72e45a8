import BankedController.RegisterMap

namespace BankedController

open RegisterMap

/-- What a command does, and so which unit carries it out. -/
inductive CommandKind where
  | nvme
  | flash
  | phy
  deriving DecidableEq

namespace CommandKind

def block : CommandKind → UInt16
  | nvme => nvmeBlock
  | flash => flashBlock
  | phy => phyBlock

/-- The kind's code in the request block. Zero is no request. -/
def requestCode : CommandKind → UInt8
  | nvme => 1
  | flash => 2
  | phy => 3

def ofRequest? (code : UInt8) : Option CommandKind :=
  if code = 1 then some nvme
  else if code = 2 then some flash
  else if code = 3 then some phy
  else none

def operation : CommandKind → String
  | nvme => "NvmeSubmit"
  | flash => "FlashTransaction"
  | phy => "PhySettle"

def text : CommandKind → String
  | nvme => "Nvme"
  | flash => "Flash"
  | phy => "Phy"

/-- The unit's name in a script. -/
def name : CommandKind → String
  | nvme => "nvme"
  | flash => "flash"
  | phy => "phy"

@[simp] theorem ofRequest?_requestCode (kind : CommandKind) :
    ofRequest? kind.requestCode = some kind := by
  cases kind <;> rfl

end CommandKind

inductive WaitKind where
  /-- The NVMe unit completes a submission. -/
  | nvmeQueue
  /-- The NVMe unit accepts a submission. -/
  | nvmeDoorbell
  | flash
  | phySettle
  deriving DecidableEq

namespace WaitKind

/-- The waits in the order of a configuration. -/
def all : List WaitKind := [nvmeQueue, nvmeDoorbell, flash, phySettle]

/-- The wait's name in a configuration. -/
def name : WaitKind → String
  | nvmeQueue => "nvme_queue"
  | nvmeDoorbell => "nvme_doorbell"
  | flash => "flash"
  | phySettle => "phy_settle"

/-- Where the wait counts its iterations. Each wait has a counter of its own. -/
def counter : WaitKind → UInt16
  | nvmeQueue => queueCounter
  | nvmeDoorbell => doorbellCounter
  | flash => flashCounter
  | phySettle => phyCounter

end WaitKind

def CommandKind.waits : CommandKind → List WaitKind
  | nvme => [.nvmeDoorbell, .nvmeQueue]
  | flash => [.flash]
  | phy => [.phySettle]

end BankedController
