import BankedController.Command.Kind

namespace BankedController

/-- A hardware event as it is seen from the register side. -/
inductive Stimulus where
  /-- Conditions `mask` on an endpoint. -/
  | endpointReady (endpoint mask : UInt8)
  | cbw
  | usbLink
  | systemEvent
  | nvmeQueue
  | pcieEvent
  | pcieLink
  | power
  | timerTick
  /-- The master becomes ready, without an interrupt. -/
  | masterReady
  /-- Endpoint work is deferred to the main loop. -/
  | deferEndpoint
  /-- A unit stops completing commands. -/
  | stall (unit : CommandKind)
  /-- A unit completes commands after `reads` reads of its status. -/
  | release (unit : CommandKind) (reads : UInt32)
  deriving DecidableEq

def Stimulus.text : Stimulus → String
  | endpointReady endpoint mask =>
    "EndpointReady \x7b endpoint: " ++ toString endpoint.toNat ++ ", mask: " ++
      toString mask.toNat ++ " \x7d"
  | cbw => "Cbw"
  | usbLink => "UsbLink"
  | systemEvent => "SystemEvent"
  | nvmeQueue => "NvmeQueue"
  | pcieEvent => "PcieEvent"
  | pcieLink => "PcieLink"
  | power => "Power"
  | timerTick => "TimerTick"
  | masterReady => "MasterReady"
  | deferEndpoint => "DeferEndpoint"
  | stall unit => "Stall \x7b unit: " ++ unit.text ++ " \x7d"
  | release unit reads =>
    "Release \x7b unit: " ++ unit.text ++ ", reads: " ++ toString reads.toNat ++ " \x7d"

/-- An event and the number of the pass it happens before, counted from zero. -/
structure ScriptStep where
  pass : UInt64
  stimulus : Stimulus
  deriving DecidableEq

/-- A list of events. Those before one pass happen in the order of the list. -/
structure Script where
  steps : List ScriptStep
  deriving DecidableEq

/-- A short mixed workload: link up, two commands, endpoint traffic, a timer tick, and a stalled
command that has to be recovered. -/
def Script.demo : Script :=
  ⟨[⟨0, .pcieLink⟩, ⟨0, .usbLink⟩, ⟨1, .cbw⟩, ⟨2, .endpointReady 3 0x04⟩, ⟨3, .timerTick⟩,
    ⟨4, .stall .nvme⟩, ⟨4, .cbw⟩, ⟨6, .release .nvme 4⟩, ⟨6, .deferEndpoint⟩,
    ⟨6, .endpointReady 0 0x81⟩, ⟨7, .power⟩]⟩

end BankedController
