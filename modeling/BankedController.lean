import BankedController.Bench.Act
import BankedController.Bench.BoardSession
import BankedController.Bench.Devices
import BankedController.Bench.Part
import BankedController.Bench.Scripted
import BankedController.Bench.Session
import BankedController.Board.Basic
import BankedController.Board.Collaborator
import BankedController.Bus.Paged
import BankedController.Bus.Register
import BankedController.Bus.Xdata
import BankedController.CallStack
import BankedController.Code.Address
import BankedController.Code.Bank
import BankedController.Code.Image
import BankedController.Command.BusyWait
import BankedController.Command.Engine
import BankedController.Command.Kind
import BankedController.Command.Recovery
import BankedController.Command.Report
import BankedController.CommandLine
import BankedController.Config
import BankedController.ConfigText
import BankedController.Device.CommandUnit
import BankedController.Device.EndpointBlock
import BankedController.Device.Latch
import BankedController.Device.Model
import BankedController.Device.WriteLog
import BankedController.Dispatch.Entry
import BankedController.Dispatch.Slot
import BankedController.Dispatch.Table
import BankedController.Endpoint.Scan
import BankedController.Endpoint.Tables
import BankedController.FarCall
import BankedController.Firmware
import BankedController.Interrupt
import BankedController.InterruptRoute
import BankedController.Json.Numeral
import BankedController.Json.Printer
import BankedController.Json.Record
import BankedController.Json.Token
import BankedController.Json.Value
import BankedController.Linkage
import BankedController.Log
import BankedController.Machine
import BankedController.Main
import BankedController.Pass
import BankedController.Proofs.Acknowledgements
import BankedController.Proofs.AddressMaps
import BankedController.Proofs.Arbitration
import BankedController.Proofs.BankInvariant
import BankedController.Proofs.BoardCalls
import BankedController.Proofs.BoardPasses
import BankedController.Proofs.BoardService
import BankedController.Proofs.BoardSteps
import BankedController.Proofs.BoardStimuli
import BankedController.Proofs.Bookkeeping
import BankedController.Proofs.BusRelations
import BankedController.Proofs.Bytes
import BankedController.Proofs.CallOutcomes
import BankedController.Proofs.CallUnfoldings
import BankedController.Proofs.ClosedRegions
import BankedController.Proofs.CommandBus
import BankedController.Proofs.CommandSequences
import BankedController.Proofs.CommandUnits
import BankedController.Proofs.Commands
import BankedController.Proofs.Composed
import BankedController.Proofs.Conditions
import BankedController.Proofs.ConfigTexts
import BankedController.Proofs.ConsoleRuns
import BankedController.Proofs.Conventions
import BankedController.Proofs.CoreRoutines
import BankedController.Proofs.CountedWaits
import BankedController.Proofs.Courses
import BankedController.Proofs.CriticalSections
import BankedController.Proofs.DiscreetRoutines
import BankedController.Proofs.EndpointBuses
import BankedController.Proofs.EndpointOrder
import BankedController.Proofs.EndpointService
import BankedController.Proofs.EngineCounts
import BankedController.Proofs.EngineMemory
import BankedController.Proofs.FailedCalls
import BankedController.Proofs.FarCalls
import BankedController.Proofs.FollowedRuns
import BankedController.Proofs.Impulses
import BankedController.Proofs.IntactRigs
import BankedController.Proofs.Intakes
import BankedController.Proofs.Interrupts
import BankedController.Proofs.Linked
import BankedController.Proofs.Lockstep
import BankedController.Proofs.MonitoredCalls
import BankedController.Proofs.NestedScans
import BankedController.Proofs.Nesting
import BankedController.Proofs.Notices
import BankedController.Proofs.PanelAccesses
import BankedController.Proofs.PanelMoves
import BankedController.Proofs.PanelPasses
import BankedController.Proofs.PanelRuns
import BankedController.Proofs.PanelScans
import BankedController.Proofs.PanelService
import BankedController.Proofs.Panels
import BankedController.Proofs.PassSequences
import BankedController.Proofs.Passes
import BankedController.Proofs.PendingConditions
import BankedController.Proofs.Placements
import BankedController.Proofs.PlainMemory
import BankedController.Proofs.PlainRuns
import BankedController.Proofs.PostedRequests
import BankedController.Proofs.Postings
import BankedController.Proofs.PowerOns
import BankedController.Proofs.PrintedValues
import BankedController.Proofs.RangeLayouts
import BankedController.Proofs.ReceivedCommands
import BankedController.Proofs.Records
import BankedController.Proofs.RequestBlock
import BankedController.Proofs.ResolvedCalls
import BankedController.Proofs.Restoration
import BankedController.Proofs.RigBuses
import BankedController.Proofs.RigLedger
import BankedController.Proofs.RigUnits
import BankedController.Proofs.RollingCounters
import BankedController.Proofs.RouteTranscripts
import BankedController.Proofs.Runs
import BankedController.Proofs.ScanTranscripts
import BankedController.Proofs.Scans
import BankedController.Proofs.ScriptOrders
import BankedController.Proofs.ScriptTexts
import BankedController.Proofs.SettledPasses
import BankedController.Proofs.Sparing
import BankedController.Proofs.StackHistories
import BankedController.Proofs.StackSizing
import BankedController.Proofs.StubAddresses
import BankedController.Proofs.TableBuilds
import BankedController.Proofs.TalliedWaits
import BankedController.Proofs.Transcripts
import BankedController.Proofs.UncountedSwitches
import BankedController.Proofs.UnreadLog
import BankedController.Proofs.Waits
import BankedController.Proofs.Watch
import BankedController.RegisterMap
import BankedController.Rig
import BankedController.Run
import BankedController.ScriptText
import BankedController.Settings
import BankedController.Stimulus
import BankedController.Text.Blank
import BankedController.Text.Hex
import BankedController.Text.Quoted
import BankedController.Text.Unprintable
