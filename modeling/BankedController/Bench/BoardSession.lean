import BankedController.Bench.Session
import BankedController.Board.Basic

namespace BankedController.Bench

open Board (Activity Record)

/-- A step of a session with a board: a step of the board itself, or an act on its firmware. -/
inductive BoardStep where
  | powerOn
  /-- An event; there is none if the session could not read it. -/
  | inject (stimulus : Option Stimulus)
  | pass
  /-- A script; there is none if the session could not read it. -/
  | script (script : Option Script) (passes : Nat)
  | report
  | passes
  | count (slot : SlotId)
  | slots
  | activity
  | act (act : Act)

inductive BoardReply where
  | ok
  /-- The event or the script could not be read. -/
  | unreadable
  | pass (summary : PassSummary)
  | passes (summaries : List PassSummary)
  | report (r : RunReport)
  | number (n : Nat)
  | slots (ids : List SlotId)
  | activity (calls : List Activity)
  | act (reply : Reply)

namespace BoardStep

def run (listing : List (String × CodeAddr)) (l : Linkage (Rig Record)) :
    BoardStep → Run Board.State BoardReply
  | .powerOn => do
    Board.powerOn l
    pure .ok
  | .inject none => pure .unreadable
  | .inject (some stimulus) => do
    Board.inject stimulus
    pure .ok
  | .pass => BoardReply.pass <$> Board.runPass l
  | .script none _ => pure .unreadable
  | .script (some s) n => BoardReply.passes <$> Board.runScript l s n
  | .report => BoardReply.report <$> Board.report
  | .passes => Run.gets fun s => .number s.bus.record.passes
  | .count slot => Run.gets fun s =>
      .number ((Board.activity s).countP fun call => call.slot = slot)
  | .slots => Run.gets fun s => .slots ((Board.activity s).map fun call => call.slot)
  | .activity => do
    let calls ← Run.gets Board.activity
    Board.clearActivity
    pure (.activity calls)
  | .act a => BoardReply.act <$> a.run listing l

def runSession (config : FirmwareConfig) (threshold : Option Severity) (steps : List BoardStep) :
    Except BuildError (List (StepReport BoardReply Empty)) := do
  let fw ← Board.link config
  let (reports, _) := runSteps (fun record => ([], record)) (run fw.image.listing fw.entry) steps
    (Board.initial fw threshold)
  pure reports

end BoardStep

end BankedController.Bench
