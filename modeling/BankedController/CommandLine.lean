import BankedController.Board.Basic
import BankedController.Settings

namespace BankedController.CommandLine

structure Result where
  code : UInt32
  output : String
  errors : String
  deriving DecidableEq

def failed (headline : String) : Result :=
  ⟨1, "", "Error: " ++ headline ++ "\n"⟩

/-- Runs a script on a fresh board. -/
def session (l : Linkage (Rig Board.Record)) (script : Script) (passes : Nat) :
    Run Board.State RunReport := do
  Board.powerOn l
  let _ ← Board.runScript l script passes
  Board.report

def load (value? file? : String → Option String) :
    Except Failure (Settings × FirmwareConfig × Script) := do
  let settings ← Settings.ofVariables value?
  let config ← settings.loadConfig file?
  let script ← settings.loadScript file?
  pure (settings, config, script)

/-- The whole program: runs a script on a fresh board and reports the counters. -/
def run (value? file? : String → Option String) : Result :=
  match load value? file? with
  | .error failure => failed failure.headline
  | .ok (settings, config, script) =>
    match Board.link config with
    | .error _ => failed "failed to link firmware image"
    | .ok fw =>
      match session fw.entry script settings.passCount.toNat (Board.initial fw none) with
      | .done report _ => ⟨0, Json.renderCounters report.counters ++ "\n", ""⟩
      | .fault _ _ => failed "the board faulted"
      | .exhausted => failed "the run was given up"

end BankedController.CommandLine
