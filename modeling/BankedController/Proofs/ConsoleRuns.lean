import BankedController.Proofs.Impulses
import BankedController.Proofs.ReceivedCommands

namespace BankedController.Board

open RegisterMap

/-- The room that a configuration leaves for the stack. -/
def stackRoom (config : FirmwareConfig) : Nat := 0x100 - config.stackBase.toNat

namespace Console

/-- The console after power-on: interrupts are enabled, and the startup slots were called. -/
def poweredOn (config : FirmwareConfig) : Console where
  irq := { InterruptController.initial with enable := 0x85, priority := config.highLine.bit }
  panel :=
    { byte := fun _ => 0
      conditions := Vector.replicate 8 0
      forced := none
      clears := []
      calls := Linkage.startup.reverse.map fun slot => (slot, none)
      failures := 0 }

/-- The console after a pass before which the script has events. -/
def turn (config : FirmwareConfig) (script : Script) (pass : Nat) (c : Console) : Console :=
  (c.struck (impulse (script.before pass))).pass config.scanSteps (stackRoom config)

/-- The console after so many passes of a script. -/
def after (config : FirmwareConfig) (script : Script) : Nat → Console
  | 0 => poweredOn config
  | passes + 1 => turn config script passes (after config script passes)

end Console

/-- A board between two passes, with what its console is. -/
structure Settled (config : FirmwareConfig) (c : Console) (t : State) : Prop where
  intact : t.bus.Intact
  console : console t = c
  entries : t.stack.entries = []
  used : t.stack.used = 0
  capacity : t.stack.capacity = stackRoom config
  active : t.window.active = .bank0
  highWater : 13 ≤ stackRoom config → t.stack.highWater ≤ 13

/-- Power-on and the first passes of a script. -/
def reach (l : Linkage (Rig Record)) (script : Script) (passes : Nat) :
    Run State (List PassSummary) := do
  powerOn l
  runPasses l script 0 [] passes

theorem session_eq (l : Linkage (Rig Record)) (script : Script) (passes : Nat) :
    session l script passes = (do
      let summaries ← reach l script passes
      Machine.note (.scriptFinished passes)
      pure summaries) := by
  unfold session reach runScript
  rw [bind_assoc]

/-- The calls of stand-ins that were recorded from one moment to a later one. -/
def recorded (s t : State) : List Activity := (activity t).drop (activity s).length

/-- What the panel shows of them. -/
theorem map_recorded {s t : State} {new : List (SlotId × Option UInt8)}
    (h : (panel t).calls = new ++ (panel s).calls) :
    (recorded s t).map (fun call => (call.slot, call.param)) = new.reverse := by
  have hlater : (activity t).map (fun call => (call.slot, call.param)) =
      (panel s).calls.reverse ++ new.reverse := by
    have hcalls : (panel t).calls = t.bus.record.activity.map fun call => (call.slot, call.param) :=
      rfl
    unfold activity
    rw [List.map_reverse, ← hcalls, h, List.reverse_append]
  have hlength : (activity s).length = (panel s).calls.reverse.length := by
    have hcalls : (panel s).calls = s.bus.record.activity.map fun call => (call.slot, call.param) :=
      rfl
    rw [hcalls]
    simp [activity]
  unfold recorded
  rw [List.map_drop, hlater, hlength, List.drop_left]

/-- A report can always be made. -/
theorem report_apply {s : State} (hs : s.bus.Intact) : ∃ found t, report s = .done found t ∧
    found.dispatchFailures = s.stats.failures ∧ found.stackHighWater = s.stack.highWater := by
  obtain ⟨value, rig, hread, -, -⟩ := read_unseen hs recoveryCount
  exact ⟨_, _, (Run.bind_of_done (Machine.onBus_of_done hread)).trans rfl, rfl, rfl⟩

section Passes

variable {l : Linkage (Rig Record)} {script : Script} {s t : State}

/-- More passes go on from where the first ones ended. -/
theorem runPasses_add {count pass : Nat} {done summaries : List PassSummary}
    (h : runPasses l script pass done count s = .done summaries t) (more : Nat) :
    runPasses l script pass done (count + more) s =
      runPasses l script (pass + count) summaries.reverse more t := by
  induction count generalizing pass done s with
  | zero =>
    have hsummaries : done.reverse = summaries ∧ s = t := by cases h; exact ⟨rfl, rfl⟩
    obtain ⟨rfl, rfl⟩ := hsummaries
    rw [List.reverse_reverse, Nat.zero_add, Nat.add_zero]
  | succ count ih =>
    rw [Nat.add_right_comm]
    obtain ⟨_, r, hinject, hrest⟩ := Run.bind_eq_done.1 h
    obtain ⟨summary, u, hpass, hrest⟩ := Run.bind_eq_done.1 hrest
    refine (Run.bind_of_done hinject).trans ((Run.bind_of_done hpass).trans ?_)
    rw [ih hrest, Nat.add_right_comm, Nat.add_assoc]

theorem reach_add {passes : Nat} {summaries : List PassSummary}
    (h : reach l script passes s = .done summaries t) (more : Nat) :
    reach l script (passes + more) s = runPasses l script passes summaries.reverse more t := by
  obtain ⟨_, u, hpower, hrun⟩ := Run.bind_eq_done.1 h
  refine (Run.bind_of_done hpower).trans ?_
  rw [runPasses_add hrun more, Nat.zero_add]

theorem reach_succ {passes : Nat} {summaries : List PassSummary} {r u : State}
    {summary : PassSummary} (h : reach l script passes s = .done summaries t)
    (hinject : injectAll (script.before passes) t = .done () r)
    (hpass : runPass l r = .done summary u) :
    reach l script (passes + 1) s = .done (summaries ++ [summary]) u := by
  rw [reach_add h 1]
  have hone : runPasses l script passes summaries.reverse 1 t =
      .done (summary :: summaries.reverse).reverse u :=
    (Run.bind_of_done hinject).trans (Run.bind_of_done hpass)
  rw [hone, List.reverse_cons, List.reverse_reverse]

/-- A longer session goes on from where the first passes ended. -/
theorem session_add {passes : Nat} {summaries : List PassSummary}
    (h : reach l script passes s = .done summaries t) (more : Nat) :
    session l script (passes + more) s = (do
      let all ← runPasses l script passes summaries.reverse more
      Machine.note (.scriptFinished (passes + more))
      pure all) t := by
  rw [session_eq, Run.bind_apply, Run.bind_apply, reach_add h]

end Passes

section Boards

variable {config : FirmwareConfig} {fw : BoardFirmware}

theorem eight_le_stackRoom (h : config.defect? = none) : 8 ≤ stackRoom config := by
  have hbase := UInt8.le_iff_toNat_le.1 (FirmwareConfig.checked_of_defect? h).stackBase
  have hlast : (0xF8 : UInt8).toNat = 248 := rfl
  unfold stackRoom
  omega

theorem thirteen_le_stackRoom : 13 ≤ stackRoom config ↔ config.stackBase ≤ 0xF3 := by
  have hbase := config.stackBase.toNat_lt
  have hlast : (0xF3 : UInt8).toNat = 243 := rfl
  unfold stackRoom
  rw [UInt8.le_iff_toNat_le, hlast]
  omega

/-- The startup slots are called and do nothing else. -/
theorem Panel.dispatchAll_startup (p : Panel) (limit : Nat) {r : Nat} (hr : 5 ≤ r) :
    p.dispatchAll limit r Linkage.startup =
      { p with calls := (Linkage.startup.reverse.map fun slot => (slot, none)) ++ p.calls } := by
  unfold Linkage.startup
  simp only [Panel.dispatchAll, Panel.dispatch, Panel.framed, if_pos hr]
  rfl

variable (h : link config = .ok fw)

include h

omit h in
/-- The panel of a rig of which the blocks and the memory are clear. -/
theorem rigPanel_fresh {rig : Rig Record} (hrig : Fresh rig) :
    rigPanel 0 rig = { (Console.poweredOn config).panel with calls := [] } := by
  have hshown : shown rig = fun _ => 0 := by
    funext c
    cases c <;> simp only [shown, hrig.blocks, hrig.ram] <;> rfl
  unfold rigPanel
  rw [hshown, hrig.blocks, hrig.record]
  rfl

theorem powerOn_settled {n : Nat} (hn : 2 ^ 32 ≤ n) (threshold : Option Severity) :
    ∃ t, powerOn (fw.linkage (n + 4)) (initial fw threshold) = .done () t ∧
      Settled config (.poweredOn config) t := by
  obtain ⟨hdefect, hfw, -, -⟩ := Firmware.link_eq_ok h
  have hchecked := FirmwareConfig.checked_of_defect? hdefect
  have hspace := eight_le_stackRoom hdefect
  let l := fw.linkage (n + 4)
  obtain ⟨rig, hrig, hstart⟩ := powerOn_fresh l fw threshold (by
    rw [← hfw] at hchecked
    exact hchecked.workRam)
  let r := startupMachine fw l.config threshold rig
  have hclosed : r.irq.globallyEnabled = false := by
    change InterruptController.initial.globallyEnabled = false
    decide
  have hquiet : r.irq.next? = none := InterruptController.next?_of_closed hclosed
  have hslots : ∀ id ∈ Linkage.startup, id ∈ DispatchEntry.standard.map DispatchEntry.slot := by
    decide
  obtain ⟨_, t, hrun, ht, hpanel⟩ :=
    shows_dispatchAll h (show 2 ^ 32 ≤ n + 2 by omega) hquiet hslots r hrig.intact rfl
  have hused : t.stack.used = 0 := ht.restored.used
  have hcapacity : t.stack.capacity = stackRoom config := by
    rw [ht.restored.capacity, ← hfw]
    rfl
  have hroom : room r = stackRoom config := by
    unfold room
    rw [← hcapacity, ← ht.restored.capacity]
    rfl
  have hcalled : panel t = (Console.poweredOn config).panel := by
    have hblank : panel r = { (Console.poweredOn config).panel with calls := [] } :=
      rigPanel_fresh hrig
    have hstartup := Panel.dispatchAll_startup (panel r) config.scanSteps
      (show 5 ≤ stackRoom config by omega)
    rw [hpanel, hroom]
    refine hstartup.trans ?_
    rw [hblank]
    rfl
  refine ⟨_, hstart.trans (Run.bind_of_done hrun), ht.intact, ?_, ht.restored.entries, hused,
    hcapacity, ht.restored.active, fun hfits => ?_⟩
  · have hirq : t.irq = { InterruptController.initial with priority := config.highLine.bit } := by
      rw [ht.irq, ← hfw]
      rfl
    change Console.mk { t.irq with enable := 0x85 } (panel t) = _
    rw [hcalled, hirq]
    rfl
  · have hdeep : r.stack.used + 10 ≤ r.stack.capacity := by
      have hzero : r.stack.used = 0 := rfl
      rw [← ht.restored.capacity, hcapacity]
      omega
    have hmark := ht.highWater hdeep
    change t.stack.highWater ≤ max 0 (0 + 10) at hmark
    change t.stack.highWater ≤ 13
    omega

/-- A board between two passes goes through the next pass. -/
theorem Settled.turn {n : Nat} (hn : 2 ^ 32 ≤ n) {c : Console} {s : State} (hs : Settled config c s)
    (script : Script) (pass : Nat) :
    ∃ r summary t, injectAll (script.before pass) s = .done () r ∧
      Settled config (c.struck (impulse (script.before pass))) r ∧
      runPass (fw.linkage (n + 4)) r = .done summary t ∧
      Settled config (c.turn config script pass) t := by
  let i := impulse (script.before pass)
  let noted : State := { s with log := injected s.log (script.before pass) }
  have hr : Settled config (c.struck i) (i.onBoard noted) := by
    refine ⟨Impulse.intact_onBoard hs.intact i, ?_, hs.entries, hs.used, hs.capacity, hs.active,
      hs.highWater⟩
    exact (@console_onBoard noted hs.intact i).trans
      (congrArg (fun c : Console => c.struck i) hs.console)
  obtain ⟨summary, t, hrun, ht, hconsole⟩ := plays_runPass h hn (i.onBoard noted) hr.intact
  have hroom : room (i.onBoard noted) = stackRoom config := by
    unfold room
    rw [hr.capacity, hr.used, Nat.sub_zero]
  refine ⟨i.onBoard noted, summary, t, injectAll_apply hs.intact _, hr, hrun, ht.intact, ?_, ?_, ?_,
    ?_, ?_, fun hfits => ?_⟩
  · rw [hconsole, hr.console, hroom]
    rfl
  · rw [ht.restored.entries, hr.entries]
  · rw [ht.restored.used, hr.used]
  · rw [ht.restored.capacity, hr.capacity]
  · rw [ht.restored.active, hr.active]
  · have hbefore := hr.highWater hfits
    have hdeep : (i.onBoard noted).stack.used + 13 ≤ (i.onBoard noted).stack.capacity := by
      rw [hr.used, hr.capacity]
      omega
    have hmark := ht.highWater hdeep
    rw [hr.used] at hmark
    omega

/-- After so many passes of a script the console is what the script makes of it. -/
theorem reach_settled {n : Nat} (hn : 2 ^ 32 ≤ n) (threshold : Option Severity) (script : Script)
    (passes : Nat) : ∃ summaries t,
      reach (fw.linkage (n + 4)) script passes (initial fw threshold) = .done summaries t ∧
      Settled config (.after config script passes) t := by
  induction passes with
  | zero =>
    obtain ⟨t, hpower, ht⟩ := powerOn_settled h hn threshold
    exact ⟨[], t, Run.bind_of_done hpower, ht⟩
  | succ passes ih =>
    obtain ⟨summaries, s, hreach, hs⟩ := ih
    obtain ⟨r, summary, t, hinject, -, hpass, ht⟩ := hs.turn h hn script passes
    exact ⟨summaries ++ [summary], t, reach_succ hreach hinject hpass, ht⟩

end Boards

end BankedController.Board
