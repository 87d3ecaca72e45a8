import BankedController.Proofs.BoardService
import BankedController.Proofs.BoardStimuli

namespace BankedController.Board

open RegisterMap

/-- A rig on which nothing has happened. -/
structure Fresh (rig : Rig Record) : Prop where
  intact : rig.Intact
  ram : ∀ addr, rig.bus.ram.get addr = 0
  blocks : rig.blocks = .initial
  record : rig.record = .initial

namespace Fresh

variable {rig : Rig Record}

theorem sound (h : Fresh rig) : Sound rig := by
  refine ⟨h.intact, .inl (h.ram _), ?_⟩
  rw [h.blocks]
  decide

theorem intake_eq (h : Fresh rig) : intake rig = .initial := by
  have husb : Blocks.initial.usb &&& usbCommandBit = 0 := by decide
  unfold intake
  rw [h.blocks, h.record, h.ram, h.ram, h.ram, h.ram, husb]
  rfl

/-- Memory that is clear is cleared. -/
theorem fill (h : Fresh rig) {start : UInt16} {count : Nat} (hend : start.toNat + count ≤ 0x8000) :
    ∃ rig', RegisterBus.fill start count 0 rig = .done () rig' ∧ Fresh rig' := by
  induction count generalizing start rig with
  | zero => exact ⟨rig, rfl, h⟩
  | succ count ih =>
    have hlow : start < 0x8000 := by
      rw [UInt16.lt_iff_toNat_lt]
      exact Nat.lt_of_lt_of_le (by omega) hend
    have hstored : Fresh (rig.stored start 0) := by
      refine ⟨h.intact.stored start 0, fun addr => ?_, h.blocks, h.record⟩
      rw [Rig.ram_stored]
      split
      · rfl
      · exact h.ram addr
    have hnext : (start + 1).toNat = start.toNat + 1 := by
      rw [UInt16.toNat_add]
      exact Nat.mod_eq_of_lt (by simp only [UInt16.reduceToNat]; omega)
    have hrest : (start + 1).toNat + count ≤ 0x8000 := by omega
    obtain ⟨rig', hfill, hrig'⟩ := ih hstored hrest
    exact ⟨rig', (Run.bind_of_done (h.intact.write_free hlow 0)).trans hfill, hrig'⟩

end Fresh

section Runs

variable {config : FirmwareConfig} {fw : BoardFirmware} {l : Linkage (Rig Record)}

theorem Ready.calm_dispatchAll (hl : Ready l) {slots : List SlotId}
    (hslots : ∀ slot ∈ slots, slot ≠ .cbwReceived ∧ slot ≠ .commandService) :
    Calm (l.dispatchAll slots) := by
  induction slots with
  | nil => exact does_pure ()
  | cons slot rest ih =>
    obtain ⟨hreceived, hservice⟩ := hslots slot List.mem_cons_self
    have hfirst : Calm (l.dispatch slot none) := does_dispatch (hl.calm slot hreceived hservice)
    exact hfirst.then fun _ => ih fun slot hslot => hslots slot (List.mem_cons_of_mem _ hslot)

/-- The machine on which the startup slots run. -/
def startupMachine (fw : BoardFirmware) (config : FirmwareConfig) (threshold : Option Severity)
    (rig : Rig Record) : State :=
  let stack := (initial fw threshold).stack.reset
  Machine.noted
    { initial fw threshold with
      bus := rig
      stack := stack
      irq := { InterruptController.initial with priority := config.highLine.bit } }
    (.powerOn config.workRam.size stack.capacity)

/-- Power-on clears the memory, resets the rest, and goes on with the startup slots. -/
theorem powerOn_fresh (l : Linkage (Rig Record)) (fw : BoardFirmware) (threshold : Option Severity)
    (hworkRam : l.config.workRam.start.toNat + l.config.workRam.size.toNat ≤ 0x8000) :
    ∃ rig, Fresh rig ∧ powerOn l (initial fw threshold) = (do
      l.dispatchAll Linkage.startup
      Machine.onIrq fun irq =>
        { irq with
          enable := InterruptController.globalBit ||| IrqLine.endpoint.bit ||| IrqLine.system.bit }
      Machine.note .startupComplete : Run State Unit)
        (startupMachine fw l.config threshold rig) := by
  have hfirst : Fresh (initial fw threshold).bus :=
    ⟨Rig.intact_initial _, Ram.get_zero, rfl, rfl⟩
  obtain ⟨rig, hfill, hrig⟩ := hfirst.fill hworkRam
  exact ⟨rig, hrig, Run.bind_of_done (Machine.onBus_of_done hfill)⟩

/-- After power-on the board is at rest, and nothing has arrived. -/
theorem powerOn_rests (h : link config = .ok fw) (hl : Ready l) (hconfig : l.config = config)
    (threshold : Option Severity) :
    ∃ t, powerOn l (initial fw threshold) = .done () t ∧ Rests .initial t := by
  obtain ⟨hdefect, hfw, -, -⟩ := Firmware.link_eq_ok h
  have hchecked := FirmwareConfig.checked_of_defect? hdefect
  obtain ⟨rig, hrig, hstart⟩ := powerOn_fresh l fw threshold (by
    rw [hconfig]
    exact hchecked.workRam)
  let r := startupMachine fw l.config threshold rig
  have hcapacity : 8 ≤ r.stack.capacity := by
    have hbase := UInt8.le_iff_toNat_le.1 hchecked.stackBase
    change 8 ≤ 0x100 - fw.config.stackBase.toNat
    rw [hfw]
    have : (0xF8 : UInt8).toNat = 248 := rfl
    omega
  have hcalm : Calm (l.dispatchAll Linkage.startup) := hl.calm_dispatchAll (by decide)
  obtain ⟨_, t, hrun, ht⟩ := hcalm r hrig.sound (Nat.zero_le _)
  refine ⟨_, hstart.trans (Run.bind_of_done hrun), ht.sound, ?_, ?_, rfl, ?_, ?_, nofun⟩
  · exact ht.intake.trans hrig.intake_eq
  · change t.stack.used + 8 ≤ t.stack.capacity
    rw [ht.kept.used, ht.kept.capacity]
    change 0 + 8 ≤ _
    omega
  · change t.irq.inService = []
    rw [ht.irq]
    rfl
  · change t.irq.pending = _
    rw [ht.irq]
    rfl

/-- Between its passes the board is at rest. -/
theorem runPasses_rests (hl : Ready l) (script : Script) (count : Nat) {pass : Nat}
    {done : List PassSummary} {s : State} (hs : Rests (.after script pass) s) :
    ∃ summaries t, runPasses l script pass done count s = .done summaries t ∧
      Rests (.after script (pass + count)) t := by
  induction count generalizing pass done s with
  | zero => exact ⟨done.reverse, s, rfl, hs⟩
  | succ count ih =>
    obtain ⟨q, r, hinject, hr⟩ := hs.injectAll (script.before pass)
    obtain ⟨summary, t, hpass, ht⟩ := hl.runPass hr
    obtain ⟨summaries, u, hrest, hu⟩ := @ih (pass + 1) (summary :: done) t ht
    refine ⟨summaries, u, ?_, ?_⟩
    · exact (Run.bind_of_done hinject).trans ((Run.bind_of_done hpass).trans hrest)
    · rwa [Nat.add_right_comm] at hu

/-- A script from power-on. -/
def session (l : Linkage (Rig Record)) (script : Script) (passes : Nat) :
    Run State (List PassSummary) := do
  powerOn l
  runScript l script passes

theorem session_rests (h : link config = .ok fw) {n : Nat} (hn : 2 ^ 32 + 4 ≤ n)
    (threshold : Option Severity) (script : Script) (passes : Nat) :
    ∃ summaries t, session (fw.linkage n) script passes (initial fw threshold) =
        .done summaries t ∧ Rests (.after script passes) t := by
  obtain ⟨m, rfl⟩ := Nat.exists_eq_add_of_le' (show 4 ≤ n by omega)
  obtain ⟨-, hconfig, -, -⟩ := Firmware.link_eq_ok h
  have hl : Ready (fw.linkage (m + 4)) := ready_linkage h (by omega)
  obtain ⟨s, hpower, hs⟩ := powerOn_rests h hl hconfig threshold
  have hfirst : Rests (.after script 0) s := hs
  obtain ⟨summaries, t, hrun, ht⟩ := @runPasses_rests _ hl script passes 0 [] s hfirst
  rw [Nat.zero_add] at ht
  refine ⟨summaries, t.noted (.scriptFinished passes), ?_, ?_⟩
  · exact (Run.bind_of_done hpower).trans (Run.bind_of_done hrun)
  · exact ⟨ht.sound, ht.intake, ht.room, ht.enable, ht.inService, ht.pending, ht.announced⟩

/-- How often the stand-in for a received command ran. -/
def received (s : State) : Nat :=
  (activity s).countP fun call => call.slot = .cbwReceived

/-- The tags of the commands that the NVMe unit was issued, in order. -/
def submittedTags (s : State) : List UInt8 :=
  s.bus.blocks.nvme.issued.reverse.map IssuedCommand.tag

/-- At rest both are what the intake says. -/
theorem Idle.reads {p : PerLine Bool} {i : Intake} {s : State} (hs : Idle p i s) :
    received s = i.received ∧ submittedTags s = i.submitted := by
  rw [← hs.intake]
  refine ⟨?_, rfl⟩
  unfold received activity
  exact List.countP_reverse

/-- The shipped table links against the stand-ins with every configuration that passes the check. -/
theorem link_ok (h : config.defect? = none) : ∃ fw, link config = .ok fw := by
  unfold link Firmware.link
  rw [h]
  exact ⟨_, rfl⟩

/-- With every configuration that passes the check, a board runs every script from power-on to its
end, whatever the script interleaves. A command is received in each pass before which one arrives,
and of the received commands those are issued that are not overwritten. If nothing is scripted for
the last two passes, then none is missing exactly if of no two adjacent passes that both receive a
command the first does not serve. -/
theorem received_commands (h : config.defect? = none) {n : Nat} (hn : 2 ^ 32 + 4 ≤ n)
    (threshold : Option Severity) (script : Script) (passes : Nat) :
    ∃ fw summaries t, link config = .ok fw ∧
      session (fw.linkage n) script passes (initial fw threshold) = .done summaries t ∧
      received t = (List.range passes).countP script.commands ∧
      submittedTags t = ((List.range passes).filter (script.submits passes)).map script.tag ∧
      (script.EndsQuiet passes →
        (submittedTags t = (List.range (received t)).map UInt8.ofNat ↔
          ∀ p, p + 1 < passes → script.commands p = true → script.commands (p + 1) = true →
            script.serves p = true)) := by
  obtain ⟨fw, hfw⟩ := link_ok h
  obtain ⟨summaries, t, hrun, ht⟩ := session_rests hfw hn threshold script passes
  obtain ⟨hreceived, hsubmitted⟩ := ht.reads
  have htells := Intake.tells_after script passes
  rw [htells.received] at hreceived
  rw [htells.submitted] at hsubmitted
  refine ⟨fw, summaries, t, hfw, hrun, hreceived, hsubmitted, fun hquiet => ?_⟩
  rw [hreceived, hsubmitted, script.map_tag_filter_submits, script.submits_iff_of_endsQuiet hquiet]

/-- Three commands, the last two in adjacent passes of which the first serves. -/
def deferring : Script :=
  ⟨[⟨0, .cbw⟩, ⟨1, .stall .nvme⟩, ⟨1, .deferEndpoint⟩, ⟨2, .cbw⟩, ⟨3, .cbw⟩]⟩

/-- None of them is missing, though the unit stalls. -/
theorem received_commands_deferring :
    FirmwareConfig.standard.defect? = none ∧ 2 ^ 32 + 4 ≤ Firmware.bound ∧ deferring.EndsQuiet 6 ∧
      ∃ fw summaries t, link .standard = .ok fw ∧
        session fw.entry deferring 6 (initial fw none) = .done summaries t ∧
        received t = 3 ∧ submittedTags t = [0, 1, 2] := by
  have hbound : 2 ^ 32 + 4 ≤ Firmware.bound := by decide
  obtain ⟨fw, summaries, t, hfw, hrun, hreceived, hsubmitted, -⟩ :=
    received_commands FirmwareConfig.defect?_standard hbound none deferring 6
  refine ⟨FirmwareConfig.defect?_standard, hbound, by decide, fw, summaries, t, hfw, hrun, ?_, ?_⟩
  · rw [hreceived]
    decide
  · rw [hsubmitted]
    decide

/-- Two commands in adjacent passes of which the first does not serve. -/
def adjacent : Script := ⟨[⟨0, .cbw⟩, ⟨1, .cbw⟩]⟩

/-- The second command is posted over the first, which is never issued. -/
theorem adjacent_overwrites :
    ∃ fw summaries t, link .standard = .ok fw ∧ adjacent.EndsQuiet 4 ∧
      session fw.entry adjacent 4 (initial fw none) = .done summaries t ∧ received t = 2 ∧
      submittedTags t = [1] ∧ submittedTags t ≠ (List.range (received t)).map UInt8.ofNat := by
  obtain ⟨fw, hfw⟩ := link_ok FirmwareConfig.defect?_standard
  have hbound : 2 ^ 32 + 4 ≤ Firmware.bound := by decide
  obtain ⟨summaries, t, hrun, ht⟩ := session_rests hfw hbound none adjacent 4
  obtain ⟨hreceived, hsubmitted⟩ := ht.reads
  have htwo : received t = 2 := hreceived.trans (by decide)
  have hone : submittedTags t = [1] := hsubmitted.trans (by decide)
  refine ⟨fw, summaries, t, hfw, by decide, hrun, htwo, hone, ?_⟩
  rw [htwo, hone]
  decide

end Runs

end BankedController.Board
