import BankedController.Proofs.Notices

namespace BankedController

open RegisterMap
open Board (Notice Cell)

/-- The notice that an event gives, if it gives any. -/
def Stimulus.notice? : Stimulus → Option Notice
  | endpointReady _ _ => some .usbMaster
  | cbw => some .usbCommand
  | usbLink => some .usbLink
  | systemEvent => some .systemEvent
  | nvmeQueue => some .nvmeQueue
  | pcieEvent => some .pcieEvent
  | pcieLink => some .pcieLink
  | power => some .power
  | timerTick => some .timerTick
  | masterReady | deferEndpoint | stall _ | release _ _ => none

namespace Impulse

/-- For every notice an edge is latched, and there are no other bits. -/
structure Announces (i : Impulse) : Prop where
  edge : ∀ n : Notice, n.In i.bits → i.edges n.line = true
  known : ∀ c : Cell, c.latched = true → i.bits c &&& ~~~Notice.bits c = 0

variable {i j : Impulse}

theorem Announces.followed (hi : Announces i) (hj : Announces j) : Announces (i.followed j) := by
  refine ⟨fun n hn => ?_, fun c hc => ?_⟩
  · change (i.edges n.line || j.edges n.line) = true
    rcases Notice.in_or.1 hn with hfirst | hlater
    · rw [hi.edge n hfirst, Bool.true_or]
    · rw [hj.edge n hlater, Bool.or_true]
  · change (i.bits c ||| j.bits c) &&& ~~~Notice.bits c = 0
    rw [Bits.or_and, hi.known c hc, hj.known c hc, UInt8.or_zero]

/-- Where no interrupt status is touched there is nothing to announce. -/
theorem announces_of_clear (h : ∀ c : Cell, c.latched = true → i.bits c = 0) : Announces i := by
  refine ⟨fun n hn => ?_, fun c hc => ?_⟩
  · unfold Notice.In at hn
    rw [h n.cell n.latched, UInt8.zero_and] at hn
    exact absurd rfl hn
  · rw [h c hc, UInt8.zero_and]

theorem announces_nothing : Announces nothing := announces_of_clear fun _ _ => rfl

theorem announces_signal (n : Notice) : Announces (.signal n.cell n.mask n.line) := by
  refine ⟨fun m => ?_, fun c _ => ?_⟩
  · cases n <;> cases m <;> decide
  · cases n <;> cases c <;> decide

theorem announces_stimulus (stimulus : Stimulus) : stimulus.impulse.Announces := by
  cases stimulus with
  | endpointReady endpoint mask =>
    exact (announces_of_clear fun _ _ => rfl).followed (announces_signal .usbMaster)
  | cbw => exact announces_signal .usbCommand
  | usbLink => exact announces_signal .usbLink
  | systemEvent => exact announces_signal .systemEvent
  | nvmeQueue => exact announces_signal .nvmeQueue
  | pcieEvent => exact announces_signal .pcieEvent
  | pcieLink => exact announces_signal .pcieLink
  | power => exact announces_signal .power
  | timerTick => exact announces_signal .timerTick
  | masterReady =>
    exact announces_of_clear fun c hc => by cases c <;> first | rfl | cases hc
  | deferEndpoint =>
    exact announces_of_clear fun c hc => by cases c <;> first | rfl | cases hc
  | stall unit => exact announces_of_clear fun _ _ => rfl
  | release unit reads => exact announces_of_clear fun _ _ => rfl

theorem announces_impulse (steps : List ScriptStep) : (impulse steps).Announces := by
  induction steps with
  | nil => exact announces_nothing
  | cons step rest ih => exact (announces_stimulus step.stimulus).followed ih

theorem in_stimulus {stimulus : Stimulus} {n : Notice} (h : stimulus.notice? = some n) :
    n.In stimulus.impulse.bits := by
  cases stimulus with
  | endpointReady endpoint mask =>
    cases h
    have hsignal : Notice.In .usbMaster (signal .usb usbMasterBit .endpoint).bits := by decide
    exact Notice.in_or.2 (.inr hsignal)
  | _ => cases h <;> decide

theorem in_impulse {steps : List ScriptStep} {step : ScriptStep} {n : Notice} (hstep : step ∈ steps)
    (h : step.stimulus.notice? = some n) : n.In (impulse steps).bits := by
  induction steps with
  | nil => cases hstep
  | cons first rest ih =>
    apply Notice.in_or.2
    rcases List.mem_cons.1 hstep with rfl | hrest
    · exact .inl (in_stimulus h)
    · exact .inr (ih hrest)

end Impulse

namespace Board

namespace Console

variable {c : Console} {i : Impulse} {limit room : Nat}

/-- Both lines are enabled, none is taken, and an edge is latched for every notice. -/
structure Announced (c : Console) : Prop where
  enable : c.irq.enable = 0x85
  inService : c.irq.inService = []
  edge : ∀ n : Notice, n.In c.panel.byte → c.irq.pending.get n.line = true
  known : ∀ cell : Cell, cell.latched = true → c.panel.byte cell &&& ~~~Notice.bits cell = 0

/-- No line is pending, and no interrupt status is set. -/
structure Quiet (c : Console) : Prop where
  enable : c.irq.enable = 0x85
  inService : c.irq.inService = []
  pending : c.irq.pending = ⟨false, false⟩
  clear : ∀ cell : Cell, cell.latched = true → c.panel.byte cell = 0

theorem Quiet.struck (hc : Quiet c) (hi : i.Announces) : Announced (c.struck i) := by
  refine ⟨hc.enable, hc.inService, fun n hn => ?_, fun cell hcell => ?_⟩
  · have hedge : (i.onIrq c.irq).pending.get n.line = i.edges n.line := by
      unfold Impulse.onIrq
      rw [hc.pending]
      cases n.line <;> rfl
    rcases Notice.in_or.1 hn with hold | hnew
    · unfold Notice.In at hold
      rw [hc.clear n.cell n.latched, UInt8.zero_and] at hold
      exact absurd rfl hold
    · exact hedge.trans (hi.edge n hnew)
  · change (c.panel.byte cell ||| i.bits cell) &&& ~~~Notice.bits cell = 0
    rw [hc.clear cell hcell, UInt8.zero_or]
    exact hi.known cell hcell

theorem known_of_fades {p q : Panel} (h : Panel.Fades p q) {cell : Cell}
    (hcell : cell.latched = true) (hp : p.byte cell &&& ~~~Notice.bits cell = 0) :
    q.byte cell &&& ~~~Notice.bits cell = 0 := by
  rw [← h cell hcell, UInt8.and_assoc, hp, UInt8.and_zero]

theorem Announced.onPanel {f : Panel → Panel} (hc : Announced c)
    (hf : Panel.Progress c.panel (f c.panel)) : Announced (c.onPanel f) := by
  refine ⟨hc.enable, hc.inService, fun n hn => hc.edge n ?_, fun cell hcell => ?_⟩
  · by_contra hnone
    exact hf.fades.not_in hnone hn
  · exact known_of_fades hf.fades hcell (hc.known cell hcell)

/-- A line that is taken takes its notices with it. -/
theorem Announced.service (hc : Announced c) (hroom : 8 ≤ room) (line : IrqLine) :
    Announced (c.service limit room line) ∧
      Panel.Progress c.panel (c.service limit room line).panel := by
  have hpanel : (c.service limit room line).panel = c.panel.route limit (room - 3) line :=
    if_pos (by omega)
  have hprogress : Panel.Progress c.panel (c.service limit room line).panel := by
    rw [hpanel]
    exact Panel.progress_route (by omega) c.panel line
  refine ⟨⟨hc.enable, ?_, fun n hn => ?_, fun cell hcell => ?_⟩, hprogress⟩
  · change ((line, c.irq.level line) :: c.irq.inService).eraseP (fun entry => entry.1 = line) = []
    rw [hc.inService]
    simp
  · -- a notice that is left is one of the other line, which is latched as before
    have hother : n.line ≠ line := by
      rintro rfl
      rw [hpanel] at hn
      exact Panel.not_in_route (by omega) c.panel n hn
    change (c.irq.pending.set line false).get n.line = true
    rw [PerLine.get_set, if_neg hother]
    apply hc.edge n
    by_contra hnone
    exact hprogress.fades.not_in hnone hn
  · exact known_of_fades hprogress.fades hcell (hc.known cell hcell)

/-- When there is no line to take there is none pending, and so there is no notice. -/
theorem Announced.quiet (hc : Announced c) (hnone : c.irq.next? = none) : Quiet c := by
  have hpending (line : IrqLine) : c.irq.pending.get line = false := by
    have hfree := InterruptController.next?_eq_none_iff.1 hnone line
    unfold InterruptController.deliverable InterruptController.globallyEnabled
      InterruptController.lineEnabled InterruptController.isInService
      InterruptController.outranks at hfree
    rw [hc.enable, hc.inService] at hfree
    have hglobal : (0x85 : UInt8) &&& InterruptController.globalBit =
        InterruptController.globalBit := by
      decide
    have hline : (0x85 : UInt8) &&& line.bit = line.bit := by
      cases line <;> decide
    simpa [hglobal, hline] using hfree
  have hclear (n : Notice) : ¬n.In c.panel.byte := by
    intro hn
    have hset := hc.edge n hn
    rw [hpending n.line] at hset
    cases hset
  refine ⟨hc.enable, hc.inService, ?_, fun cell hcell => ?_⟩
  · exact congrArg₂ PerLine.mk (hpending .endpoint) (hpending .system)
  · exact Notice.clear_of_none (hc.known cell hcell) hclear

theorem Announced.pass (hc : Announced c) (hroom : 8 ≤ room) :
    Quiet (c.pass limit room) ∧ Panel.Progress c.panel (c.pass limit room).panel := by
  have hfits := Panel.fits_progress 10 room
  have hboth : Announced (c.pass limit room) ∧
      Panel.Progress c.panel (c.pass limit room).panel := by
    refine pass_keeps (I := fun d => Announced d ∧ Panel.Progress c.panel d.panel)
      (fun d line hd _ => ?_) (fun d slot _ hd => ?_) (fun d hd => ?_) ⟨hc, .refl c.panel⟩
    · obtain ⟨hannounced, hprogress⟩ := hd.1.service hroom line
      exact ⟨hannounced, hd.2.trans hprogress⟩
    · have hprogress := @Panel.closed_progress.dispatch _ limit room hfits d.panel slot
      exact ⟨hd.1.onPanel hprogress, hd.2.trans hprogress⟩
    · have hevents (p : Panel) := Panel.progress_plain p (@plain_cell .events rfl)
      have hstate (p : Panel) := Panel.progress_plain p (@plain_cell .state rfl)
      have hserve := @Panel.closed_progress.serveEvents _ limit room hfits hevents d.panel
      have hprogress := hserve.trans (Panel.closed_progress.promote hevents hstate _)
      exact ⟨hd.1.onPanel hprogress, hd.2.trans hprogress⟩
  exact ⟨hboth.1.quiet (next?_pass c), hboth.2⟩

/-- A quiet console is quiet again after the next pass. -/
theorem Quiet.turn {config : FirmwareConfig} (hc : Quiet c) (hroom : 8 ≤ stackRoom config)
    (script : Script) (pass : Nat) :
    Quiet (c.turn config script pass) ∧
      Panel.Progress (c.struck (impulse (script.before pass))).panel
        (c.turn config script pass).panel :=
  (hc.struck (Impulse.announces_impulse (script.before pass))).pass hroom

theorem quiet_poweredOn (config : FirmwareConfig) : Quiet (poweredOn config) :=
  ⟨rfl, rfl, rfl, fun _ _ => rfl⟩

/-- Between any two passes of a script the console is quiet. -/
theorem quiet_after {config : FirmwareConfig} (h : 8 ≤ stackRoom config) (script : Script)
    (passes : Nat) : Quiet (after config script passes) := by
  induction passes with
  | zero => exact quiet_poweredOn config
  | succ passes ih => exact (ih.turn h script passes).1

end Console

/-- A board on which nothing is left to do for an interrupt. -/
structure AtRest (t : State) : Prop where
  entries : t.stack.entries = []
  used : t.stack.used = 0
  active : t.window.active = .bank0
  globallyEnabled : t.irq.globallyEnabled = true
  lineEnabled : ∀ line, t.irq.lineEnabled line = true
  pending : ∀ line, t.irq.pending.get line = false
  inService : t.irq.inService = []
  status : ∀ register ∈ [usbStatus, systemStatus, pcieStatus, timerStatus],
    RegisterBus.read register t.bus = .done 0 t.bus

variable {config : FirmwareConfig}

theorem Settled.atRest {c : Console} {t : State} (ht : Settled config c t) (hc : c.Quiet) :
    AtRest t := by
  have hirq : t.irq = c.irq := congrArg Console.irq ht.console
  have hclear (cell : Cell) (hcell : cell.latched = true) :
      RegisterBus.read cell.addr t.bus = .done 0 t.bus := by
    have hbyte : shown t.bus = c.panel.byte :=
      congrArg (fun c : Console => c.panel.byte) ht.console
    rw [read_cell ht.intact, hbyte, hc.clear cell hcell]
  refine ⟨ht.entries, ht.used, ht.active, ?_, fun line => ?_, fun line => ?_, ?_, ?_⟩
  · unfold InterruptController.globallyEnabled
    rw [hirq, hc.enable]
    rfl
  · unfold InterruptController.lineEnabled
    rw [hirq, hc.enable]
    cases line <;> rfl
  · rw [hirq, hc.pending]
    cases line <;> rfl
  · rw [hirq, hc.inService]
  · intro register hregister
    simp only [List.mem_cons, List.not_mem_nil, or_false] at hregister
    rcases hregister with rfl | rfl | rfl | rfl
    · exact hclear .usb rfl
    · exact hclear .system rfl
    · exact hclear .pcie rfl
    · exact hclear .timer rfl

/-- The slot for a notice that is gone was called. -/
theorem recorded_of_progress {s t : State} (h : Panel.Progress (panel s) (panel t)) {n : Notice}
    (hn : n.In (panel s).byte) (hgone : ¬n.In (panel t).byte) :
    ∃ call ∈ recorded s t, call.slot = n.slot := by
  obtain ⟨new, hnew, hcalled⟩ := h.calls
  have hslot : n.slot ∈ new.map Prod.fst := (hcalled n hn).resolve_left hgone
  obtain ⟨⟨_, param⟩, hmem, rfl⟩ := List.mem_map.1 hslot
  have hrecorded : (n.slot, param) ∈ (recorded s t).map fun call => (call.slot, call.param) := by
    rw [map_recorded hnew]
    exact List.mem_reverse.2 hmem
  obtain ⟨call, hcall, heq⟩ := List.mem_map.1 hrecorded
  exact ⟨call, hcall, congrArg Prod.fst heq⟩

/-- With every configuration that passes the check a board is at rest after power-on and after every
pass of every script, however many passes follow; and of the events before a pass each that gives a
notice sets its bit, which is clear after the pass, in which the slot for it was called. -/
theorem passes_settle (h : config.defect? = none) {n : Nat} (hn : 2 ^ 32 + 4 ≤ n)
    (threshold : Option Severity) (script : Script) (passes : Nat) :
    ∃ fw summaries t, link config = .ok fw ∧
      reach (fw.linkage n) script passes (initial fw threshold) = .done summaries t ∧ AtRest t ∧
      (∀ more, session (fw.linkage n) script (passes + more) (initial fw threshold) = (do
        let all ← runPasses (fw.linkage n) script passes summaries.reverse more
        Machine.note (.scriptFinished (passes + more))
        pure all) t) ∧
      ∃ r summary u, injectAll (script.before passes) t = .done () r ∧
        runPass (fw.linkage n) r = .done summary u ∧
        reach (fw.linkage n) script (passes + 1) (initial fw threshold) =
          .done (summaries ++ [summary]) u ∧ AtRest u ∧
        ∀ step ∈ script.before passes, ∀ notice, step.stimulus.notice? = some notice →
          (∃ status, RegisterBus.read notice.cell.addr r.bus = .done status r.bus ∧
            status &&& notice.mask ≠ 0) ∧
          ∃ call ∈ recorded r u, call.slot = notice.slot := by
  obtain ⟨fw, hfw⟩ := link_ok h
  obtain ⟨m, rfl⟩ := Nat.exists_eq_add_of_le' (show 4 ≤ n by omega)
  have hm : 2 ^ 32 ≤ m := by omega
  have hroom := eight_le_stackRoom h
  obtain ⟨summaries, t, hreach, ht⟩ := reach_settled hfw hm threshold script passes
  obtain ⟨r, summary, u, hinject, hr, hpass, hu⟩ := ht.turn hfw hm script passes
  have hquiet := Console.quiet_after hroom script passes
  obtain ⟨hafter, hprogress⟩ := hquiet.turn hroom script passes
  refine ⟨fw, summaries, t, hfw, hreach, ht.atRest hquiet, session_add hreach, r, summary, u,
    hinject, hpass, reach_succ hreach hinject hpass, hu.atRest hafter, fun step hstep notice hnotice => ?_⟩
  have hbefore : panel r = _ := congrArg Console.panel hr.console
  have hend : panel u = _ := congrArg Console.panel hu.console
  have hin : notice.In (panel r).byte := by
    rw [hbefore]
    exact Notice.in_or.2 (.inr (Impulse.in_impulse hstep hnotice))
  have hgone : ¬notice.In (panel u).byte := by
    unfold Notice.In
    rw [hend, hafter.clear _ notice.latched, UInt8.zero_and]
    exact not_not.2 rfl
  have hmoved : Panel.Progress (panel r) (panel u) := by
    rw [hbefore, hend]
    exact hprogress
  exact ⟨⟨_, read_cell hr.intact notice.cell, hin⟩, recorded_of_progress hmoved hin hgone⟩

/-- The smallest stack that passes the check. -/
def cramped : FirmwareConfig := { FirmwareConfig.standard with stackBase := 0xF8 }

/-- Events on both lines, with a unit that stalls while a command is carried out. -/
def crowded : Script :=
  ⟨[⟨0, .cbw⟩, ⟨0, .power⟩, ⟨0, .endpointReady 3 0x81⟩, ⟨1, .stall .nvme⟩, ⟨1, .timerTick⟩,
    ⟨1, .usbLink⟩]⟩

/-- The first pass settles, in which a scan finds no room for its handlers, and so does the second. -/
theorem passes_settle_cramped :
    cramped.defect? = none ∧ 2 ^ 32 + 4 ≤ Firmware.bound ∧
      ∃ fw summaries t r summary u, link cramped = .ok fw ∧
        reach fw.entry crowded 1 (initial fw none) = .done summaries t ∧ AtRest t ∧
        injectAll (crowded.before 1) t = .done () r ∧ runPass fw.entry r = .done summary u ∧
        AtRest u ∧ (∃ call ∈ recorded r u, call.slot = .timerTick) ∧
        ∃ call ∈ recorded r u, call.slot = .usbLinkEvent := by
  have hdefect : cramped.defect? = none := by decide
  have hbound : 2 ^ 32 + 4 ≤ Firmware.bound := by decide
  obtain ⟨fw, summaries, t, hfw, hreach, ht, -, r, summary, u, hinject, hpass, -, hu,
      hserved⟩ :=
    passes_settle hdefect hbound none crowded 1
  have htick : ⟨1, .timerTick⟩ ∈ crowded.before 1 := by decide
  have hlink : ⟨1, .usbLink⟩ ∈ crowded.before 1 := by decide
  exact ⟨hdefect, hbound, fw, summaries, t, r, summary, u, hfw, hreach, ht, hinject, hpass, hu,
    (hserved _ htick .timerTick rfl).2, (hserved _ hlink .usbLink rfl).2⟩

end Board

end BankedController
