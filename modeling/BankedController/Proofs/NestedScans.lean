import BankedController.Proofs.EndpointBuses
import BankedController.Proofs.Linked
import BankedController.Proofs.Scans

namespace BankedController

variable {β α : Type}

/-- A line that is taken is not in service. -/
theorem interruptDepth_of_next? {s : Machine β} (h : s.irq.next? = some .endpoint) :
    interruptDepth s = 1 := by
  have hdeliverable := InterruptController.deliverable_of_next? h
  have hservice : s.irq.isInService .endpoint = false := by
    unfold InterruptController.deliverable at hdeliverable
    simp only [Bool.and_eq_true, Bool.not_eq_true'] at hdeliverable
    tauto
  unfold interruptDepth
  rw [hservice]
  rfl

namespace ConditionBus

variable [RegisterBus β] {b : ConditionBus β} {image : CodeImage (Routine (Journaled β))}
  {config : FirmwareConfig} {fw : Firmware (Journaled β)} {extra : Nat}

section Linkage

variable {l : Linkage (Journaled β)} (hl : b.Serves l)

include hl

theorem Plain.within {body : Routine (Journaled β)} (hbody : b.Plain body) (param : Option UInt8) :
    (body l param).Keeps (b.Within 0) := by
  refine Spares.keeps (hbody.spares param) (hbody.composed param) tolerates_within.survives
    (fun _ _ h => h.within) ?_ hl.poll
  intro id hid param
  have hscan : id ≠ .endpointScan := fun h => hid (by rw [h]; decide)
  have hhandler : id ≠ .endpointHandler := fun h => hid (by rw [h]; decide)
  exact hl.call id hscan hhandler param

/-- Whatever leaves the handler to the scan nests one deeper than the interrupts taken in it. -/
theorem Serves.within {m : Linkage (Journaled β) → Run (Machine (Journaled β)) α}
    (hm : Composed (StatusStep b) m) (hspares : Spares [.endpointHandler] m) :
    (m l).Keeps (b.Within 1) := by
  refine Spares.keeps hspares hm tolerates_within.survives (fun _ _ h => h.within) ?_ ?_
  · intro id hid param
    have hhandler : id ≠ .endpointHandler := fun h => hid (by rw [h]; decide)
    by_cases hscan : id = .endpointScan
    · rw [hscan]
      exact hl.scan param
    · exact fun s r t h => (hl.call id hscan hhandler param s r t h).succ
  · exact fun s _ t h => (hl.poll s () t h).succ

theorem system_within : (l.route .system).Keeps (b.Within 0) := by
  have hspares : Spares [.endpointScan, .endpointHandler] fun l : Linkage (Journaled β) =>
      l.route .system :=
    Spares.route (by decide)
  refine Spares.keeps hspares (Composed.route admits_statusStep.route .system) tolerates_within.survives
    (fun _ _ h => h.within) ?_ hl.poll
  intro id hid param
  have hscan : id ≠ .endpointScan := fun h => hid (by rw [h]; decide)
  have hhandler : id ≠ .endpointHandler := fun h => hid (by rw [h]; decide)
  exact hl.call id hscan hhandler param

theorem endpoint_within : (l.route .endpoint).Keeps (b.Within 1) :=
  hl.within (Composed.route admits_statusStep.route .endpoint) (Spares.route (by decide))

/-- An interrupt leaves courses that are as deep as the interrupts that can be taken. -/
theorem service_within (hkeeps : l.Keeps Kept) {s t : Machine (Journaled β)} {line : IrqLine}
    (hline : s.irq.next? = some line) (h : l.serviceInterrupt line s = .done () t) :
    b.Within 0 s t := by
  have hrestored := Linkage.serviceInterrupt_restores hkeeps line s () t h
  rcases Linkage.serviceInterrupt_cases hkeeps h with ⟨u, hunmoved, rfl⟩ | ⟨u, hroute, hkept, rfl⟩
  · refine (extends_within.refl s).of_eq rfl rfl rfl hunmoved.bus hrestored.inService ?_
    exact congrArg DispatchStats.failures hunmoved.stats
  have hbus : (Linkage.retired line (Linkage.resumed s.window.active s.stack.entries u)).bus =
      u.bus := Machine.bus_mapped u s.window.active
  have hstats : (Linkage.retired line (Linkage.resumed s.window.active s.stack.entries u)).stats =
      u.stats := Machine.stats_mapped u s.window.active
  have htraces : b.Traces (interruptDepth s) (Linkage.interrupted line s) u := by
    cases line with
    | endpoint =>
      rw [interruptDepth_of_next? hline]
      exact endpoint_within hl _ () u hroute
    | system => exact system_within hl _ () u hroute
  refine ⟨hrestored.inService, ?_, ?_⟩
  · rw [hstats]
    exact htraces.failures
  · rw [hbus, hstats]
    exact htraces.told

end Linkage

/-- The slots of the scan and of the handler have their targets for themselves. -/
theorem target_standard : ∀ e ∈ DispatchEntry.standard,
    (e.target = handlerTarget ↔ e.slot = .endpointHandler) ∧
      (e.target = scanTarget ↔ e.slot = .endpointScan) := by
  decide

/-- What a firmware that is linked from a prepared image has placed. -/
theorem routine_cases (h : Firmware.link image DispatchEntry.standard config = .ok fw)
    (himage : b.Prepared image) {placed : Placed (Routine (Journaled β))}
    (hplaced : placed ∈ fw.image.routines) :
    (placed.addr = handlerTarget ∧ ∃ body, b.Plain body ∧ placed.body = announcing body) ∨
      (placed.addr = scanTarget ∧ placed.body = scanRoutine) ∨
        placed.addr ≠ handlerTarget ∧ placed.addr ≠ scanTarget ∧ b.Plain placed.body := by
  obtain ⟨-, -, hfw, -⟩ := Firmware.link_eq_ok h
  rw [hfw] at hplaced
  rcases CodeImage.mem_installCore hplaced with
    hmem | ⟨e, he, haddr, ⟨hslot, hbody⟩ | ⟨hslot, hbody⟩⟩
  · by_cases hhandler : placed.addr = handlerTarget
    · exact .inl ⟨hhandler, himage.handler placed hmem hhandler⟩
    · obtain ⟨hscan, hplain⟩ := himage.other placed hmem hhandler
      exact .inr (.inr ⟨hhandler, hscan, hplain⟩)
  · exact .inr (.inl ⟨haddr.trans ((target_standard e he).2.2 hslot), hbody⟩)
  · obtain ⟨hhandler, hscan⟩ := target_standard e he
    rw [hslot] at hhandler hscan
    rw [haddr, hbody]
    refine .inr (.inr ⟨fun h => ?_, fun h => ?_, ?_, fun param => ?_⟩)
    · exact absurd (hhandler.1 h) (by decide)
    · exact absurd (hscan.1 h) (by decide)
    · exact Composed.commandServiceRoutine admits_statusStep
    · exact (Solitary.commandServiceRoutine param).spares _

/-- Where the slots of the shipped table lead. -/
theorem target_of_slot? (h : Firmware.link image DispatchEntry.standard config = .ok fw)
    {id : SlotId} {slot : DispatchSlot} (hslot : fw.table.slot? id = some slot) :
    (slot.target = handlerTarget ↔ id = .endpointHandler) ∧
      (slot.target = scanTarget ↔ id = .endpointScan) := by
  obtain ⟨-, -, -, htable⟩ := Firmware.link_eq_ok h
  obtain ⟨e, he, rfl, rfl⟩ := DispatchTable.entry_of_slot? htable hslot
  exact target_standard e he

theorem composedOf_of_prepared (himage : b.Prepared image) : image.ComposedOf OwnStep := by
  intro placed hplaced
  by_cases hhandler : placed.addr = handlerTarget
  · obtain ⟨body, hplain, hbody⟩ := himage.handler placed hplaced hhandler
    rw [hbody]
    intro param
    have hbody := Composed.mono (fun _ _ h => h.own) (hplain.composed param)
    cases param with
    | none => exact .sequence (.done ()) fun _ => hbody
    | some offset => exact .sequence (.step _ (.bus _)) fun _ => hbody
  · obtain ⟨-, hplain⟩ := himage.other placed hplaced hhandler
    exact fun param => Composed.mono (fun _ _ h => h.own) (hplain.composed param)

/-- A call that is refused leaves the conditions alone. -/
theorem within_of_unmoved {id : SlotId} {s t : Machine (Journaled β)}
    (h : FarCall.Unmoved { s with stats := s.stats.called id } t) : b.Within extra s t := by
  refine (extends_within.refl s).of_eq rfl rfl rfl h.bus ?_ ?_
  · rw [h.irq]
  · rw [h.stats]
    rfl

/-- Neither the frame of a call nor the count of the call is anything to the conditions. -/
theorem Within.of_opened {id : SlotId} {slot : DispatchSlot} {param : Option UInt8}
    {s u : Machine (Journaled β)} {bank : Bank} {entries : List StackEntry}
    (h : b.Within extra (FarCall.opened slot param { s with stats := s.stats.called id }) u) :
    b.Within extra s (FarCall.closed slot bank entries u) := by
  unfold Within at h ⊢
  rw [interruptDepth_of_eq (s := s) (by rw [FarCall.irq_opened])] at h
  refine h.of_eq ?_ ?_ ?_ ?_ ?_ ?_
  · rw [FarCall.bus_opened]
  · rw [FarCall.irq_opened]
  · rw [FarCall.stats_opened]
    rfl
  · rw [FarCall.bus_closed]
  · rw [FarCall.irq_closed]
  · rw [FarCall.stats_closed]

/-- What a call keeps follows from what the routine keeps that it enters. -/
theorem called_within (h : Firmware.link image DispatchEntry.standard config = .ok fw)
    (himage : b.Prepared image) {l : Linkage (Journaled β)} (hkeeps : l.Keeps Kept) {id : SlotId}
    {param : Option UInt8} (hbody : ∀ slot, fw.table.slot? id = some slot →
      ∀ placed ∈ fw.image.routines, placed.addr = slot.target →
        (placed.body l param).Keeps (b.Within extra)) :
    (fw.callWith l id param).Keeps (b.Within extra) := by
  have hown := Firmware.composedOf_of_link admits_ownStep h (composedOf_of_prepared himage)
  intro s r t hcall
  rcases Firmware.callWith_cases h hown hkeeps hcall with
    ⟨-, -, rfl⟩ | ⟨slot, counted, placed, hslot, rfl, hmem, haddr, -, hends⟩
  · exact extends_within.refl _
  rcases hends with ⟨-, hunmoved⟩ | ⟨-, u, hrun, -, rfl⟩
  · exact within_of_unmoved hunmoved
  · have hwithin := hbody slot hslot placed hmem haddr _ () u hrun
    exact hwithin.of_opened

/-- The handler is entered announced, or the call fails and nothing happened. -/
theorem called_handler (h : Firmware.link image DispatchEntry.standard config = .ok fw)
    (himage : b.Prepared image) {l : Linkage (Journaled β)} (hkeeps : l.Keeps Kept)
    (hl : b.Serves l) {offset : UInt8} {s t : Machine (Journaled β)} {r : Except CallError Unit}
    (hcall : fw.callWith l .endpointHandler (some offset) s = .done r t) :
    r = .ok () ∧ b.Traces (interruptDepth s) (announced offset s) t ∨
      ∃ e, r = .error e ∧ t.bus = s.bus ∧ t.irq.inService = s.irq.inService ∧
        t.stats.failures = s.stats.failures := by
  have hown := Firmware.composedOf_of_link admits_ownStep h (composedOf_of_prepared himage)
  rcases Firmware.callWith_cases h hown hkeeps hcall with
    ⟨-, rfl, rfl⟩ | ⟨slot, counted, placed, hslot, rfl, hmem, haddr, -, hends⟩
  · exact .inr ⟨_, rfl, rfl, rfl, rfl⟩
  rcases hends with ⟨rfl, hunmoved⟩ | ⟨rfl, u, hrun, -, rfl⟩
  · refine .inr ⟨_, rfl, hunmoved.bus, ?_, ?_⟩
    · rw [hunmoved.irq]
    · rw [hunmoved.stats]
      rfl
  refine .inl ⟨rfl, ?_⟩
  have htarget : placed.addr = handlerTarget := haddr.trans ((target_of_slot? h hslot).1.2 rfl)
  rcases routine_cases h himage hmem with ⟨-, body, hplain, hbody⟩ | ⟨hscan, -⟩ | ⟨hother, -⟩
  · rw [hbody] at hrun
    let frame : Machine (Journaled β) :=
      FarCall.opened slot (some offset) { s with stats := s.stats.called .endpointHandler }
    have hframe : b.Within 0 (announced offset frame) u :=
      hplain.within hl (some offset) (announced offset frame) () u hrun
    have hdepth : interruptDepth (announced offset frame) = interruptDepth s := by
      refine interruptDepth_of_eq ?_
      change frame.irq.inService = _
      rw [FarCall.irq_opened]
    unfold Within at hframe
    rw [hdepth] at hframe
    refine hframe.of_eq ?_ ?_ ?_ ?_ ?_ ?_
    · change s.bus.entered _ = frame.bus.entered _
      rw [FarCall.bus_opened]
    · change s.irq.inService = frame.irq.inService
      rw [FarCall.irq_opened]
    · change s.stats.failures = frame.stats.failures
      rw [FarCall.stats_opened]
      rfl
    · rw [FarCall.bus_closed]
    · rw [FarCall.irq_closed]
    · rw [FarCall.stats_closed]
  · rw [htarget] at hscan
    exact absurd hscan (by decide)
  · exact absurd htarget hother

/-- Calls and preemption points of a linked firmware serve the conditions. -/
theorem serves_linkage (h : Firmware.link image DispatchEntry.standard config = .ok fw)
    (himage : b.Prepared image) (n : Nat) : b.Serves (fw.linkage n) := by
  have hown := Firmware.composedOf_of_link admits_ownStep h (composedOf_of_prepared himage)
  induction n with
  | zero =>
    exact ⟨fun _ _ _ _ => Run.keeps_giveUp, fun _ => Run.keeps_giveUp,
      fun _ _ _ _ hcall => (by cases hcall), Run.keeps_giveUp⟩
  | succ n ih =>
    have hkeeps := (Firmware.restores_linkage h hown n).keeps
    refine ⟨?_, ?_, ?_, ?_⟩
    · intro id hscan hhandler param
      refine called_within h himage hkeeps fun slot hslot placed hmem haddr => ?_
      obtain ⟨hhandler', hscan'⟩ := target_of_slot? h hslot
      rcases routine_cases h himage hmem with ⟨hplace, -⟩ | ⟨hplace, -⟩ | ⟨-, -, hplain⟩
      · exact absurd (hhandler'.1 (haddr.symm.trans hplace)) hhandler
      · exact absurd (hscan'.1 (haddr.symm.trans hplace)) hscan
      · exact hplain.within ih param
    · intro param
      refine called_within h himage hkeeps fun slot hslot placed hmem haddr => ?_
      have htarget : placed.addr = scanTarget := haddr.trans ((target_of_slot? h hslot).2.2 rfl)
      rcases routine_cases h himage hmem with ⟨hplace, -⟩ | ⟨-, hbody⟩ | ⟨-, hother, -⟩
      · rw [htarget] at hplace
        exact absurd hplace (by decide)
      · rw [hbody]
        exact scanRoutine_within ih param
      · exact absurd htarget hother
    · intro offset s r t hcall
      exact called_handler h himage hkeeps ih hcall
    · intro s _ t hpoll
      rw [Firmware.poll_linkage] at hpoll
      split at hpoll
      · cases hpoll
        exact extends_within.refl s
      next line hline =>
        obtain ⟨_, u, hservice, hrest⟩ := Run.bind_eq_done.1 hpoll
        exact extends_within.trans (service_within ih hkeeps hline hservice) (ih.poll u () t hrest)

end ConditionBus

namespace Contention

/-- The condition that is raised. -/
def condition : Condition := ⟨0, 0⟩

def raise : Run (Machine (Journaled EndpointPort)) Unit :=
  EndpointPort.conditionBus.raiseConditions condition.endpoint condition.mask

def handler : Routine (Journaled EndpointPort) := fun l _ => do
  l.poll
  raise

def routine? (e : DispatchEntry) : Option (Placed (Routine (Journaled EndpointPort))) :=
  if e.slot = .endpointScan ∨ e.slot = .commandService then none
  else if e.slot = .endpointHandler then
    some ⟨"handler", e.target, ConditionBus.announcing handler⟩
  else some ⟨"idle", e.target, fun _ _ => pure ()⟩

def image : CodeImage (Routine (Journaled EndpointPort)) :=
  ⟨DispatchEntry.standard.filterMap routine?⟩

/-- The handler takes a preemption point and then finds its condition raised again. -/
def firmware : Firmware (Journaled EndpointPort) where
  config := .standard
  table := ⟨(DispatchEntry.standard.map DispatchTable.slotOf).foldr DispatchTable.insert []⟩
  image := image.installCore scanRoutine commandServiceRoutine DispatchEntry.standard

/-- The scan is called while the endpoint line is pending. -/
def program (l : Linkage (Journaled EndpointPort)) : Run (Machine (Journaled EndpointPort)) Unit := do
  raise
  Machine.raiseIrq .endpoint
  l.dispatch .endpointScan none

/-- A machine on which all lines are enabled. -/
def machine : Machine (Journaled EndpointPort) :=
  let m := firmware.machine ⟨.initial, []⟩ none
  { m with irq := { m.irq with enable := 0xFF } }

theorem link_image : Firmware.link image DispatchEntry.standard .standard = .ok firmware := rfl

theorem prepared_image : EndpointPort.conditionBus.Prepared image := by
  have hplain : EndpointPort.conditionBus.Plain handler := by
    refine ⟨fun _ => .sequence .poll fun _ => .step _ (.raise _ _), fun _ _ => rfl⟩
  have hidle : EndpointPort.conditionBus.Plain fun _ _ => pure () :=
    ⟨fun _ => .done (), fun _ _ => rfl⟩
  have hcases : ∀ placed ∈ image.routines, ∃ e ∈ DispatchEntry.standard, placed.addr = e.target ∧
      e.slot ≠ .endpointScan ∧
        (e.slot = .endpointHandler ∧ placed.body = ConditionBus.announcing handler ∨
          e.slot ≠ .endpointHandler ∧ placed.body = fun _ _ => pure ()) := by
    intro placed hplaced
    obtain ⟨e, he, hroutine⟩ := List.mem_filterMap.1 hplaced
    unfold routine? at hroutine
    refine ⟨e, he, ?_⟩
    split at hroutine
    · cases hroutine
    next hcore =>
      rw [not_or] at hcore
      split at hroutine
      next hhandler =>
        cases hroutine
        exact ⟨rfl, hcore.1, .inl ⟨hhandler, rfl⟩⟩
      next hhandler =>
        cases hroutine
        exact ⟨rfl, hcore.1, .inr ⟨hhandler, rfl⟩⟩
  constructor
  · intro placed hplaced haddr
    obtain ⟨e, he, htarget, -, ⟨-, hbody⟩ | ⟨hother, -⟩⟩ := hcases placed hplaced
    · exact ⟨handler, hplain, hbody⟩
    · exact absurd ((ConditionBus.target_standard e he).1.1 (htarget.symm.trans haddr)) hother
  · intro placed hplaced haddr
    obtain ⟨e, he, htarget, hscan, ⟨hhandler, -⟩ | ⟨-, hbody⟩⟩ := hcases placed hplaced
    · exact absurd (htarget.trans ((ConditionBus.target_standard e he).1.2 hhandler)) haddr
    · rw [hbody]
      have hother : placed.addr ≠ ConditionBus.scanTarget := fun hplace =>
        hscan ((ConditionBus.target_standard e he).2.1 (htarget.symm.trans hplace))
      exact ⟨hother, hidle⟩

theorem composed_program : Composed (ConditionBus.StatusStep EndpointPort.conditionBus) program :=
  .sequence (.step _ (.raise _ _)) fun _ =>
    .sequence (.step _ (.aside _ (.raise _) (Machine.keeps_onIrq ConditionBus.extends_aside _)))
      fun _ => .dispatch _ _

theorem spares_program : Spares [.endpointHandler] program :=
  .bind (fun _ => rfl) fun _ => .bind (fun _ => rfl) fun _ => .dispatch (by decide) _

/-- The journal of the program, what is pending after it, and the number of failures. -/
theorem program_ends :
    (program (firmware.linkage 8) machine).ask? (fun t =>
      (t.bus.journal, EndpointPort.conditionBus.pending condition t.bus, t.stats.failures)) =
    some ([.raised 0 1, .handed 0, .handed 0, .raised 0 1, .cleared 0 1, .raised 0 1, .cleared 0 1],
      false, 0) := by
  decide +kernel

end Contention

/-- What a program leaves of the conditions that calls the scan and takes interrupts as it likes, in
a firmware of which the handler takes interrupts and calls other slots as it likes. No condition is
handed over more than twice before it is cleared: once by a step, and once by the step of a scan
that interrupts the first. If no dispatch failed, then every clear ends a step that was handed the
condition while it was pending; such a step takes back what was raised meanwhile only if a step
that was nested in it was handed and cleared the condition before; and a condition that is raised
while no step is serving it is handed over once or twice before it is cleared, or is still
pending. -/
theorem Firmware.conditions_serviced [RegisterBus β] {b : ConditionBus β}
    {image : CodeImage (Routine (Journaled β))} {config : FirmwareConfig}
    {fw : Firmware (Journaled β)}
    (h : Firmware.link image DispatchEntry.standard config = .ok fw) (himage : b.Prepared image)
    {program : Linkage (Journaled β) → Run (Machine (Journaled β)) α}
    (hprogram : Composed (ConditionBus.StatusStep b) program) (hspares : Spares [.endpointHandler] program)
    {n : Nat} {s t : Machine (Journaled β)} {a : α} (hrun : program (fw.linkage n) s = .done a t)
    (hs : b.wired s.bus.bus) :
    ∃ entries, t.bus.journal = s.bus.journal ++ entries ∧ ∀ c,
      b.pending c t.bus = pendingAfter (b.pending c s.bus) (JournalEntry.marks c entries) ∧
      (∀ part, part <:+: JournalEntry.marks c entries → .cleared ∉ part →
        part.count .handed ≤ 2) ∧
      (t.stats.failures = s.stats.failures →
        Serviced 2 (b.pending c s.bus) (JournalEntry.marks c entries)) := by
  have hserves := ConditionBus.serves_linkage h himage n
  have hwithin : b.Within 1 s t := hserves.within hprogram hspares s a t hrun
  obtain ⟨entries, htold, hcourse⟩ := hwithin.told hs
  refine ⟨entries, htold.journal, fun c => ?_⟩
  have htwo : Course (s.stats.failures < t.stats.failures) 2 (b.pending c s.bus)
      (JournalEntry.marks c entries) := by
    have hc := hcourse c
    unfold interruptDepth at hc
    split at hc
    · exact hc.deeper
    · exact hc
  refine ⟨htold.pending c, fun part hpart => htwo.count_handed_le hpart, fun hfailures => ?_⟩
  exact (htwo.weaken fun hlt => absurd hlt (by omega)).serviced

theorem Firmware.conditions_serviced_contention :
    ∃ t entries, Contention.program (Contention.firmware.linkage 8) Contention.machine = .done () t ∧
      t.bus.journal = entries ∧
      Serviced 2 false (JournalEntry.marks Contention.condition entries) := by
  obtain ⟨_, t, hrun, hends⟩ := Outcome.done_of_ask? Contention.program_ends
  obtain ⟨entries, hjournal, hall⟩ := Firmware.conditions_serviced Contention.link_image
    Contention.prepared_image Contention.composed_program Contention.spares_program hrun trivial
  have hfailures : t.stats.failures = 0 := congrArg (fun e => e.2.2) hends
  exact ⟨t, entries, hrun, hjournal, (hall Contention.condition).2.2 hfailures⟩

/-- A scan that is interrupted in a step hands the condition over a second time, and the step then
clears what was raised after the interrupting scan had cleared it: nobody is handed that, and it is
not pending any more. -/
theorem Contention.handed_twice :
    ∃ t marks, program (firmware.linkage 8) machine = .done () t ∧
      JournalEntry.marks condition t.bus.journal = marks ∧
      marks = [.raised, .handed, .handed, .raised, .cleared, .raised, .cleared] ∧
      (∃ part, part <:+: marks ∧ .cleared ∉ part ∧ part.count .handed = 2) ∧
      (∃ first, marks = first ++ [.raised, .cleared] ∧ pendingAfter false first = false) ∧
      EndpointPort.conditionBus.pending condition t.bus = false := by
  obtain ⟨_, t, hrun, hends⟩ := Outcome.done_of_ask? program_ends
  have hjournal := congrArg Prod.fst hends
  have hpending := congrArg (fun e => e.2.1) hends
  dsimp only at hjournal hpending
  refine ⟨t, _, hrun, rfl, ?_, ?_, ?_, hpending⟩
  all_goals rw [hjournal]
  · rfl
  · exact ⟨[.raised, .handed, .handed], ⟨[], [.raised, .cleared, .raised, .cleared], rfl⟩,
      by decide, by decide⟩
  · exact ⟨[.raised, .handed, .handed, .raised, .cleared], rfl, rfl⟩

end BankedController
