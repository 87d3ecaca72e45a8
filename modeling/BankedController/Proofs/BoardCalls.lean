import BankedController.Proofs.BoardSteps
import BankedController.Proofs.Nesting

namespace BankedController

namespace DispatchTable

/-- A table that was built holds its entries' slots. -/
theorem eq_of_build {entries : List DispatchEntry} {present : CodeAddr → Bool}
    {table : DispatchTable} (h : build entries present = .ok table) :
    table = ⟨(entries.map slotOf).foldr insert []⟩ := by
  unfold build at h
  split at h
  · cases h
  · exact (Except.ok.inj h).symm

end DispatchTable

namespace Board

open RegisterMap

variable {config : FirmwareConfig} {fw : BoardFirmware}

/-- No two slots of the shipped table share a target. -/
theorem slot_of_target : ∀ e ∈ DispatchEntry.standard, ∀ f ∈ DispatchEntry.standard,
    e.target = f.target → e.slot = f.slot := by
  decide

/-- The routine of a slot. -/
def routineOf (id : SlotId) : Routine (Rig Record) :=
  if id = .endpointScan then scanRoutine
  else if id = .commandService then commandServiceRoutine
  else standIn id

theorem body_of_target (h : link config = .ok fw) {id : SlotId} {slot : DispatchSlot}
    (hslot : fw.table.slot? id = some slot) {placed : Placed (Routine (Rig Record))}
    (hmem : placed ∈ fw.image.routines) (haddr : placed.addr = slot.target) :
    placed.body = routineOf id := by
  obtain ⟨-, -, himage, htable⟩ := Firmware.link_eq_ok h
  obtain ⟨e, he, rfl, rfl⟩ := DispatchTable.entry_of_slot? htable hslot
  have hid {f : DispatchEntry} (hf : f ∈ DispatchEntry.standard)
      (htarget : placed.addr = f.target) : f.slot = e.slot :=
    slot_of_target f hf e he (htarget.symm.trans haddr)
  rw [himage] at hmem
  unfold routineOf
  rcases CodeImage.mem_installCore hmem with
    hstandIn | ⟨f, hf, htarget, ⟨hscan, hbody⟩ | ⟨hservice, hbody⟩⟩
  · rw [CodeImage.mem_ofList] at hstandIn
    obtain ⟨f, hf, rfl⟩ := List.mem_map.1 hstandIn
    obtain ⟨hf, hcore⟩ := List.mem_filter.1 hf
    have hslot := hid hf rfl
    rw [hslot] at hcore ⊢
    simp only [SlotId.isCore, Bool.not_eq_true', Bool.or_eq_false_iff,
      decide_eq_false_iff_not] at hcore
    rw [if_neg hcore.1, if_neg hcore.2]
  · rw [if_pos ((hid hf htarget).symm.trans hscan)]
    exact hbody
  · have hslot := (hid hf htarget).symm.trans hservice
    rw [hslot, if_neg (by decide), if_pos rfl]
    exact hbody

section Calls

variable {l : Linkage (Rig Record)} {id : SlotId} {param : Option UInt8} {f : Intake → Intake}

theorem Moved.of_opened {slot : DispatchSlot} {s u : State}
    (h : Moved f (FarCall.opened slot param { s with stats := s.stats.called id }) u) :
    Moved f s (FarCall.closed slot s.window.active s.stack.entries u) := by
  have hrestored := FarCall.restored_of_closed h.kept
  refine ⟨?_, ?_, ?_, ?_⟩
  · rw [FarCall.bus_closed]
    exact h.sound
  · rw [FarCall.bus_closed, h.intake, FarCall.bus_opened]
  · rw [FarCall.irq_closed, h.irq, FarCall.irq_opened]
  · exact ⟨hrestored.entries, hrestored.used, hrestored.capacity, hrestored.inService⟩

/-- A call with room for its frame does what its routine does. -/
theorem called_moved (h : link config = .ok fw) {slot : DispatchSlot}
    (hslot : fw.table.slot? id = some slot) {s : State}
    (hfits : s.stack.used + 5 ≤ s.stack.capacity)
    (hbody : ∃ u, routineOf id l param
        (FarCall.opened slot param { s with stats := s.stats.called id }) = .done () u ∧
      Moved f (FarCall.opened slot param { s with stats := s.stats.called id }) u) :
    ∃ r t, fw.callWith l id param s = .done r t ∧ Moved f s t := by
  obtain ⟨placed, hmem, haddr, hcall⟩ := Firmware.callWith_of_fits h l hslot param hfits
  rw [body_of_target h hslot hmem haddr] at hcall
  obtain ⟨u, hrun, hmoved⟩ := hbody
  exact ⟨_, _, hcall u hrun hmoved.kept, hmoved.of_opened⟩

theorem does_called (h : link config = .ok fw) {slot : DispatchSlot}
    (hslot : fw.table.slot? id = some slot) (hbody : Does 0 f (routineOf id l param)) :
    Does 5 f (fw.callWith l id param) := by
  intro s hs hfits
  refine called_moved h hslot hfits ?_
  have hopened : Sound (FarCall.opened slot param { s with stats := s.stats.called id }).bus := by
    rw [FarCall.bus_opened]
    exact hs
  obtain ⟨_, u, hrun, hmoved⟩ := hbody _ hopened hfits
  exact ⟨u, hrun, hmoved⟩

/-- A call of a routine that leaves the intake alone does so with or without room for its frame. -/
theorem calm_called (h : link config = .ok fw) (hbody : Calm (routineOf id l param)) :
    Calm (fw.callWith l id param) := by
  intro s hs _
  cases hslot : fw.table.slot? id with
  | none =>
    refine ⟨.error (.unknownSlot id), s, ?_, .refl hs⟩
    unfold Firmware.callWith
    rw [hslot]
    rfl
  | some slot =>
    by_cases hfits : s.stack.used + 5 ≤ s.stack.capacity
    · exact does_called h hslot hbody s hs hfits
    · obtain ⟨t, hcall, hunmoved⟩ :=
        Firmware.callWith_of_overflow h l hslot param (Nat.lt_of_not_le hfits)
      have hkept := hunmoved.restored.toKept
      refine ⟨_, t, hcall, ?_, ?_, hunmoved.irq,
        ⟨hkept.entries, hkept.used, hkept.capacity, hkept.inService⟩⟩
      · rw [hunmoved.bus]
        exact hs
      · rw [hunmoved.bus]
        rfl

theorem does_dispatch {f : Intake → Intake} {room : Nat} (h : Does room f (l.call id param)) :
    Does room f (l.dispatch id param) := by
  refine h.before fun result => ?_
  cases result with
  | ok => exact does_pure ()
  | error e => exact does_failed.then fun _ => does_note _

/-- The stand-ins that the intake does not see. -/
theorem calm_standIn (h : link config = .ok fw) (n : Nat) (hreceived : id ≠ .cbwReceived)
    (hcore : id ≠ .endpointScan ∧ id ≠ .commandService) :
    Calm ((fw.linkage (n + 1)).call id param) := by
  have hbody : Calm (routineOf id (fw.linkage n) param) := by
    unfold routineOf
    rw [if_neg hcore.1, if_neg hcore.2]
    exact does_standIn hreceived param
  exact calm_called h hbody

end Calls

section Scan

variable {l : Linkage (Rig Record)} (hhandler : ∀ param, Calm (l.call .endpointHandler param))

include hhandler

theorem calm_scanStep : Calm l.scanStep := by
  have hread {addr : UInt16} (h : ¬addr - nvmeBlock < blockSize) :
      Calm (Machine.read addr : Run State UInt8) := does_read h
  have hwrite {addr : UInt16} (h : Unwatched addr) (value : UInt8) :
      Calm (Machine.write addr value : Run State Unit) := does_write (h.harmless value)
  refine (hread (by decide)).then fun primary => ?_
  refine (hwrite (by decide) _).then fun _ => ?_
  refine does_branch (does_pure _) ?_
  refine (hread (by decide)).then fun index => ?_
  by_cases hindex : index ≥ Endpoint.count
  · rw [if_pos hindex]
    exact does_pure _
  rw [if_neg hindex]
  have hsecondary := unwatched_secondary (Composed.secondary_of_index hindex)
  refine (hread hsecondary.2).then fun secondary => ?_
  refine does_branch (does_pure _) ?_
  refine (hwrite (by decide) _).then fun _ => ?_
  refine (does_note _).then fun _ => ?_
  refine (does_dispatch (hhandler _)).then fun _ => ?_
  exact (hwrite hsecondary _).then fun _ => does_pure _

theorem calm_scanSteps (limit : Nat) : Calm (l.scanSteps limit) := by
  induction limit with
  | zero => exact does_pure _
  | succ limit ih =>
    refine (calm_scanStep hhandler).then fun found => ?_
    cases found with
    | none => exact does_pure _
    | some offset => exact ih.then fun _ => does_pure _

variable (hmaster : ∀ param, Calm (l.call .masterEvent param))

include hmaster

theorem calm_scan : Calm l.scan := by
  have hready : Calm (Linkage.masterReady : Run State Bool) :=
    (does_read (by decide)).then fun _ => does_pure _
  have hfrom (forced : Bool) (limit : UInt8) : Calm (l.scanFrom forced limit) := by
    refine (calm_scanSteps hhandler _).then fun result => ?_
    refine hready.then fun master => ?_
    have hend : Calm (do
        if result.2 = .exhausted then
          Machine.note (.scanLimitReached limit)
        pure ⟨forced, result.1, result.2, master⟩ : Run State Endpoint.ScanReport) := by
      exact does_branch ((does_note _).then fun _ => does_pure _) (does_pure _)
    exact does_branch ((does_dispatch (hmaster none)).then fun _ => hend) hend
  refine hready.then fun forced => ?_
  refine does_branch ?_ (hfrom _ _)
  exact (does_note _).then fun _ => (does_dispatch (hhandler _)).then fun _ => hfrom _ _

end Scan

section Linkage

variable (h : link config = .ok fw)

include h

/-- Whatever is called but the stand-in for a received command and the command service. -/
theorem calm_call (n : Nat) {id : SlotId} (hreceived : id ≠ .cbwReceived)
    (hservice : id ≠ .commandService) (param : Option UInt8) :
    Calm ((fw.linkage (n + 2)).call id param) := by
  by_cases hscan : id = .endpointScan
  · subst hscan
    have hroutine : Calm (scanRoutine (fw.linkage (n + 1)) param) := by
      refine (calm_scan ?_ ?_).then fun report => does_note _
      · exact fun _ => calm_standIn h n (by decide) (by decide)
      · exact fun _ => calm_standIn h n (by decide) (by decide)
    exact calm_called h hroutine
  · exact calm_standIn h (n + 1) hreceived ⟨hscan, hservice⟩

/-- A status test of which neither the slot nor an access is anything to the intake. -/
def calmTest (test : StatusTest) : Bool :=
  test.slot ≠ .cbwReceived && test.slot ≠ .commandService &&
    (match test.source with
      | .snapshot => true
      | .reread register => ¬register - nvmeBlock < blockSize) &&
    match test.ack with
      | .handler => true
      | .writeMask register => Harmless register test.mask
      | .clearMask register => Unwatched register

theorem calm_runTest (n : Nat) {test : StatusTest} (htest : calmTest test = true)
    (snapshot : UInt8) : Calm ((fw.linkage (n + 2)).runTest snapshot test) := by
  obtain ⟨source, mask, slot, ack⟩ := test
  simp only [calmTest, Bool.and_eq_true, decide_eq_true_eq] at htest
  obtain ⟨⟨⟨hreceived, hservice⟩, hsource⟩, hack⟩ := htest
  have hacknowledge : Calm (Linkage.acknowledge ⟨source, mask, slot, ack⟩ : Run State Unit) := by
    cases ack with
    | handler => exact does_pure ()
    | writeMask register => exact does_write (of_decide_eq_true hack)
    | clearMask register => exact does_clearBits (of_decide_eq_true hack) mask
  have hfire (value : UInt8) : Calm (do
      if value &&& mask = 0 then
        pure ()
      else
        (fw.linkage (n + 2)).dispatch slot none
        Linkage.acknowledge ⟨source, mask, slot, ack⟩ : Run State Unit) :=
    does_branch (does_pure ())
      ((does_dispatch (calm_call h n hreceived hservice none)).then fun _ => hacknowledge)
  cases source with
  | snapshot => exact hfire snapshot
  | reread register => exact Does.then (does_read (of_decide_eq_true hsource)) hfire

theorem calm_runTests (n : Nat) (snapshot : UInt8) {tests : List StatusTest}
    (htests : ∀ test ∈ tests, calmTest test = true) :
    Calm ((fw.linkage (n + 2)).runTests snapshot tests) := by
  induction tests with
  | nil => exact does_pure ()
  | cons test rest ih =>
    have htest := calm_runTest h n (htests test List.mem_cons_self) snapshot
    exact htest.then fun _ => ih fun t ht => htests t (List.mem_cons_of_mem _ ht)

/-- A slot of the shipped table. -/
theorem slot_of_standard {id : SlotId} (hid : id ∈ DispatchEntry.standard.map DispatchEntry.slot) :
    ∃ slot, fw.table.slot? id = some slot := by
  let table : DispatchTable :=
    ⟨(DispatchEntry.standard.map DispatchTable.slotOf).foldr DispatchTable.insert []⟩
  have hfound : ∀ id ∈ DispatchEntry.standard.map DispatchEntry.slot, (table.slot? id).isSome := by
    decide
  obtain ⟨-, -, -, htable⟩ := Firmware.link_eq_ok h
  rw [DispatchTable.eq_of_build htable]
  exact Option.isSome_iff_exists.1 (hfound id hid)

theorem does_received (n : Nat) (param : Option UInt8) :
    Does 5 Intake.relay ((fw.linkage (n + 1)).call .cbwReceived param) := by
  obtain ⟨slot, hslot⟩ := slot_of_standard h (by decide : SlotId.cbwReceived ∈ _)
  have hbody : Does 0 Intake.relay (routineOf .cbwReceived (fw.linkage n) param) :=
    @does_relay 0 (fw.linkage n) param
  exact does_called h hslot hbody

theorem calm_system (n : Nat) : Calm ((fw.linkage (n + 2)).route .system) := by
  refine Does.then (does_read (by decide)) fun snapshot => ?_
  exact (does_note _).then fun _ => calm_runTests h n snapshot (by decide)

/-- A sample of USB status without the command bit receives nothing, and one with it receives a
command. -/
theorem runTests_endpoint (n : Nat) (snapshot : UInt8) :
    Does 5 (fun i => if snapshot &&& usbCommandBit = 0 then i else i.relay)
      ((fw.linkage (n + 2)).runTests snapshot LineRoute.endpoint.tests) := by
  have hcalm {test : StatusTest} (htest : calmTest test = true) :
      Does 5 id ((fw.linkage (n + 2)).runTest snapshot test) :=
    (calm_runTest h n htest snapshot).mono (Nat.zero_le 5)
  have hcommand : Does 5 (fun i => if snapshot &&& usbCommandBit = 0 then i else i.relay)
      ((fw.linkage (n + 2)).runTest snapshot
        ⟨.snapshot, usbCommandBit, .cbwReceived, .handler⟩) := by
    change Does 5 _ (do
      if snapshot &&& usbCommandBit = 0 then
        pure ()
      else
        (fw.linkage (n + 2)).dispatch .cbwReceived none
        pure () : Run State Unit)
    by_cases hzero : snapshot &&& usbCommandBit = 0
    · simp only [if_pos hzero]
      exact does_pure ()
    · simp only [if_neg hzero]
      exact (does_dispatch (does_received h (n + 1) none)).before fun _ => does_pure ()
  refine (hcalm (by decide)).then fun _ => (hcalm (by decide)).then fun _ => ?_
  refine (hcalm (by decide)).then fun _ => hcommand.before fun _ => ?_
  exact (hcalm (by decide)).then fun _ => (hcalm (by decide)).then fun _ => does_pure ()

/-- The route of the endpoint line receives a command if one has arrived. -/
theorem does_endpoint (n : Nat) :
    Does 5 Intake.receive ((fw.linkage (n + 2)).route .endpoint) := by
  intro s hs hfits
  have hread : Machine.read (LineRoute.ofLine .endpoint).status s = .done s.bus.blocks.usb s :=
    Machine.onBus_of_done hs.intact.read_usb
  have hrest : Does 5 _ (do
      Machine.note (.route .endpoint s.bus.blocks.usb)
      (fw.linkage (n + 2)).runTests s.bus.blocks.usb LineRoute.endpoint.tests : Run State Unit) :=
    (does_note _).then fun _ => runTests_endpoint h n s.bus.blocks.usb
  obtain ⟨_, t, hrun, hmoved⟩ := hrest s hs hfits
  refine ⟨(), t, (Run.bind_of_done hread).trans hrun, hmoved.sound, ?_, hmoved.irq, hmoved.kept⟩
  rw [hmoved.intake]
  unfold Intake.receive
  by_cases hzero : s.bus.blocks.usb &&& usbCommandBit = 0
  · have harrived : (intake s.bus).arrived = false := decide_eq_false (not_not.2 hzero)
    rw [if_pos hzero, harrived]
    rfl
  · have harrived : (intake s.bus).arrived = true := decide_eq_true hzero
    rw [if_neg hzero, harrived]
    rfl

end Linkage

end Board

end BankedController
