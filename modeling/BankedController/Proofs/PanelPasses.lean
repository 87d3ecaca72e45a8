import BankedController.Proofs.PanelScans
import BankedController.Proofs.PanelService

namespace BankedController

open RegisterMap

/-- The most steps that a scan takes. -/
def FirmwareConfig.scanSteps (config : FirmwareConfig) : Nat :=
  (min config.scanLimit maxScanSteps).toNat

namespace Board

variable {α γ : Type} {c : InterruptController} {depth : Nat} {m : Run State α}
  {config : FirmwareConfig} {fw : BoardFirmware}

/-- A register on the panel that is no condition of an endpoint. -/
def onPanel (register : UInt16) : Bool :=
  register = endpointStatus || Cell.all.any fun cell => cell.addr = register

theorem readable_of_onPanel {register : UInt16} (h : onPanel register = true) :
    Readable register := by
  simp only [onPanel, Bool.or_eq_true, List.any_eq_true, decide_eq_true_eq] at h
  rcases h with hprimary | ⟨cell, -, hcell⟩
  · exact .inl hprimary
  · exact .inr (.inl ⟨cell, hcell⟩)

/-- A status test that dispatches a shipped slot, but not the command service, and of which the
registers are on the panel. -/
def charted (test : StatusTest) : Bool :=
  test.slot ∈ DispatchEntry.standard.map DispatchEntry.slot && test.slot ≠ .commandService &&
    (match test.source with
      | .snapshot => true
      | .reread register => onPanel register) &&
    match test.ack with
      | .handler | .writeMask _ => true
      | .clearMask register => onPanel register

section Slots

variable (h : link config = .ok fw)

include h

/-- A dispatch of any slot but the command service. -/
theorem shows_dispatch_slot (n : Nat) {id : SlotId}
    (hid : id ∈ DispatchEntry.standard.map DispatchEntry.slot) (hservice : id ≠ .commandService) :
    Shows c 10 (fun r p => p.dispatch config.scanSteps r id)
      ((fw.linkage (n + 2)).dispatch id none) := by
  by_cases hscan : id = .endpointScan
  · subst hscan
    have hlimit : (fw.linkage (n + 1)).config.scanSteps = config.scanSteps := by
      obtain ⟨-, hconfig, -, -⟩ := Firmware.link_eq_ok h
      exact congrArg FirmwareConfig.scanSteps hconfig
    have hsteps : Shows c 5 (fun r p => p.scan config.scanSteps r) (fw.linkage (n + 1)).scan := by
      rw [← hlimit]
      exact shows_scan (fun param => shows_dispatch_standIn h n (by decide) param)
        (shows_dispatch_standIn h n (by decide) none)
    have hroutine : Shows c 5 (fun r p => p.scan config.scanSteps r)
        (routineOf .endpointScan (fw.linkage (n + 1)) none) :=
      hsteps.bind fun report => shows_note (.scanDone report)
    exact shows_dispatch h rfl hid hroutine
  · have hstandIn := shows_dispatch_standIn (c := c) h (n + 1) ⟨hid, hscan, hservice⟩ none
    refine (hstandIn.mono (by decide)).congr fun r p => ?_
    simp only [Panel.dispatch, Panel.standIn, if_neg hscan, if_neg hservice]

theorem shows_runTest (n : Nat) {test : StatusTest} (htest : charted test = true)
    (snapshot : UInt8) : Shows c 10 (fun r p => p.runTest config.scanSteps r snapshot test)
      ((fw.linkage (n + 2)).runTest snapshot test) := by
  obtain ⟨source, mask, slot, ack⟩ := test
  simp only [charted, Bool.and_eq_true, decide_eq_true_eq] at htest
  obtain ⟨⟨⟨hslot, hservice⟩, hsource⟩, hack⟩ := htest
  have hdispatch := shows_dispatch_slot (c := c) h n hslot hservice
  have hacknowledge : Shows c 10 (fun _ p => p.acknowledge ack mask)
      (Linkage.acknowledge ⟨source, mask, slot, ack⟩ : Run State Unit) := by
    cases ack with
    | handler => exact shows_pure ()
    | writeMask register => exact shows_write register mask
    | clearMask register => exact shows_clearBits (readable_of_onPanel hack) mask
  have hfire (value : UInt8) := shows_branch (q := value &&& mask = 0) (shows_pure ())
    (hdispatch.bind fun _ => hacknowledge)
  cases source with
  | snapshot => exact (answers_pure snapshot).bind hfire
  | reread register => exact (answers_read (readable_of_onPanel hsource)).bind hfire

theorem shows_runTests (n : Nat) {tests : List StatusTest}
    (htests : ∀ test ∈ tests, charted test = true) (snapshot : UInt8) :
    Shows c 10 (fun r p => p.runTests config.scanSteps r snapshot tests)
      ((fw.linkage (n + 2)).runTests snapshot tests) := by
  induction tests with
  | nil => exact shows_pure ()
  | cons test rest ih =>
    have htest := shows_runTest (c := c) h n (htests test List.mem_cons_self) snapshot
    exact htest.bind fun _ => ih fun t ht => htests t (List.mem_cons_of_mem _ ht)

theorem shows_route (n : Nat) (line : IrqLine) :
    Shows c 10 (fun r p => p.route config.scanSteps r line) ((fw.linkage (n + 2)).route line) := by
  have hstatus : onPanel (LineRoute.ofLine line).status = true := by cases line <;> decide
  have htests : ∀ test ∈ (LineRoute.ofLine line).tests, charted test = true := by
    cases line <;> decide
  have hrest (snapshot : UInt8) := (shows_note (.route line snapshot)).bind fun _ =>
    shows_runTests (c := c) h n htests snapshot
  exact (answers_read (readable_of_onPanel hstatus)).bind hrest

end Slots

/-- The interrupt controller and the panel of a board. -/
def console (s : State) : Console := ⟨s.irq, panel s⟩

/-- The run ends and moves the console. -/
def Plays (depth : Nat) (f : Nat → Console → Console) (m : Run State α) : Prop :=
  ∀ s : State, s.bus.Intact →
    ∃ a t, m s = .done a t ∧ Returns depth s t ∧ console t = f (room s) (console s)

theorem Plays.bind {f g : Nat → Console → Console} {k : α → Run State γ} (hm : Plays depth f m)
    (hk : ∀ a, Plays depth g (k a)) : Plays depth (fun r c => g r (f r c)) (m >>= k) := by
  intro s hs
  obtain ⟨a, t, hrun, ht, hconsole⟩ := hm s hs
  obtain ⟨b, u, hrest, hu, hconsole'⟩ := hk a t ht.intact
  refine ⟨b, u, (Run.bind_of_done hrun).trans hrest, ht.trans hu, ?_⟩
  rw [hconsole', ht.room, hconsole]

/-- What the panel shows whatever the state of the interrupt controller. -/
theorem Shows.plays {f : Nat → Panel → Panel} (h : ∀ c, Shows c depth f m) :
    Plays depth (fun r c => c.onPanel (f r)) m := by
  intro s hs
  obtain ⟨a, t, hrun, hstays, hpanel⟩ := h s.irq s hs rfl
  refine ⟨a, t, hrun, hstays.toReturns, ?_⟩
  unfold console Console.onPanel
  rw [hstays.irq, hpanel]

namespace Console

theorem raised_service {c : Console} {line : IrqLine} (h : c.irq.next? = some line) (limit r : Nat) :
    (c.service limit r line).irq.pending.raised + 1 = c.irq.pending.raised :=
  PerLine.raised_set (InterruptController.pending_of_next? h)

/-- After a preemption point at which all pending lines may be taken there is none to take. -/
theorem next?_poll {c : Console} {count : Nat} (h : c.irq.pending.raised ≤ count) (limit r : Nat) :
    (c.poll limit r count).irq.next? = none := by
  induction count generalizing c with
  | zero =>
    by_contra hsome
    obtain ⟨line, hline⟩ := Option.ne_none_iff_exists'.1 hsome
    have := @raised_service c line hline limit r
    omega
  | succ count ih =>
    unfold poll
    cases hnext : c.irq.next? with
    | none => exact hnext
    | some line =>
      have := raised_service hnext limit r
      exact ih (by omega)

theorem raised_le_two (p : PerLine Bool) : p.raised ≤ 2 := List.count_le_length

theorem next?_runPollers (limit r : Nat) {slots : List SlotId} (hne : slots ≠ []) (c : Console) :
    (c.runPollers limit r slots).irq.next? = none := by
  induction slots generalizing c with
  | nil => exact absurd rfl hne
  | cons slot rest ih =>
    cases rest with
    | nil => exact next?_poll (raised_le_two _) limit r
    | cons next others => exact ih (List.cons_ne_nil next others) _

end Console

section Passes

variable (h : link config = .ok fw)

include h

/-- A line is taken for which there is room. -/
theorem service_of_fits (n : Nat) (line : IrqLine) {s : State} (hs : s.bus.Intact)
    (hfits : s.stack.used + 3 ≤ s.stack.capacity) :
    ∃ t, (fw.linkage (n + 2)).serviceInterrupt line s = .done () t ∧ Returns 13 s t ∧
      console t = (console s).service config.scanSteps (room s) line := by
  let o := Linkage.interrupted line s
  obtain ⟨_, u, hrun, hstays, hpanel⟩ := shows_route h n line o hs rfl
  let t := Linkage.retired line (Linkage.resumed s.window.active s.stack.entries u)
  have hentries : u.stack.entries =
      .savedBank s.window.active :: .returnTo .interrupt :: s.stack.entries :=
    hstays.restored.entries
  have hused : u.stack.used = s.stack.used + 3 := hstays.restored.used
  have hbus : t.bus = u.bus := Machine.bus_mapped ..
  have hirq : t.irq = (s.irq.acknowledge line).complete line := by
    have hresumed : (u.mapped s.window.active).irq = u.irq := Machine.irq_mapped ..
    change (u.mapped s.window.active).irq.complete line = _
    rw [hresumed, hstays.irq]
    rfl
  have hpanels : panel t = panel u := by
    have hstats : t.stats = u.stats := Machine.stats_mapped ..
    unfold panel
    rw [hbus, hstats]
  have hactive : t.window.active = s.window.active := Machine.active_mapped ..
  refine ⟨t, ?_, ⟨hbus ▸ hstays.intact, ⟨⟨rfl, ?_, hstays.restored.capacity, ?_⟩, hactive⟩, ?_⟩, ?_⟩
  · rw [Linkage.serviceInterrupt_of_fits _ line hfits, Run.bind_of_done hrun,
      Run.bind_of_done (Linkage.leaveInterrupt_of_framed hentries)]
    exact Linkage.retire_ok ..
  · change u.stack.used - 3 = s.stack.used
    omega
  · rw [hirq]
    exact InterruptController.inService_complete rfl
  · -- three bytes for the frame of the interrupt, ten for a scan and its handler
    intro hdeep
    have hroute := hstays.highWater (by change s.stack.used + 2 + 1 + 10 ≤ s.stack.capacity; omega)
    have hmark : o.stack.highWater =
        max (max s.stack.highWater (s.stack.used + 2)) (s.stack.used + 3) := rfl
    have hbase : o.stack.used = s.stack.used + 3 := rfl
    change u.stack.highWater ≤ _
    omega
  · have hroom : room o = room s - 3 := by
      change s.stack.capacity - (s.stack.used + 2 + 1) = s.stack.capacity - s.stack.used - 3
      omega
    have hplace : 3 ≤ room s := by
      unfold room
      omega
    unfold console Console.service
    rw [if_pos hplace, hirq, hpanels, hpanel, hroom]
    rfl

omit h in
/-- A line is taken for which there is none. -/
theorem service_of_overflow (l : Linkage (Rig Record)) (line : IrqLine) {s : State}
    (hs : s.bus.Intact) (hfull : s.stack.capacity < s.stack.used + 3) (limit : Nat) :
    ∃ t, l.serviceInterrupt line s = .done () t ∧ Returns 13 s t ∧
      console t = (console s).service limit (room s) line := by
  obtain ⟨t, hunmoved, hservice⟩ := Linkage.serviceInterrupt_of_overflow line hfull
  have hrestored := Linkage.retired_restores hunmoved.restored
  have hbus : t.bus = s.bus := hunmoved.bus
  have hintact : t.bus.Intact := hbus ▸ hs
  refine ⟨Linkage.retired line t, hservice l, ⟨hintact, hrestored, fun hdeep => by omega⟩, ?_⟩
  have hpanels : panel (Linkage.retired line t) = panel s := by
    have hstats : t.stats = s.stats := hunmoved.stats
    change rigPanel t.stats.failures t.bus = _
    rw [hbus, hstats]
    rfl
  have hirq : (Linkage.retired line t).irq = (s.irq.acknowledge line).complete line :=
    congrArg (fun c => c.complete line) hunmoved.irq
  have hplace : ¬3 ≤ room s := by
    unfold room
    omega
  unfold console Console.service
  rw [if_neg hplace, hpanels, hirq]

/-- A line is taken, with or without room for its frame. -/
theorem plays_service (n : Nat) (line : IrqLine) :
    Plays 13 (fun r c => c.service config.scanSteps r line)
      ((fw.linkage (n + 2)).serviceInterrupt line) := by
  intro s hs
  by_cases hfits : s.stack.used + 3 ≤ s.stack.capacity
  · obtain ⟨t, hserved⟩ := service_of_fits h n line hs hfits
    exact ⟨(), t, hserved⟩
  · obtain ⟨t, hserved⟩ :=
      service_of_overflow (fw.linkage (n + 2)) line hs (Nat.lt_of_not_le hfits) config.scanSteps
    exact ⟨(), t, hserved⟩

/-- A preemption point, with a bound that leaves room for as many lines as are pending. -/
theorem plays_poll (n k : Nat) {s : State} (hs : s.bus.Intact) (hk : s.irq.pending.raised ≤ k) :
    ∃ t, (fw.linkage (n + 2 + k)).poll s = .done () t ∧ Returns 13 s t ∧
      console t = (console s).poll config.scanSteps (room s) k := by
  -- on the bound, of which each line that is taken uses one
  induction k generalizing s with
  | zero =>
    have hnone : s.irq.next? = none := Console.next?_poll (c := console s) hk 0 0
    refine ⟨s, ?_, .refl hs, rfl⟩
    rw [Firmware.poll_linkage, hnone]
  | succ k ih =>
    rw [← Nat.add_assoc, Firmware.poll_linkage]
    unfold Console.poll
    have hsame : (console s).irq.next? = s.irq.next? := rfl
    rw [hsame]
    cases hnext : s.irq.next? with
    | none => exact ⟨s, rfl, .refl hs, rfl⟩
    | some line =>
      obtain ⟨_, t, hservice, ht, hserved⟩ := plays_service h (n + k) line s hs
      have hconsole : console t = (console s).service config.scanSteps (room s) line := hserved
      have hless := @Console.raised_service (console s) line hnext config.scanSteps (room s)
      have hraised : t.irq.pending.raised ≤ k := by
        rw [← hconsole] at hless
        change t.irq.pending.raised + 1 = s.irq.pending.raised at hless
        omega
      obtain ⟨u, hpoll, hu, hconsole'⟩ := ih ht.intact hraised
      dsimp only
      rw [Nat.add_right_comm] at hservice
      refine ⟨u, (Run.bind_of_done hservice).trans hpoll, ht.trans hu, ?_⟩
      rw [hconsole', ht.room, hconsole]

theorem plays_poll_two (n : Nat) :
    Plays 13 (fun r c => c.poll config.scanSteps r 2) (fw.linkage (n + 4)).poll := by
  intro s hs
  obtain ⟨t, hrun, ht, hconsole⟩ := plays_poll h n 2 hs (Console.raised_le_two _)
  exact ⟨(), t, hrun, ht, hconsole⟩

theorem plays_runPollers (n : Nat) {slots : List SlotId}
    (hslots : ∀ id ∈ slots, id ∈ DispatchEntry.standard.map DispatchEntry.slot ∧
      id ≠ .commandService) :
    Plays 13 (fun r c => c.runPollers config.scanSteps r slots)
      ((fw.linkage (n + 4)).runPollers slots) := by
  induction slots with
  | nil => exact fun s hs => ⟨(), s, rfl, .refl hs, rfl⟩
  | cons slot rest ih =>
    obtain ⟨hmem, hservice⟩ := hslots slot List.mem_cons_self
    have hdispatch := Shows.plays fun c =>
      (shows_dispatch_slot (c := c) h (n + 2) hmem hservice).mono (show 10 ≤ 13 by decide)
    have hrest := ih fun id hid => hslots id (List.mem_cons_of_mem _ hid)
    exact hdispatch.bind fun _ => (plays_poll_two h n).bind fun _ => hrest

/-- Any slot may be dispatched while there is no interrupt to take. -/
theorem shows_dispatchAll {n : Nat} (hn : 2 ^ 32 ≤ n) (hc : c.next? = none) {slots : List SlotId}
    (hslots : ∀ id ∈ slots, id ∈ DispatchEntry.standard.map DispatchEntry.slot) :
    Shows c 10 (fun r p => p.dispatchAll config.scanSteps r slots)
      ((fw.linkage (n + 2)).dispatchAll slots) := by
  induction slots with
  | nil => exact shows_pure ()
  | cons slot rest ih =>
    have hrest := ih fun id hid => hslots id (List.mem_cons_of_mem _ hid)
    have hfirst : Shows c 10 (fun r p => p.dispatch config.scanSteps r slot)
        ((fw.linkage (n + 2)).dispatch slot none) := by
      by_cases hservice : slot = .commandService
      · subst hservice
        exact (shows_dispatch_service h hn hc).mono (by decide)
      · exact shows_dispatch_slot h n (hslots slot List.mem_cons_self) hservice
    exact hfirst.bind fun _ => hrest

omit h in
theorem answers_takeEvents : Answers c depth (fun p => p.byte .events &&& passEvents)
    (fun _ p => p.takeEvents) (takeEvents : Run State UInt8) := by
  have hreadable : Readable eventFlags := readable_cell .events
  have hrest (raw : UInt8) : Answers c depth (fun _ => raw &&& passEvents)
      (fun _ p => if raw &&& passEvents = 0 then p
        else p.store eventFlags (p.load eventFlags &&& ~~~(raw &&& passEvents)))
      (do
        if raw &&& passEvents ≠ 0 then
          Machine.note (.conditionalDispatch (raw &&& passEvents))
          Machine.clearBits eventFlags (raw &&& passEvents)
        pure (raw &&& passEvents) : Run State UInt8) := by
    by_cases hzero : raw &&& passEvents = 0
    · simp only [hzero, ne_eq, not_true_eq_false, if_false, if_true]
      exact answers_pure 0
    · simp only [hzero, ne_eq, not_false_eq_true, if_true, if_false]
      refine (shows_note _).aside fun _ => ?_
      exact (shows_clearBits hreadable _).answers fun _ => answers_pure _
  have hload (p : Panel) : p.load eventFlags = p.byte .events := p.load_cell .events
  refine ((answers_read hreadable).look hrest).congr (fun _ _ => rfl) (fun p => ?_) fun r p => ?_
  · rw [hload]
  · rw [hload]
    rfl

theorem shows_serveEvents {n : Nat} (hn : 2 ^ 32 ≤ n) (hc : c.next? = none) :
    Shows c 10 (fun r p => p.serveEvents config.scanSteps r)
      (fw.linkage (n + 2)).serveEvents := by
  have hslots (events : UInt8) :
      ∀ id ∈ asked events, id ∈ DispatchEntry.standard.map DispatchEntry.slot := by
    intro id hid
    have hall : ∀ id ∈ asked passEvents, id ∈ DispatchEntry.standard.map DispatchEntry.slot := by
      decide
    exact hall id (asked_subset events hid)
  have hrest (events : UInt8) := (shows_dispatchAll h hn hc (hslots events)).bind fun _ =>
    shows_pure events
  rw [Linkage.serveEvents_eq]
  exact answers_takeEvents.bind hrest

omit h in
theorem shows_promoteDeferred :
    Shows c depth (fun _ p => p.promote) (promoteDeferred : Run State UInt8) := by
  have hevents : Readable eventFlags := readable_cell .events
  have hstate : Readable systemState := readable_cell .state
  have hrest (state : UInt8) := shows_branch (q := state &&& deferredBits = 0)
    (@shows_pure _ c depth (state &&& deferredBits))
    ((shows_write systemState (state &&& ~~~(state &&& deferredBits))).bind fun _ =>
      (shows_setBits hevents (eventsOfDeferred (state &&& deferredBits))).bind fun _ =>
        shows_pure (state &&& deferredBits))
  refine ((answers_read hstate).bind hrest).congr fun r p => ?_
  have hload : p.load systemState = p.byte .state := p.load_cell .state
  rw [hload]
  rfl

omit h in
theorem Shows.critical {f : Nat → Panel → Panel} (hm : ∀ c, Shows c depth f m) :
    Shows c depth f (Machine.critical m) := by
  intro s hs hirq
  let closed : State := { s with irq := s.irq.setGlobal false }
  obtain ⟨a, t, hrun, hstays, hpanel⟩ := hm closed.irq closed hs rfl
  exact ⟨a, _, Machine.critical_of_done hrun, hstays.reopened, hpanel⟩

/-- From every state on which no access faults, a pass ends and moves the console by a pass. -/
theorem plays_runPass {n : Nat} (hn : 2 ^ 32 ≤ n) :
    Plays 13 (fun r c => c.pass config.scanSteps r) (runPass (fw.linkage (n + 4))) := by
  intro s hs
  let l := fw.linkage (n + 4)
  have hremember (c : InterruptController) : Shows c 13 (fun _ p => p)
      (Rig.remember fun r : Record => { r with passes := r.passes + 1 }) :=
    shows_remember fun _ _ _ => rfl
  have hpollers : ∀ id ∈ pollers, id ∈ DispatchEntry.standard.map DispatchEntry.slot ∧
      id ≠ .commandService := by
    decide
  have hfirst := (Shows.plays hremember).bind fun _ => plays_runPollers h n hpollers
  obtain ⟨_, t, hrun, ht, hconsole⟩ := hfirst s hs
  have hquiet : t.irq.next? = none := by
    change (console t).irq.next? = none
    rw [hconsole]
    exact Console.next?_runPollers _ _ (by decide) _
  have hrest : Shows t.irq 13 (fun r p => (p.serveEvents config.scanSteps r).promote) (do
      let events ← l.serveEvents
      let promoted ← Machine.critical promoteDeferred
      pure (PassSummary.mk events promoted)) := by
    have hserve := (shows_serveEvents h (show 2 ^ 32 ≤ n + 2 by omega) hquiet).mono
      (show 10 ≤ 13 by decide)
    exact hserve.bind fun events =>
      (Shows.critical fun c => shows_promoteDeferred).bind fun promoted => shows_pure _
  obtain ⟨summary, u, hserved, hu, hpanel⟩ := hrest t ht.intact rfl
  obtain ⟨_, v, hpoll, hv, hpolled⟩ := plays_poll_two h n u hu.intact
  have hparts : runPass l = ((Rig.remember fun r : Record => { r with passes := r.passes + 1 }) >>=
      fun _ => l.runPollers pollers) >>= fun _ => (do
        let events ← l.serveEvents
        let promoted ← Machine.critical promoteDeferred
        pure (PassSummary.mk events promoted)) >>= fun summary => l.poll >>= fun _ =>
          pure summary := by
    unfold runPass Linkage.runPass
    simp only [bind_assoc, pure_bind]
  refine ⟨summary, v, ?_, (ht.trans hu.toReturns).trans hv, ?_⟩
  · rw [hparts, Run.bind_of_done hrun, Run.bind_of_done hserved, Run.bind_of_done hpoll]
    rfl
  · have hmiddle : console u = (console t).onPanel fun p =>
        (p.serveEvents config.scanSteps (room t)).promote := by
      unfold console Console.onPanel
      rw [hu.irq, hpanel]
    rw [hpolled, hu.room, hmiddle, ht.room, hconsole]
    rfl

end Passes

end Board

end BankedController
