import BankedController.Proofs.PassSequences
import BankedController.Proofs.PendingConditions
import BankedController.Proofs.SettledPasses

namespace BankedController

open RegisterMap

namespace FirmwareConfig

variable {config : FirmwareConfig}

theorem scanLimit_of_defect? (h : config.defect? = none) :
    1 ≤ config.scanLimit ∧ config.scanLimit ≤ maxScanSteps := by
  unfold defect? at h
  split at h
  · cases h
  · split at h
    · cases h
    next hinside =>
      simp only [Bool.or_eq_true, decide_eq_true_eq, not_or] at hinside
      exact ⟨UInt8.not_lt.1 hinside.1, UInt8.not_lt.1 hinside.2⟩

theorem scanSteps_of_defect? (h : config.defect? = none) :
    config.scanSteps = config.scanLimit.toNat := by
  have hmin : min config.scanLimit maxScanSteps = config.scanLimit :=
    if_pos (scanLimit_of_defect? h).2
  unfold scanSteps
  rw [hmin]

end FirmwareConfig

/-- The event raises the endpoint line. -/
def Stimulus.rings : Stimulus → Bool
  | endpointReady _ _ | cbw | usbLink | systemEvent => true
  | nvmeQueue | pcieEvent | pcieLink | power | timerTick | masterReady | deferEndpoint | stall _
  | release _ _ => false

/-- The event raises a condition. Endpoints are counted modulo eight. -/
def Stimulus.raises (c : Condition) : Stimulus → Bool
  | endpointReady endpoint mask => endpoint.toNat % 8 = c.endpoint.val && c.isIn mask
  | _ => false

namespace Script

variable (s : Script)

/-- Whether an event before a pass raises the endpoint line. -/
def rings (p : Nat) : Bool := (s.before p).any fun step => step.stimulus.rings

/-- Whether an event before a pass raises a condition. -/
def raises (p : Nat) (c : Condition) : Bool := (s.before p).any fun step => step.stimulus.raises c

/-- Whether endpoint work was deferred before the pass in front of a pass. -/
def asksScan : Nat → Bool
  | 0 => false
  | p + 1 => s.defers p

end Script

namespace Impulse

theorem edges_impulse (steps : List ScriptStep) :
    (impulse steps).edges .endpoint = steps.any fun step => step.stimulus.rings := by
  induction steps with
  | nil => rfl
  | cons step rest ih =>
    have hfirst : step.stimulus.impulse.edges .endpoint = step.stimulus.rings := by
      cases step.stimulus <;> rfl
    rw [List.any_cons, ← hfirst, ← ih]
    rfl

theorem isIn_impulse (steps : List ScriptStep) (c : Condition) :
    c.isIn ((impulse steps).conditions c.endpoint) =
      steps.any fun step => step.stimulus.raises c := by
  have hzero : c.isIn 0 = false := by
    unfold Condition.isIn
    rw [UInt8.zero_and]
    rfl
  induction steps with
  | nil => exact hzero
  | cons step rest ih =>
    have hfirst : c.isIn (step.stimulus.impulse.conditions c.endpoint) =
        step.stimulus.raises c := by
      cases step.stimulus with
      | endpointReady endpoint mask =>
        let e : Fin 8 := ⟨endpoint.toNat % 8, Nat.mod_lt _ (by decide)⟩
        have hconditions : (Stimulus.endpointReady endpoint mask).impulse.conditions c.endpoint =
            (if c.endpoint = e then mask else 0) ||| (0 ||| 0) := rfl
        rw [hconditions, UInt8.or_zero, UInt8.or_zero]
        unfold Stimulus.raises
        by_cases heq : c.endpoint = e
        · have hval : endpoint.toNat % 8 = c.endpoint.val := (congrArg Fin.val heq).symm
          rw [if_pos heq]
          simp [hval]
        · have hval : endpoint.toNat % 8 ≠ c.endpoint.val := fun h => heq (Fin.ext h.symm)
          rw [if_neg heq, hzero]
          simp [hval]
      | _ =>
        simp [Stimulus.impulse, Stimulus.raises, signal, followed, ofBits, ofEdge, ofLatency,
          nothing, hzero]
    rw [List.any_cons, ← hfirst, ← ih, ← Condition.isIn_or]
    rfl

/-- No event touches the event byte. -/
theorem events_impulse (steps : List ScriptStep) : (impulse steps).bits .events = 0 := by
  induction steps with
  | nil => rfl
  | cons step rest ih =>
    have hfirst : step.stimulus.impulse.bits .events = 0 := by
      cases step.stimulus <;>
        simp [Stimulus.impulse, signal, followed, ofBits, ofConditions, ofEdge, ofLatency, nothing]
    change step.stimulus.impulse.bits .events ||| (impulse rest).bits .events = 0
    rw [hfirst, ih]
    rfl

/-- Endpoint work is deferred by the event for it alone. -/
theorem state_impulse (steps : List ScriptStep) :
    ((impulse steps).bits .state &&& deferredEndpoint ≠ 0) ↔
      (steps.any fun step => step.stimulus = .deferEndpoint) = true := by
  induction steps with
  | nil => decide
  | cons step rest ih =>
    have hfirst : (step.stimulus.impulse.bits .state &&& deferredEndpoint ≠ 0) ↔
        step.stimulus = .deferEndpoint := by
      cases step.stimulus with
      | deferEndpoint => decide
      | _ =>
        simp [Stimulus.impulse, signal, followed, ofBits, ofConditions, ofEdge, ofLatency, nothing]
    have hparts : (impulse (step :: rest)).bits .state =
        step.stimulus.impulse.bits .state ||| (impulse rest).bits .state := rfl
    rw [hparts, Bits.or_and, ne_eq, UInt8.or_eq_zero_iff, not_and_or, List.any_cons, Bool.or_eq_true,
      ← ih, decide_eq_true_eq, ← hfirst]

end Impulse

namespace Board

namespace Panel

variable {p q : Panel} {limit room : Nat}

/-- The event byte stays as it is, and endpoint work is not deferred. -/
structure Unasked (p q : Panel) : Prop where
  events : q.byte .events = p.byte .events
  deferred : q.byte .state &&& deferredEndpoint = p.byte .state &&& deferredEndpoint

theorem Unasked.refl (p : Panel) : Unasked p p := ⟨rfl, rfl⟩

theorem Unasked.trans {r : Panel} (h : Unasked p q) (h' : Unasked q r) : Unasked p r :=
  ⟨h'.events.trans h.events, h'.deferred.trans h.deferred⟩

theorem unasked_store (p : Panel) {addr : UInt16} (hevents : Cell.events.addr ≠ addr)
    (hstate : Cell.state.addr ≠ addr) (value : UInt8) : Unasked p (p.store addr value) := by
  constructor
  · rw [byte_store, if_neg hevents]
  · rw [byte_store, if_neg hstate]

theorem unasked_behave (p : Panel) (slot : SlotId) : Unasked p (p.behave (.ofSlot slot)) := by
  refine behave_respects (R := Unasked) .refl .trans (fun p c value hc => ?_)
    (fun p mask hmask => ⟨?_, ?_⟩) p slot
  · apply unasked_store <;> cases c <;> revert hc <;> decide
  · rw [byte_store]
    rfl
  · have hload : p.load systemState = p.byte .state := p.load_cell .state
    have hbyte : (p.store systemState (p.load systemState ||| mask)).byte .state =
        p.byte .state ||| mask := by
      rw [byte_store, hload]
      rfl
    rw [hbyte, Bits.or_and, hmask, UInt8.or_zero]

theorem closed_unasked : Closed Unasked where
  refl := .refl
  trans := .trans
  clear p c := by
    have hne (cell : Cell) : cell.addr ≠ Condition.register c.endpoint := fun haddr =>
      cell.not_secondary_addr (haddr ▸ Condition.secondary_iff.2 ⟨c.endpoint, rfl⟩)
    exact unasked_store p (hne .events) (hne .state) c.mask
  called p slot param := by
    have hcalled : Unasked p { p with calls := (slot, param) :: p.calls } := ⟨rfl, rfl⟩
    exact hcalled.trans (unasked_behave _ slot)

theorem fits_unasked (need room : Nat) : Fits Unasked need room := .inr fun _ => ⟨rfl, rfl⟩

theorem unasked_route (p : Panel) (line : IrqLine) : Unasked p (p.route limit room line) := by
  have hspared : ∀ test ∈ (LineRoute.ofLine line).tests,
      registerOf test.ack ≠ some Cell.events.addr ∧ registerOf test.ack ≠ some Cell.state.addr := by
    cases line <;> decide
  refine closed_unasked.route (fits_unasked 10 room) (fun test htest p => ?_) p
  obtain ⟨hevents, hstate⟩ := hspared test htest
  apply acknowledge_respects (.refl p)
  rintro register value hregister
  rw [hregister] at hevents hstate
  exact unasked_store p (fun h => hevents (congrArg some h.symm))
    (fun h => hstate (congrArg some h.symm)) value

theorem takeEvents_bits (p : Panel) : p.takeEvents.byte .events &&& eventEndpoint = 0 ∧
    p.takeEvents.byte .state = p.byte .state := by
  have hwithin : passEvents &&& eventEndpoint = eventEndpoint := by decide
  unfold takeEvents
  split
  · rename_i hnone
    refine ⟨?_, rfl⟩
    rw [← hwithin, ← UInt8.and_assoc, hnone, UInt8.zero_and]
  · constructor
    · have hbyte : (p.store eventFlags (p.byte .events &&& ~~~(p.byte .events &&& passEvents))).byte
          .events = p.byte .events &&& ~~~(p.byte .events &&& passEvents) := by
        rw [byte_store]
        rfl
      have hseen := Bits.clear_seen (p.byte .events) 0 passEvents
      rw [UInt8.or_zero, UInt8.zero_and] at hseen
      rw [hbyte, ← hwithin, ← UInt8.and_assoc, hseen, UInt8.zero_and]
    · rw [byte_store]
      rfl

theorem serveEvents_bits (p : Panel) : (p.serveEvents limit room).byte .events &&& eventEndpoint = 0 ∧
    (p.serveEvents limit room).byte .state &&& deferredEndpoint =
      p.byte .state &&& deferredEndpoint := by
  obtain ⟨hevents, hstate⟩ := p.takeEvents_bits
  have hrest := @closed_unasked.dispatchAll _ limit room (fits_unasked 10 room)
    (asked (p.byte .events &&& passEvents)) p.takeEvents
  constructor
  · change (p.takeEvents.dispatchAll limit room _).byte .events &&& eventEndpoint = 0
    rw [hrest.events, hevents]
  · change (p.takeEvents.dispatchAll limit room _).byte .state &&& deferredEndpoint = _
    rw [hrest.deferred, hstate]

theorem promote_bits {p : Panel} (h : p.byte .events &&& eventEndpoint = 0) :
    (p.promote.byte .events &&& eventEndpoint ≠ 0 ↔ p.byte .state &&& deferredEndpoint ≠ 0) ∧
      p.promote.byte .state &&& deferredEndpoint = 0 := by
  have hwithin : deferredBits &&& deferredEndpoint = deferredEndpoint := by decide
  by_cases hnone : p.byte .state &&& deferredBits = 0
  · have hsame : p.promote = p := if_pos hnone
    have hstate : p.byte .state &&& deferredEndpoint = 0 := by
      rw [← hwithin, ← UInt8.and_assoc, hnone, UInt8.zero_and]
    rw [hsame, h, hstate]
    exact ⟨Iff.rfl, rfl⟩
  · let q := p.store systemState (p.byte .state &&& ~~~(p.byte .state &&& deferredBits))
    have hpromoted : p.promote = q.store eventFlags
        (p.byte .events ||| eventsOfDeferred (p.byte .state &&& deferredBits)) := if_neg hnone
    have hevents : p.promote.byte .events =
        p.byte .events ||| eventsOfDeferred (p.byte .state &&& deferredBits) := by
      rw [hpromoted, byte_store]
      rfl
    have hstate : p.promote.byte .state =
        p.byte .state &&& ~~~(p.byte .state &&& deferredBits) := by
      rw [hpromoted, byte_store, byte_store]
      rfl
    have hseen := Bits.clear_seen (p.byte .state) 0 deferredBits
    rw [UInt8.or_zero, UInt8.zero_and] at hseen
    rw [hevents, hstate, Bits.or_and, h, UInt8.zero_or]
    refine ⟨eventsOfDeferred_endpoint _, ?_⟩
    rw [← hwithin, ← UInt8.and_assoc, hseen, UInt8.zero_and]

theorem served_takeEvents (p : Panel) : Served [] p p.takeEvents := by
  unfold takeEvents
  split
  · exact .refl p
  · exact served_store_cell p .events _

theorem served_promote (p : Panel) : Served [] p p.promote := by
  unfold promote
  dsimp only
  split
  · exact .refl p
  · exact (served_store_cell p .state _).then_nothing (served_store_cell _ .events _)

/-- Serving events scans if the event byte asks for it. -/
theorem served_serveEvents (hroom : 10 ≤ room) (limit : Nat) {p : Panel} (h : p.forced = none) :
    Served (if p.byte .events &&& eventEndpoint = 0 then [] else p.pending.take limit) p
      (p.serveEvents limit room) := by
  have hwithin : passEvents &&& eventEndpoint = eventEndpoint := by decide
  have hbit : (p.byte .events &&& passEvents) &&& eventEndpoint = p.byte .events &&& eventEndpoint := by
    rw [UInt8.and_assoc, hwithin]
  have htake := p.served_takeEvents
  have hforced : p.takeEvents.forced = none := htake.forced.trans h
  have hhost (q : Panel) : Served [] q (q.dispatch limit room .hostEvent) :=
    served_dispatch q (by decide)
  have hservice (q : Panel) : Served [] q (q.dispatch limit room .commandService) :=
    served_dispatch q (by decide)
  unfold serveEvents asked
  by_cases hnone : p.byte .events &&& passEvents = 0
  · have hzero : p.byte .events &&& eventEndpoint = 0 := by
      rw [← hbit, hnone, UInt8.zero_and]
    rw [if_pos hnone, if_pos hzero]
    exact htake
  rw [if_neg hnone, hbit]
  by_cases hzero : p.byte .events &&& eventEndpoint = 0
  · rw [if_neg (not_not.2 hzero), if_pos hzero]
    exact (htake.then_nothing (hhost _)).then_nothing (hservice _)
  · -- the host event stands in front of the scan, the command service behind it
    rw [if_pos hzero, if_neg hzero]
    have hbefore := htake.then_nothing (hhost _)
    have hscan := served_dispatch_scan hroom limit (hbefore.forced.trans h)
    rw [hbefore.pending_of_nothing] at hscan
    exact (hbefore.trans hscan).then_nothing (hservice _)

end Panel

namespace Console

variable {c d : Console} {limit room : Nat}

/-- What has been served since the endpoint line was last looked at: nothing while the line is as it
was, and what a scan serves once it was taken. -/
structure Rung (limit : Nat) (c d : Console) : Prop where
  unasked : Panel.Unasked c.panel d.panel
  served : d.irq.pending.endpoint = c.irq.pending.endpoint ∧ Panel.Served [] c.panel d.panel ∨
    c.irq.pending.endpoint = true ∧ d.irq.pending.endpoint = false ∧
      Panel.Served (c.panel.pending.take limit) c.panel d.panel

theorem Rung.onPanel {f : Panel → Panel} (hd : Rung limit c d)
    (hunasked : Panel.Unasked d.panel (f d.panel)) (hserved : Panel.Served [] d.panel (f d.panel)) :
    Rung limit c (d.onPanel f) := by
  refine ⟨hd.unasked.trans hunasked, ?_⟩
  rcases hd.served with ⟨hpending, hnothing⟩ | ⟨hrung, htaken, hscan⟩
  · exact .inl ⟨hpending, hnothing.then_nothing hserved⟩
  · exact .inr ⟨hrung, htaken, hscan.then_nothing hserved⟩

theorem Rung.service (hd : Rung limit c d) (hroom : 13 ≤ room) (hc : c.panel.forced = none)
    {line : IrqLine} (hline : d.irq.next? = some line) : Rung limit c (d.service limit room line) := by
  have hpanel : (d.service limit room line).panel = d.panel.route limit (room - 3) line :=
    if_pos (by omega)
  have hunasked := hd.unasked.trans (@Panel.unasked_route limit (room - 3) d.panel line)
  rw [← hpanel] at hunasked
  refine ⟨hunasked, ?_⟩
  cases line with
  | system =>
    have hroute := @Panel.served_route_system limit (room - 3) d.panel
    rw [← hpanel] at hroute
    rcases hd.served with ⟨hpending, hnothing⟩ | ⟨hrung, htaken, hscan⟩
    · exact .inl ⟨hpending, hnothing.then_nothing hroute⟩
    · exact .inr ⟨hrung, htaken, hscan.then_nothing hroute⟩
  | endpoint =>
    have hlatched : d.irq.pending.endpoint = true := InterruptController.pending_of_next? hline
    rcases hd.served with ⟨hpending, hnothing⟩ | ⟨-, htaken, -⟩
    · have hroute := Panel.served_route_endpoint (show 10 ≤ room - 3 by omega) limit
        (hnothing.forced.trans hc)
      rw [← hpanel, hnothing.pending_of_nothing] at hroute
      exact .inr ⟨hpending ▸ hlatched, rfl, hnothing.trans hroute⟩
    · rw [htaken] at hlatched
      cases hlatched

/-- The pollers serve what is pending if the endpoint line is, and nothing otherwise. -/
theorem served_runPollers (hc : Announced c) (hroom : 13 ≤ room) (hforced : c.panel.forced = none)
    (limit : Nat) :
    Panel.Unasked c.panel (c.runPollers limit room pollers).panel ∧
      Panel.Served (if c.irq.pending.endpoint = true then c.panel.pending.take limit else [])
        c.panel (c.runPollers limit room pollers).panel := by
  have hpollers : ∀ slot ∈ pollers, slot ≠ .endpointScan := by decide
  have hstart : Rung limit c c := ⟨.refl c.panel, .inl ⟨rfl, .refl c.panel⟩⟩
  obtain ⟨hannounced, hrung⟩ := @runPollers_keeps (fun d => Announced d ∧ Rung limit c d) limit room c
    (fun d line hd hline =>
      ⟨(hd.1.service (by omega) line).1, hd.2.service hroom hforced hline⟩)
    (fun d slot hslot hd =>
      ⟨hd.1.onPanel (Panel.closed_progress.dispatch (Panel.fits_progress 10 room) d.panel slot),
        hd.2.onPanel (Panel.closed_unasked.dispatch (Panel.fits_unasked 10 room) d.panel slot)
          (Panel.served_dispatch d.panel (hpollers slot hslot))⟩)
    pollers (List.Subset.refl pollers) ⟨hc, hstart⟩
  have hquiet := hannounced.quiet (next?_runPollers limit room (by decide) c)
  refine ⟨hrung.unasked, ?_⟩
  rcases hrung.served with ⟨hpending, hnothing⟩ | ⟨hpending, -, hscan⟩
  · rw [hquiet.pending] at hpending
    rw [← hpending]
    exact hnothing
  · rw [if_pos hpending]
    exact hscan

/-- Between two passes endpoint work is not deferred any more: the event byte asks for it or not. -/
structure Awaiting (asked : Bool) (c : Console) : Prop where
  forced : c.panel.forced = none
  event : c.panel.byte .events &&& eventEndpoint ≠ 0 ↔ asked = true
  state : c.panel.byte .state &&& deferredEndpoint = 0

/-- Where the event byte is still as it was before the pass, serving events scans if it asks. -/
theorem Awaiting.serveEvents {asked : Bool} (ha : Awaiting asked c) {steps : List ScriptStep}
    {p : Panel} (hunasked : Panel.Unasked (c.struck (impulse steps)).panel p)
    (hforced : p.forced = none) (hroom : 10 ≤ room) (limit : Nat) :
    Panel.Served (if asked then p.pending.take limit else []) p (p.serveEvents limit room) := by
  have hbits : p.byte .events = c.panel.byte .events := by
    rw [hunasked.events]
    change c.panel.byte .events ||| (impulse steps).bits .events = _
    rw [Impulse.events_impulse, UInt8.or_zero]
  have hserved := Panel.served_serveEvents hroom limit hforced
  rw [hbits] at hserved
  cases asked with
  | false =>
    have hzero : c.panel.byte .events &&& eventEndpoint = 0 := by
      by_contra hset
      cases ha.event.1 hset
    rwa [if_pos hzero] at hserved
  | true => rwa [if_neg (ha.event.2 rfl)] at hserved

/-- What was deferred before the pass is an event after it. -/
theorem Awaiting.promote {asked : Bool} (ha : Awaiting asked c) {steps : List ScriptStep} {p : Panel}
    (hunasked : Panel.Unasked (c.struck (impulse steps)).panel p) (limit room : Nat) :
    ((p.serveEvents limit room).promote.byte .events &&& eventEndpoint ≠ 0 ↔
        (steps.any fun step => step.stimulus = .deferEndpoint) = true) ∧
      (p.serveEvents limit room).promote.byte .state &&& deferredEndpoint = 0 := by
  obtain ⟨hevents, hstate⟩ := @Panel.serveEvents_bits limit room p
  obtain ⟨hpromoted, hcleared⟩ := Panel.promote_bits hevents
  have hdeferred : (p.serveEvents limit room).byte .state &&& deferredEndpoint =
      (impulse steps).bits .state &&& deferredEndpoint := by
    rw [hstate, hunasked.deferred]
    change (c.panel.byte .state ||| (impulse steps).bits .state) &&& _ = _
    rw [Bits.or_and, ha.state, UInt8.zero_or]
  rw [hpromoted, hdeferred]
  exact ⟨Impulse.state_impulse steps, hcleared⟩

/-- What a pass serves, and what it asks the next pass for. -/
theorem Awaiting.turn {config : FirmwareConfig} {asked : Bool} (ha : Awaiting asked c)
    (hc : Quiet c) (hroom : 13 ≤ stackRoom config) (script : Script) (pass : Nat)
    {before : Panel} (hbefore : before = (c.struck (impulse (script.before pass))).panel) :
    ∃ first second,
      first = (if script.rings pass then before.pending.take config.scanSteps else []) ∧
      second = (if asked then
        (before.pending.filter fun c => c ∉ first).take config.scanSteps else []) ∧
      Panel.Served (first ++ second) before (c.turn config script pass).panel ∧
      Awaiting (script.defers pass) (c.turn config script pass) := by
  subst hbefore
  let limit := config.scanSteps
  let s := c.struck (impulse (script.before pass))
  let d := s.runPollers limit (stackRoom config) pollers
  let q := d.panel.serveEvents limit (stackRoom config)
  have hend : (c.turn config script pass).panel = q.promote := congrArg Console.panel (pass_eq s)
  have hpending : s.irq.pending.endpoint = script.rings pass := by
    have hedge : s.irq.pending.endpoint =
        (c.irq.pending.endpoint || (impulse (script.before pass)).edges .endpoint) := rfl
    rw [hedge, hc.pending, Impulse.edges_impulse]
    rfl
  have hannounced : Announced s := hc.struck (Impulse.announces_impulse _)
  obtain ⟨hunasked, hfirst⟩ := served_runPollers hannounced hroom ha.forced limit
  rw [hpending] at hfirst
  have hforced : d.panel.forced = none := hfirst.forced.trans ha.forced
  have hsecond := ha.serveEvents hunasked hforced (show 10 ≤ stackRoom config by omega) limit
  rw [hfirst.pending] at hsecond
  have hall := (hfirst.trans hsecond).then_nothing q.served_promote
  obtain ⟨hevent, hstate⟩ := ha.promote hunasked limit (stackRoom config)
  rw [← hend] at hall hevent hstate
  exact ⟨_, _, rfl, rfl, hall, hall.forced.trans ha.forced, hevent, hstate⟩

theorem awaiting_poweredOn (config : FirmwareConfig) : Awaiting false (poweredOn config) := by
  have hbyte (cell : Cell) : (poweredOn config).panel.byte cell = 0 := rfl
  refine ⟨rfl, ?_, ?_⟩
  · rw [hbyte, UInt8.zero_and]
    decide
  · rw [hbyte, UInt8.zero_and]

theorem pending_poweredOn (config : FirmwareConfig) : (poweredOn config).panel.pending = [] := by
  have hnone : (Condition.all.filter fun c => c.isIn (Vector.replicate 8 (0 : UInt8))[c.endpoint]) =
      [] := by
    decide
  exact hnone

theorem awaiting_after {config : FirmwareConfig} (hroom : 13 ≤ stackRoom config) (script : Script)
    (passes : Nat) : Awaiting (script.asksScan passes) (after config script passes) := by
  induction passes with
  | zero => exact awaiting_poweredOn config
  | succ passes ih =>
    have hquiet := quiet_after (show 8 ≤ stackRoom config by omega) script passes
    obtain ⟨_, _, -, -, -, hnext⟩ := ih.turn hquiet hroom script passes rfl
    exact hnext

end Console

/-- The conditions that are pending on a board, in the order of their offsets. -/
def pendingConditions (s : State) : List Condition :=
  Condition.all.filter fun c => c.isIn (s.bus.blocks.endpoints.secondary.get c.endpoint)

/-- The offsets of conditions that the endpoint handler was called with. -/
def handledOffsets (calls : List Activity) : List UInt8 :=
  calls.filterMap fun call =>
    if call.slot = .endpointHandler then call.param.filter fun offset => offset < 0x40 else none

/-- The writes to secondary registers from one moment to a later one, with their endpoints. -/
def clearsSince (s t : State) : List (Nat × UInt8) :=
  t.bus.blocks.endpoints.clears.reverse.drop s.bus.blocks.endpoints.clears.length

theorem pendingConditions_ascending (s : State) :
    ((pendingConditions s).map Condition.offset).Pairwise (· < ·) :=
  (Condition.ascending_all.filter _).map _ fun _ _ h => h

/-- After events are pending the conditions that were, and those that an event raises. -/
theorem mem_pendingConditions_struck {s t : State} {steps : List ScriptStep}
    (h : panel t = (panel s).struck (impulse steps)) (c : Condition) :
    c ∈ pendingConditions t ↔
      c ∈ pendingConditions s ∨ (steps.any fun step => step.stimulus.raises c) = true := by
  have hshown (s : State) :
      c ∈ pendingConditions s ↔ c.isIn ((panel s).conditions.get c.endpoint) = true :=
    List.mem_filter.trans (and_iff_right (Condition.mem_all c))
  have hstruck : (panel t).conditions.get c.endpoint =
      (panel s).conditions.get c.endpoint ||| (impulse steps).conditions c.endpoint := by
    rw [h]
    exact EndpointBlock.get_ofFn _ c.endpoint
  rw [hshown, hshown, hstruck, Condition.isIn_or, Bool.or_eq_true, Impulse.isIn_impulse]

/-- What a board has recorded of the conditions that its panel served. -/
theorem recorded_of_served {s t : State} {served : List Condition}
    (h : Panel.Served served (panel s) (panel t)) (hcalls : (panel s).calls <:+ (panel t).calls) :
    handledOffsets (recorded s t) = served.map Condition.offset ∧
      clearsSince s t = served.map fun c => (c.endpoint.val, c.mask) := by
  constructor
  · obtain ⟨new, hnew⟩ := hcalls
    have hhanded : Panel.handed new = (served.map Condition.offset).reverse := by
      have hboth := h.handed
      unfold Panel.handed at hboth ⊢
      rw [← hnew, List.filterMap_append] at hboth
      exact List.append_cancel_right hboth
    have hrecorded : handledOffsets (recorded s t) =
        Panel.handed ((recorded s t).map fun call => (call.slot, call.param)) := by
      unfold Panel.handed
      rw [List.filterMap_map]
      rfl
    rw [hrecorded, map_recorded hnew.symm]
    unfold Panel.handed at hhanded ⊢
    rw [List.filterMap_reverse, hhanded, List.reverse_reverse]
  · have hclears : t.bus.blocks.endpoints.clears =
        (served.map fun c => (c.endpoint.val, c.mask)).reverse ++ s.bus.blocks.endpoints.clears :=
      h.clears
    unfold clearsSince
    rw [hclears, List.reverse_append, List.reverse_reverse, List.drop_left']
    exact List.length_reverse

/-- With a stack from 0xF3 down, of the conditions that are pending before a pass the first ones are
served when the endpoint line is raised, and the first of the others when endpoint work was deferred
before the pass in front, each time as many as the scan limit allows; and the rest waits. -/
theorem endpoint_service {config : FirmwareConfig} (h : config.defect? = none)
    (hbase : config.stackBase ≤ 0xF3) {n : Nat} (hn : 2 ^ 32 + 4 ≤ n)
    (threshold : Option Severity) (script : Script) (passes : Nat) :
    ∃ fw summaries t r summary u, link config = .ok fw ∧
      reach (fw.linkage n) script passes (initial fw threshold) = .done summaries t ∧
      injectAll (script.before passes) t = .done () r ∧
      runPass (fw.linkage n) r = .done summary u ∧
      reach (fw.linkage n) script (passes + 1) (initial fw threshold) =
        .done (summaries ++ [summary]) u ∧
      (∀ more, session (fw.linkage n) script (passes + 1 + more) (initial fw threshold) = (do
        let all ← runPasses (fw.linkage n) script (passes + 1) (summaries ++ [summary]).reverse more
        Machine.note (.scriptFinished (passes + 1 + more))
        pure all) u) ∧
      (passes = 0 → pendingConditions t = []) ∧
      (∀ c, c ∈ pendingConditions r ↔ c ∈ pendingConditions t ∨ script.raises passes c = true) ∧
      ((pendingConditions r).map Condition.offset).Pairwise (· < ·) ∧
      ∃ first second,
        first = (if script.rings passes then
          (pendingConditions r).take config.scanLimit.toNat else []) ∧
        second = (if script.asksScan passes then
          ((pendingConditions r).filter fun c => c ∉ first).take config.scanLimit.toNat else []) ∧
        handledOffsets (recorded r u) = (first ++ second).map Condition.offset ∧
        clearsSince r u = (first ++ second).map (fun c => (c.endpoint.val, c.mask)) ∧
        pendingConditions u = (pendingConditions r).filter fun c => c ∉ first ++ second := by
  obtain ⟨fw, hfw⟩ := link_ok h
  obtain ⟨m, rfl⟩ := Nat.exists_eq_add_of_le' (show 4 ≤ n by omega)
  have hm : 2 ^ 32 ≤ m := by omega
  have hroom : 13 ≤ stackRoom config := thirteen_le_stackRoom.2 hbase
  have hlimit := FirmwareConfig.scanSteps_of_defect? h
  obtain ⟨summaries, t, hreach, ht⟩ := reach_settled hfw hm threshold script passes
  obtain ⟨r, summary, u, hinject, hr, hpass, hu⟩ := ht.turn hfw hm script passes
  have hquiet := Console.quiet_after (show 8 ≤ stackRoom config by omega) script passes
  have hnext := reach_succ hreach hinject hpass
  have hbefore : panel r = _ := congrArg Console.panel hr.console
  have hend : panel u = _ := congrArg Console.panel hu.console
  obtain ⟨first, second, hfirst, hsecond, hserved, -⟩ :=
    (Console.awaiting_after hroom script passes).turn hquiet hroom script passes hbefore
  rw [← hend] at hserved
  rw [hlimit] at hfirst hsecond
  have hcalls : (panel r).calls <:+ (panel u).calls := by
    obtain ⟨new, hnew, -⟩ := (hquiet.turn (show 8 ≤ stackRoom config by omega) script passes).2.calls
    rw [hbefore, hend]
    exact ⟨new, hnew.symm⟩
  obtain ⟨hhanded, hclears⟩ := recorded_of_served hserved hcalls
  refine ⟨fw, summaries, t, r, summary, u, hfw, hreach, hinject, hpass, hnext, session_add hnext,
    ?_, fun c => ?_, pendingConditions_ascending r, first, second, hfirst, hsecond, hhanded, hclears,
    hserved.pending⟩
  · rintro rfl
    have hfirst : panel t = (Console.poweredOn config).panel := congrArg Console.panel ht.console
    have hpending : pendingConditions t = (panel t).pending := rfl
    rw [hpending, hfirst, Console.pending_poweredOn]
  · have hstart : panel t = _ := congrArg Console.panel ht.console
    refine mem_pendingConditions_struck ?_ c
    rw [hbefore, hstart]
    rfl

/-- A configuration with two steps a scan. -/
def brisk : FirmwareConfig := { FirmwareConfig.standard with scanLimit := 2 }

/-- Three conditions, two of them of an endpoint that is counted modulo eight. -/
def triple : Script := ⟨[⟨0, .endpointReady 9 0x06⟩, ⟨0, .timerTick⟩, ⟨0, .endpointReady 0 0x80⟩]⟩

/-- Two of the three are served in the first pass, and one waits. -/
theorem endpoint_service_brisk :
    brisk.defect? = none ∧ brisk.stackBase ≤ 0xF3 ∧ 2 ^ 32 + 4 ≤ Firmware.bound ∧
      ∃ fw summaries t r summary u, link brisk = .ok fw ∧
        reach fw.entry triple 0 (initial fw none) = .done summaries t ∧
        injectAll (triple.before 0) t = .done () r ∧ runPass fw.entry r = .done summary u ∧
        handledOffsets (recorded r u) = [7, 9] ∧
        clearsSince r u = [(0, 0x80), (1, 0x02)] ∧
        (pendingConditions u).map Condition.offset = [10] := by
  have hdefect : brisk.defect? = none := by decide
  have hbase : brisk.stackBase ≤ 0xF3 := by decide
  have hbound : 2 ^ 32 + 4 ≤ Firmware.bound := by decide
  obtain ⟨fw, summaries, t, r, summary, u, hfw, hreach, hinject, hpass, -, -, hnone, hmem, -, first,
    second, hfirst, hsecond, hhanded, hclears, hleft⟩ :=
    endpoint_service hdefect hbase hbound none triple 0
  have hpending : pendingConditions r = Condition.all.filter (triple.raises 0) := by
    refine List.filter_congr fun c hc => Bool.eq_iff_iff.2 ?_
    have hraised := hmem c
    rw [hnone rfl] at hraised
    have hshown : c ∈ pendingConditions r ↔
        c.isIn (r.bus.blocks.endpoints.secondary.get c.endpoint) = true :=
      List.mem_filter.trans (and_iff_right hc)
    rw [← hshown, hraised]
    simp
  have hthree : Condition.all.filter (triple.raises 0) = [⟨0, 7⟩, ⟨1, 1⟩, ⟨1, 2⟩] := by decide
  rw [hpending, hthree] at hfirst hsecond hleft
  have htwo : first = [⟨0, 7⟩, ⟨1, 1⟩] := hfirst
  have hidle : second = [] := hsecond
  subst htwo hidle
  refine ⟨hdefect, hbase, hbound, fw, summaries, t, r, summary, u, hfw, hreach, hinject, hpass,
    hhanded, hclears, ?_⟩
  rw [hleft]
  decide

end Board

end BankedController
