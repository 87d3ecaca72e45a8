import BankedController.Proofs.BoardCalls
import BankedController.Proofs.ClosedRegions
import BankedController.Proofs.Passes

namespace BankedController

open RegisterMap

namespace PerLine

/-- The lines that are set. -/
def raised (p : PerLine Bool) : Nat := p.toList.count true

theorem raised_set {p : PerLine Bool} {line : IrqLine} (h : p.get line = true) :
    (p.set line false).raised + 1 = p.raised := by
  obtain ⟨endpoint, system⟩ := p
  cases line <;> cases endpoint <;> cases system <;> first | rfl | cases h

end PerLine

namespace Board

/-- What the service of a line leaves of a state: the rig in order, the intake moved, the stack as
it was, and the line acknowledged and completed. -/
structure Served (f : Intake → Intake) (line : IrqLine) (s t : State) : Prop where
  sound : Sound t.bus
  intake : Board.intake t.bus = f (Board.intake s.bus)
  irq : t.irq = (s.irq.acknowledge line).complete line
  used : t.stack.used = s.stack.used
  capacity : t.stack.capacity = s.stack.capacity

/-- A line is served if there is room for the frame of the interrupt and for a call in it. -/
theorem serviceInterrupt_served {l : Linkage (Rig Record)} {line : IrqLine} {f : Intake → Intake}
    (hroute : Does 5 f (l.route line)) {s : State} (hs : Sound s.bus)
    (hfits : s.stack.used + 8 ≤ s.stack.capacity) :
    ∃ t, l.serviceInterrupt line s = .done () t ∧ Served f line s t := by
  obtain ⟨_, u, hrun, hmoved⟩ := hroute (Linkage.interrupted line s) hs hfits
  have hentries : u.stack.entries =
      .savedBank s.window.active :: .returnTo .interrupt :: s.stack.entries := hmoved.kept.entries
  have hused : u.stack.used = s.stack.used + 3 := hmoved.kept.used
  have hbus : (u.mapped s.window.active).bus = u.bus := Machine.bus_mapped ..
  have hirq : (u.mapped s.window.active).irq = u.irq := Machine.irq_mapped ..
  refine ⟨Linkage.retired line (Linkage.resumed s.window.active s.stack.entries u), ?_, ?_, ?_, ?_,
    ?_, hmoved.kept.capacity⟩
  · rw [Linkage.serviceInterrupt_of_fits l line (by omega), Run.bind_of_done hrun,
      Run.bind_of_done (Linkage.leaveInterrupt_of_framed hentries)]
    exact Linkage.retire_ok ..
  · exact hbus ▸ hmoved.sound
  · exact (congrArg Board.intake hbus).trans hmoved.intake
  · change (u.mapped s.window.active).irq.complete line = _
    rw [hirq, hmoved.irq]
    rfl
  · change u.stack.used - 3 = s.stack.used
    omega

/-- A board between two steps of the main loop: interrupts are enabled and no line is in service,
there is room for an interrupt, and a command that has arrived is announced on its line. -/
structure Idle (p : PerLine Bool) (i : Intake) (s : State) : Prop where
  sound : Sound s.bus
  intake : Board.intake s.bus = i
  room : s.stack.used + 8 ≤ s.stack.capacity
  enable : s.irq.enable = 0x85
  inService : s.irq.inService = []
  pending : s.irq.pending = p
  announced : i.arrived = true → p.endpoint = true

/-- Besides, nothing is pending. -/
abbrev Rests (i : Intake) (s : State) : Prop := Idle ⟨false, false⟩ i s

namespace Idle

variable {p : PerLine Bool} {i : Intake} {s t : State} {f : Intake → Intake}

/-- What leaves the interrupt controller and the stack alone does not end the idleness. -/
theorem moved (h : Idle p i s) (hmoved : Moved f s t)
    (hannounced : (f i).arrived = true → p.endpoint = true) : Idle p (f i) t := by
  refine ⟨hmoved.sound, ?_, hmoved.fits h.room, ?_, ?_, ?_, hannounced⟩
  · rw [hmoved.intake, h.intake]
  · rw [hmoved.irq, h.enable]
  · rw [hmoved.irq, h.inService]
  · rw [hmoved.irq, h.pending]

theorem deliverable (h : Idle p i s) (line : IrqLine) : s.irq.deliverable line = p.get line := by
  have hglobal : s.irq.globallyEnabled = true := by
    unfold InterruptController.globallyEnabled
    rw [h.enable]
    rfl
  have hline : s.irq.lineEnabled line = true := by
    unfold InterruptController.lineEnabled
    rw [h.enable]
    cases line <;> rfl
  unfold InterruptController.deliverable InterruptController.isInService
    InterruptController.outranks
  rw [hglobal, hline, h.inService, h.pending]
  simp

theorem pending_of_next? (h : Idle p i s) {line : IrqLine} (hnext : s.irq.next? = some line) :
    p.get line = true := by
  rw [← h.deliverable]
  exact InterruptController.deliverable_of_next? hnext

theorem next?_eq_none_iff (h : Idle p i s) : s.irq.next? = none ↔ p = ⟨false, false⟩ := by
  rw [InterruptController.next?_eq_none_iff]
  simp only [h.deliverable]
  obtain ⟨endpoint, system⟩ := p
  constructor
  · intro hnone
    have hendpoint : endpoint = false := hnone .endpoint
    have hsystem : system = false := hnone .system
    rw [hendpoint, hsystem]
  · intro hnone line
    rw [hnone]
    cases line <;> rfl

/-- At rest there is no command that was not received. -/
theorem not_arrived (h : Rests i s) : i.arrived = false := by
  simpa using h.announced

/-- The service of a pending line clears it and leaves the board idle. -/
theorem served (h : Idle p i s) {line : IrqLine} (ht : Served f line s t)
    (hannounced : (f i).arrived = true → (p.set line false).endpoint = true) :
    Idle (p.set line false) (f i) t := by
  have hirq := ht.irq
  refine ⟨ht.sound, ?_, ?_, ?_, ?_, ?_, hannounced⟩
  · rw [ht.intake, h.intake]
  · rw [ht.used, ht.capacity]
    exact h.room
  · rw [hirq]
    exact h.enable
  · have hservice : (s.irq.acknowledge line).inService = (line, s.irq.level line) :: [] :=
      congrArg _ h.inService
    rw [hirq]
    exact InterruptController.inService_complete hservice
  · rw [hirq, ← h.pending]
    rfl

end Idle

section Poll

variable {config : FirmwareConfig} {fw : BoardFirmware} (h : link config = .ok fw)

include h

/-- A preemption point takes one pending line after the other, and with the endpoint line the
command that it announces. -/
theorem poll_receives (n k : Nat) {p : PerLine Bool} {i : Intake} {s : State} (hs : Idle p i s)
    (hk : p.raised ≤ k) :
    ∃ t, (fw.linkage (n + 2 + k)).poll s = .done () t ∧ Rests i.receive t := by
  have hnone {p : PerLine Bool} {i : Intake} {s : State} (hs : Idle p i s)
      (hnext : s.irq.next? = none) : Rests i.receive s := by
    obtain rfl := hs.next?_eq_none_iff.1 hnext
    rwa [Intake.receive_of_not_arrived hs.not_arrived]
  induction k generalizing p i s with
  | zero =>
    have hnext : s.irq.next? = none := by
      rw [hs.next?_eq_none_iff]
      obtain ⟨endpoint, system⟩ := p
      cases endpoint <;> cases system <;> first | rfl | cases hk
    refine ⟨s, ?_, hnone hs hnext⟩
    rw [Firmware.poll_linkage, hnext]
  | succ k ih =>
    rw [← Nat.add_assoc, Firmware.poll_linkage]
    cases hnext : s.irq.next? with
    | none => exact ⟨s, rfl, hnone hs hnext⟩
    | some line =>
      have hline := hs.pending_of_next? hnext
      have hrest := PerLine.raised_set hline
      dsimp only
      rw [Nat.add_right_comm]
      cases line with
      | endpoint =>
        have hreceived := i.arrived_receive
        obtain ⟨t, hservice, ht⟩ :=
          serviceInterrupt_served (does_endpoint h (n + k)) hs.sound hs.room
        have hidle := hs.served ht fun harrived => by
          rw [hreceived] at harrived
          cases harrived
        obtain ⟨u, hpoll, hu⟩ := ih hidle (by omega)
        rw [Nat.add_right_comm] at hpoll
        refine ⟨u, (Run.bind_of_done hservice).trans hpoll, ?_⟩
        rwa [Intake.receive_of_not_arrived hreceived] at hu
      | system =>
        have hroute : Does 5 id ((fw.linkage (n + k + 2)).route .system) :=
          (calm_system h (n + k)).mono (Nat.zero_le 5)
        obtain ⟨t, hservice, ht⟩ := serviceInterrupt_served hroute hs.sound hs.room
        have hidle := hs.served ht hs.announced
        obtain ⟨u, hpoll, hu⟩ := ih hidle (by omega)
        rw [Nat.add_right_comm] at hpoll
        exact ⟨u, (Run.bind_of_done hservice).trans hpoll, hu⟩

end Poll

/-- From every state at rest the run ends at rest, and the intake is moved. -/
def Turns {α : Type} (f : Intake → Intake) (m : Run State α) : Prop :=
  ∀ i s, Rests i s → ∃ a t, m s = .done a t ∧ Rests (f i) t

section Turning

variable {α γ : Type} {f g : Intake → Intake} {m : Run State α} {k : α → Run State γ}

theorem Turns.bind (hm : Turns f m) (hk : ∀ a, Turns g (k a)) : Turns (g ∘ f) (m >>= k) := by
  intro i s hs
  obtain ⟨a, t, hrun, ht⟩ := hm i s hs
  obtain ⟨c, u, hrest, hu⟩ := hk a _ t ht
  exact ⟨c, u, (Run.bind_of_done hrun).trans hrest, hu⟩

/-- Steps after which no more has arrived than before. -/
theorem Does.turns {room : Nat} (h : Does room f m) (hroom : room ≤ 8)
    (hf : ∀ i, (f i).arrived = i.arrived) : Turns f m := by
  intro i s hs
  have := hs.room
  obtain ⟨a, t, hrun, hmoved⟩ := h s hs.sound (by omega)
  exact ⟨a, t, hrun, hs.moved hmoved fun harrived => hs.announced ((hf i).symm.trans harrived)⟩

theorem Calm.turns (h : Calm m) : Turns id m := Does.turns h (Nat.zero_le 8) fun _ => rfl

theorem turns_dispatch {l : Linkage (Rig Record)} {id : SlotId} {param : Option UInt8}
    (h : Turns f (l.call id param)) : Turns f (l.dispatch id param) := by
  refine h.bind fun result => Calm.turns ?_
  cases result with
  | ok => exact does_pure ()
  | error e => exact does_failed.then fun _ => does_note _

/-- A critical section moves the intake as what it encloses does. -/
theorem Does.critical {room : Nat} (h : Does room f m) : Does room f (Machine.critical m) := by
  intro s hs hfits
  let closed : State := { s with irq := s.irq.setGlobal false }
  obtain ⟨a, t, hrun, ht⟩ := h closed hs hfits
  have hirq : t.irq.setGlobal s.irq.globallyEnabled = s.irq := by
    rw [ht.irq]
    exact s.irq.setGlobal_setGlobal
  exact ⟨a, _, Machine.critical_of_done hrun, ht.sound, ht.intake, hirq, ht.kept.entries,
    ht.kept.used, ht.kept.capacity, congrArg _ hirq⟩

end Turning

section Parts

/-- The pass takes the bits that it sees, and then is asked for nothing. -/
theorem takeEvents_moved {s : State} (hs : Sound s.bus) :
    ∃ t, takeEvents s = .done (s.bus.bus.ram.get eventFlags &&& passEvents) t ∧
      Moved (fun i => { i with asked := false }) s t := by
  have hlow : eventFlags < 0x8000 := by decide
  let events := s.bus.bus.ram.get eventFlags &&& passEvents
  have htake : takeEvents s = (do
      if events ≠ 0 then
        Machine.note (.conditionalDispatch events)
        Machine.clearBits eventFlags events
      pure events : Run State UInt8) s :=
    Run.bind_of_done (Machine.onBus_of_done (hs.intact.read_free hlow))
  by_cases hzero : events = 0
  · refine ⟨s, ?_, hs, ?_, rfl, .refl s⟩
    · rw [htake]
      simp only [ne_eq, hzero, not_true_eq_false, if_false]
      exact congrArg (fun e => Outcome.done e s) hzero.symm
    · have hasked : (intake s.bus).asked = false := decide_eq_false (not_not.2 hzero)
      rw [← hasked]
  · let noted : State := s.noted (.conditionalDispatch events)
    let rig := s.bus.stored eventFlags (s.bus.bus.ram.get eventFlags &&& ~~~events)
    have hclear : Machine.clearBits eventFlags events noted = .done () { noted with bus := rig } :=
      Machine.onBus_of_done (clearBits_free hs.intact hlow events)
    have hnone : (s.bus.bus.ram.get eventFlags &&& ~~~events) &&& passEvents = 0 := by
      have := Bits.clear_seen (s.bus.bus.ram.get eventFlags) 0 passEvents
      rwa [UInt8.or_zero, UInt8.zero_and] at this
    refine ⟨{ noted with bus := rig }, ?_, hs.stored (by decide) _, ?_, rfl, ⟨rfl, rfl, rfl, rfl⟩⟩
    · rw [htake]
      simp only [ne_eq, hzero, not_false_eq_true, if_true]
      rw [Run.bind_of_done (Machine.note_apply _ s)]
      exact Run.bind_of_done hclear
    · change intake rig = _
      rw [intake_stored_events, hnone]
      rfl

/-- Whatever is deferred becomes an event that the pass looks at. -/
theorem eventsOfDeferred_ne_zero {state : UInt8} (h : state &&& deferredBits ≠ 0) :
    eventsOfDeferred (state &&& deferredBits) &&& passEvents ≠ 0 := by
  have hevents {host endpoint : Prop} [Decidable host] [Decidable endpoint]
      (hsome : ¬(host ∧ endpoint)) :
      ((if host then 0 else eventHost) ||| (if endpoint then 0 else eventEndpoint)) &&&
        passEvents ≠ 0 := by
    by_cases hhost : host <;> by_cases hendpoint : endpoint <;>
      simp only [hhost, hendpoint, if_true, if_false] at hsome ⊢ <;> first | decide | simp at hsome
  refine hevents fun hnone => h ?_
  have hsplit : state &&& deferredBits =
      (deferredHost &&& (state &&& deferredBits)) |||
        (deferredEndpoint &&& (state &&& deferredBits)) := by
    rw [← Bits.or_and]
    change _ = deferredBits &&& (state &&& deferredBits)
    rw [UInt8.and_comm deferredBits, UInt8.and_assoc, UInt8.and_self]
  rw [hsplit, UInt8.and_comm deferredHost, UInt8.and_comm deferredEndpoint, hnone.1, hnone.2]
  rfl

theorem does_promoteDeferred : Does 0 Intake.promote (promoteDeferred : Run State UInt8) := by
  intro s hs _
  have hstate : systemState < 0x8000 := by decide
  have hevents : eventFlags < 0x8000 := by decide
  let state := s.bus.bus.ram.get systemState
  let promoted := state &&& deferredBits
  have hpromote : promoteDeferred s = (if promoted = 0 then pure promoted else do
      Machine.write systemState (state &&& ~~~promoted)
      Machine.setBits eventFlags (eventsOfDeferred promoted)
      pure promoted : Run State UInt8) s :=
    Run.bind_of_done (Machine.onBus_of_done (hs.intact.read_free hstate))
  by_cases hzero : promoted = 0
  · refine ⟨promoted, s, ?_, hs, ?_, rfl, .refl s⟩
    · rw [hpromote, if_pos hzero]
      rfl
    · have hdeferred : (intake s.bus).deferred = false := decide_eq_false (not_not.2 hzero)
      unfold Intake.promote
      rw [hdeferred, Bool.or_false, ← hdeferred]
  · let rig := s.bus.stored systemState (state &&& ~~~promoted)
    have hwrite : Machine.write systemState (state &&& ~~~promoted) s =
        .done () { s with bus := rig } :=
      Machine.onBus_of_done (hs.intact.write_free hstate _)
    have hrig : Sound rig := hs.stored (by decide) _
    let flags := rig.bus.ram.get eventFlags ||| eventsOfDeferred promoted
    have hset : Machine.setBits eventFlags (eventsOfDeferred promoted) { s with bus := rig } =
        .done () { s with bus := rig.stored eventFlags flags } :=
      Machine.onBus_of_done (setBits_free hrig.intact hevents _)
    refine ⟨promoted, { s with bus := rig.stored eventFlags flags }, ?_,
      .of_bus (hrig.stored (by decide) flags) ?_⟩
    · rw [hpromote, if_neg hzero]
      exact (Run.bind_of_done hwrite).trans (Run.bind_of_done hset)
    · have hnone : (state &&& ~~~promoted) &&& deferredBits = 0 := by
        have := Bits.clear_seen state 0 deferredBits
        rwa [UInt8.or_zero, UInt8.zero_and] at this
      have hsome : flags &&& passEvents ≠ 0 := by
        rw [Bits.or_and]
        intro hnothing
        exact eventsOfDeferred_ne_zero hzero (UInt8.or_eq_zero_iff.1 hnothing).2
      have hdeferred : (intake s.bus).deferred = true := decide_eq_true hzero
      rw [intake_stored_events, intake_stored_state, hnone, decide_eq_true hsome, Intake.promote,
        hdeferred, Bool.or_true]
      rfl

/-- What a pass needs of a linkage. -/
structure Ready (l : Linkage (Rig Record)) : Prop where
  calm : ∀ id, id ≠ .cbwReceived → id ≠ .commandService → Calm (l.call id none)
  poll : ∀ p i s, Idle p i s → ∃ t, l.poll s = .done () t ∧ Rests i.receive t
  service : Turns Intake.submit (l.call .commandService none)

variable {l : Linkage (Rig Record)} {p : PerLine Bool} {i : Intake} {s : State}

/-- The preemption points between the pollers receive what has arrived. -/
theorem Ready.runPollers (hl : Ready l) {slots : List SlotId} (hne : slots ≠ [])
    (hslots : ∀ id ∈ slots, id ≠ .cbwReceived ∧ id ≠ .commandService) (hs : Idle p i s) :
    ∃ t, l.runPollers slots s = .done () t ∧ Rests i.receive t := by
  induction slots generalizing p i s with
  | nil => exact absurd rfl hne
  | cons slot rest ih =>
    obtain ⟨hreceived, hservice⟩ := hslots slot List.mem_cons_self
    have hdispatch : Calm (l.dispatch slot none) := does_dispatch (hl.calm slot hreceived hservice)
    obtain ⟨_, t, hrun, hmoved⟩ := hdispatch s hs.sound (by have := hs.room; omega)
    obtain ⟨u, hpoll, hu⟩ := hl.poll p i t (hs.moved hmoved hs.announced)
    have hfirst : l.runPollers (slot :: rest) s = l.runPollers rest u :=
      (Run.bind_of_done hrun).trans (Run.bind_of_done hpoll)
    rw [hfirst]
    cases rest with
    | nil => exact ⟨u, rfl, hu⟩
    | cons next others =>
      have hothers : ∀ id ∈ next :: others, id ≠ .cbwReceived ∧ id ≠ .commandService :=
        fun id hid => hslots id (List.mem_cons_of_mem _ hid)
      obtain ⟨w, hrest, hw⟩ := ih (by simp) hothers hu
      rw [Intake.receive_of_not_arrived i.arrived_receive] at hw
      exact ⟨w, hrest, hw⟩

theorem Ready.serveEvents (hl : Ready l) : Turns Intake.serve l.serveEvents := by
  have hcalm {slot : SlotId} (hreceived : slot ≠ .cbwReceived) (hservice : slot ≠ .commandService) :
      Turns id (l.dispatch slot none) :=
    turns_dispatch (Calm.turns (hl.calm slot hreceived hservice))
  have hservice : Turns Intake.submit (l.dispatchAll [.commandService]) :=
    (turns_dispatch hl.service).bind fun _ => Calm.turns (does_pure ())
  have hscan : Turns Intake.submit (l.dispatchAll [.endpointScan, .commandService]) :=
    (hcalm (by decide) (by decide)).bind fun _ => hservice
  intro i s hs
  obtain ⟨t, htake, hmoved⟩ := takeEvents_moved hs.sound
  have ht : Rests { i with asked := false } t := hs.moved hmoved hs.announced
  have hasked : i.asked = decide (s.bus.bus.ram.get eventFlags &&& passEvents ≠ 0) := by
    rw [← hs.intake]
    rfl
  generalize s.bus.bus.ram.get eventFlags &&& passEvents = events at htake hasked
  rw [Linkage.serveEvents_eq, Run.bind_of_done htake]
  unfold Intake.serve
  rw [hasked]
  unfold asked
  by_cases hzero : events = 0
  · subst hzero
    refine ⟨0, t, rfl, ?_⟩
    have hnone : i.asked = false := hasked
    rwa [← hnone] at ht
  have hserve : Turns Intake.submit (l.dispatchAll (asked events)) := by
    unfold asked
    rw [if_neg hzero]
    split
    · exact (hcalm (by decide) (by decide)).bind fun _ => hscan
    · exact (hcalm (by decide) (by decide)).bind fun _ => hservice
  obtain ⟨_, u, hrun, hu⟩ := hserve _ t ht
  refine ⟨events, u, Run.bind_of_done hrun, ?_⟩
  simpa [hzero] using hu

/-- A pass of the main loop moves the intake by a pass. -/
theorem Ready.runPass (hl : Ready l) (hs : Idle p i s) :
    ∃ summary t, Board.runPass l s = .done summary t ∧ Rests i.pass t := by
  have hremember : Calm (Rig.remember fun r : Record => { r with passes := r.passes + 1 }) :=
    does_remember fun _ => rfl
  obtain ⟨_, r, hcount, hcounted⟩ := hremember s hs.sound (by have := hs.room; omega)
  have hr : Idle p i r := hs.moved hcounted hs.announced
  obtain ⟨t, hpollers, ht⟩ := hl.runPollers (show pollers ≠ [] by decide) (by decide) hr
  have hpoll : Turns id l.poll := by
    intro i s hs
    obtain ⟨t, hrun, ht⟩ := hl.poll _ i s hs
    rw [Intake.receive_of_not_arrived hs.not_arrived] at ht
    exact ⟨(), t, hrun, ht⟩
  have hpromote : Turns Intake.promote (Machine.critical promoteDeferred) :=
    Does.turns (Does.critical does_promoteDeferred) (Nat.zero_le 8) fun _ => rfl
  have hrest : Turns _ (do
      let events ← l.serveEvents
      let promoted ← Machine.critical promoteDeferred
      l.poll
      pure (PassSummary.mk events promoted) : Run State PassSummary) :=
    hl.serveEvents.bind fun _ => hpromote.bind fun _ => hpoll.bind fun _ => Calm.turns (does_pure _)
  obtain ⟨summary, u, hrun, hu⟩ := hrest _ t ht
  refine ⟨summary, u, ?_, hu⟩
  exact (Run.bind_of_done hcount).trans ((Run.bind_of_done hpollers).trans hrun)

end Parts

end Board

end BankedController
