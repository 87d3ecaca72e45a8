import BankedController.Proofs.FarCalls
import BankedController.Proofs.Postings

namespace BankedController

open RegisterMap Ledger

/-- The slots that a pass dispatches for the event bits that it saw. -/
def asked (events : UInt8) : List SlotId :=
  if events = 0 then []
  else if events &&& eventEndpoint ≠ 0 then [.hostEvent, .endpointScan, .commandService]
  else [.hostEvent, .commandService]

theorem asked_subset (events : UInt8) : asked events ⊆ asked passEvents := by
  have hall : asked passEvents = [.hostEvent, .endpointScan, .commandService] := rfl
  rw [hall]
  unfold asked
  split
  · exact List.nil_subset _
  split
  · exact List.Subset.refl _
  · decide

section Serving

variable {β : Type} [RegisterBus β]

/-- The pass reads the event byte and clears the bits that it sees. -/
def takeEvents : Run (Machine β) UInt8 := do
  let raw ← Machine.read eventFlags
  let events := raw &&& passEvents
  if events ≠ 0 then
    Machine.note (.conditionalDispatch events)
    Machine.clearBits eventFlags events
  pure events

/-- The bits are cleared before anything is dispatched, and what is dispatched depends on them
alone. -/
theorem Linkage.serveEvents_eq (l : Linkage β) :
    l.serveEvents = takeEvents >>= fun events => l.dispatchAll (asked events) >>= fun _ =>
      pure events := by
  unfold serveEvents takeEvents
  rw [bind_assoc]
  congr 1
  funext raw
  generalize raw &&& passEvents = events
  by_cases hzero : events = 0
  · simp [hzero, asked, dispatchAll]
  simp only [ne_eq, hzero, not_false_eq_true, if_true, bind_assoc, pure_bind]
  rw [asked, if_neg hzero]
  by_cases hendpoint : events &&& eventEndpoint ≠ 0
  · simp only [if_pos hendpoint, dispatchAll, bind_assoc, pure_bind]
  · simp only [if_neg hendpoint, dispatchAll, bind_assoc, pure_bind]

end Serving

namespace LedgerBus

variable {β α : Type} [RegisterBus β] {b : LedgerBus β}

/-- Calls and preemption points post, and beside that a call leaves a trail of dispatches. -/
structure Trails (b : LedgerBus β) (trail : SlotId → List SlotId) (l : Linkage β) : Prop where
  call : ∀ id param, (l.call id param).Keeps (OnBus (b.Grows (trail id)))
  poll : l.poll.Keeps (OnBus (b.Grows []))

/-- The linkage with every call through it entered in the ledger. The routines that are called have
the linkage that they had. -/
def tapped (b : LedgerBus β) (l : Linkage β) : Linkage β :=
  { l with
    call := fun id param => do
      b.record (.dispatch id)
      l.call id param }

theorem trails_of_keeps {l : Linkage β} (hl : l.Keeps (OnBus (b.Grows []))) :
    b.Trails (fun _ => []) l :=
  ⟨hl.call, hl.poll⟩

theorem trails_tapped {l : Linkage β} (hl : l.Keeps (OnBus (b.Grows []))) :
    b.Trails (fun id => [id]) (b.tapped l) := by
  refine ⟨?_, hl.poll⟩
  intro id param
  exact grows_bind (grows_record_dispatch id) fun _ => hl.call id param

section Parts

variable {trail : SlotId → List SlotId} {l : Linkage β}

/-- A dispatch leaves the trail of its call, whether or not the call fails. -/
theorem grows_dispatch (hl : b.Trails trail l) (id : SlotId) (param : Option UInt8) :
    (l.dispatch id param).Keeps (OnBus (b.Grows (trail id))) := by
  have hE := extends_onBus (extends_grows (b := b))
  have hboth : (l.dispatch id param).Keeps (OnBus (b.Grows (trail id ++ []))) := by
    refine grows_bind (hl.call id param) fun result => ?_
    cases result with
    | ok => exact Run.keeps_pure hE _
    | error e =>
      have hT := tolerates_onBus (extends_grows (b := b))
      exact Run.keeps_bind hE (Run.keeps_modify hT.failed) fun _ => Run.keeps_modify (hT.note _)
  rw [List.append_nil] at hboth
  exact hboth

theorem grows_dispatchAll (hl : b.Trails trail l) (slots : List SlotId) :
    (l.dispatchAll slots).Keeps (OnBus (b.Grows (slots.flatMap trail))) := by
  induction slots with
  | nil => exact Run.keeps_pure (extends_onBus extends_grows) _
  | cons slot rest ih => exact grows_bind (grows_dispatch hl slot none) fun _ => ih

theorem grows_runPollers (hl : b.Trails trail l) (slots : List SlotId) :
    (l.runPollers slots).Keeps (OnBus (b.Grows (slots.flatMap trail))) := by
  induction slots with
  | nil => exact Run.keeps_pure (extends_onBus extends_grows) _
  | cons slot rest ih =>
    refine grows_bind (grows_dispatch hl slot none) fun _ => ?_
    exact grows_bind hl.poll fun _ => ih

/-- The pass clears the bits that it sees and no others. -/
theorem takeEvents_apply {v : Account} {s : Machine β} (hs : b.At v s) :
    let events := v.value .events &&& passEvents
    ∃ t, takeEvents s = .done events t ∧
      b.At (v.store .events (v.value .events &&& ~~~events)) t := by
  intro events
  obtain ⟨r, hread, hr⟩ := read_apply hs .events
  have htake : takeEvents s = (do
      if events ≠ 0 then
        Machine.note (.conditionalDispatch events)
        Machine.clearBits eventFlags events
      pure events : Run (Machine β) UInt8) r := Run.bind_of_done hread
  rw [htake]
  by_cases hzero : events = 0
  · -- nothing was seen, and the byte is not written at all
    refine ⟨r, by simp [hzero], ?_⟩
    have hclear : v.value .events &&& ~~~events = v.value .events := by
      rw [hzero]
      exact UInt8.and_neg_one
    rw [hclear, Account.store_self]
    exact hr
  have hnoted : b.At v (r.noted (.conditionalDispatch events)) := ⟨hr.wired, hr.view⟩
  obtain ⟨t, hclear, ht⟩ := clearBits_apply hnoted .events events
  refine ⟨t, ?_, ht⟩
  simp only [ne_eq, hzero, not_false_eq_true, if_true]
  rw [Run.bind_of_done (Machine.note_apply _ r)]
  exact Run.bind_of_done hclear

theorem promoteDeferred_apply {v : Account} {s : Machine β} (hs : b.At v s) :
    let promoted := v.value .state &&& deferredBits
    ∃ t, promoteDeferred s = .done promoted t ∧
      b.At ((v.store .state (v.value .state &&& ~~~promoted)).store .events
        (v.value .events ||| eventsOfDeferred promoted)) t := by
  intro promoted
  obtain ⟨r, hread, hr⟩ := read_apply hs .state
  have hpromote : promoteDeferred s = (if promoted = 0 then pure promoted else do
      Machine.write systemState (v.value .state &&& ~~~promoted)
      Machine.setBits eventFlags (eventsOfDeferred promoted)
      pure promoted : Run (Machine β) UInt8) r := Run.bind_of_done hread
  rw [hpromote]
  by_cases hzero : promoted = 0
  · -- nothing is deferred, and neither byte is written
    refine ⟨r, by rw [if_pos hzero]; rfl, ?_⟩
    have hstate : v.value .state &&& ~~~promoted = v.value .state := by
      rw [hzero]
      exact UInt8.and_neg_one
    have hevents : v.value .events ||| eventsOfDeferred promoted = v.value .events := by
      rw [hzero]
      exact UInt8.or_zero
    rw [hstate, hevents, Account.store_self, Account.store_self]
    exact hr
  obtain ⟨t, hwrite, ht⟩ := write_apply hr .state (v.value .state &&& ~~~promoted)
  obtain ⟨u, hset, hu⟩ := setBits_apply ht .events (eventsOfDeferred promoted)
  refine ⟨u, ?_, hu⟩
  rw [if_neg hzero]
  exact (Run.bind_of_done hwrite).trans (Run.bind_of_done hset)

/-- The critical section moves nothing but what it encloses. -/
theorem critical_apply {v v' : Account} {m : Run (Machine β) α} {a : α}
    (hm : ∀ s, b.At v s → ∃ t, m s = .done a t ∧ b.At v' t) {s : Machine β} (hs : b.At v s) :
    ∃ t, Machine.critical m s = .done a t ∧ b.At v' t := by
  let closed : Machine β := { s with irq := s.irq.setGlobal false }
  obtain ⟨t, hrun, ht⟩ := hm closed ⟨hs.wired, hs.view⟩
  exact ⟨_, Machine.critical_of_done hrun, ht.wired, ht.view⟩

/-- What the event byte was when it was read and what has been posted since make up what it is when
the events are served. -/
theorem serveEvents_eq_done (hl : b.Trails trail l) {s t : Machine β} {events : UInt8}
    (hs : b.wired s.bus) (h : l.serveEvents s = .done events t) :
    events = (b.view s.bus).value .events &&& passEvents ∧ b.wired t.bus ∧
      ∃ entries, Account.Grown entries
        ((b.view s.bus).store .events ((b.view s.bus).value .events &&& ~~~events))
        (b.view t.bus) ∧ dispatched entries = (asked events).flatMap trail := by
  obtain ⟨cleared, htake, hcleared⟩ := takeEvents_apply ⟨hs, rfl⟩
  rw [Linkage.serveEvents_eq, Run.bind_of_done htake] at h
  obtain ⟨_, u, hall, hpure⟩ := Run.bind_eq_done.1 h
  cases hpure
  obtain ⟨ht, entries, hgrown, hentries⟩ := grows_dispatchAll hl _ _ _ _ hall hcleared.wired
  rw [hcleared.view] at hgrown
  exact ⟨rfl, ht, entries, hgrown, hentries⟩

/-- What the system-state byte was when it was read and what the handlers have posted that were
waiting for the end of the section make up what it is when the pass ends. -/
theorem promotion_eq_done (hl : b.Trails trail l) {s t u : Machine β} {promoted : UInt8}
    (hs : b.wired s.bus) (h : Machine.critical promoteDeferred s = .done promoted t)
    (hpoll : l.poll t = .done () u) :
    promoted = (b.view s.bus).value .state &&& deferredBits ∧ b.wired u.bus ∧
      ∃ entries, Account.Grown entries
        (((b.view s.bus).store .state ((b.view s.bus).value .state &&& ~~~promoted)).store .events
          ((b.view s.bus).value .events ||| eventsOfDeferred promoted))
        (b.view u.bus) ∧ dispatched entries = [] := by
  obtain ⟨t', happly, ht⟩ := critical_apply (fun _ hat => promoteDeferred_apply hat) ⟨hs, rfl⟩
  rw [happly] at h
  cases h
  obtain ⟨hu, entries, hgrown, hentries⟩ := hl.poll _ _ _ hpoll ht.wired
  rw [ht.view] at hgrown
  exact ⟨rfl, hu, entries, hgrown, hentries⟩

end Parts

section Ending

variable {l : Linkage β} {G : Machine β → Prop}

/-- Machines from which the calls of a pass and its preemption points end, and which neither these
nor the steps of the pass itself leave. -/
structure Viable (b : LedgerBus β) (l : Linkage β) (G : Machine β → Prop) : Prop
    extends Tolerates fun s t => G s → G t where
  wired : ∀ s, G s → b.wired s.bus
  read : ∀ byte : SharedByte, (Machine.read byte.addr).Keeps fun s t => G s → G t
  write : ∀ (byte : SharedByte) value, (Machine.write byte.addr value).Keeps fun s t => G s → G t
  call : ∀ id ∈ pollers ++ asked passEvents, (l.call id none).Ends G
  poll : l.poll.Ends G

/-- A dispatch ends if its call does, be it with a failure. -/
theorem Viable.ends_dispatch (hG : b.Viable l G) {id : SlotId}
    (hid : id ∈ pollers ++ asked passEvents) : (l.dispatch id none).Ends G := by
  refine Run.ends_bind (hG.call id hid) fun result => ?_
  cases result with
  | ok => exact Run.ends_pure ()
  | error e =>
    intro s hs
    exact ⟨(), _, rfl, hG.note _ _ (hG.failed s hs)⟩

theorem Viable.ends_runPollers (hG : b.Viable l G) {slots : List SlotId} (h : slots ⊆ pollers) :
    (l.runPollers slots).Ends G := by
  induction slots with
  | nil => exact Run.ends_pure ()
  | cons slot rest ih =>
    obtain ⟨hslot, hrest⟩ := List.cons_subset.1 h
    refine Run.ends_bind (hG.ends_dispatch (List.mem_append_left _ hslot)) fun _ => ?_
    exact Run.ends_bind hG.poll fun _ => ih hrest

theorem Viable.ends_dispatchAll (hG : b.Viable l G) {slots : List SlotId}
    (h : slots ⊆ asked passEvents) : (l.dispatchAll slots).Ends G := by
  induction slots with
  | nil => exact Run.ends_pure ()
  | cons slot rest ih =>
    obtain ⟨hslot, hrest⟩ := List.cons_subset.1 h
    exact Run.ends_bind (hG.ends_dispatch (List.mem_append_right _ hslot)) fun _ => ih hrest

theorem Viable.keeps_setBits (hG : b.Viable l G) (byte : SharedByte) (mask : UInt8) :
    (Machine.setBits byte.addr mask).Keeps fun s t => G s → G t := by
  simp only [Machine.setBits, RegisterBus.setBits, Machine.onBus_bind]
  exact Run.keeps_bind hG.toExtends (hG.read byte) fun value => hG.write byte (value ||| mask)

theorem Viable.keeps_clearBits (hG : b.Viable l G) (byte : SharedByte) (mask : UInt8) :
    (Machine.clearBits byte.addr mask).Keeps fun s t => G s → G t := by
  simp only [Machine.clearBits, RegisterBus.clearBits, Machine.onBus_bind]
  exact Run.keeps_bind hG.toExtends (hG.read byte) fun value => hG.write byte (value &&& ~~~mask)

theorem Viable.ends_takeEvents (hG : b.Viable l G) :
    (takeEvents : Run (Machine β) UInt8).Ends G := by
  have hkeeps : (takeEvents : Run (Machine β) UInt8).Keeps fun s t => G s → G t := by
    refine Run.keeps_bind hG.toExtends (hG.read .events) fun raw => ?_
    by_cases hzero : raw &&& passEvents = 0
    · simp only [ne_eq, hzero, not_true_eq_false, if_false]
      exact Run.keeps_pure hG.toExtends _
    · simp only [ne_eq, hzero, not_false_eq_true, if_true]
      refine Run.keeps_bind hG.toExtends (Run.keeps_modify (hG.note _)) fun _ => ?_
      refine Run.keeps_bind hG.toExtends (hG.keeps_clearBits .events _) fun _ => ?_
      exact Run.keeps_pure hG.toExtends _
  intro s hs
  obtain ⟨t, htake, -⟩ := takeEvents_apply ⟨hG.wired s hs, rfl⟩
  exact ⟨_, t, htake, hkeeps s _ t htake hs⟩

theorem Viable.ends_promotion (hG : b.Viable l G) :
    (Machine.critical (promoteDeferred : Run (Machine β) UInt8)).Ends G := by
  have hkeeps : (Machine.critical (promoteDeferred : Run (Machine β) UInt8)).Keeps
      fun s t => G s → G t := by
    refine Machine.keeps_critical hG.toTolerates ?_
    refine Run.keeps_bind hG.toExtends (hG.read .state) fun state => ?_
    by_cases hzero : state &&& deferredBits = 0
    · simp only [if_pos hzero]
      exact Run.keeps_pure hG.toExtends _
    · simp only [if_neg hzero]
      refine Run.keeps_bind hG.toExtends (hG.write .state _) fun _ => ?_
      refine Run.keeps_bind hG.toExtends (hG.keeps_setBits .events _) fun _ => ?_
      exact Run.keeps_pure hG.toExtends _
  intro s hs
  obtain ⟨t, happly, -⟩ :=
    critical_apply (fun _ hat => promoteDeferred_apply hat) ⟨hG.wired s hs, rfl⟩
  exact ⟨_, t, happly, hkeeps s _ t happly hs⟩

/-- A pass ends: of what it does itself nothing stops it, nor does a dispatch that fails. -/
theorem Viable.ends_runPass (hG : b.Viable l G) : l.runPass.Ends G := by
  have hserve : l.serveEvents.Ends G := by
    rw [Linkage.serveEvents_eq]
    refine Run.ends_bind hG.ends_takeEvents fun events => ?_
    exact Run.ends_bind (hG.ends_dispatchAll (asked_subset events)) fun _ => Run.ends_pure events
  refine Run.ends_bind (hG.ends_runPollers (List.Subset.refl _)) fun _ => ?_
  refine Run.ends_bind hserve fun events => ?_
  refine Run.ends_bind hG.ends_promotion fun promoted => ?_
  exact Run.ends_bind hG.poll fun _ => Run.ends_pure _

end Ending

end LedgerBus

end BankedController
