import BankedController.Proofs.ResolvedCalls

namespace BankedController

open RegisterMap Endpoint

variable {β α : Type}

namespace Linkage

/-- What a dispatch makes of the end of its call: a failure is counted and reported. -/
def absorb (id : SlotId) : Except CallError Unit → Run (Machine β) Unit
  | .ok () => pure ()
  | .error e => do
    Run.modify fun s => { s with stats := s.stats.failed }
    Machine.note (.dispatchFailed id e)

theorem dispatch_eq (l : Linkage β) (id : SlotId) (param : Option UInt8) :
    l.dispatch id param = l.call id param >>= absorb id := by
  unfold dispatch
  congr 1

variable [RegisterBus β]

/-- The value that a test looks at. -/
def look (snapshot : UInt8) : TestSource → Run (Machine β) UInt8
  | .snapshot => pure snapshot
  | .reread register => Machine.read register

theorem runTest_eq (l : Linkage β) (snapshot : UInt8) (test : StatusTest) :
    l.runTest snapshot test = look snapshot test.source >>= fun value =>
      if value &&& test.mask = 0 then
        pure ()
      else
        l.dispatch test.slot none >>= fun _ => acknowledge test := by
  obtain ⟨source, mask, slot, ack⟩ := test
  cases source <;> rfl

/-- The lowest pending condition of the lowest ready endpoint, if one is found. -/
def seek : Run (Machine β) (Option (UInt8 × UInt8)) := do
  let primary ← Machine.read endpointStatus
  Machine.write endpointIndex (lowestBit primary)
  if lowestBit primary ≥ count then
    pure none
  else
    let index ← Machine.read endpointIndex
    if index ≥ count then
      pure none
    else
      let secondary ← Machine.read (endpointSecondaryBase + index.toUInt16)
      if lowestBit secondary ≥ count then
        pure none
      else
        pure (some (index, lowestBit secondary))

/-- Stores and reports the offset of a condition. -/
def announce (index sub : UInt8) : Run (Machine β) Unit := do
  Machine.write endpointOffset (offsetBase index + sub)
  Machine.note (.endpointStep index sub (offsetBase index + sub))

/-- Clears a condition of an endpoint. -/
def clearCondition (index sub : UInt8) : Run (Machine β) Unit :=
  Machine.write (endpointSecondaryBase + index.toUInt16) (conditionBit sub)

theorem scanStep_eq (l : Linkage β) :
    l.scanStep = seek >>= fun found =>
      match found with
      | none => pure none
      | some (index, sub) =>
        announce index sub >>= fun _ =>
          (l.dispatch .endpointHandler (some (offsetBase index + sub)) >>= fun _ =>
            clearCondition index sub) >>= fun _ => pure (some (offsetBase index + sub)) := by
  unfold scanStep seek announce clearCondition
  simp only [bind_assoc]
  refine congrArg (Machine.read endpointStatus >>= ·) (funext fun primary => ?_)
  refine congrArg (Machine.write endpointIndex (lowestBit primary) >>= ·) (funext fun _ => ?_)
  split
  · rfl
  rw [bind_assoc]
  refine congrArg (Machine.read endpointIndex >>= ·) (funext fun index => ?_)
  split
  · rfl
  rw [bind_assoc]
  refine congrArg (Machine.read _ >>= ·) (funext fun secondary => ?_)
  split
  · rfl
  · rfl

end Linkage

/-- What a dropped dispatch leaves: one failure more, reported, and everything else but the counts
as it was. -/
structure Dropped (id : SlotId) (s t : Machine β) : Prop where
  unmoved : FarCall.Unmoved { s with stats := t.stats } t
  failures : t.stats.failures = s.stats.failures + 1
  reported : ∃ e log, t.log = Log.record log (.dispatchFailed id e)

namespace Firmware

variable [RegisterBus β]

/-- A dispatch enters the routine of the slot: the slot is in the table, and its frame fits. -/
def Enters (fw : Firmware β) (id : SlotId) (s : Machine β) : Prop :=
  (fw.table.slot? id).isSome ∧ s.stack.used + 5 ≤ s.stack.capacity

/-- A slot is dispatched once, through a linkage with bound `n + 1`, and then a condition is
acknowledged: after the routine has been entered and has returned, or else after the dispatch was
dropped. -/
inductive Handed (fw : Firmware β) (n : Nat) (id : SlotId) (param : Option UInt8)
    (ack : Run (Machine β) Unit) : Bool → Machine β → Machine β → Prop
  | entered {slot : DispatchSlot} {placed : Placed (Routine β)} {s u v t : Machine β}
    (known : fw.table.slot? id = some slot) (leads : fw.LeadsTo id slot placed)
    (fits : s.stack.used + 5 ≤ s.stack.capacity)
    (ran : placed.body (fw.linkage n) param
      (FarCall.opened slot param { s with stats := s.stats.called id }) = .done () u)
    (returned : ((FarCall.restore slot >>= FarCall.conclude s.stack.depth s.window.active) >>=
      Linkage.absorb id) u = .done () v)
    (acknowledged : ack v = .done () t) : Handed fw n id param ack true s t
  | dropped {s v t : Machine β} (refused : ¬fw.Enters id s) (dropped : Dropped id s v)
    (acknowledged : ack v = .done () t) : Handed fw n id param ack false s t

/-- Tests in order, with the slots of those that fired and whether their routines were entered. A
test that does not fire dispatches and acknowledges nothing. -/
inductive Routed (fw : Firmware β) (n : Nat) (snapshot : UInt8) :
    List StatusTest → List (SlotId × Bool) → Machine β → Machine β → Prop
  | none (s : Machine β) : Routed fw n snapshot [] [] s s
  | quiet {test : StatusTest} {tests : List StatusTest} {handed : List (SlotId × Bool)}
    {value : UInt8} {s u t : Machine β}
    (looked : Linkage.look snapshot test.source s = .done value u)
    (clear : value &&& test.mask = 0) (later : Routed fw n snapshot tests handed u t) :
    Routed fw n snapshot (test :: tests) handed s t
  | fired {test : StatusTest} {tests : List StatusTest} {handed : List (SlotId × Bool)}
    {value : UInt8} {entered : Bool} {s u v t : Machine β}
    (looked : Linkage.look snapshot test.source s = .done value u) (set : value &&& test.mask ≠ 0)
    (first : fw.Handed n test.slot none (Linkage.acknowledge test) entered u v)
    (later : Routed fw n snapshot tests handed v t) :
    Routed fw n snapshot (test :: tests) ((test.slot, entered) :: handed) s t

/-- Steps of a scan, with the offsets of the conditions that were found and whether the handler was
entered for them. A step that finds nothing dispatches and acknowledges nothing. -/
inductive Scanned (fw : Firmware β) (n : Nat) :
    Nat → List (UInt8 × Bool) → ScanStop → Machine β → Machine β → Prop
  | limit (s : Machine β) : Scanned fw n 0 [] .exhausted s s
  | idle {limit : Nat} {s t : Machine β} (found : Linkage.seek s = .done none t) :
    Scanned fw n (limit + 1) [] .idle s t
  | step {limit : Nat} {index sub : UInt8} {entered : Bool} {handed : List (UInt8 × Bool)}
    {stop : ScanStop} {s u v w t : Machine β}
    (found : Linkage.seek s = .done (some (index, sub)) u)
    (announced : Linkage.announce index sub u = .done () v)
    (first : fw.Handed n .endpointHandler (some (offsetBase index + sub))
      (Linkage.clearCondition index sub) entered v w)
    (later : Scanned fw n limit handed stop w t) :
    Scanned fw n (limit + 1) ((offsetBase index + sub, entered) :: handed) stop s t

/-- How many conditions were acknowledged without their routine having been entered. -/
def unserved {ι : Type} (handed : List (ι × Bool)) : Nat :=
  handed.countP fun condition => !condition.2

/-- No failure is taken back. -/
def Counts (s t : Machine β) : Prop := s.stats.failures ≤ t.stats.failures

variable {fw : Firmware β} {image : CodeImage (Routine β)} {entries : List DispatchEntry}
  {config : FirmwareConfig} {n : Nat} {id : SlotId} {param : Option UInt8} {s t : Machine β}

section Failures

omit [RegisterBus β] in
theorem tolerates_counts : Tolerates (Counts : Machine β → Machine β → Prop) where
  refl _ := Nat.le_refl _
  trans := Nat.le_trans
  failed _ := Nat.le_succ _
  note _ _ := Nat.le_refl _
  global _ _ := Nat.le_refl _

omit [RegisterBus β] in
theorem counts_of_stats (h : t.stats.failures = s.stats.failures) : Counts s t :=
  Nat.le_of_eq h.symm

theorem keeps_counts {m : Linkage β → Run (Machine β) α} (hm : Composed OwnStep m)
    {l : Linkage β} (hl : l.Keeps Counts) : (m l).Keeps Counts := by
  refine Composed.keeps tolerates_counts.survives ?_ hl hm
  intro γ own hown s a t hrun
  exact counts_of_stats (congrArg DispatchStats.failures (hown.stats hrun))

/-- Routines do not touch the counts, and calls and interrupts around them only add to them. -/
theorem counts_linkage (h : link image entries config = .ok fw)
    (himage : fw.image.ComposedOf OwnStep) (n : Nat) : (fw.linkage n).Keeps Counts := by
  induction n with
  | zero => exact ⟨fun _ _ => Run.keeps_giveUp, Run.keeps_giveUp⟩
  | succ n ih =>
    have hkept : (fw.linkage n).Keeps Kept := (restores_linkage h himage n).keeps
    refine ⟨?_, ?_⟩
    · -- a call is over before its routine, or the routine runs between opening and closing a frame
      intro id param s r t hcall
      rcases callWith_cases h himage hkept hcall with
        ⟨-, -, rfl⟩ | ⟨slot, counted, placed, -, rfl, hmem, -, -, hcases⟩
      · exact Nat.le_refl _
      rcases hcases with ⟨-, hunmoved⟩ | ⟨-, u, hrun, -, rfl⟩
      · have hstats : t.stats = s.stats.called id := hunmoved.stats
        refine counts_of_stats ?_
        rw [hstats]
        rfl
      · let counted : Machine β := { s with stats := s.stats.called id }
        have hroutine : Counts (FarCall.opened slot param counted) u :=
          keeps_counts (himage placed hmem param) ih _ () u hrun
        unfold Counts at hroutine ⊢
        rw [FarCall.stats_opened] at hroutine
        rw [FarCall.stats_closed]
        exact hroutine
    · -- a preemption point serves one interrupt after another
      intro s _ t hpoll
      rw [poll_linkage] at hpoll
      split at hpoll
      · cases hpoll
        exact Nat.le_refl _
      next line hline =>
        obtain ⟨_, u, hservice, hrest⟩ := Run.bind_eq_done.1 hpoll
        have hfirst : Counts s u := by
          rcases Linkage.serviceInterrupt_cases hkept hservice with
            ⟨v, hunmoved, rfl⟩ | ⟨v, hroute, -, rfl⟩
          · exact counts_of_stats (congrArg DispatchStats.failures hunmoved.stats)
          · have hroute' : Counts (Linkage.interrupted line s) v :=
              keeps_counts (Composed.route admits_ownStep.service.route line) ih _ () v hroute
            have hstats : (Linkage.retired line
                (Linkage.resumed s.window.active s.stack.entries v)).stats = v.stats :=
              Machine.stats_mapped v s.window.active
            unfold Counts at hroute' ⊢
            rw [hstats]
            exact hroute'
        exact Nat.le_trans hfirst (ih.poll u () t hrest)

end Failures

section Dispatches

/-- A dispatch that is refused is dropped, whatever is on the stack. -/
theorem dispatch_of_refused (h : link image entries config = .ok fw) (n : Nat)
    (param : Option UInt8) (hrefused : ¬fw.Enters id s) :
    ∃ t, Dropped id s t ∧ (fw.linkage (n + 1)).dispatch id param s = .done () t := by
  have absorbed {u : Machine β} {e : CallError}
      (hunmoved : FarCall.Unmoved { s with stats := u.stats } u)
      (hfailures : u.stats.failures = s.stats.failures)
      (hcall : (fw.linkage (n + 1)).call id param s = .done (.error e) u) :
      ∃ t, Dropped id s t ∧ (fw.linkage (n + 1)).dispatch id param s = .done () t := by
    let t := ({ u with stats := u.stats.failed } : Machine β).noted (.dispatchFailed id e)
    have hdropped : Dropped id s t :=
      ⟨⟨hunmoved.bus, hunmoved.irq, rfl, hunmoved.active, hunmoved.entries, hunmoved.used,
        hunmoved.capacity⟩, congrArg (· + 1) hfailures, e, u.log, rfl⟩
    refine ⟨t, hdropped, ?_⟩
    rw [Linkage.dispatch_eq, Run.bind_of_done hcall]
    rfl
  cases hslot : fw.table.slot? id with
  | none =>
    have hcall : (fw.linkage (n + 1)).call id param s = .done (.error (.unknownSlot id)) s := by
      change fw.callWith (fw.linkage n) id param s = _
      unfold callWith
      rw [hslot]
      rfl
    exact absorbed ⟨rfl, rfl, rfl, rfl, rfl, rfl, rfl⟩ rfl hcall
  | some slot =>
    have hover : s.stack.capacity < s.stack.used + 5 := by
      apply Nat.lt_of_not_le
      intro hfits
      exact hrefused ⟨by rw [hslot]; rfl, hfits⟩
    obtain ⟨u, hcall, hunmoved⟩ := callWith_of_overflow h (fw.linkage n) hslot param hover
    have hfailures : u.stats.failures = s.stats.failures := by
      rw [hunmoved.stats]
      rfl
    exact absorbed ⟨hunmoved.bus, hunmoved.irq, rfl, hunmoved.active, hunmoved.entries,
      hunmoved.used, hunmoved.capacity⟩ hfailures hcall

/-- A dispatch that is not refused runs the routine that stands at the target of the slot. -/
theorem dispatch_of_enters (h : link image entries config = .ok fw) (n : Nat)
    (param : Option UInt8) (henters : fw.Enters id s) :
    ∃ slot placed, fw.table.slot? id = some slot ∧ fw.LeadsTo id slot placed ∧
      (fw.linkage (n + 1)).dispatch id param s =
        (placed.body (fw.linkage n) param >>= fun _ =>
          (FarCall.restore slot >>= FarCall.conclude s.stack.depth s.window.active) >>=
            Linkage.absorb id)
          (FarCall.opened slot param { s with stats := s.stats.called id }) := by
  obtain ⟨hknown, hfits⟩ := henters
  obtain ⟨slot, hslot⟩ := Option.isSome_iff_exists.1 hknown
  obtain ⟨placed, hleads⟩ := leadsTo_target h hslot
  refine ⟨slot, placed, hslot, hleads, ?_⟩
  have hcall : (fw.linkage (n + 1)).call id param s = _ :=
    hleads.entered (fw.linkage n) param s hfits
  rw [Linkage.dispatch_eq, Run.bind_apply, hcall, ← Run.bind_apply, bind_assoc]

/-- One dispatch comes before an acknowledgement, and it was entered or dropped as the table and the
stack said when it was made. -/
theorem handed_of_dispatch (h : link image entries config = .ok fw) {ack : Run (Machine β) Unit}
    (hrun : ((fw.linkage (n + 1)).dispatch id param >>= fun _ => ack) s = .done () t) :
    ∃ entered, fw.Handed n id param ack entered s t := by
  obtain ⟨_, v, hdispatch, hack⟩ := Run.bind_eq_done.1 hrun
  by_cases henters : fw.Enters id s
  · obtain ⟨slot, placed, hslot, hleads, hsplit⟩ := dispatch_of_enters h n param henters
    rw [hsplit] at hdispatch
    obtain ⟨_, u, hran, hreturned⟩ := Run.bind_eq_done.1 hdispatch
    exact ⟨true, .entered hslot hleads henters.2 hran hreturned hack⟩
  · obtain ⟨v', hdropped, hdispatch'⟩ := dispatch_of_refused h n param henters
    rw [hdispatch'] at hdispatch
    cases hdispatch
    exact ⟨false, .dropped henters hdropped hack⟩

/-- The failures of the routine itself aside, a dispatch that was dropped is a failure more. -/
theorem Handed.counts (h : link image entries config = .ok fw)
    (himage : fw.image.ComposedOf OwnStep) {ack : Run (Machine β) Unit} {entered : Bool}
    (hack : ack.Keeps Counts) (hhanded : fw.Handed n id param ack entered s t) :
    s.stats.failures + (if entered then 0 else 1) ≤ t.stats.failures := by
  cases hhanded with
  | @entered slot placed _ u v _ known leads fits ran returned acknowledged =>
    have hrest : Counts s v := by
      have hdispatch : (fw.linkage (n + 1)).dispatch id param s = .done () v := by
        obtain ⟨slot', placed', hslot', hleads', hsplit⟩ :=
          dispatch_of_enters h n param ⟨by rw [known]; rfl, fits⟩
        obtain rfl : slot' = slot := by
          rw [known] at hslot'
          exact (Option.some.inj hslot').symm
        obtain rfl : placed' = placed := by
          have hstands := leads.stands
          rw [hleads'.stands] at hstands
          exact Option.some.inj hstands
        rw [hsplit, Run.bind_of_done ran]
        exact returned
      have hkeeps := Linkage.Within.dispatch tolerates_counts.survives.carries
        (counts_linkage h himage (n + 1)) id param
      exact hkeeps s () v hdispatch
    exact Nat.le_trans hrest (hack v () t acknowledged)
  | @dropped _ v _ refused dropped acknowledged =>
    have hlast : Counts v t := hack v () t acknowledged
    unfold Counts at hlast
    rw [dropped.failures] at hlast
    exact hlast

end Dispatches

section Runs

omit [RegisterBus β] in
theorem keeps_onBus (m : Run β α) : (Machine.onBus m).Keeps Counts := by
  intro s a t hrun
  obtain ⟨bus, -, rfl⟩ := Machine.onBus_eq_done hrun
  exact Nat.le_refl _

theorem keeps_look (snapshot : UInt8) (source : TestSource) :
    (Linkage.look snapshot source : Run (Machine β) UInt8).Keeps Counts := by
  cases source with
  | snapshot => exact Run.keeps_pure tolerates_counts.toExtends snapshot
  | reread register => exact keeps_onBus _

theorem keeps_acknowledge (test : StatusTest) :
    (Linkage.acknowledge test : Run (Machine β) Unit).Keeps Counts := by
  unfold Linkage.acknowledge
  cases test.ack with
  | handler => exact Run.keeps_pure tolerates_counts.toExtends ()
  | writeMask register => exact keeps_onBus _
  | clearMask register => exact keeps_onBus _

theorem keeps_seek : (Linkage.seek : Run (Machine β) _).Keeps Counts := by
  have hcounts : Extends (Counts : Machine β → Machine β → Prop) := tolerates_counts.toExtends
  have hnone : (pure none : Run (Machine β) (Option (UInt8 × UInt8))).Keeps Counts :=
    Run.keeps_pure hcounts none
  refine Run.keeps_bind hcounts (keeps_onBus _) fun primary => ?_
  refine Run.keeps_bind hcounts (keeps_onBus _) fun _ => ?_
  refine Run.keeps_branch hnone ?_
  refine Run.keeps_bind hcounts (keeps_onBus _) fun index => ?_
  refine Run.keeps_branch hnone ?_
  refine Run.keeps_bind hcounts (keeps_onBus _) fun secondary => ?_
  exact Run.keeps_branch hnone (Run.keeps_pure hcounts _)

theorem keeps_announce (index sub : UInt8) :
    (Linkage.announce index sub : Run (Machine β) Unit).Keeps Counts :=
  Run.keeps_bind tolerates_counts.toExtends (keeps_onBus _) fun _ =>
    Run.keeps_modify (tolerates_counts.note _)

theorem unserved_cons {ι : Type} (i : ι) (entered : Bool) (handed : List (ι × Bool)) :
    unserved ((i, entered) :: handed) = (if entered then 0 else 1) + unserved handed := by
  unfold unserved
  rw [List.countP_cons]
  cases entered with
  | true => exact (Nat.zero_add _).symm
  | false => exact Nat.add_comm _ _

/-- By induction on the tests: each is quiet, or it fired and was acknowledged after a dispatch. -/
theorem routed_of_runTests (h : link image entries config = .ok fw) {snapshot : UInt8}
    {tests : List StatusTest}
    (hrun : (fw.linkage (n + 1)).runTests snapshot tests s = .done () t) :
    ∃ handed, fw.Routed n snapshot tests handed s t := by
  induction tests generalizing s with
  | nil =>
    cases hrun
    exact ⟨[], .none _⟩
  | cons test rest ih =>
    obtain ⟨_, v, htest, hrest⟩ := Run.bind_eq_done.1 hrun
    obtain ⟨handed, hlater⟩ := ih hrest
    rw [Linkage.runTest_eq] at htest
    obtain ⟨value, u, hlook, hfire⟩ := Run.bind_eq_done.1 htest
    by_cases hclear : value &&& test.mask = 0
    · rw [if_pos hclear] at hfire
      cases hfire
      exact ⟨handed, .quiet hlook hclear hlater⟩
    · rw [if_neg hclear] at hfire
      obtain ⟨entered, hfirst⟩ := handed_of_dispatch h hfire
      exact ⟨_, .fired hlook hclear hfirst hlater⟩

theorem Routed.counts (h : link image entries config = .ok fw)
    (himage : fw.image.ComposedOf OwnStep) {snapshot : UInt8} {tests : List StatusTest}
    {handed : List (SlotId × Bool)} (hrouted : fw.Routed n snapshot tests handed s t) :
    s.stats.failures + unserved handed ≤ t.stats.failures := by
  induction hrouted with
  | none => exact Nat.le_refl _
  | quiet looked clear later ih =>
    have hlook : Counts _ _ := keeps_look _ _ _ _ _ looked
    unfold Counts at hlook
    omega
  | fired looked set first later ih =>
    have hlook : Counts _ _ := keeps_look _ _ _ _ _ looked
    have hfirst := first.counts h himage (keeps_acknowledge _)
    unfold Counts at hlook
    rw [unserved_cons]
    omega

/-- By induction on the limit: each step but the last handed a condition to the handler before it
cleared it. -/
theorem scanned_of_scanSteps (h : link image entries config = .ok fw) {limit : Nat}
    {offsets : List UInt8} {stop : ScanStop}
    (hrun : (fw.linkage (n + 1)).scanSteps limit s = .done (offsets, stop) t) :
    ∃ handed, fw.Scanned n limit handed stop s t ∧ offsets = handed.map Prod.fst := by
  induction limit generalizing s offsets with
  | zero =>
    cases hrun
    exact ⟨[], .limit _, rfl⟩
  | succ limit ih =>
    obtain ⟨found, w, hstep, hrest⟩ := Run.bind_eq_done.1 hrun
    rw [Linkage.scanStep_eq] at hstep
    obtain ⟨sought, u, hseek, hserve⟩ := Run.bind_eq_done.1 hstep
    cases sought with
    | none =>
      cases hserve
      cases hrest
      exact ⟨[], .idle hseek, rfl⟩
    | some condition =>
      obtain ⟨index, sub⟩ := condition
      obtain ⟨_, v, hannounce, hserve⟩ := Run.bind_eq_done.1 hserve
      obtain ⟨_, w', hhanded, hfound⟩ := Run.bind_eq_done.1 hserve
      cases hfound
      obtain ⟨⟨rest, stop'⟩, t', hlater, hreport⟩ := Run.bind_eq_done.1 hrest
      cases hreport
      obtain ⟨handed, hscanned, rfl⟩ := ih hlater
      obtain ⟨entered, hfirst⟩ := handed_of_dispatch h hhanded
      exact ⟨_, .step hseek hannounce hfirst hscanned, rfl⟩

theorem Scanned.counts (h : link image entries config = .ok fw)
    (himage : fw.image.ComposedOf OwnStep) {limit : Nat} {handed : List (UInt8 × Bool)}
    {stop : ScanStop} (hscanned : fw.Scanned n limit handed stop s t) :
    s.stats.failures + unserved handed ≤ t.stats.failures := by
  induction hscanned with
  | limit => exact Nat.le_refl _
  | idle found => exact keeps_seek _ _ _ found
  | step found announced first later ih =>
    have hseek : Counts _ _ := keeps_seek _ _ _ found
    have hannounce : Counts _ _ := keeps_announce _ _ _ _ _ announced
    have hfirst := first.counts h himage (keeps_onBus _)
    unfold Counts at hseek hannounce
    rw [unserved_cons]
    omega

end Runs

/-- How conditions are acknowledged by tests and by scan steps, which dispatch through a linkage
with bound `n + 1`. -/
structure Acknowledges (fw : Firmware β) (n : Nat) : Prop where
  /-- A dispatch for which there is room runs the routine at the target of its slot. -/
  enters : ∀ id param s, fw.Enters id s → ∃ slot placed,
    fw.table.slot? id = some slot ∧ fw.LeadsTo id slot placed ∧
      (fw.linkage (n + 1)).dispatch id param s =
        (placed.body (fw.linkage n) param >>= fun _ =>
          (FarCall.restore slot >>= FarCall.conclude s.stack.depth s.window.active) >>=
            Linkage.absorb id)
          (FarCall.opened slot param { s with stats := s.stats.called id })
  /-- Every test that fired was acknowledged after one dispatch of its slot. -/
  tests : ∀ snapshot tests s t, (fw.linkage (n + 1)).runTests snapshot tests s = .done () t →
    ∃ handed, fw.Routed n snapshot tests handed s t ∧
      (fw.image.ComposedOf OwnStep → s.stats.failures + unserved handed ≤ t.stats.failures)
  /-- A test of which the dispatch is refused is acknowledged all the same. -/
  testRefused : ∀ snapshot (test : StatusTest) s value u,
    Linkage.look snapshot test.source s = .done value u → value &&& test.mask ≠ 0 →
      ¬fw.Enters test.slot u → ∃ v, Dropped test.slot u v ∧
        (fw.linkage (n + 1)).runTest snapshot test s = Linkage.acknowledge test v
  /-- Every step that found a condition cleared it after one dispatch of the handler. -/
  steps : ∀ limit s offsets stop t,
    (fw.linkage (n + 1)).scanSteps limit s = .done (offsets, stop) t →
      ∃ handed, fw.Scanned n limit handed stop s t ∧ offsets = handed.map Prod.fst ∧
        (fw.image.ComposedOf OwnStep → s.stats.failures + unserved handed ≤ t.stats.failures)
  /-- A step of which the dispatch is refused clears the condition all the same. -/
  stepRefused : ∀ s index sub u v, Linkage.seek s = .done (some (index, sub)) u →
    Linkage.announce index sub u = .done () v → ¬fw.Enters .endpointHandler v →
      ∃ w, Dropped .endpointHandler v w ∧
        (fw.linkage (n + 1)).scanStep s =
          (Linkage.clearCondition index sub >>= fun _ => pure (some (offsetBase index + sub))) w

end Firmware

namespace UnservedTick

/-- The status register of a timer, which is found at every address. Writing a bit clears it. -/
structure Timer where
  status : UInt8

instance : RegisterBus Timer where
  read _ := Run.gets Timer.status
  write _ value := Run.modify fun timer => ⟨timer.status &&& ~~~value⟩

def tick : Routine Timer := fun _ _ => Run.throw .halted

def image : CodeImage (Routine Timer) := ⟨[⟨"tick", .ofLogical .bank0 0x5118, tick⟩]⟩

def entries : List DispatchEntry := [⟨.timerTick, .bank0, 0x5118, .callReturn⟩]

/-- A firmware of which the tick of the timer is routed. Its routine stops every run that enters it.
-/
def firmware : Firmware Timer where
  config := .standard
  table := ⟨entries.map DispatchTable.slotOf⟩
  image := image

theorem link_image : Firmware.link image entries .standard = .ok firmware := rfl

/-- The test of the tick on the system line. -/
def test : StatusTest :=
  ⟨.reread timerStatus, timerTickBit, .timerTick, .writeMask timerStatus⟩

/-- A machine with a pending tick and a stack of eight bytes. -/
def ticking (stack : List StackEntry) : Machine Timer where
  bus := ⟨timerTickBit⟩
  window := .initial
  stack := ⟨stack, CallStack.bytes stack, 8, CallStack.bytes stack⟩
  irq := .initial
  stats := .initial
  log := ⟨none, []⟩

/-- Four bytes are in use, so that four are left. -/
def crammed : Machine Timer := ticking [.returnTo .interrupt, .returnTo .interrupt]

end UnservedTick

end BankedController
