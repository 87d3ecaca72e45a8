import BankedController.Proofs.Conventions
import BankedController.Proofs.FollowedRuns

/-! A routine learns of the convention of a slot from the table, from the sites on the stack, or
from the site in the error of a call that found no room. A discreet routine sees each of these in
its plain view. -/

namespace BankedController

variable {β α γ : Type}

/-- A call of which the error is seen in its plain view. -/
def Run.plain (m : Run (Machine β) (Except CallError Unit)) :
    Run (Machine β) (Except CallError Unit) := do
  let result ← m
  pure (result.mapError CallError.plain)

/-- A call of which a failure is reported in full, and then seen in its plain view. -/
def Run.reporting (event : CallError → Event) (m : Run (Machine β) (Except CallError Unit)) :
    Run (Machine β) (Except CallError Unit) := do
  match ← m with
  | .ok () => pure (.ok ())
  | .error e =>
    Machine.note (event e)
    pure (.error e.plain)

/-- Counts a failure. -/
def Machine.countFailure : Except CallError Unit → Run (Machine β) Unit
  | .ok () => pure ()
  | .error _ => Run.modify fun s => { s with stats := s.stats.failed }

/-- What a discreet routine does by itself: it works on the bus, maps banks, changes the interrupt
controller and the counts, reports events, looks at the plain view of the machine, and clears the
stack. -/
inductive DiscreetStep : Steps β
  | bus {α : Type} (m : Run β α) : DiscreetStep α (Machine.onBus m)
  | select (bank : Bank) : DiscreetStep Unit (Machine.selectBank bank)
  | irq (f : InterruptController → InterruptController) : DiscreetStep Unit (Machine.onIrq f)
  | count (f : DispatchStats → DispatchStats) :
    DiscreetStep Unit (Run.modify fun s => { s with stats := f s.stats })
  | note (event : Event) : DiscreetStep Unit (Machine.note event)
  | look {α : Type} (f : Machine β → α) : DiscreetStep α (Run.gets fun s => f s.plain)
  | clear : DiscreetStep Unit (Run.modify fun s => { s with stack := s.stack.reset })

/-- What a discreet routine can do against a linkage. -/
inductive Discreet : {α : Type} → (Linkage β → Run (Machine β) α) → Prop
  | done {α : Type} (a : α) : Discreet fun _ => pure a
  | sequence {α γ : Type} {m : Linkage β → Run (Machine β) α}
      {f : α → Linkage β → Run (Machine β) γ} (first : Discreet m)
      (next : ∀ a, Discreet (f a)) : Discreet fun l => m l >>= fun a => f a l
  | step {α : Type} (m : Run (Machine β) α) (own : DiscreetStep α m) : Discreet fun _ => m
  | call (id : SlotId) (param : Option UInt8) : Discreet fun l => (l.call id param).plain
  | report (id : SlotId) (param : Option UInt8) (event : CallError → Event) :
    Discreet fun l => (l.call id param).reporting event
  | poll : Discreet fun l => l.poll
  /-- The configuration, the table in its plain view and the bound on waits are there to be read. -/
  | linked {α : Type} {f : FirmwareConfig → DispatchTable → Nat → Linkage β → Run (Machine β) α}
      (next : ∀ config table patience, Discreet (f config table patience)) :
      Discreet fun l => f l.config l.table.plain l.patience l

/-- A routine that sees conventions in their plain view only. -/
def Routine.Discreet (routine : Routine β) : Prop :=
  ∀ param, BankedController.Discreet fun l => routine l param

/-- An image of such routines. -/
def CodeImage.Discreet (image : CodeImage (Routine β)) : Prop :=
  ∀ placed ∈ image.routines, placed.body.Discreet

namespace Discreet

theorem branch {m m' : Linkage β → Run (Machine β) α} (c : Prop) [Decidable c]
    (yes : Discreet m) (no : Discreet m') : Discreet fun l => if c then m l else m' l := by
  by_cases h : c
  · simpa only [if_pos h] using yes
  · simpa only [if_neg h] using no

/-- Steps of which the result is not used. -/
theorem followed {m : Linkage β → Run (Machine β) Unit} {m' : Linkage β → Run (Machine β) α}
    (first : Discreet m) (next : Discreet m') : Discreet fun l => m l >>= fun _ => m' l :=
  sequence first fun _ => next

theorem note (event : Event) : Discreet fun _ : Linkage β => Machine.note event :=
  step _ (.note event)

theorem giveUp : Discreet fun _ : Linkage β => (Run.giveUp : Run (Machine β) α) :=
  step _ (.bus Run.giveUp)

/-- A dispatch reports a failure and counts it. -/
theorem dispatch (id : SlotId) (param : Option UInt8) :
    Discreet fun l : Linkage β => l.dispatch id param := by
  have hsame : (fun l : Linkage β => l.dispatch id param) = fun l =>
      (l.call id param).reporting (.dispatchFailed id) >>= Machine.countFailure := by
    funext l s
    unfold Linkage.dispatch Run.reporting
    rw [Run.bind_apply, Run.bind_apply, Run.bind_apply]
    cases l.call id param s with
    | done result t => cases result <;> rfl
    | fault cause t => rfl
    | exhausted => rfl
  rw [hsame]
  refine sequence (report id param _) fun result => ?_
  cases result with
  | ok => exact done ()
  | error e => exact step _ (.count DispatchStats.failed)

/-- A critical section looks whether interrupts are enabled, and changes that. -/
theorem critical {m : Linkage β → Run (Machine β) α} (body : Discreet m) :
    Discreet fun l => Machine.critical (m l) := by
  refine sequence (step _ (.look fun s => s.irq.globallyEnabled)) fun enabled => ?_
  refine followed (step _ (.irq _)) ?_
  refine sequence body fun a => ?_
  exact followed (step _ (.irq _)) (done a)

/-- Stubs stand in the plain view of a table as they stand in the table. -/
theorem callStub (addr : UInt16) (param : Option UInt8) :
    Discreet fun l : Linkage β => (l.callStub addr param).plain := by
  let invoke (table : DispatchTable) (l : Linkage β) : Run (Machine β) (Except CallError Unit) :=
    (table.atStub? addr).elim (pure (.error (.unknownStub addr))) fun slot =>
      (l.call slot.id param).plain
  have hinvoke (table : DispatchTable) : Discreet (invoke table) := by
    unfold invoke
    cases table.atStub? addr with
    | none => exact done _
    | some slot => exact call slot.id param
  have hsame : (fun l : Linkage β => (l.callStub addr param).plain) =
      fun l => invoke l.table.plain l := by
    funext l
    unfold invoke Linkage.callStub
    rw [DispatchTable.atStub?_plain]
    cases l.table.atStub? addr with
    | none => rfl
    | some slot => rfl
  rw [hsame]
  exact linked fun _ table _ => hinvoke table

/-- The linkage-free runs that are discreet. -/
theorem carries : Carries fun α (m : Run (Machine β) α) => Discreet fun _ : Linkage β => m where
  done := done
  sequence := sequence
  giveUp := giveUp
  failed := step _ (.count DispatchStats.failed)
  note := note
  critical _ := critical

/-- What the own steps and the linkage are in, a discreet routine is in. -/
theorem within {Q : Steps β} (hQ : Sequential Q) (hown : ∀ α m, DiscreetStep α m → Q α m)
    {l : Linkage β} (hl : l.Within Q) {m : Linkage β → Run (Machine β) α} (h : Discreet m) :
    Q α (m l) := by
  induction h with
  | done a => exact hQ.done a
  | sequence _ _ first next => exact hQ.sequence first next
  | step m own => exact hown _ m own
  | call id param => exact hQ.sequence (hl.call id param) fun _ => hQ.done _
  | report id param event =>
    refine hQ.sequence (hl.call id param) fun result => ?_
    cases result with
    | ok => exact hQ.done _
    | error e => exact hQ.sequence (hown _ _ (.note (event e))) fun _ => hQ.done _
  | poll => exact hl.poll
  | linked _ next => exact next l.config l.table.plain l.patience

variable [RegisterBus β]

/-- Reads, writes and reports that need no linkage. -/
theorem admits (A : UInt16 → UInt8 → Prop) : Admits (DiscreetStep : Steps β) A :=
  ⟨.note, fun _ => .bus _, fun _ _ _ => .bus _⟩

theorem alone {m : Run (Machine β) α} (hm : Composed (DiscreetStep : Steps β) fun _ => m) :
    Discreet fun _ : Linkage β => m :=
  hm.alone carries fun _ m own => step m own

theorem read (addr : UInt16) : Discreet fun _ : Linkage β => Machine.read addr :=
  step _ (.bus _)

theorem write (addr : UInt16) (value : UInt8) :
    Discreet fun _ : Linkage β => Machine.write addr value :=
  step _ (.bus _)

section Waits

theorem pollWait (w : BusyWait) (patience : Nat) :
    Discreet fun l : Linkage β => w.poll l patience := by
  induction patience with
  | zero => exact giveUp
  | succ patience ih =>
    refine sequence (step _ (.bus w.sample)) fun sampled => ?_
    obtain ⟨value, iterations⟩ := sampled
    refine branch _ (done _) (branch _ (done _) ?_)
    refine followed (step _ (.bus _)) ?_
    exact branch _ (done _) (followed poll ih)

theorem wait (w : BusyWait) : Discreet fun l : Linkage β => w.run l := by
  have hpoll : Discreet fun l : Linkage β => w.poll l l.patience :=
    linked (f := fun _ _ patience l => w.poll l patience) fun _ _ => pollWait w
  exact followed (step _ (.bus _)) hpoll

theorem awaitAll (kind : CommandKind) (waits : List WaitKind) :
    Discreet fun l : Linkage β => l.awaitAll kind waits := by
  have await (wait : WaitKind) : Discreet fun l : Linkage β => l.await kind wait :=
    linked (f := fun config _ _ l => (wait.busyWait kind config.timeouts).run l)
      fun config _ _ => Discreet.wait (wait.busyWait kind config.timeouts)
  induction waits with
  | nil => exact done _
  | cons wait rest ih =>
    refine sequence (await wait) fun outcome => ?_
    cases outcome with
    | ready iterations => exact sequence ih fun _ => done _
    | error iterations => exact followed (note _) (done _)
    | timedOut iterations =>
      have hrecover : Discreet fun _ : Linkage β => kind.recover :=
        alone (Composed.recover (admits _))
      exact followed (note _) (followed hrecover (done _))

theorem commandServiceRoutine : Routine.Discreet (commandServiceRoutine (β := β)) := by
  intro param
  have htake : Discreet fun _ : Linkage β => CommandRequest.take :=
    alone (Composed.take (admits fun _ _ => True) trivial)
  refine sequence htake fun found => ?_
  cases found with
  | none => exact done _
  | some r =>
    have hissue : Discreet fun _ : Linkage β => r.issue := alone (Composed.issue r (admits _))
    have hexecute : Discreet fun l : Linkage β => l.execute r := by
      refine sequence hissue fun slot => ?_
      refine followed (note _) ?_
      refine sequence (awaitAll r.kind _) fun result => ?_
      have hcomplete : Discreet fun _ : Linkage β => r.kind.complete result.2 :=
        alone (Composed.complete (admits _) _)
      exact followed hcomplete (done _)
    exact sequence hexecute fun _ => done _

end Waits

section Scans

theorem scanStep : Discreet fun l : Linkage β => l.scanStep := by
  unfold Linkage.scanStep
  refine sequence (read _) fun primary => ?_
  refine followed (write _ _) ?_
  refine branch _ (done none) ?_
  refine sequence (read _) fun index => ?_
  refine branch _ (done none) ?_
  refine sequence (read _) fun secondary => ?_
  refine branch _ (done none) ?_
  refine followed (write _ _) ?_
  refine followed (note _) ?_
  exact followed (dispatch _ _) (followed (write _ _) (done _))

theorem scanSteps (limit : Nat) : Discreet fun l : Linkage β => l.scanSteps limit := by
  induction limit with
  | zero => exact done _
  | succ limit ih =>
    refine sequence scanStep fun found => ?_
    cases found with
    | none => exact done _
    | some offset => exact sequence ih fun _ => done _

theorem scanRoutine : Routine.Discreet (scanRoutine (β := β)) := by
  intro param
  have hmaster : Discreet fun _ : Linkage β => Linkage.masterReady :=
    sequence (read _) fun _ => done _
  have hfrom (forced : Bool) (limit : UInt8) :
      Discreet fun l : Linkage β => l.scanFrom forced limit := by
    unfold Linkage.scanFrom
    refine sequence (scanSteps _) fun result => ?_
    refine sequence hmaster fun master => ?_
    refine branch _ (followed (dispatch _ _) ?_) ?_
    all_goals exact branch _ (followed (note _) (done _)) (done _)
  have hscan : Discreet fun l : Linkage β => l.scan := by
    unfold Linkage.scan
    refine sequence hmaster fun forced => ?_
    have hsteps : Discreet fun l : Linkage β =>
        l.scanFrom forced (min l.config.scanLimit FirmwareConfig.maxScanSteps) :=
      linked (f := fun config _ _ l =>
        l.scanFrom forced (min config.scanLimit FirmwareConfig.maxScanSteps))
        fun _ _ _ => hfrom forced _
    exact branch _ (followed (note _) (followed (dispatch _ _) hsteps)) hsteps
  exact sequence hscan fun _ => note _

end Scans

section Interrupts

theorem runTests (snapshot : UInt8) (tests : List StatusTest) :
    Discreet fun l : Linkage β => l.runTests snapshot tests := by
  induction tests with
  | nil => exact done _
  | cons test rest ih =>
    have hack : Discreet fun _ : Linkage β => Linkage.acknowledge test := by
      obtain ⟨source, mask, slot, ack⟩ := test
      cases ack with
      | handler => exact done _
      | writeMask register => exact write _ _
      | clearMask register => exact step _ (.bus _)
    have hfire (value : UInt8) : Discreet fun l : Linkage β => (do
        if value &&& test.mask = 0 then
          pure ()
        else
          l.dispatch test.slot none
          Linkage.acknowledge test : Run (Machine β) Unit) :=
      branch _ (done _) (followed (dispatch _ _) hack)
    have htest : Discreet fun l : Linkage β => l.runTest snapshot test := by
      obtain ⟨source, mask, slot, ack⟩ := test
      cases source with
      | snapshot => exact sequence (done snapshot) hfire
      | reread register => exact sequence (read register) hfire
    exact followed htest ih

theorem route (line : IrqLine) : Discreet fun l : Linkage β => l.route line :=
  sequence (read _) fun snapshot => followed (note _) (runTests snapshot _)

end Interrupts

section MainLoop

/-- A pass of the main loop. -/
theorem runPass : Discreet fun l : Linkage β => l.runPass := by
  have hpollers (slots : List SlotId) : Discreet fun l : Linkage β => l.runPollers slots := by
    induction slots with
    | nil => exact done _
    | cons slot rest ih => exact followed (dispatch _ _) (followed poll ih)
  have hserve : Discreet fun l : Linkage β => l.serveEvents := by
    refine sequence (read _) fun raw => ?_
    refine branch _ ?_ (done _)
    refine followed (note _) ?_
    refine followed (step _ (.bus _)) ?_
    refine followed (dispatch _ _) ?_
    refine branch _ (followed (dispatch _ _) ?_) ?_
    all_goals exact followed (dispatch _ _) (done _)
  have hpromote : Discreet fun _ : Linkage β => promoteDeferred := by
    refine sequence (read _) fun state => ?_
    refine branch _ (done _) ?_
    refine followed (write _ _) ?_
    exact followed (step _ (.bus _)) (done _)
  refine followed (hpollers _) ?_
  refine sequence hserve fun events => ?_
  refine sequence (critical hpromote) fun promoted => ?_
  exact followed poll (done _)

end MainLoop

end Discreet

end BankedController
