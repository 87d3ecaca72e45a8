import BankedController.Proofs.SparingRoutines

namespace BankedController

open RegisterMap

variable {β α : Type} [RegisterBus β]

namespace Firmware

/-- A wait that goes by its own count of the looks that found the register busy. Something is run
with that count before every look, after every counting, and in front of every routine that is
entered at a preemption point. -/
def tally (fw : Firmware β) (w : BusyWait) (inspect : Nat → Run (Machine β) Unit) (n looks : Nat) :
    Nat → Run (Machine β) WaitOutcome
  | 0 => Run.giveUp
  | patience + 1 => do
    inspect looks
    let (value, _) ← Machine.onBus w.sample
    if value &&& w.error ≠ 0 then
      pure (.error (UInt32.ofNat looks))
    else if value &&& w.busy = 0 then
      pure (.ready (UInt32.ofNat looks))
    else
      Machine.write32 w.counter (UInt32.ofNat (looks + 1))
      inspect (looks + 1)
      if looks + 1 = w.threshold.toNat then
        pure (.timedOut (UInt32.ofNat (looks + 1)))
      else
        ((fw.hooked fun _ => inspect (looks + 1)).linkage n).poll
        fw.tally w inspect n (looks + 1) patience

/-- Such a wait for a unit. -/
def awaitTallied (fw : Firmware β) (inspect : Nat → Run (Machine β) Unit) (kind : CommandKind)
    (n : Nat) (wait : WaitKind) : Run (Machine β) WaitOutcome := do
  let w := wait.busyWait kind fw.config.timeouts
  Machine.write32 w.counter 0
  fw.tally w inspect n 0 (fw.linkage n).patience

end Firmware

/-- Runs waits in order until one does not end ready, each in the given way. -/
def CommandKind.awaitEach (kind : CommandKind) (await : WaitKind → Run (Machine β) WaitOutcome) :
    List WaitKind → Run (Machine β) (List WaitOutcome × CompletionEntry)
  | [] => pure ([], .normal)
  | wait :: rest => do
    match ← await wait with
    | .ready iterations =>
      let (outcomes, entry) ← kind.awaitEach await rest
      pure (.ready iterations :: outcomes, entry)
    | .error iterations =>
      Machine.note (.commandError kind iterations)
      pure ([.error iterations], .normal)
    | .timedOut iterations =>
      Machine.note (.commandTimedOut kind iterations (wait.register kind))
      kind.recover
      pure ([.timedOut iterations], .afterTimeout)

/-- Carries out a command of which the waits are run in the given way, and something is run before
the command is completed. Both are told the place in the queue. -/
def CommandRequest.carryOut (r : CommandRequest)
    (await : Option UInt8 → WaitKind → Run (Machine β) WaitOutcome)
    (close : Option UInt8 → Run (Machine β) Unit) : Run (Machine β) CommandOutcome := do
  let slot ← r.issue
  Machine.note (.commandIssued r.kind r.opcode r.tag slot)
  let (waits, entry) ← r.kind.awaitEach (await slot) r.kind.waits
  close slot
  r.kind.complete entry
  let timedOut := match entry with
    | .normal => []
    | .afterTimeout => [CommandState.timedOut]
  pure ⟨r.kind, slot, [.idle, .issued, .polling] ++ timedOut ++ [.complete], waits⟩

namespace EngineMemory

variable (b : EngineMemory β) (kinds posts : List CommandKind)

/-- A command is in flight that has claimed a place in the queue, or none. The place is still there,
unless a nested command ended. -/
structure Claimed (place : Option UInt8) (bus : β) : Prop where
  wired : b.wired bus
  posted : b.Posted posts bus
  place : ∀ p, place = some p → .nvme ∉ kinds ∧ (b.slot bus = p ∨ kinds ≠ [] ∧ b.slot bus = 0)

/-- Its wait has found the register busy so many times. -/
structure Counting (wait : WaitKind) (place : Option UInt8) (looks : Nat) (bus : β) : Prop
    extends b.Claimed kinds posts place bus where
  counter : b.counter wait bus = UInt32.ofNat looks

variable {b kinds posts} {kind : CommandKind} {wait : WaitKind} {place : Option UInt8} {looks : Nat}
  {bus bus' : β}

theorem Claimed.spared (h : b.Claimed kinds posts place bus) (hs : b.Spares kinds posts bus bus') :
    b.Claimed kinds posts place bus' := by
  have hspared := hs h.wired h.posted
  refine ⟨hspared.wired, hspared.posted, fun p hp => ?_⟩
  obtain ⟨hnvme, hslot⟩ := h.place p hp
  refine ⟨hnvme, ?_⟩
  rcases hspared.slot hnvme with hsame | hcleared
  · rw [hsame]
    exact hslot
  · exact .inr hcleared

theorem Counting.spared (h : b.Counting kinds posts wait place looks bus) (hkind : kind ∉ kinds)
    (hwait : wait ∈ kind.waits) (hs : b.Spares kinds posts bus bus') :
    b.Counting kinds posts wait place looks bus' := by
  refine ⟨h.toClaimed.spared hs, ?_⟩
  have hsame := (hs h.wired h.posted).counters kind hkind
  obtain ⟨h0, h1, h2, h3⟩ := countsAt_counter hwait
  have hcounter : b.counter wait bus' = b.counter wait bus := by
    unfold EngineMemory.counter
    rw [hsame _ h0, hsame _ h1, hsame _ h2, hsame _ h3]
  rw [hcounter]
  exact h.counter

section Waits

variable {w : BusyWait}

/-- A look at the register finds the number of the looks before it in memory. -/
theorem sample_follows (hkind : kind ∉ kinds) (hwait : wait ∈ kind.waits)
    (hcounter : w.counter = wait.counter) :
    Run.Follows False (fun s : Machine β => b.Counting kinds posts wait place looks s.bus)
      (fun sampled s =>
        sampled.2 = UInt32.ofNat looks ∧ b.Counting kinds posts wait place looks s.bus)
      (Machine.onBus w.sample) (Machine.onBus w.sample) := by
  refine Run.follows_self fun s sampled t hs hrun => ?_
  obtain ⟨bus', hsample, rfl⟩ := Machine.onBus_eq_done hrun
  obtain ⟨value, bus, hread, hrest⟩ := Run.bind_eq_done.1 hsample
  obtain ⟨iterations, bus'', hnumber, hpure⟩ := Run.bind_eq_done.1 hrest
  cases hpure
  rw [hcounter] at hnumber
  have hlooked : b.Counting kinds posts wait place looks bus :=
    hs.spared hkind hwait (spares_read hread)
  constructor
  · change iterations = UInt32.ofNat looks
    rw [eq_counter_of_read32 hwait hlooked.wired hnumber]
    exact hlooked.counter
  · have hkeeps : (Machine.read32 wait.counter).Keeps (OnBus (b.Spares kinds posts)) :=
      (Composed.read32 admits_sparing wait.counter).alone
        (bookkeeping_onBus extends_spares).carries fun _ _ h => h
    have hspares := hkeeps { s with bus := bus } iterations _ (Machine.onBus_of_done hnumber)
    exact hlooked.spared hkind hwait hspares

/-- What is counted is what memory holds then. -/
theorem count_follows (hwait : wait ∈ kind.waits) (hcounter : w.counter = wait.counter) :
    Run.Follows False (fun s : Machine β => b.Claimed kinds posts place s.bus)
      (fun _ s => b.Counting kinds posts wait place looks s.bus)
      (Machine.write32 w.counter (UInt32.ofNat looks))
      (Machine.write32 w.counter (UInt32.ofNat looks)) := by
  refine Run.follows_self fun s _ t hs hrun => ?_
  obtain ⟨bus', hwrite, rfl⟩ := Machine.onBus_eq_done hrun
  rw [hcounter] at hwrite
  obtain ⟨hwired, hnumber, hothers⟩ := counter_of_write32 hwait hs.wired hwrite
  have hslot : b.slot bus' = b.slot s.bus :=
    hothers commandSlot (by decide) (by cases kind <;> decide)
  have hrequest : b.ram bus' requestKind = b.ram s.bus requestKind :=
    hothers requestKind (by decide) (by cases kind <;> decide)
  refine ⟨⟨hwired, ?_, ?_⟩, hnumber⟩
  · unfold Posted
    rw [hrequest]
    exact hs.posted
  · rw [hslot]
    exact hs.place

end Waits

section Commands

variable {r : CommandRequest}

/-- What sparing steps are composed of leaves the command in flight. -/
theorem claimed_follows {m : Run (Machine β) α}
    (hm : Composed (Keeping (OnBus (b.Spares kinds posts))) fun _ => m) :
    Run.FollowsIn False (fun s => b.Claimed kinds posts place s.bus) m m := by
  have hkeeps := hm.alone (bookkeeping_onBus extends_spares).carries fun _ _ h => h
  exact followsIn_of_spares (fun _ _ h hs => h.spared hs) hkeeps

theorem admits_unit (kind : CommandKind) :
    Admits (Keeping (OnBus (b.Spares kinds posts))) (UnitWrite kind) :=
  admits_sparing.mono fun _ _ => sparingWrite_of_unitWrite

/-- By induction on the waits: where one ends ready, the command is still in flight. -/
theorem awaitEach_follows {l : Linkage β} {await : WaitKind → Run (Machine β) WaitOutcome}
    {waits : List WaitKind}
    (h : ∀ wait ∈ waits, Run.FollowsIn False (fun s => b.Claimed kinds posts place s.bus)
      (await wait) (l.await kind wait)) :
    Run.FollowsIn False (fun s => b.Claimed kinds posts place s.bus) (kind.awaitEach await waits)
      (l.awaitAll kind waits) := by
  have hnote (event : Event) :
      Run.FollowsIn False (fun s : Machine β => b.Claimed kinds posts place s.bus)
        (Machine.note event) (Machine.note event) :=
    claimed_follows (.note (admits_unit kind) event)
  induction waits with
  | nil => exact Run.follows_pure fun _ hs => hs
  | cons wait rest ih =>
    refine Run.follows_bind (h wait List.mem_cons_self) fun outcome => ?_
    cases outcome with
    | ready iterations =>
      refine Run.follows_bind (ih fun w hw => h w (List.mem_cons_of_mem _ hw)) fun result => ?_
      exact Run.follows_pure fun _ hs => hs
    | error iterations =>
      exact Run.follows_bind (hnote _) fun _ => Run.follows_pure fun _ hs => hs
    | timedOut iterations =>
      refine Run.follows_bind (hnote _) fun _ => ?_
      refine Run.follows_bind (claimed_follows (.recover (admits_unit kind))) fun _ => ?_
      exact Run.follows_pure fun _ hs => hs

/-- A submission finds its place in memory once it has claimed it. -/
theorem claimSlot_follows (hnvme : .nvme ∉ kinds) :
    Run.Follows False (fun s : Machine β => b.Claimed kinds posts none s.bus)
      (fun slot s => b.Claimed kinds posts (some slot) s.bus) CommandRequest.claimSlot
      CommandRequest.claimSlot := by
  refine Run.follows_bind (claimed_follows (.read admits_sparing queueTail)) fun tail => ?_
  have hclaim : Run.Follows False (fun s : Machine β => b.Claimed kinds posts none s.bus)
      (fun _ s => b.Claimed kinds posts (some (tail &&& queueMask)) s.bus)
      (Machine.write commandSlot (tail &&& queueMask))
      (Machine.write commandSlot (tail &&& queueMask)) := by
    refine Run.follows_self fun s _ t hs hrun => ?_
    obtain ⟨bus', hwrite, rfl⟩ := Machine.onBus_eq_done hrun
    obtain ⟨hwired, hram⟩ := b.write hs.wired hwrite
    refine ⟨hwired, ?_, fun p hp => ⟨hnvme, .inl ?_⟩⟩
    · have hrequest := hram requestKind (by decide)
      rw [if_neg (by decide)] at hrequest
      unfold Posted
      rw [hrequest]
      exact hs.posted
    · -- the place that is claimed is the one that was written
      cases hp
      exact (hram commandSlot (by decide)).trans (if_pos rfl)
  refine Run.follows_bind hclaim fun _ => ?_
  have htail {value : UInt8} : SparingWrite kinds posts queueTail value :=
    .of_outside (by decide) (by decide) (by decide)
  refine Run.follows_bind (claimed_follows (.write admits_sparing htail)) fun _ => ?_
  exact Run.follows_pure fun _ hs => hs

theorem issue_follows (hkind : r.kind ∉ kinds) :
    Run.Follows False (fun s : Machine β => b.Claimed kinds posts none s.bus)
      (fun slot s => b.Claimed kinds posts slot s.bus) r.issue r.issue := by
  have hplace : Run.Follows False (fun s : Machine β => b.Claimed kinds posts none s.bus)
      (fun slot s => b.Claimed kinds posts slot s.bus) r.place r.place := by
    unfold CommandRequest.place
    cases hr : r.kind with
    | nvme =>
      rw [hr] at hkind
      refine Run.follows_bind (claimSlot_follows hkind) fun slot => ?_
      exact Run.follows_pure fun _ hs => hs
    | flash => exact Run.follows_pure fun _ hs => hs
    | phy => exact Run.follows_pure fun _ hs => hs
  refine Run.follows_bind hplace fun slot => ?_
  refine Run.follows_bind (claimed_follows (.send r (admits_unit r.kind))) fun _ => ?_
  exact Run.follows_pure fun _ hs => hs

/-- The end of a command clears the place. -/
theorem complete_follows (entry : CompletionEntry) :
    Run.Follows False (fun s : Machine β => b.Claimed kinds posts place s.bus)
      (fun _ s => b.slot s.bus = 0) (kind.complete entry) (kind.complete entry) := by
  have hstate {value : UInt8} : SparingWrite kinds posts commandState value :=
    .of_outside (by decide) (by decide) (by decide)
  refine Run.follows_bind (claimed_follows (.settle (admits_unit kind) entry)) fun _ => ?_
  refine Run.follows_bind (claimed_follows (.read admits_sparing commandState)) fun before => ?_
  refine Run.follows_bind (claimed_follows (.write admits_sparing hstate)) fun _ => ?_
  refine Run.follows_self fun s _ t hs hrun => ?_
  obtain ⟨_, u, hclear, hnote⟩ := Run.bind_eq_done.1 hrun
  obtain ⟨bus', hwrite, rfl⟩ := Machine.onBus_eq_done hclear
  obtain ⟨-, hram⟩ := b.write hs.wired hwrite
  cases hnote
  exact (hram commandSlot (by decide)).trans (if_pos rfl)

end Commands

section Linked

variable {fw : Firmware β} {image : CodeImage (Routine β)} {entries : List DispatchEntry}
  {config : FirmwareConfig} {addrs : List CodeAddr}
  (h : Firmware.link image entries config = .ok fw)
  (hothers : b.Sparing kinds posts addrs image)
  (hserved : (∀ kind ∈ posts, kind ∈ kinds) ∨
    ∀ e ∈ entries, e.slot = .commandService → e.target ∈ addrs)

include h hothers hserved

/-- The wait that goes by its own count does what the wait does. By induction on the patience, for
any count below the threshold. -/
theorem tally_follows (hkind : kind ∉ kinds) (hwait : wait ∈ kind.waits)
    (hcounter : w.counter = wait.counter)
    (hinspect : ∀ looks s, looks ≤ w.threshold.toNat →
      b.Counting kinds posts wait place looks s.bus → inspect looks s = .done () s)
    (n : Nat) {looks : Nat} (hlooks : looks < w.threshold.toNat)
    (patience : Nat) :
    Run.Follows False (fun s => b.Counting kinds posts wait place looks s.bus)
      (fun _ s => b.Claimed kinds posts place s.bus)
      ((fw.barring addrs).tally w inspect n looks patience)
      (w.poll ((fw.barring addrs).linkage n) patience) := by
  induction patience generalizing looks with
  | zero => exact Run.follows_giveUp
  | succ patience ih =>
    have hbound : w.threshold.toNat < UInt32.size := w.threshold.toNat_lt
    refine Run.follows_silent (fun s => hinspect looks s (Nat.le_of_lt hlooks)) ?_
    refine Run.follows_bind (sample_follows hkind hwait hcounter) fun sampled => ?_
    obtain ⟨value, iterations⟩ := sampled
    refine Run.follows_of_fact fun hnumber => ?_
    have hiterations : iterations = UInt32.ofNat looks := hnumber
    subst hiterations
    by_cases herror : value &&& w.error ≠ 0
    · simp only [if_pos herror]
      exact Run.follows_pure fun _ hs => hs.toClaimed
    by_cases hidle : value &&& w.busy = 0
    · simp only [if_neg herror, if_pos hidle]
      exact Run.follows_pure fun _ hs => hs.toClaimed
    simp only [if_neg herror, if_neg hidle]
    have hsucc : UInt32.ofNat looks + 1 = UInt32.ofNat (looks + 1) := by
      apply UInt32.toNat_inj.1
      simp
    -- below the threshold the number does not wrap, and it is reached before it is passed
    have hout : w.threshold ≤ UInt32.ofNat (looks + 1) ↔ looks + 1 = w.threshold.toNat := by
      rw [UInt32.le_iff_toNat_le, UInt32.toNat_ofNat_of_lt' (by omega)]
      omega
    rw [hsucc]
    have hcount : Run.Follows False
        (fun s : Machine β => b.Counting kinds posts wait place looks s.bus)
        (fun _ s => b.Counting kinds posts wait place (looks + 1) s.bus) _ _ :=
      (count_follows hwait hcounter).weaken (fun _ hs => hs.toClaimed) fun _ _ hs => hs
    refine Run.follows_bind hcount fun _ => ?_
    refine Run.follows_silent (fun s => hinspect (looks + 1) s hlooks) ?_
    by_cases hlast : looks + 1 = w.threshold.toNat
    · simp only [if_pos hlast, if_pos (hout.2 hlast)]
      exact Run.follows_pure fun _ hs => hs.toClaimed
    simp only [if_neg hlast, if_neg (mt hout.1 hlast)]
    have hpoll := checked_linkage_follows h hothers hserved
      (g := fun bus => b.Counting kinds posts wait place (looks + 1) bus)
      (fun _ _ hc hs => hc.spared hkind hwait hs) (fun _ hc => ⟨hc.wired, hc.posted⟩)
      (fun s hs => hinspect (looks + 1) s hlooks hs) n
    exact Run.follows_bind hpoll.poll fun _ => ih (by omega)

theorem await_follows (hkind : kind ∉ kinds) (hwait : wait ∈ kind.waits)
    (hinspect : ∀ looks s, looks ≤ (config.timeouts.get wait).toNat →
      b.Counting kinds posts wait place looks s.bus → inspect looks s = .done () s) (n : Nat) :
    Run.FollowsIn False (fun s => b.Claimed kinds posts place s.bus)
      ((fw.barring addrs).awaitTallied inspect kind n wait)
      (((fw.barring addrs).linkage n).await kind wait) := by
  obtain ⟨hconfig, rfl, -, -⟩ := Firmware.link_eq_ok h
  have hsame : ((fw.barring addrs).linkage n).config = fw.config := by cases n <;> rfl
  have hpositive : 0 < (fw.config.timeouts.get wait).toNat := by
    have hthreshold := (FirmwareConfig.checked_of_defect? hconfig).thresholds wait
    exact Nat.pos_of_ne_zero fun hzero => hthreshold (UInt32.toNat_inj.1 hzero)
  unfold Linkage.await BusyWait.run
  rw [hsame]
  let w := wait.busyWait kind fw.config.timeouts
  have hreset : Run.Follows False (fun s : Machine β => b.Claimed kinds posts place s.bus)
      (fun _ s => b.Counting kinds posts wait place 0 s.bus)
      (Machine.write32 w.counter (UInt32.ofNat 0)) (Machine.write32 w.counter (UInt32.ofNat 0)) :=
    count_follows hwait rfl
  refine Run.follows_bind hreset fun _ => ?_
  exact tally_follows h hothers hserved hkind hwait rfl hinspect n hpositive _

theorem execute_follows (hkind : r.kind ∉ kinds)
    {inspect : WaitKind → Option UInt8 → Nat → Run (Machine β) Unit}
    (hinspect : ∀ wait ∈ r.kind.waits, ∀ place looks s,
      looks ≤ (config.timeouts.get wait).toNat → b.Counting kinds posts wait place looks s.bus →
        inspect wait place looks s = .done () s)
    {close : Option UInt8 → Run (Machine β) Unit}
    (hclose : ∀ place s, b.Claimed kinds posts place s.bus → close place s = .done () s) (n : Nat) :
    Run.Follows False (fun s => b.Claimed kinds posts none s.bus) (fun _ s => b.slot s.bus = 0)
      (r.carryOut (fun place wait =>
        (fw.barring addrs).awaitTallied (inspect wait place) r.kind n wait) close)
      (((fw.barring addrs).linkage n).execute r) := by
  refine Run.follows_bind (issue_follows hkind) fun place => ?_
  refine Run.follows_bind (claimed_follows (.note (admits_unit r.kind) _)) fun _ => ?_
  have hwaits : Run.FollowsIn False (fun s => b.Claimed kinds posts place s.bus)
      (r.kind.awaitEach (fun wait =>
        (fw.barring addrs).awaitTallied (inspect wait place) r.kind n wait) r.kind.waits)
      (((fw.barring addrs).linkage n).awaitAll r.kind r.kind.waits) := by
    refine awaitEach_follows fun wait hwait => ?_
    exact await_follows h hothers hserved hkind hwait (hinspect wait hwait place) n
  refine Run.follows_bind hwaits fun result => ?_
  obtain ⟨waits, entry⟩ := result
  refine Run.follows_silent (hclose place) ?_
  exact Run.follows_bind (complete_follows entry) fun _ => Run.follows_pure fun _ hs => hs

end Linked

end EngineMemory

namespace Firmware

variable {image : CodeImage (Routine β)} {entries : List DispatchEntry} {config : FirmwareConfig}
  {fw : Firmware β} {kinds posts : List CommandKind} {addrs : List CodeAddr} {r : CommandRequest}
  {s : Machine β}

/-- A command in flight, as long as none of the same kind is carried out at its preemption points.
The routines at some addresses are not entered there; the others may carry out commands of some
kinds and post requests in any way, and if the command service is among them, what is posted is of
these kinds too. Then each wait is the wait that goes by its own count of the looks that found the
register busy, and memory holds that count before every look, after every counting, and wherever a
routine is entered. The place in the queue stays, unless a nested command ended, and is cleared in
the end. -/
theorem waits_tallied (b : EngineMemory β) (h : link image entries config = .ok fw)
    (himage : image.ComposedOf fun _ _ => True) (hothers : b.Sparing kinds posts addrs image)
    (hserved : (∀ kind ∈ posts, kind ∈ kinds) ∨
      ∀ e ∈ entries, e.slot = .commandService → e.target ∈ addrs)
    (hkind : r.kind ∉ kinds) {inspect : WaitKind → Option UInt8 → Nat → Run (Machine β) Unit}
    (hinspect : ∀ wait ∈ r.kind.waits, ∀ place looks s,
      looks ≤ (config.timeouts.get wait).toNat → b.Counting kinds posts wait place looks s.bus →
        inspect wait place looks s = .done () s)
    {close : Option UInt8 → Run (Machine β) Unit}
    (hclose : ∀ place s, b.Claimed kinds posts place s.bus → close place s = .done () s) (n : Nat)
    (hwired : b.wired s.bus) (hposted : b.Posted posts s.bus) :
    let guarded := fw.barring addrs
    let tallied := r.carryOut (fun place wait =>
      guarded.awaitTallied (inspect wait place) r.kind n wait) close
    (∀ nested : CommandRequest,
      (nested.kind ∈ kinds →
        Composed (Keeping (OnBus (b.Spares kinds posts))) fun l => l.execute nested) ∧
      (nested.kind ∈ posts →
        Composed (Keeping (OnBus (b.Spares kinds posts))) fun _ => nested.post)) ∧
      (guarded.linkage n).execute r s = tallied s ∧
      (tallied s = .exhausted ∨ (fw.linkage n).execute r s = tallied s) ∧
      ∀ outcome t, tallied s = .done outcome t → b.slot t.bus = 0 := by
  intro guarded tallied
  have hclaimed : b.Claimed kinds posts none s.bus := ⟨hwired, hposted, fun p hp => by cases hp⟩
  have hfollows := EngineMemory.execute_follows h hothers hserved hkind hinspect hclose n
  have hsame : tallied s = (guarded.linkage n).execute r s := hfollows.eq hclaimed
  refine ⟨fun nested => ⟨EngineMemory.composed_execute, EngineMemory.composed_post⟩, hsame.symm, ?_,
    fun outcome t hrun => hfollows.end hclaimed hrun⟩
  rw [hsame]
  exact barring_apply admits_all (composedOf_of_link admits_all h himage) addrs n
    (.execute r admits_all) s

end Firmware

namespace NestedCommands

def memory : EngineMemory Cells := (Cells.memory EngineByte).engineMemory

def command (kind : CommandKind) : CommandRequest := ⟨kind, 0, 0, 0, 0⟩

/-- A routine that carries out a command and posts a request for the flash. -/
def carry (kind : CommandKind) : Routine Cells := fun l _ => do
  let _ ← l.execute (command kind)
  (command .flash).post

/-- Where the task stands. -/
def task : CodeAddr := .ofLogical .bank0 0x5200

def image (master : CommandKind) : CodeImage (Routine Cells) :=
  ⟨[⟨"master", .ofLogical .bank0 0x5100, carry master⟩, ⟨"task", task, carry .flash⟩]⟩

def entries : List DispatchEntry :=
  [⟨.timerPoll, .bank0, 0x5200, .callReturn⟩, ⟨.usbMaster, .bank0, 0x5100, .callReturn⟩]

/-- Every wait may find its register busy twice. -/
def config : FirmwareConfig := { FirmwareConfig.standard with timeouts := ⟨2, 2, 2, 2⟩ }

/-- One routine is entered when the master asks for service; the other is a task that carries out a
flash command. -/
def firmware (master : CommandKind) : Firmware Cells where
  config := config
  table := ⟨entries.map DispatchTable.slotOf⟩
  image := image master

theorem link_image (master : CommandKind) :
    Firmware.link (image master) entries config = .ok (firmware master) := rfl

/-- Two units are busy for good, the next place in the queue is the fifth, and the master asks for
service, which is served at the first preemption point. -/
def machine : Machine Cells where
  bus := ⟨fun addr =>
    if addr = usbStatus then usbMasterBit
    else if addr = queueTail then 5
    else if addr = flashBlock + statusOffset then busyBit
    else if addr = phyBlock + statusOffset then busyBit
    else 0⟩
  window := .initial
  stack := .ofBase config.stackBase
  irq := { InterruptController.initial with
    enable := InterruptController.globalBit ||| IrqLine.endpoint.bit
    pending := ⟨true, false⟩ }
  stats := .initial
  log := ⟨none, []⟩

/-- The outcome of a command of which the only wait that was over ran out. -/
def ranOut (kind : CommandKind) (slot : Option UInt8) (iterations : UInt32) : CommandOutcome :=
  ⟨kind, slot, [.idle, .issued, .polling, .timedOut, .complete], [.timedOut iterations]⟩

/-- A wait for the flash that may find it busy twice ends at three, since a flash command that is
nested in it has left its own number in memory; going by its own count it ends at two. And when the
waits of a submission are over, the place that it claimed has been cleared by a flash command. -/
theorem nested_flash_interferes :
    config.timeouts.flash = 2 ∧
      (((firmware .flash).linkage 9).execute (command .flash) machine).value? =
        some (ranOut .flash none 3) ∧
      ((command .flash).carryOut
        (fun _ => (firmware .flash).awaitTallied (fun _ => pure ()) .flash 9)
        (fun _ => pure ()) machine).value? = some (ranOut .flash none 2) ∧
      ((command .nvme).issue machine).value? = some (some 5) ∧
      (((command .nvme).issue >>= fun _ =>
        ((firmware .flash).linkage 9).awaitAll .nvme CommandKind.nvme.waits) machine).ask?
          (fun s => memory.slot s.bus) = some 0 := by
  refine ⟨rfl, ?_, ?_, ?_, ?_⟩ <;> decide +kernel

/-- Stops the run unless memory holds the count. -/
def confirm (wait : WaitKind) (looks : Nat) : Run (Machine Cells) Unit := do
  let found ← Machine.read32 wait.counter
  if found = UInt32.ofNat looks then pure () else Run.throw .halted

theorem confirm_apply {wait : WaitKind} {looks : Nat} {s : Machine Cells}
    (h : memory.counter wait s.bus = UInt32.ofNat looks) : confirm wait looks s = .done () s := by
  have hread : Machine.read32 wait.counter s = .done (memory.counter wait s.bus) s := rfl
  unfold confirm
  rw [Run.bind_of_done hread, if_pos h]
  rfl

theorem composedOf_carry {P : Steps Cells} {kind : CommandKind}
    (hexecute : Composed P fun l => l.execute (command kind))
    (hpost : Composed P fun _ => (command .flash).post) : (carry kind).ComposedOf P :=
  fun _ => .sequence hexecute fun _ => hpost

theorem sparing_image : memory.Sparing [.phy] [.flash] [task] (image .phy) := by
  intro placed hplaced hbarred
  simp only [image, List.mem_cons, List.not_mem_nil, or_false] at hplaced
  rcases hplaced with rfl | rfl
  · apply composedOf_carry
    · exact EngineMemory.composed_execute List.mem_cons_self
    · exact EngineMemory.composed_post List.mem_cons_self
  · exact absurd List.mem_cons_self hbarred

/-- A command for another unit is nested in the wait for the flash, which ends at its threshold. -/
theorem waits_tallied_phy :
    let guarded := (firmware .phy).barring [task]
    let tallied := (command .flash).carryOut (fun _ wait =>
      guarded.awaitTallied (confirm wait) .flash 9 wait) fun _ => pure ()
    (guarded.linkage 9).execute (command .flash) machine = tallied machine ∧
      ((firmware .phy).linkage 9).execute (command .flash) machine = tallied machine ∧
      (tallied machine).value? = some (ranOut .flash none 2) := by
  intro guarded tallied
  have hcomposed : (image .phy).ComposedOf fun _ _ => True := by
    intro placed hplaced
    simp only [image, List.mem_cons, List.not_mem_nil, or_false] at hplaced
    rcases hplaced with rfl | rfl
    all_goals exact composedOf_carry (.execute _ admits_all) (.post _ admits_all)
  have hinspect : ∀ wait ∈ (command .flash).kind.waits, ∀ place looks s,
      looks ≤ (config.timeouts.get wait).toNat →
        memory.Counting [.phy] [.flash] wait place looks s.bus →
          confirm wait looks s = .done () s :=
    fun _ _ _ _ _ _ hs => confirm_apply hs.counter
  have hclose : ∀ place s, memory.Claimed [.phy] [.flash] place s.bus →
      (pure () : Run (Machine Cells) Unit) s = .done () s := fun _ _ _ => rfl
  have hposted : memory.Posted [.flash] machine.bus := by
    intro kind hkind
    have hnone : CommandKind.ofRequest? (memory.ram machine.bus requestKind) = none := by decide
    rw [hnone] at hkind
    cases hkind
  have hvalue : (tallied machine).value? = some (ranOut .flash none 2) := by decide +kernel
  obtain ⟨-, hguarded, hplain, -⟩ := Firmware.waits_tallied memory (link_image .phy) hcomposed
    sparing_image (.inr (by decide)) (by decide) hinspect hclose 9 trivial hposted
  refine ⟨hguarded, ?_, hvalue⟩
  rcases hplain with hexhausted | hsame
  · -- the task is not entered, so that the run ends
    have hnone : tallied machine = .exhausted := hexhausted
    rw [hnone] at hvalue
    cases hvalue
  · exact hsame

end NestedCommands

end BankedController
