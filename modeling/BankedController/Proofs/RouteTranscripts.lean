import BankedController.Proofs.PlainMemory
import BankedController.Proofs.ScanTranscripts
import Mathlib.Data.List.Nodup

namespace BankedController

open RegisterMap

variable {β : Type}

/-- The look of a test that finds a value. The sample is not looked at again. -/
def TestSource.looks (value : UInt8) : TestSource → List Deed
  | .snapshot => []
  | .reread register => [.read register value]

/-- An acknowledgement of the bits of a mask, in a register that holds a value where the
acknowledgement reads it. -/
def Acknowledge.deeds (mask held : UInt8) : Acknowledge → List Deed
  | .handler => []
  | .writeMask register => [.write register mask]
  | .clearMask register => [.read register held, .write register (held &&& ~~~mask)]

/-- A test that was tried, the value that it looked at, and the value that its acknowledgement
read. -/
structure TriedTest where
  test : StatusTest
  looked : UInt8
  held : UInt8

namespace TriedTest

/-- The bits that fire the test meet the value. -/
def Fires (t : TriedTest) : Prop := t.looked &&& t.test.mask ≠ 0

instance (t : TriedTest) : Decidable t.Fires := inferInstanceAs (Decidable (_ ≠ _))

/-- What is done for a test: it looks, and if it fires, it calls its slot and is acknowledged. -/
def deeds (t : TriedTest) : List Deed :=
  t.test.source.looks t.looked ++
    if t.Fires then .called t.test.slot none :: t.test.ack.deeds t.test.mask t.held else []

/-- A test calls its slot if it fires, and calls nothing else. -/
theorem called_mem_deeds {t : TriedTest} {id : SlotId} {param : Option UInt8} :
    .called id param ∈ t.deeds ↔ t.Fires ∧ id = t.test.slot ∧ param = none := by
  have hlooks : .called id param ∉ t.test.source.looks t.looked := by
    cases t.test.source <;> simp [TestSource.looks]
  have hacks : .called id param ∉ t.test.ack.deeds t.test.mask t.held := by
    cases t.test.ack <;> simp [Acknowledge.deeds]
  unfold deeds
  by_cases hfires : t.Fires <;> simp [hlooks, hacks, hfires]

end TriedTest

/-- Tests that were tried in order. Those that look at the sample all saw the same. -/
structure Tried (sample : UInt8) (tests : List StatusTest) (told : List TriedTest) : Prop where
  tests : told.map TriedTest.test = tests
  sampled : ∀ t ∈ told, t.test.source = .snapshot → t.looked = sample

/-- The slots of the tests of a line are all different. -/
theorem LineRoute.nodup_slots (line : IrqLine) :
    ((LineRoute.ofLine line).tests.map StatusTest.slot).Nodup := by
  cases line <;> decide

/-- A test of the sample calls its slot exactly if the sample says so. -/
theorem Tried.called_iff {sample : UInt8} {tests : List StatusTest} {told : List TriedTest}
    (h : Tried sample tests told) (hslots : (tests.map StatusTest.slot).Nodup) {test : StatusTest}
    (htest : test ∈ tests) (hsource : test.source = .snapshot) :
    .called test.slot none ∈ told.flatMap TriedTest.deeds ↔ sample &&& test.mask ≠ 0 := by
  rw [← h.tests, List.map_map] at hslots
  rw [← h.tests] at htest
  obtain ⟨t, ht, rfl⟩ := List.mem_map.1 htest
  rw [← h.sampled t ht hsource, List.mem_flatMap]
  constructor
  · rintro ⟨t', ht', hcalled⟩
    obtain ⟨hfires, hslot, -⟩ := TriedTest.called_mem_deeds.1 hcalled
    obtain rfl := List.inj_on_of_nodup_map hslots ht ht' hslot
    exact hfires
  · intro hfires
    exact ⟨t, ht, TriedTest.called_mem_deeds.2 ⟨hfires, rfl, rfl⟩⟩

theorem Transcribed.of_recorded {α : Type} {P : α → List Deed → Machine β → Prop}
    {out : Outcome (Machine β) α} {a : α} {r : Machine (Recorded β)}
    (h : Transcribed P out (.done a r)) : ∃ s, out = .done a s ∧ P a r.bus.deeds s := by
  cases out with
  | done a' s =>
    obtain ⟨deeds, hout, hP⟩ := h
    cases hout
    exact ⟨s, rfl, hP⟩
  | fault cause s =>
    obtain ⟨deeds, hout⟩ := h
    cases hout
  | exhausted => cases h

namespace Linkage

variable [RegisterBus β] (l : Linkage β) (s : Machine β) (deeds : List Deed)

theorem look_transcribed (sample : UInt8) (source : TestSource) :
    Transcribed (fun value all _ => (source = .snapshot → value = sample) ∧
        all = deeds ++ source.looks value)
      (look sample source s) (look sample source (s.recorded deeds)) := by
  cases source with
  | snapshot => exact .pure ⟨fun _ => rfl, (List.append_nil deeds).symm⟩
  | reread register =>
    refine (Transcribed.read register s deeds).imp fun value all _ _ hall => ?_
    exact ⟨fun hsource => (nomatch hsource), hall⟩

theorem acknowledge_transcribed (test : StatusTest) :
    Transcribed (fun _ all _ => ∃ held, all = deeds ++ test.ack.deeds test.mask held)
      (acknowledge test s) (acknowledge test (s.recorded deeds)) := by
  obtain ⟨source, mask, slot, ack⟩ := test
  cases ack with
  | handler => exact .pure ⟨0, (List.append_nil deeds).symm⟩
  | writeMask register =>
    exact (Transcribed.write register mask s deeds).imp fun _ _ _ _ hall => ⟨0, hall⟩
  | clearMask register =>
    simp only [acknowledge, Machine.clearBits, RegisterBus.clearBits, Machine.onBus_bind]
    refine (Transcribed.read register s deeds).bind fun held _ t _ hread => ?_
    refine (Transcribed.write register (held &&& ~~~mask) t _).imp fun _ all _ _ hall => ⟨held, ?_⟩
    rw [hall, hread, List.append_assoc]
    rfl

theorem runTest_transcribed (sample : UInt8) (test : StatusTest) :
    Transcribed (fun _ all _ => ∃ t : TriedTest, t.test = test ∧
        (test.source = .snapshot → t.looked = sample) ∧ all = deeds ++ t.deeds)
      (l.runTest sample test s) (l.recorded.runTest sample test (s.recorded deeds)) := by
  rw [runTest_eq, runTest_eq]
  refine (look_transcribed s deeds sample test.source).bind fun value looked t _ hlook => ?_
  obtain ⟨hsample, hlooked⟩ := hlook
  by_cases hclear : value &&& test.mask = 0
  · rw [if_pos hclear, if_pos hclear]
    refine .pure ⟨⟨test, value, 0⟩, rfl, hsample, ?_⟩
    have hquiet : ¬TriedTest.Fires ⟨test, value, 0⟩ := fun hfires => hfires hclear
    rw [TriedTest.deeds, if_neg hquiet, List.append_nil]
    exact hlooked
  · rw [if_neg hclear, if_neg hclear]
    refine (Transcribed.dispatch l test.slot none t looked).bind fun _ called u _ hcalled => ?_
    refine (acknowledge_transcribed u called test).imp fun _ all _ _ hacked => ?_
    obtain ⟨held, hall⟩ := hacked
    refine ⟨⟨test, value, held⟩, rfl, hsample, ?_⟩
    have hfires : TriedTest.Fires ⟨test, value, held⟩ := hclear
    rw [TriedTest.deeds, if_pos hfires, hall, hcalled, hlooked]
    simp only [List.append_assoc, List.singleton_append]

/-- Tests, by induction on their list: each is tried where the one before left the machine. -/
theorem runTests_transcribed (sample : UInt8) (tests : List StatusTest) :
    Transcribed (fun _ all _ => ∃ told, all = deeds ++ told.flatMap TriedTest.deeds ∧
        Tried sample tests told)
      (l.runTests sample tests s) (l.recorded.runTests sample tests (s.recorded deeds)) := by
  induction tests generalizing s deeds with
  | nil => exact .pure ⟨[], (List.append_nil deeds).symm, rfl, by simp⟩
  | cons test rest ih =>
    refine (runTest_transcribed l s deeds sample test).bind fun _ before t _ hfirst => ?_
    obtain ⟨tried, htest, hsample, hbefore⟩ := hfirst
    refine (ih t before).imp fun _ all _ _ hrest => ?_
    obtain ⟨told, hall, htests, hsampled⟩ := hrest
    refine ⟨tried :: told, ?_, ?_, ?_⟩
    · rw [hall, hbefore, List.flatMap_cons, List.append_assoc]
    · rw [List.map_cons, htest, htests]
    · rintro t' ht' hsource
      rcases List.mem_cons.1 ht' with rfl | ht'
      · exact hsample (htest ▸ hsource)
      · exact hsampled t' ht' hsource

section Returns

variable {l} (hreads : ∀ addr (bus : β), ∃ value bus', RegisterBus.read addr bus = .done value bus')
  (hwrites : ∀ addr value (bus : β), ∃ bus', RegisterBus.write addr value bus = .done () bus')
  (hcalls : ∀ id param s, ∃ result t, l.call id param s = .done result t)

include hreads hwrites hcalls

/-- A route returns if its accesses and what it dispatches do. -/
theorem route_ends (line : IrqLine) : (l.route line).Ends fun _ => True := by
  have htest (sample : UInt8) (test : StatusTest) : (l.runTest sample test).Ends fun _ => True := by
    have hack : (acknowledge test : Run (Machine β) Unit).Ends fun _ => True := by
      unfold acknowledge
      split
      · exact Run.ends_pure _
      · exact write_ends hwrites _ _
      · simp only [Machine.clearBits, RegisterBus.clearBits, Machine.onBus_bind]
        exact Run.ends_bind (read_ends hreads _) fun _ => write_ends hwrites _ _
    have hlook : (look sample test.source : Run (Machine β) UInt8).Ends fun _ => True := by
      unfold look
      split
      · exact Run.ends_pure _
      · exact read_ends hreads _
    rw [runTest_eq]
    refine Run.ends_bind hlook fun value => ?_
    split
    · exact Run.ends_pure _
    · exact Run.ends_bind (dispatch_ends hcalls _ _) fun _ => hack
  have htests (sample : UInt8) (tests : List StatusTest) :
      (l.runTests sample tests).Ends fun _ => True := by
    induction tests with
    | nil => exact Run.ends_pure _
    | cons test rest ih => exact Run.ends_bind (htest sample test) fun _ => ih
  exact Run.ends_bind (read_ends hreads _) fun sample =>
    Run.ends_bind (fun s _ => ⟨(), _, rfl, trivial⟩) fun _ => htests _ _

end Returns

end Linkage

/-- The route of a line, whatever the bus returns and whatever the routines do that it dispatches,
failures included. It returns if all its accesses and calls do. It samples the status register of
the line once, and then tries the tests of the line in order, each of them and each once. A test
looks at the sample, or reads its register when its turn comes; it fires if its mask meets what it
sees, and then calls its slot, once, and acknowledges: by writing its mask, or by reading the
register anew and writing it back with the bits of the mask clear. Nothing else is done. So two
routes of one line with the same sample call the same slots of the tests that look at the sample,
whatever bus and routines they meet. -/
theorem Linkage.route_transcribed [RegisterBus β] (l : Linkage β) (line : IrqLine)
    (s : Machine β) :
    ((∀ addr (bus : β), ∃ value bus', RegisterBus.read addr bus = .done value bus') →
      (∀ addr value (bus : β), ∃ bus', RegisterBus.write addr value bus = .done () bus') →
      (∀ id param s, ∃ result t, l.call id param s = .done result t) →
        ∃ t, l.route line s = .done () t) ∧
    Transcribed (fun _ deeds _ => ∃ sample told,
        deeds = .read (LineRoute.ofLine line).status sample :: told.flatMap TriedTest.deeds ∧
        Tried sample (LineRoute.ofLine line).tests told)
      (l.route line s) (l.recorded.route line (s.recorded [])) ∧
    ∀ {γ : Type} [RegisterBus γ] (l' : Linkage γ) (s' : Machine γ) t t' sample deeds deeds',
      l.recorded.route line (s.recorded []) = .done () t →
      l'.recorded.route line (s'.recorded []) = .done () t' →
      t.bus.deeds = .read (LineRoute.ofLine line).status sample :: deeds →
      t'.bus.deeds = .read (LineRoute.ofLine line).status sample :: deeds' →
      ∀ test ∈ (LineRoute.ofLine line).tests, test.source = .snapshot →
        (.called test.slot none ∈ deeds ↔ sample &&& test.mask ≠ 0) ∧
        (.called test.slot none ∈ deeds ↔ .called test.slot none ∈ deeds') := by
  have htold {γ : Type} [RegisterBus γ] (l : Linkage γ) (s : Machine γ) :
      Transcribed (fun _ deeds _ => ∃ sample told,
          deeds = .read (LineRoute.ofLine line).status sample :: told.flatMap TriedTest.deeds ∧
          Tried sample (LineRoute.ofLine line).tests told)
        (l.route line s) (l.recorded.route line (s.recorded [])) := by
    refine (Transcribed.read _ s []).bind fun sample _ t _ hread => ?_
    refine (Transcribed.note _ t _).bind fun _ _ u _ hnote => ?_
    refine (runTests_transcribed l u _ sample _).imp fun _ all _ _ htests => ?_
    obtain ⟨told, hall, htried⟩ := htests
    exact ⟨sample, told, by rw [hall, hnote, hread]; rfl, htried⟩
  have hcalls {γ : Type} [RegisterBus γ] (l : Linkage γ) (s : Machine γ) {t sample deeds}
      (hrun : l.recorded.route line (s.recorded []) = .done () t)
      (hdeeds : t.bus.deeds = .read (LineRoute.ofLine line).status sample :: deeds)
      {test : StatusTest} (htest : test ∈ (LineRoute.ofLine line).tests)
      (hsource : test.source = .snapshot) :
      .called test.slot none ∈ deeds ↔ sample &&& test.mask ≠ 0 := by
    obtain ⟨-, -, sample', told, hall, htried⟩ := (hrun ▸ htold l s).of_recorded
    rw [hdeeds] at hall
    cases hall
    exact htried.called_iff (LineRoute.nodup_slots line) htest hsource
  refine ⟨fun hreads hwrites hcall => ?_, htold l s, ?_⟩
  · obtain ⟨_, t, hrun, -⟩ := route_ends hreads hwrites hcall line s trivial
    exact ⟨t, hrun⟩
  · intro γ _ l' s' t t' sample deeds deeds' hrun hrun' hdeeds hdeeds' test htest hsource
    have hhere := hcalls l s hrun hdeeds htest hsource
    exact ⟨hhere, hhere.trans (hcalls l' s' hrun' hdeeds' htest hsource).symm⟩

namespace ChangingHandlers

/-- The service of the master fails, but not before it has cleared the status of the line and raised
a bus event. The service of the bus event raises something else in the same register. -/
def linkage : Linkage Cells where
  config := .standard
  table := ⟨[]⟩
  patience := 0
  call id _ :=
    if id = .usbMaster then do
      Machine.write usbStatus 0
      Machine.write peripheralStatus (busEventBit ||| 0x40)
      pure (.error (.unknownSlot id))
    else if id = .usbBusEvent then do
      Machine.setBits peripheralStatus 0x08
      pure (.ok ())
    else
      pure (.ok ())
  poll := pure ()

/-- Handlers that do nothing. -/
def idle : Linkage Cells := { linkage with call := fun _ _ => pure (.ok ()) }

/-- The sample has the master and the link. -/
def sample : UInt8 := usbMasterBit ||| usbLinkBit

def machine : Machine Cells where
  bus := ⟨fun addr => if addr = usbStatus then sample else 0⟩
  window := .initial
  stack := .ofBase 0x21
  irq := .initial
  stats := .initial
  log := ⟨none, []⟩

/-- What the route does after it has taken the sample. The link is served although the status of the
line is clear by then, and the bus event although it was not there when the line was taken. -/
def deeds : List Deed :=
  [.called .usbMaster none, .read endpointStatus 0, .read peripheralStatus (busEventBit ||| 0x40),
    .called .usbBusEvent none, .read peripheralStatus (busEventBit ||| 0x48),
    .write peripheralStatus 0x48, .read systemStatus 0, .called .usbLinkEvent none,
    .write usbStatus usbLinkBit]

end ChangingHandlers

/-- The link is served as it would be if the handlers before it did nothing. -/
theorem Linkage.route_transcribed_changing :
    ∃ t, ChangingHandlers.linkage.route .endpoint ChangingHandlers.machine = .done () t ∧
      ChangingHandlers.linkage.recorded.route .endpoint (ChangingHandlers.machine.recorded []) =
        .done () (t.recorded (.read usbStatus ChangingHandlers.sample :: ChangingHandlers.deeds)) ∧
      ∃ idle deeds', ChangingHandlers.idle.recorded.route .endpoint
          (ChangingHandlers.machine.recorded []) = .done () idle ∧
        idle.bus.deeds = .read usbStatus ChangingHandlers.sample :: deeds' ∧
        .called .usbLinkEvent none ∈ deeds' := by
  obtain ⟨hreturns, htold, htwo⟩ :=
    route_transcribed ChangingHandlers.linkage .endpoint ChangingHandlers.machine
  obtain ⟨t, hrun⟩ := hreturns (fun _ _ => ⟨_, _, rfl⟩) (fun _ _ _ => ⟨_, rfl⟩) fun id param s => by
    change ∃ result t, (if id = .usbMaster then _ else _ : Run (Machine Cells) _) s = .done result t
    split
    · exact ⟨_, _, rfl⟩
    split
    · exact ⟨_, _, rfl⟩
    · exact ⟨_, _, rfl⟩
  obtain ⟨deeds, hrecorded, -⟩ := htold.of_done hrun
  have hdeeds : (ChangingHandlers.linkage.recorded.route .endpoint
      (ChangingHandlers.machine.recorded [])).ask? (fun r => r.bus.deeds) =
        some (.read usbStatus ChangingHandlers.sample :: ChangingHandlers.deeds) := by
    decide +kernel
  have hidle : (ChangingHandlers.idle.recorded.route .endpoint
      (ChangingHandlers.machine.recorded [])).ask? (fun r => r.bus.deeds.head?) =
        some (some (.read usbStatus ChangingHandlers.sample)) := by
    decide +kernel
  rw [hrecorded] at hdeeds
  obtain rfl := Option.some.inj hdeeds
  obtain ⟨_, u, hrun', hhead⟩ := Outcome.done_of_ask? hidle
  obtain ⟨deeds', hdeeds'⟩ := List.head?_eq_some_iff.1 hhead
  refine ⟨t, hrun, hrecorded, u, deeds', hrun', hdeeds', ?_⟩
  let link : StatusTest := ⟨.snapshot, usbLinkBit, .usbLinkEvent, .writeMask usbStatus⟩
  have hlink : link ∈ (LineRoute.ofLine .endpoint).tests := by decide
  have hsame := htwo ChangingHandlers.idle ChangingHandlers.machine _ u ChangingHandlers.sample _
    deeds' hrecorded hrun' rfl hdeeds' link hlink rfl
  exact hsame.2.1 (hsame.1.2 (by decide))

end BankedController
