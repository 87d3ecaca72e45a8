import BankedController.Proofs.ConsoleRuns
import BankedController.Proofs.PanelMoves

namespace BankedController.Board

open RegisterMap

/-- What a bit of interrupt status says. -/
inductive Notice where
  | usbMaster
  | usbCommand
  | usbLink
  | systemEvent
  | power
  | nvmeQueue
  | pcieEvent
  | pcieLink
  | timerTick
  deriving DecidableEq

namespace Notice

def all : List Notice :=
  [usbMaster, usbCommand, usbLink, systemEvent, power, nvmeQueue, pcieEvent, pcieLink, timerTick]

theorem mem_all (n : Notice) : n ∈ all := by
  cases n <;> decide

/-- The register that has the bit. -/
def cell : Notice → Cell
  | usbMaster | usbCommand | usbLink => .usb
  | systemEvent | power => .system
  | nvmeQueue | pcieEvent | pcieLink => .pcie
  | timerTick => .timer

def mask : Notice → UInt8
  | usbMaster => usbMasterBit
  | usbCommand => usbCommandBit
  | usbLink => usbLinkBit
  | systemEvent => systemEventBit
  | power => systemPowerBit
  | nvmeQueue => nvmeQueueBit
  | pcieEvent => pcieEventBit
  | pcieLink => pcieLinkBit
  | timerTick => timerTickBit

/-- The line on which the bit is announced. -/
def line : Notice → IrqLine
  | usbMaster | usbCommand | usbLink | systemEvent => .endpoint
  | power | nvmeQueue | pcieEvent | pcieLink | timerTick => .system

/-- The slot that the route of the line has for the bit. -/
def slot : Notice → SlotId
  | usbMaster => .usbMaster
  | usbCommand => .cbwReceived
  | usbLink => .usbLinkEvent
  | systemEvent => .systemEvent
  | power => .powerEvent
  | nvmeQueue => .nvmeQueueEvent
  | pcieEvent => .pcieEvent
  | pcieLink => .pcieLinkEvent
  | timerTick => .timerTick

/-- The notice is in the bytes. -/
def In (n : Notice) (bits : Cell → UInt8) : Prop := bits n.cell &&& n.mask ≠ 0

instance (n : Notice) (bits : Cell → UInt8) : Decidable (n.In bits) :=
  inferInstanceAs (Decidable (_ ≠ _))

theorem in_or {n : Notice} {bits bits' : Cell → UInt8} :
    (n.In fun c => bits c ||| bits' c) ↔ n.In bits ∨ n.In bits' := by
  unfold In
  rw [Bits.or_and, ne_eq, UInt8.or_eq_zero_iff, not_and_or]

/-- The bits of a register that are notices. -/
def bits (c : Cell) : UInt8 :=
  ((all.filter fun n => n.cell = c).map mask).foldr (· ||| ·) 0

/-- Without bits that are none, a register in which no notice is set is clear. -/
theorem clear_of_none {bytes : Cell → UInt8} {c : Cell} (hknown : bytes c &&& ~~~bits c = 0)
    (hnone : ∀ n : Notice, ¬n.In bytes) : bytes c = 0 := by
  have hmasks : ∀ masks : List UInt8, (∀ mask ∈ masks, bytes c &&& mask = 0) →
      bytes c &&& masks.foldr (· ||| ·) 0 = 0 := by
    intro masks hzero
    induction masks with
    | nil => exact UInt8.and_zero
    | cons mask rest ih =>
      have hrest := ih fun mask hmask => hzero mask (List.mem_cons_of_mem _ hmask)
      rw [List.foldr_cons, UInt8.and_comm, Bits.or_and, UInt8.and_comm, hzero mask List.mem_cons_self,
        UInt8.zero_or, UInt8.and_comm, hrest]
  have hbits : bytes c &&& bits c = 0 := by
    apply hmasks
    intro mask hmask
    obtain ⟨n, hn, rfl⟩ := List.mem_map.1 hmask
    have hcell : n.cell = c := by simpa using (List.mem_filter.1 hn).2
    by_contra hset
    apply hnone n
    unfold In
    rwa [hcell]
  have hsplit : (bytes c &&& bits c) ||| (bytes c &&& ~~~bits c) = bytes c := by
    rw [UInt8.and_comm, UInt8.and_comm (bytes c) (~~~bits c), ← Bits.or_and, UInt8.or_not_self]
    exact UInt8.neg_one_and
  rw [← hsplit, hbits, hknown]
  rfl

theorem latched (n : Notice) : n.cell.latched = true := by
  cases n <;> rfl

end Notice

namespace Panel

variable {p q : Panel} {n : Notice} {slot : SlotId} {limit room : Nat}

/-- Interrupt status only loses bits. -/
def Fades (p q : Panel) : Prop := ∀ c : Cell, c.latched = true → q.byte c &&& p.byte c = q.byte c

theorem Fades.trans {r : Panel} (h : Fades p q) (h' : Fades q r) : Fades p r := by
  intro c hc
  rw [← h' c hc, UInt8.and_assoc, h c hc]

theorem Fades.not_in (h : Fades p q) (hn : ¬n.In p.byte) : ¬n.In q.byte := by
  have hzero : p.byte n.cell &&& n.mask = 0 := not_not.1 hn
  unfold Notice.In
  rw [← h _ n.latched, UInt8.and_assoc, hzero, UInt8.and_zero]
  exact not_not.2 rfl

theorem fades_store (p : Panel) (addr : UInt16) (value : UInt8) : Fades p (p.store addr value) := by
  intro c hc
  rw [byte_store]
  split
  · unfold Cell.written
    rw [if_pos hc, UInt8.and_assoc, UInt8.and_comm (~~~value), ← UInt8.and_assoc, UInt8.and_self]
  · exact UInt8.and_self

/-- A store leaves the notices that it does not clear. -/
theorem in_store {addr : UInt16} {value : UInt8} (hn : n.In p.byte)
    (h : n.cell.addr = addr → ~~~value &&& n.mask = n.mask) : n.In (p.store addr value).byte := by
  unfold Notice.In
  rw [byte_store]
  split
  · rename_i haddr
    unfold Cell.written
    rw [if_pos n.latched, Bits.clear_and_of_disjoint _ (h haddr)]
    exact hn
  · exact hn

theorem not_in_store (p : Panel) (n : Notice) : ¬n.In (p.store n.cell.addr n.mask).byte := by
  unfold Notice.In
  rw [byte_store, if_pos rfl]
  unfold Cell.written
  rw [if_pos n.latched, Bits.clear_and_self]
  exact not_not.2 rfl

/-- What is done for a slot: of the notices only those that the slot is for are cleared. -/
structure Handled (slot : SlotId) (p q : Panel) : Prop where
  calls : q.calls = p.calls
  fades : Fades p q
  spares : ∀ n : Notice, n.slot ≠ slot → n.In p.byte → n.In q.byte

theorem Handled.trans {r : Panel} (h : Handled slot p q) (h' : Handled slot q r) :
    Handled slot p r :=
  ⟨h'.calls.trans h.calls, h.fades.trans h'.fades,
    fun n hne hn => h'.spares n hne (h.spares n hne hn)⟩

theorem handled_store {addr : UInt16} {value : UInt8}
    (h : ∀ n : Notice, n.slot ≠ slot → n.cell.addr = addr → ~~~value &&& n.mask = n.mask) :
    Handled slot p (p.store addr value) :=
  ⟨(p.store_frame addr value).1, fades_store p addr value, fun n hne hn => in_store hn (h n hne)⟩

theorem handled_plain {addr : UInt16} (h : Plain addr) (value : UInt8) :
    Handled slot p (p.store addr value) :=
  handled_store fun n _ haddr => absurd haddr (h n.cell n.latched)

theorem handled_behave (p : Panel) (slot : SlotId) :
    Handled slot p (p.behave (.ofSlot slot)) := by
  have hperipheral : Plain peripheralStatus := @plain_cell .peripheral rfl
  have hstate : Plain systemState := @plain_cell .state rfl
  have hclears (m : Notice) : ∀ n : Notice, n.slot ≠ m.slot → n.cell.addr = m.cell.addr →
      ~~~m.mask &&& n.mask = n.mask := by
    cases m <;> intro n <;> cases n <;> decide
  unfold Behaviour.ofSlot
  split_ifs with h1 h2 h3 h4 h5 h6 h7 h8 h9
  · subst h1
    exact handled_store (hclears .usbMaster)
  · subst h2
    exact (handled_store (hclears .usbCommand)).trans (handled_plain hstate _)
  · subst h3
    exact handled_store (hclears .systemEvent)
  · exact handled_plain hstate _
  · subst h5
    exact handled_store (hclears .nvmeQueue)
  · subst h6
    exact handled_store (hclears .pcieEvent)
  · subst h7
    exact handled_store (hclears .pcieLink)
  · subst h8
    exact handled_store (hclears .power)
  · exact handled_plain hperipheral _
  · exact ⟨rfl, fun _ _ => UInt8.and_self, fun _ _ hn => hn⟩

/-- Notices go only where their slots are called. -/
structure Progress (p q : Panel) : Prop where
  fades : Fades p q
  calls : ∃ new, q.calls = new ++ p.calls ∧
    ∀ n : Notice, n.In p.byte → n.In q.byte ∨ n.slot ∈ new.map Prod.fst

theorem Progress.refl (p : Panel) : Progress p p :=
  ⟨fun _ _ => UInt8.and_self, [], rfl, fun _ hn => .inl hn⟩

theorem Progress.trans {r : Panel} (h : Progress p q) (h' : Progress q r) : Progress p r := by
  obtain ⟨new, hcalls, hnew⟩ := h.calls
  obtain ⟨more, hmore, hlater⟩ := h'.calls
  refine ⟨h.fades.trans h'.fades, more ++ new, ?_, fun n hn => ?_⟩
  · rw [hmore, hcalls, List.append_assoc]
  · rw [List.map_append, List.mem_append]
    rcases hnew n hn with hstill | hcalled
    · rcases hlater n hstill with hstill | hcalled
      · exact .inl hstill
      · exact .inr (.inl hcalled)
    · exact .inr (.inr hcalled)

theorem Handled.progress {param : Option UInt8}
    (h : Handled slot { p with calls := (slot, param) :: p.calls } q) : Progress p q := by
  refine ⟨h.fades, [(slot, param)], h.calls, fun n hn => ?_⟩
  by_cases heq : n.slot = slot
  · exact .inr (heq ▸ List.mem_cons_self)
  · exact .inl (h.spares n heq hn)

theorem progress_plain (p : Panel) {addr : UInt16} (h : Plain addr) (value : UInt8) :
    Progress p (p.store addr value) := by
  refine ⟨fades_store p addr value, [], (p.store_frame addr value).1, fun n hn => .inl ?_⟩
  exact in_store hn fun haddr => absurd haddr (h n.cell n.latched)

theorem closed_progress : Closed Progress where
  refl := .refl
  trans := .trans
  clear p c := progress_plain p (plain_register c.endpoint) c.mask
  called _ slot _ := (handled_behave _ slot).progress

theorem fits_progress (need room : Nat) : Fits Progress need room :=
  .inr fun _ => ⟨fun _ _ => UInt8.and_self, [], rfl, fun _ hn => .inl hn⟩

theorem dispatch_called (p : Panel) (limit : Nat) (hroom : 5 ≤ room) (hscan : slot ≠ .endpointScan)
    (hservice : slot ≠ .commandService) : p.dispatch limit room slot = p.called slot none := by
  unfold dispatch framed
  rw [if_pos hroom]
  exact (if_neg hscan).trans (if_neg hservice)

/-- The router clears no notice but those that the slot of the test is for. -/
def fair (test : StatusTest) : Bool :=
  match test.ack with
  | .handler => true
  | .clearMask register => Cell.all.all fun c => !c.latched || c.addr ≠ register
  | .writeMask register =>
    test.slot ≠ .endpointScan && test.slot ≠ .commandService &&
      Notice.all.all fun n =>
        n.slot = test.slot || n.cell.addr ≠ register || ~~~test.mask &&& n.mask = n.mask

theorem fair_ofLine (line : IrqLine) : ∀ test ∈ (LineRoute.ofLine line).tests, fair test = true := by
  cases line <;> decide

theorem progress_runTest {test : StatusTest} (htest : fair test = true) (hroom : 5 ≤ room)
    (snapshot : UInt8) (p : Panel) : Progress p (p.runTest limit room snapshot test) := by
  have hdispatch := @closed_progress.dispatch _ limit room (fits_progress 10 room) p test.slot
  unfold fair at htest
  rw [runTest_eq]
  by_cases hquiet : p.looked snapshot test &&& test.mask = 0
  · rw [if_pos hquiet]
    exact .refl p
  rw [if_neg hquiet]
  cases hack : test.ack with
  | handler => exact hdispatch
  | writeMask register =>
    rw [hack] at htest
    simp only [Bool.and_eq_true, decide_eq_true_eq, List.all_eq_true, Bool.or_eq_true] at htest
    obtain ⟨⟨hscan, hservice⟩, hmasks⟩ := htest
    rw [dispatch_called p limit hroom hscan hservice]
    have hstored : ∀ n : Notice, n.slot ≠ test.slot → n.cell.addr = register →
        ~~~test.mask &&& n.mask = n.mask := by
      intro n hne haddr
      rcases hmasks n n.mem_all with (hslot | hother) | hdisjoint
      · exact absurd hslot hne
      · exact absurd haddr hother
      · exact hdisjoint
    exact ((handled_behave _ test.slot).trans (handled_store hstored)).progress
  | clearMask register =>
    rw [hack] at htest
    simp only [List.all_eq_true, Bool.or_eq_true] at htest
    have hplain : Plain register := by
      intro c hc
      have := htest c (by cases c <;> decide)
      simpa [hc] using this
    exact hdispatch.trans (progress_plain _ hplain _)

/-- The test for a notice, in the route of a line that samples a register. -/
def testFor (n : Notice) (status : UInt16) (test : StatusTest) : Bool :=
  test.slot = n.slot && test.mask = n.mask &&
    (match test.source with
      | .snapshot => n.cell.addr = status
      | .reread register => n.cell.addr = register) &&
    match test.ack with
      | .handler => n ≠ .usbLink && n ≠ .timerTick
      | .writeMask register => n.cell.addr = register
      | .clearMask _ => false

theorem testFor_ofLine (n : Notice) : ∃ test ∈ (LineRoute.ofLine n.line).tests,
    testFor n (LineRoute.ofLine n.line).status test = true := by
  cases n <;> decide

/-- The stand-in for a notice clears it, unless that is left to the router. -/
theorem not_in_called (p : Panel) (param : Option UInt8) (hlink : n ≠ .usbLink)
    (htick : n ≠ .timerTick) : ¬n.In (p.called n.slot param).byte := by
  have hhandled := not_in_store { p with calls := (n.slot, param) :: p.calls } n
  cases n with
  | usbCommand => exact (fades_store _ _ _).not_in hhandled
  | usbLink => exact absurd rfl hlink
  | timerTick => exact absurd rfl htick
  | usbMaster => exact hhandled
  | systemEvent => exact hhandled
  | power => exact hhandled
  | nvmeQueue => exact hhandled
  | pcieEvent => exact hhandled
  | pcieLink => exact hhandled

/-- After the test for a notice the notice is gone. -/
theorem not_in_runTest {test : StatusTest} {status : UInt16} (h : testFor n status test = true)
    (hroom : 5 ≤ room) {snapshot : UInt8} {p : Panel}
    (hsample : n.cell.addr = status → p.byte n.cell &&& snapshot = p.byte n.cell) :
    ¬n.In (p.runTest limit room snapshot test).byte := by
  unfold testFor at h
  simp only [Bool.and_eq_true, decide_eq_true_eq] at h
  obtain ⟨⟨⟨hslot, hmask⟩, hsource⟩, hack⟩ := h
  have hplain : n.slot ≠ .endpointScan ∧ n.slot ≠ .commandService := by cases n <;> decide
  have hlooked : p.byte n.cell &&& p.looked snapshot test = p.byte n.cell := by
    unfold looked
    cases hsource' : test.source with
    | snapshot =>
      rw [hsource'] at hsource
      exact hsample (by simpa using hsource)
    | reread register =>
      rw [hsource'] at hsource
      have hregister : n.cell.addr = register := by simpa using hsource
      dsimp only
      rw [← hregister, load_cell, UInt8.and_self]
  rw [runTest_eq, hslot, hmask]
  by_cases hquiet : p.looked snapshot test &&& n.mask = 0
  · rw [if_pos hquiet]
    apply not_not.2
    rw [← hlooked, UInt8.and_assoc, hquiet, UInt8.and_zero]
  rw [if_neg hquiet, dispatch_called p limit hroom hplain.1 hplain.2]
  cases hack' : test.ack with
  | handler =>
    rw [hack'] at hack
    simp only [Bool.and_eq_true, decide_eq_true_eq] at hack
    exact not_in_called p none hack.1 hack.2
  | writeMask register =>
    rw [hack'] at hack
    have hregister : n.cell.addr = register := by simpa using hack
    rw [← hregister]
    exact not_in_store _ n
  | clearMask register =>
    rw [hack'] at hack
    cases hack

theorem progress_route (hroom : 5 ≤ room) (p : Panel) (line : IrqLine) :
    Progress p (p.route limit room line) :=
  closed_progress.runTests (fun test htest p =>
    progress_runTest (fair_ofLine line test htest) hroom _ p) p

/-- After the route of a line none of its notices is left. -/
theorem not_in_route (hroom : 5 ≤ room) (p : Panel) (n : Notice) :
    ¬n.In (p.route limit room n.line).byte := by
  let status := (LineRoute.ofLine n.line).status
  have htests : ∀ tests ⊆ (LineRoute.ofLine n.line).tests,
      (∃ test ∈ tests, testFor n status test = true) → ∀ q : Panel,
      (n.cell.addr = status → q.byte n.cell &&& p.load status = q.byte n.cell) →
      ¬n.In (q.runTests limit room (p.load status) tests).byte := by
    intro tests hsubset hfound
    -- up to the test for the notice the sample has every bit that is left, and no test behind it
    -- sets one again
    induction tests with
    | nil => exact absurd hfound (by simp)
    | cons test rest ih =>
      intro q hsample
      obtain ⟨htest, hrest⟩ := List.cons_subset.1 hsubset
      have hfirst := @progress_runTest limit room test (fair_ofLine _ test htest) hroom
        (p.load status) q
      have hlater := fun q => closed_progress.runTests (fun test htest q =>
        @progress_runTest limit room test (fair_ofLine _ test (hrest htest)) hroom (p.load status) q) q
      by_cases hfor : testFor n status test = true
      · have hgone := @not_in_runTest n limit room test status hfor hroom _ q hsample
        exact (hlater _).fades.not_in hgone
      · obtain ⟨other, hmem, hother⟩ := hfound
        have hmore : ∃ test ∈ rest, testFor n status test = true := by
          rcases List.mem_cons.1 hmem with rfl | hmem
          · exact absurd hother hfor
          · exact ⟨other, hmem, hother⟩
        apply ih hrest hmore
        intro hstatus
        rw [← hfirst.fades _ n.latched, UInt8.and_assoc, hsample hstatus]
  apply htests _ (List.Subset.refl _) (testFor_ofLine n) p
  intro hstatus
  rw [← hstatus, load_cell, UInt8.and_self]

end Panel

end BankedController.Board
