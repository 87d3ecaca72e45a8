import BankedController.Proofs.PanelPasses

namespace BankedController.Board

open RegisterMap Endpoint

/-- The address is that of no interrupt status register. -/
def Plain (addr : UInt16) : Prop := ∀ c : Cell, c.latched = true → c.addr ≠ addr

theorem plain_register (e : Fin 8) : Plain (Condition.register e) := by
  intro c _ haddr
  apply c.not_secondary_addr
  rw [haddr]
  exact Condition.secondary_iff.2 ⟨e, rfl⟩

theorem plain_cell {c : Cell} (h : c.latched = false) : Plain c.addr := by
  intro d hd haddr
  rw [Cell.addr_injective haddr, h] at hd
  cases hd

namespace Panel

theorem byte_store (p : Panel) (addr : UInt16) (value : UInt8) (c : Cell) :
    (p.store addr value).byte c =
      if c.addr = addr then c.written (p.byte c) value else p.byte c := by
  unfold store
  cases hat : Cell.at? addr with
  | some d =>
    obtain rfl := Cell.addr_of_at? hat
    dsimp only
    rw [Function.update_apply]
    by_cases heq : c = d
    · rw [if_pos heq, if_pos (congrArg Cell.addr heq), heq]
    · rw [if_neg heq, if_neg fun haddr => heq (Cell.addr_injective haddr)]
  | none =>
    have hne : c.addr ≠ addr := by
      rintro rfl
      rw [c.at?_addr] at hat
      cases hat
    rw [if_neg hne]
    cases Journaled.endpointAt? addr <;> rfl

theorem store_frame (p : Panel) (addr : UInt16) (value : UInt8) :
    (p.store addr value).calls = p.calls ∧ (p.store addr value).failures = p.failures ∧
      (p.store addr value).forced = p.forced := by
  unfold store
  cases Cell.at? addr with
  | some d => exact ⟨rfl, rfl, rfl⟩
  | none => cases Journaled.endpointAt? addr <;> exact ⟨rfl, rfl, rfl⟩

/-- The value that a test looks at. -/
def looked (p : Panel) (snapshot : UInt8) (test : StatusTest) : UInt8 :=
  match test.source with
  | .snapshot => snapshot
  | .reread register => p.load register

theorem runTest_eq (p : Panel) (limit room : Nat) (snapshot : UInt8) (test : StatusTest) :
    p.runTest limit room snapshot test =
      if p.looked snapshot test &&& test.mask = 0 then p
      else (p.dispatch limit room test.slot).acknowledge test.ack test.mask := rfl

/-- The register that an acknowledgement writes. -/
def registerOf : Acknowledge → Option UInt16
  | .handler => none
  | .writeMask register | .clearMask register => some register

/-- An acknowledgement is a store to its register. -/
theorem acknowledge_respects {R : Panel → Panel → Prop} {ack : Acknowledge} {p : Panel}
    (hrefl : R p p) (hstore : ∀ register value, registerOf ack = some register →
      R p (p.store register value)) (mask : UInt8) : R p (p.acknowledge ack mask) := by
  cases ack with
  | handler => exact hrefl
  | writeMask register => exact hstore register _ rfl
  | clearMask register => exact hstore register _ rfl

/-- A relation that cleared conditions and calls respect. -/
structure Closed (R : Panel → Panel → Prop) : Prop where
  refl : ∀ p, R p p
  trans : ∀ {p q r}, R p q → R q r → R p r
  clear : ∀ (p : Panel) (c : Condition), R p (p.store (Condition.register c.endpoint) c.mask)
  called : ∀ (p : Panel) (slot : SlotId) (param : Option UInt8), R p (p.called slot param)

/-- There is as much room as is needed, or else failures are respected too. -/
def Fits (R : Panel → Panel → Prop) (need room : Nat) : Prop :=
  need ≤ room ∨ ∀ p : Panel, R p p.failed

theorem Fits.framed {R : Panel → Panel → Prop} {room : Nat} (hfit : Fits R 5 room)
    {body : Nat → Panel → Panel} {p : Panel} (hbody : R p (body (room - 5) p)) :
    R p (p.framed room body) := by
  unfold Panel.framed
  split
  · exact hbody
  · rename_i hnot
    exact hfit.resolve_left hnot p

namespace Closed

variable {R : Panel → Panel → Prop} {limit room : Nat}

theorem standIn (h : Closed R) (hfit : Fits R 5 room) (p : Panel) (slot : SlotId)
    (param : Option UInt8) : R p (p.standIn room slot param) :=
  hfit.framed (h.called p slot param)

theorem serveCondition (h : Closed R) (hfit : Fits R 5 room) (p : Panel) (c : Condition) :
    R p (p.serveCondition room c) :=
  h.trans (h.standIn hfit p _ _) (h.clear _ c)

theorem scanSteps (h : Closed R) (hfit : Fits R 5 room) (limit : Nat) (p : Panel) :
    R p (p.scanSteps room limit) := by
  induction limit generalizing p with
  | zero => exact h.refl p
  | succ limit ih =>
    unfold Panel.scanSteps
    split
    · exact h.refl p
    · rename_i c _
      exact h.trans (h.serveCondition hfit p c) (ih _)

theorem masterLast (h : Closed R) (hfit : Fits R 5 room) (p : Panel) : R p (p.masterLast room) := by
  unfold Panel.masterLast
  split
  · exact h.standIn hfit p _ _
  · exact h.refl p

theorem forcedFirst (h : Closed R) (hfit : Fits R 5 room) (p : Panel) :
    R p (p.forcedFirst room) := by
  unfold Panel.forcedFirst
  split
  · exact h.standIn hfit p _ _
  · exact h.refl p

theorem scan (h : Closed R) (hfit : Fits R 5 room) (p : Panel) : R p (p.scan limit room) :=
  h.trans (h.trans (h.forcedFirst hfit p) (h.scanSteps hfit limit _)) (h.masterLast hfit _)

theorem dispatch (h : Closed R) (hfit : Fits R 10 room) (p : Panel) (slot : SlotId) :
    R p (p.dispatch limit room slot) := by
  have houter : Fits R 5 room := hfit.imp_left fun _ => by omega
  have hinner : Fits R 5 (room - 5) := hfit.imp_left fun _ => by omega
  apply houter.framed
  split
  · exact h.scan hinner p
  split
  · exact h.refl p
  · exact h.called p slot none

theorem dispatchAll (h : Closed R) (hfit : Fits R 10 room) (slots : List SlotId) (p : Panel) :
    R p (p.dispatchAll limit room slots) := by
  induction slots generalizing p with
  | nil => exact h.refl p
  | cons slot rest ih => exact h.trans (h.dispatch hfit p slot) (ih _)

theorem serveEvents (h : Closed R) (hfit : Fits R 10 room)
    (hstore : ∀ p value, R p (p.store eventFlags value)) (p : Panel) :
    R p (p.serveEvents limit room) := by
  have htake : R p p.takeEvents := by
    unfold Panel.takeEvents
    split
    · exact h.refl p
    · exact hstore p _
  exact h.trans htake (h.dispatchAll hfit _ _)

theorem promote (h : Closed R) (hevents : ∀ p value, R p (p.store eventFlags value))
    (hstate : ∀ p value, R p (p.store systemState value)) (p : Panel) : R p p.promote := by
  unfold Panel.promote
  dsimp only
  split
  · exact h.refl p
  · exact h.trans (hstate p _) (hevents _ _)

theorem runTests (h : Closed R) {snapshot : UInt8} {tests : List StatusTest}
    (htests : ∀ test ∈ tests, ∀ p, R p (p.runTest limit room snapshot test)) (p : Panel) :
    R p (p.runTests limit room snapshot tests) := by
  induction tests generalizing p with
  | nil => exact h.refl p
  | cons test rest ih =>
    have hfirst := htests test List.mem_cons_self p
    have hrest := ih fun test htest => htests test (List.mem_cons_of_mem _ htest)
    exact h.trans hfirst (hrest _)

/-- A test of which a relation respects the acknowledgement. -/
theorem runTest (h : Closed R) (hfit : Fits R 10 room) {test : StatusTest}
    (hack : ∀ p : Panel, R p (p.acknowledge test.ack test.mask)) (snapshot : UInt8) (p : Panel) :
    R p (p.runTest limit room snapshot test) := by
  rw [runTest_eq]
  split
  · exact h.refl p
  · exact h.trans (h.dispatch hfit p test.slot) (hack _)

theorem route (h : Closed R) (hfit : Fits R 10 room) {line : IrqLine}
    (hack : ∀ test ∈ (LineRoute.ofLine line).tests, ∀ p : Panel,
      R p (p.acknowledge test.ack test.mask)) (p : Panel) : R p (p.route limit room line) :=
  h.runTests (fun test htest p => h.runTest hfit (hack test htest) _ p) p

end Closed

end Panel

namespace Console

variable {I : Console → Prop} {limit room : Nat} {c : Console}

theorem poll_keeps
    (hservice : ∀ c line, I c → c.irq.next? = some line → I (c.service limit room line))
    (count : Nat) (hc : I c) : I (c.poll limit room count) := by
  induction count generalizing c with
  | zero => exact hc
  | succ count ih =>
    unfold poll
    split
    · exact hc
    · rename_i line hline
      exact ih (hservice c line hc hline)

theorem runPollers_keeps
    (hservice : ∀ c line, I c → c.irq.next? = some line → I (c.service limit room line))
    (hdispatch : ∀ c, ∀ slot ∈ pollers, I c → I (c.onPanel fun p => p.dispatch limit room slot))
    {slots : List SlotId} (hslots : slots ⊆ pollers) (hc : I c) :
    I (c.runPollers limit room slots) := by
  induction slots generalizing c with
  | nil => exact hc
  | cons slot rest ih =>
    obtain ⟨hslot, hrest⟩ := List.cons_subset.1 hslots
    exact ih hrest (poll_keeps hservice 2 (hdispatch c slot hslot hc))

/-- What every part of a pass keeps, the pass keeps. -/
theorem pass_keeps
    (hservice : ∀ c line, I c → c.irq.next? = some line → I (c.service limit room line))
    (hdispatch : ∀ c, ∀ slot ∈ pollers, I c → I (c.onPanel fun p => p.dispatch limit room slot))
    (hevents : ∀ c, I c → I (c.onPanel fun p => (p.serveEvents limit room).promote)) (hc : I c) :
    I (c.pass limit room) :=
  poll_keeps hservice 2
    (hevents _ (runPollers_keeps hservice hdispatch (List.Subset.refl pollers) hc))

theorem poll_of_none (h : c.irq.next? = none) (count : Nat) : c.poll limit room count = c := by
  cases count with
  | zero => rfl
  | succ count =>
    unfold poll
    rw [h]

/-- After the pollers no line is left to be taken in the pass. -/
theorem pass_eq (c : Console) : c.pass limit room =
    (c.runPollers limit room pollers).onPanel fun p => (p.serveEvents limit room).promote := by
  have hquiet : ((c.runPollers limit room pollers).onPanel fun p =>
      (p.serveEvents limit room).promote).irq.next? = none :=
    next?_runPollers limit room (by decide) c
  exact poll_of_none hquiet 2

theorem next?_pass (c : Console) : (c.pass limit room).irq.next? = none :=
  next?_poll (raised_le_two _) limit room

end Console

end BankedController.Board
