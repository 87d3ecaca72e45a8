import BankedController.Proofs.BankInvariant

namespace BankedController

variable {β : Type}

/-- Whether a call found nothing at the address of its target. -/
def CallError.isUnresolved : CallError → Bool
  | unresolved _ _ => true
  | _ => false

namespace CallStack

theorem resolved_of_popExpect {s : CallStack} {entry : StackEntry} {e : CallError}
    (h : (s.popExpect entry).1 = .error e) : e.isUnresolved = false := by
  obtain ⟨entries, used, capacity, highWater⟩ := s
  unfold popExpect pop at h
  cases entries with
  | nil =>
    cases h
    rfl
  | cons found rest =>
    dsimp only at h
    split at h
    · cases h
    · cases h
      rfl

theorem resolved_of_popBank {s : CallStack} {e : CallError} (h : s.popBank.1 = .error e) :
    e.isUnresolved = false := by
  obtain ⟨entries, used, capacity, highWater⟩ := s
  unfold popBank pop at h
  cases entries with
  | nil =>
    cases h
    rfl
  | cons found rest =>
    cases found with
    | returnTo site =>
      cases h
      rfl
    | savedBank bank => cases h

end CallStack

namespace FarCall

variable {resolve resolve' : Resolver β} {slot : DispatchSlot} {param : Option UInt8}
  {s t : Machine β} {routine : Option UInt8 → Run (Machine β) Unit} {e : CallError}

/-- Taking a frame off fails only on what is on the stack. -/
theorem resolved_of_restore (h : restore slot s = .done (.error e) t) : e.isUnresolved = false := by
  obtain ⟨first, u, hfirst, hrest⟩ := Run.bind_eq_done.1 h
  cases first with
  | error e' =>
    cases hrest
    exact CallStack.resolved_of_popExpect (Outcome.done.inj hfirst).1
  | ok =>
    obtain ⟨second, v, hsecond, hrest⟩ := Run.bind_eq_done.1 hrest
    cases second with
    | error e' =>
      cases hrest
      exact CallStack.resolved_of_popBank (Outcome.done.inj hsecond).1
    | ok bank =>
      dsimp only at hrest
      rw [Run.bind_of_done (Machine.selectBank_apply v bank),
        Run.bind_of_done (Machine.note_apply _ _)] at hrest
      exact CallStack.resolved_of_popExpect (Outcome.done.inj hrest).1

/-- A call that finds a routine fails only on the stack: before it enters the routine if the frame
has no room, and afterwards if the routine does not leave the frame on top. -/
theorem resolved_of_farCall
    (hresolve : resolve slot.target.logical (bankOf slot s.window.active) = some routine)
    (h : farCall resolve slot param s = .done (.error e) t) : e.isUnresolved = false := by
  by_cases hover : s.stack.capacity < s.stack.used + 5
  · -- which of the three pushes failed, it failed on the stack
    obtain ⟨u, -, hcall⟩ := farCall_of_overflow param hover
    rw [hcall hresolve] at h
    cases h
    unfold overflow
    split
    · rfl
    · split
      · rfl
      · rfl
  · -- the routine was run, so that only taking off the frame can have failed
    rw [farCall_of_fits (Nat.le_of_not_lt hover) hresolve] at h
    obtain ⟨_, u, -, hrest⟩ := Run.bind_eq_done.1 h
    obtain ⟨result, v, hrestore, hconclude⟩ := Run.bind_eq_done.1 hrest
    cases result with
    | ok => cases hconclude
    | error e' =>
      have hsame : e' = e := by
        unfold conclude at hconclude
        obtain ⟨_, w, -, hpure⟩ := Run.bind_eq_done.1 hconclude
        cases hpure
        rfl
      rw [← hsame]
      exact resolved_of_restore hrestore

/-- A call looks up one address, while the bank of its target is mapped, and nothing else. -/
theorem farCall_congr
    (hresolve : resolve slot.target.logical (bankOf slot s.window.active) = some routine)
    (hresolve' : resolve' slot.target.logical (bankOf slot s.window.active) = some routine) :
    farCall resolve slot param s = farCall resolve' slot param s := by
  by_cases hover : s.stack.capacity < s.stack.used + 5
  · obtain ⟨u, -, hcall⟩ := farCall_of_overflow param hover
    rw [hcall hresolve, hcall hresolve']
  · have hfits : s.stack.used + 5 ≤ s.stack.capacity := Nat.le_of_not_lt hover
    rw [farCall_of_fits hfits hresolve, farCall_of_fits hfits hresolve']

end FarCall

/-- Dispatches a slot, and does something else about a call that finds nothing. -/
def Linkage.dispatchOr (unresolved : Run (Machine β) Unit) (l : Linkage β) (id : SlotId)
    (param : Option UInt8) : Run (Machine β) Unit := do
  match ← l.call id param with
  | .ok () => pure ()
  | .error e =>
    if e.isUnresolved then unresolved
    else do
      Run.modify fun s => { s with stats := s.stats.failed }
      Machine.note (.dispatchFailed id e)

/-- No call through the linkage finds nothing, on whatever machine it is made. -/
structure Linkage.Resolved (l : Linkage β) : Prop where
  call : ∀ id param s e t, l.call id param s = .done (.error e) t → e.isUnresolved = false
  callStub : ∀ addr param s e t, l.callStub addr param s = .done (.error e) t →
    e.isUnresolved = false
  dispatch : ∀ unresolved id param, l.dispatch id param = l.dispatchOr unresolved id param

/-- It is enough to look at the calls by slot: the other ways in go through them. -/
theorem Linkage.resolved_of_call {l : Linkage β}
    (h : ∀ id param s e t, l.call id param s = .done (.error e) t → e.isUnresolved = false) :
    l.Resolved := by
  refine ⟨h, ?_, ?_⟩
  · intro addr param s e t hrun
    unfold callStub at hrun
    cases hstub : l.table.atStub? addr with
    | none =>
      rw [hstub] at hrun
      cases hrun
      rfl
    | some slot =>
      rw [hstub] at hrun
      exact h slot.id param s e t hrun
  · intro unresolved id param
    funext s
    unfold dispatch dispatchOr
    rw [Run.bind_apply, Run.bind_apply]
    cases hcall : l.call id param s with
    | done result t =>
      cases result with
      | ok => rfl
      | error e =>
        have hresolved : e.isUnresolved = false := h id param s e t hcall
        simp only [hresolved, Bool.false_eq_true, if_false]
    | fault cause t => rfl
    | exhausted => rfl

namespace Firmware

variable [RegisterBus β] {fw : Firmware β} {image : CodeImage (Routine β)}
  {entries : List DispatchEntry} {config : FirmwareConfig}

/-- Calls the routine that the image holds at the tagged target of a slot, whatever is mapped. -/
def callTarget (fw : Firmware β) (l : Linkage β) (id : SlotId) (param : Option UInt8) :
    Run (Machine β) (Except CallError Unit) :=
  match fw.table.slot? id with
  | none => pure (.error (.unknownSlot id))
  | some slot =>
    match fw.image.get? slot.target with
    | none => Run.giveUp
    | some placed => do
      Run.modify fun s => { s with stats := s.stats.called id }
      farCall (fun _ _ => some (placed.body l)) slot param

/-- The linkage of a firmware of which the calls look up tagged targets. -/
def direct (fw : Firmware β) : Nat → Linkage β
  | 0 => .exhausted fw.config fw.table
  | n + 1 =>
    { config := fw.config
      table := fw.table
      patience := n
      call := fun id param s => fw.callTarget (fw.direct n) id param s
      poll := fun s =>
        match s.irq.next? with
        | none => .done () s
        | some line =>
          (do
            (fw.direct n).serviceInterrupt line
            (fw.direct n).poll : Run (Machine β) Unit) s }

/-- A call of a slot leads to a placed routine: it stands at the tagged target of the slot, and a
call with room for its frame runs it, with the bank of the target mapped. -/
structure LeadsTo (fw : Firmware β) (id : SlotId) (slot : DispatchSlot)
    (placed : Placed (Routine β)) : Prop where
  stands : fw.image.get? slot.target = some placed
  mapped : ∀ param s, placed.Mapped (FarCall.opened (β := β) slot param s)
  entered : ∀ l param s, s.stack.used + 5 ≤ s.stack.capacity →
    fw.callWith l id param s =
      (placed.body l param >>= fun _ =>
          FarCall.restore slot >>= FarCall.conclude s.stack.depth s.window.active)
        (FarCall.opened slot param { s with stats := s.stats.called id })

/-- The routine at the tagged target of a slot is the one that is found with the bank mapped that a
call maps. -/
theorem get?_target (h : link image entries config = .ok fw) {id : SlotId}
    {slot : DispatchSlot} (hslot : fw.table.slot? id = some slot) :
    ∃ placed, placed.addr = slot.target ∧ fw.image.get? slot.target = some placed ∧
      ∀ l caller,
        fw.resolver l slot.target.logical (FarCall.bankOf slot caller) = some (placed.body l) := by
  obtain ⟨-, -, -, htable⟩ := link_eq_ok h
  have hpresent := DispatchTable.present_of_build htable (DispatchTable.mem_of_slot? hslot)
  obtain ⟨placed, hplaced⟩ := Option.isSome_iff_exists.1 hpresent
  have haddr : placed.addr = slot.target := by
    simpa using List.find?_some hplaced
  refine ⟨placed, haddr, hplaced, ?_⟩
  intro l caller
  have hresolve : fw.image.resolve slot.target.logical (FarCall.bankOf slot caller) =
      some placed := by
    rw [CodeImage.resolve, CodeAddr.ofLogical_logical _ slot.target (FarCall.eq_bankOf caller)]
    exact hplaced
  rw [resolver, hresolve, Option.map_some]

omit [RegisterBus β] in
/-- A call of a slot of the table is counted and carried out. -/
theorem callWith_apply {id : SlotId} {slot : DispatchSlot} (hslot : fw.table.slot? id = some slot)
    (l : Linkage β) (param : Option UInt8) (s : Machine β) :
    fw.callWith l id param s =
      farCall (fw.resolver l) slot param { s with stats := s.stats.called id } := by
  unfold callWith
  rw [hslot]
  exact Run.bind_of_done (Run.modify_apply _ s)

theorem leadsTo_target (h : link image entries config = .ok fw) {id : SlotId}
    {slot : DispatchSlot} (hslot : fw.table.slot? id = some slot) :
    ∃ placed, fw.LeadsTo id slot placed := by
  obtain ⟨placed, haddr, hplaced, hresolve⟩ := get?_target h hslot
  refine ⟨placed, hplaced, ?_, ?_⟩
  · intro param s
    apply FarCall.mapped_of_bankOf haddr
    exact Machine.active_mapped s _
  · intro l param s hfits
    let counted : Machine β := { s with stats := s.stats.called id }
    have hfound : fw.resolver l slot.target.logical
        (FarCall.bankOf slot counted.window.active) = some (placed.body l) := hresolve l _
    unfold callWith
    rw [hslot]
    dsimp only
    rw [Run.bind_of_done (Run.modify_apply _ s)]
    exact FarCall.farCall_of_fits (s := counted) hfits hfound

theorem callWith_eq_callTarget (h : link image entries config = .ok fw) (l : Linkage β) :
    fw.callWith l = fw.callTarget l := by
  funext id param s
  unfold callWith callTarget
  cases hslot : fw.table.slot? id with
  | none => rfl
  | some slot =>
    obtain ⟨placed, -, hplaced, hresolve⟩ := get?_target h hslot
    dsimp only
    rw [hplaced]
    dsimp only
    rw [Run.bind_of_done (Run.modify_apply _ s), Run.bind_of_done (Run.modify_apply _ s)]
    exact FarCall.farCall_congr (hresolve l _) rfl

/-- By induction on the bound: the linkages agree on what a call leads to, and so does what is run
there. -/
theorem linkage_eq_direct (h : link image entries config = .ok fw) (n : Nat) :
    fw.linkage n = fw.direct n := by
  induction n with
  | zero => rfl
  | succ n ih =>
    have hcall : fw.callWith (fw.linkage n) = fw.callTarget (fw.direct n) := by
      rw [ih]
      exact callWith_eq_callTarget h (fw.direct n)
    have hpoll : (fw.linkage (n + 1)).poll = (fw.direct (n + 1)).poll := by
      funext s
      rw [poll_linkage, direct]
      dsimp only
      cases s.irq.next? with
      | none => rfl
      | some line =>
        have hserve : ((fw.linkage n).serviceInterrupt line >>= fun _ => (fw.linkage n).poll) =
            (fw.direct n).serviceInterrupt line >>= fun _ => (fw.direct n).poll := by
          rw [ih]
        exact congrFun hserve s
    have hparts := congr (congrArg (Linkage.mk fw.config fw.table n) hcall) hpoll
    exact hparts

theorem resolved_linkage (h : link image entries config = .ok fw) (n : Nat) :
    (fw.linkage n).Resolved := by
  apply Linkage.resolved_of_call
  intro id param s e t hcall
  cases n with
  | zero => cases hcall
  | succ n =>
    change fw.callWith (fw.linkage n) id param s = .done (.error e) t at hcall
    unfold callWith at hcall
    cases hslot : fw.table.slot? id with
    | none =>
      rw [hslot] at hcall
      cases hcall
      rfl
    | some slot =>
      rw [hslot] at hcall
      dsimp only at hcall
      rw [Run.bind_of_done (Run.modify_apply _ s)] at hcall
      obtain ⟨placed, -, -, hresolve⟩ := get?_target h hslot
      exact FarCall.resolved_of_farCall (hresolve _ _) hcall

/-- In a linked firmware, whatever its routines do, every slot of the table leads to the routine
that the image holds at the slot's tagged target, whichever bank is mapped when it is called; calls
that look that routine up are the calls of the firmware, however deep they nest; and no way into a
routine finds nothing, on whatever machine. -/
theorem calls_resolved (h : link image entries config = .ok fw) (n : Nat) :
    (∀ id slot, fw.table.slot? id = some slot → ∃ placed, fw.LeadsTo id slot placed) ∧
      fw.linkage n = fw.direct n ∧ (fw.linkage n).Resolved :=
  ⟨fun _ _ hslot => leadsTo_target h hslot, linkage_eq_direct h n, resolved_linkage h n⟩

/-- The first routine of the relay maps bank 0 and calls the other from there; its call and every
other lead to the tagged targets. -/
theorem calls_resolved_relay :
    (∃ placed, Relay.firmware.LeadsTo .usbInit
        ⟨.usbInit, 0x303, .banked .bank0 0x10, .tailJump⟩ placed) ∧
      Relay.firmware.linkage 3 = Relay.firmware.direct 3 ∧
      (Relay.firmware.linkage 3).Resolved :=
  have h := calls_resolved Relay.link_image 3
  ⟨h.1 .usbInit _ rfl, h.2⟩

end Firmware

end BankedController
