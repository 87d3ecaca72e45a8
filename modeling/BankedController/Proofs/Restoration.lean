import BankedController.Proofs.Interrupts
import BankedController.Proofs.Linked

/-! Every call and every preemption point ends with the bank, the stack and the lines in service
that it began with. The induction on the bound of the linkage carries less: a routine keeps the
stack and the lines in service, and its caller puts the bank back. -/

namespace BankedController

variable {β α : Type}

/-- What a routine does by itself: it works on the bus, maps banks, raises lines, changes the
registers of the interrupt controller, looks at the machine and reports events. The stack and the
lines in service are out of its reach. -/
inductive OwnStep : Steps β
  | bus {α : Type} (m : Run β α) : OwnStep α (Machine.onBus m)
  | selectBank (bank : Bank) : OwnStep Unit (Machine.selectBank bank)
  | raise (line : IrqLine) : OwnStep Unit (Machine.raiseIrq line)
  | enable (mask : UInt8) : OwnStep Unit (Machine.onIrq fun irq => { irq with enable := mask })
  | priority (mask : UInt8) : OwnStep Unit (Machine.onIrq fun irq => { irq with priority := mask })
  | global (on : Bool) : OwnStep Unit (Machine.onIrq fun irq => irq.setGlobal on)
  | look {α : Type} (f : Machine β → α) : OwnStep α (Run.gets f)
  | note (event : Event) : OwnStep Unit (Machine.note event)

/-- What a routine leaves as it was: the stack but for its high-water mark, and the lines in
service. -/
structure Kept (s t : Machine β) : Prop where
  entries : t.stack.entries = s.stack.entries
  used : t.stack.used = s.stack.used
  capacity : t.stack.capacity = s.stack.capacity
  inService : t.irq.inService = s.irq.inService

/-- What a call and a preemption point leave as it was: besides, the bank. -/
structure Restored (s t : Machine β) : Prop extends Kept s t where
  active : t.window.active = s.window.active

theorem Kept.refl (s : Machine β) : Kept s s := ⟨rfl, rfl, rfl, rfl⟩

theorem Kept.trans {s t u : Machine β} (h : Kept s t) (h' : Kept t u) : Kept s u :=
  ⟨h'.entries.trans h.entries, h'.used.trans h.used, h'.capacity.trans h.capacity,
    h'.inService.trans h.inService⟩

theorem tolerates_kept : Tolerates (Kept : Machine β → Machine β → Prop) where
  refl := Kept.refl
  trans := Kept.trans
  failed _ := ⟨rfl, rfl, rfl, rfl⟩
  note _ _ := ⟨rfl, rfl, rfl, rfl⟩
  global _ _ := ⟨rfl, rfl, rfl, rfl⟩

theorem Restored.refl (s : Machine β) : Restored s s := ⟨.refl s, rfl⟩

theorem Restored.trans {s t u : Machine β} (h : Restored s t) (h' : Restored t u) : Restored s u :=
  ⟨h.toKept.trans h'.toKept, h'.active.trans h.active⟩

theorem extends_restored : Extends (Restored : Machine β → Machine β → Prop) :=
  ⟨Restored.refl, Restored.trans⟩

theorem FarCall.Unmoved.restored {s t : Machine β} (h : FarCall.Unmoved s t) : Restored s t :=
  ⟨⟨h.entries, h.used, h.capacity, by rw [h.irq]⟩, h.active⟩

theorem Machine.kept_mapped (s : Machine β) (bank : Bank) : Kept s (s.mapped bank) := by
  have hstack : (s.mapped bank).stack = s.stack := Machine.stack_mapped s bank
  have hirq : (s.mapped bank).irq = s.irq := Machine.irq_mapped s bank
  refine ⟨?_, ?_, ?_, ?_⟩
  · rw [hstack]
  · rw [hstack]
  · rw [hstack]
  · rw [hirq]

theorem Machine.kept_onBus (m : Run β α) : (Machine.onBus m).Keeps Kept := by
  intro s a t h
  obtain ⟨bus, -, rfl⟩ := Machine.onBus_eq_done h
  exact ⟨rfl, rfl, rfl, rfl⟩

theorem OwnStep.kept {m : Run (Machine β) α} (h : OwnStep α m) : m.Keeps Kept := by
  cases h with
  | bus m => exact Machine.kept_onBus m
  | selectBank bank =>
    intro s a t h
    rw [Machine.selectBank_apply] at h
    cases h
    exact Machine.kept_mapped s bank
  | raise line => exact Run.keeps_modify fun _ => ⟨rfl, rfl, rfl, rfl⟩
  | enable mask => exact Run.keeps_modify fun _ => ⟨rfl, rfl, rfl, rfl⟩
  | priority mask => exact Run.keeps_modify fun _ => ⟨rfl, rfl, rfl, rfl⟩
  | global on => exact Run.keeps_modify fun _ => ⟨rfl, rfl, rfl, rfl⟩
  | look f => exact Run.keeps_gets tolerates_kept.toExtends f
  | note event => exact Run.keeps_modify fun _ => ⟨rfl, rfl, rfl, rfl⟩

/-- The steps that routines take by themselves do not count failures. -/
theorem OwnStep.stats {m : Run (Machine β) α} (h : OwnStep α m) {s t : Machine β} {a : α}
    (hrun : m s = .done a t) : t.stats = s.stats := by
  cases h with
  | bus m =>
    obtain ⟨bus, -, rfl⟩ := Machine.onBus_eq_done hrun
    rfl
  | selectBank bank =>
    rw [Machine.selectBank_apply] at hrun
    cases hrun
    exact Machine.stats_mapped s bank
  | raise line => cases hrun; rfl
  | enable mask => cases hrun; rfl
  | priority mask => cases hrun; rfl
  | global on => cases hrun; rfl
  | look f => cases hrun; rfl
  | note event => cases hrun; rfl

section Core

variable [RegisterBus β]

theorem admits_ownStep : Admits (OwnStep : Steps β) CoreWrite where
  note event := .note event
  read addr := .bus (RegisterBus.read addr)
  write addr value _ := .bus (RegisterBus.write addr value)

/-- A composition of such steps keeps what calls and preemption points keep. -/
theorem Composed.kept {m : Linkage β → Run (Machine β) α} (hm : Composed OwnStep m) {l : Linkage β}
    (hl : l.Keeps Kept) : (m l).Keeps Kept :=
  Composed.keeps tolerates_kept.survives (fun _ _ h => h.kept) hl hm

end Core

namespace FarCall

/-- How a call of a slot ends: it succeeds exactly if there is room for its frame. -/
def verdict (slot : DispatchSlot) (s : Machine β) : Except CallError Unit :=
  if s.stack.capacity < s.stack.used + 5 then
    .error (overflow slot s.window.active s.stack)
  else
    .ok ()

/-- The frame of a call comes off again if the routine leaves it on top. -/
theorem restored_of_closed {slot : DispatchSlot} {param : Option UInt8} {s t : Machine β}
    (h : Kept (opened slot param s) t) :
    Restored s (closed slot s.window.active s.stack.entries t) := by
  have hused : t.stack.used = s.stack.used + 5 := by
    rw [h.used]
    rfl
  have hcapacity : t.stack.capacity = s.stack.capacity := h.capacity
  have hservice : t.irq.inService = s.irq.inService := by
    rw [h.inService]
    exact congrArg InterruptController.inService (irq_opened slot param s)
  refine ⟨⟨rfl, ?_, hcapacity, ?_⟩, Machine.active_mapped t s.window.active⟩
  · change t.stack.used - 5 = s.stack.used
    omega
  · refine (congrArg InterruptController.inService ?_).trans hservice
    exact Machine.irq_mapped t s.window.active

/-- The stack that a routine which keeps it returns with. -/
theorem entries_of_kept {slot : DispatchSlot} {param : Option UInt8} {s t : Machine β}
    (h : Kept (opened slot param s) t) :
    t.stack.entries = .returnTo slot.convention.returnSite :: .savedBank s.window.active ::
      .returnTo .caller :: s.stack.entries :=
  h.entries

/-- A call either is refused and moves nothing, or enters the routine and takes its frame off
afterwards. -/
theorem farCall_cases {resolve : Resolver β} {slot : DispatchSlot} {param : Option UInt8}
    {s t : Machine β} {r : Except CallError Unit} {routine : Option UInt8 → Run (Machine β) Unit}
    (hresolve : resolve slot.target.logical (bankOf slot s.window.active) = some routine)
    (hroutine : (routine param).Keeps Kept) (h : farCall resolve slot param s = .done r t) :
    r = verdict slot s ∧
      (r = .error (overflow slot s.window.active s.stack) ∧ Unmoved s t ∨
        r = .ok () ∧ ∃ u, routine param (opened slot param s) = .done () u ∧
          Kept (opened slot param s) u ∧ t = closed slot s.window.active s.stack.entries u) := by
  by_cases hover : s.stack.capacity < s.stack.used + 5
  · obtain ⟨u, hunmoved, hcall⟩ := farCall_of_overflow param hover
    rw [hcall hresolve] at h
    cases h
    exact ⟨(if_pos hover).symm, .inl ⟨rfl, hunmoved⟩⟩
  rw [farCall_of_fits (Nat.le_of_not_lt hover) hresolve] at h
  obtain ⟨_, u, hrun, hrest⟩ := Run.bind_eq_done.1 h
  have hkept : Kept (opened slot param s) u := hroutine _ _ _ hrun
  rw [Run.bind_of_done (restore_of_framed (entries_of_kept hkept))] at hrest
  cases hrest
  exact ⟨(if_neg hover).symm, .inr ⟨rfl, u, hrun, hkept, rfl⟩⟩

end FarCall

namespace InterruptController

theorem deliverable_of_next? {c : InterruptController} {line : IrqLine} (h : c.next? = some line) :
    c.deliverable line = true := by
  have hmem : line ∈ IrqLine.all.filter c.deliverable := by
    unfold next? at h
    dsimp only at h
    split at h
    next found hfound =>
      cases h
      exact List.mem_of_find?_eq_some hfound
    next => exact List.mem_of_head? h
  exact (List.mem_filter.1 hmem).2

theorem pending_of_next? {c : InterruptController} {line : IrqLine} (h : c.next? = some line) :
    c.pending.get line = true := by
  have hdeliverable := deliverable_of_next? h
  unfold deliverable at hdeliverable
  simp only [Bool.and_eq_true] at hdeliverable
  exact hdeliverable.1.1.1.2

/-- The service that was begun last is the one that ends. -/
theorem inService_complete {c : InterruptController} {line : IrqLine} {level : Level}
    {rest : List (IrqLine × Level)} (h : c.inService = (line, level) :: rest) :
    (c.complete line).inService = rest := by
  simp only [complete, h]
  exact List.eraseP_cons_of_pos (by simp)

end InterruptController

namespace Linkage

theorem retired_restores {line : IrqLine} {s t : Machine β} (h : Restored (taken line s) t) :
    Restored s (retired line t) := by
  have hservice : t.irq.inService = (line, s.irq.level line) :: s.irq.inService := h.inService
  exact ⟨⟨h.entries, h.used, h.capacity, InterruptController.inService_complete hservice⟩, h.active⟩

variable [RegisterBus β]

theorem keeps_route {l : Linkage β} (hl : l.Keeps Kept) (line : IrqLine) :
    (l.route line).Keeps Kept :=
  Composed.kept (Composed.route admits_ownStep.service.route line) hl

/-- The machine after the frame of an interrupt came off. -/
def resumed (bank : Bank) (entries : List StackEntry) (s : Machine β) : Machine β :=
  (s.mapped bank).restacked (s.stack.lowered 3 entries)

/-- An interrupt either finds no room for its frame and moves nothing else, or runs its route, which
leaves the frame on top, so that it comes off again. -/
theorem serviceInterrupt_cases {l : Linkage β} (hl : l.Keeps Kept) {line : IrqLine}
    {s t : Machine β} (h : l.serviceInterrupt line s = .done () t) :
    (∃ u, FarCall.Unmoved (taken line s) u ∧ t = retired line u) ∨
      ∃ u, l.route line (interrupted line s) = .done () u ∧ Kept (interrupted line s) u ∧
        t = retired line (resumed s.window.active s.stack.entries u) := by
  by_cases hover : s.stack.capacity < s.stack.used + 3
  · obtain ⟨u, hunmoved, hservice⟩ := serviceInterrupt_of_overflow line hover
    rw [hservice l] at h
    cases h
    exact .inl ⟨u, hunmoved, rfl⟩
  rw [serviceInterrupt_of_fits l line (Nat.le_of_not_lt hover)] at h
  obtain ⟨_, u, hrun, hrest⟩ := Run.bind_eq_done.1 h
  have hkept : Kept (interrupted line s) u := keeps_route hl line _ _ _ hrun
  have hentries : u.stack.entries =
      .savedBank s.window.active :: .returnTo .interrupt :: s.stack.entries := hkept.entries
  rw [Run.bind_of_done (leaveInterrupt_of_framed hentries), retire_ok] at hrest
  cases hrest
  exact .inr ⟨u, hrun, hkept, rfl⟩

theorem serviceInterrupt_restores {l : Linkage β} (hl : l.Keeps Kept) (line : IrqLine) :
    (l.serviceInterrupt line).Keeps Restored := by
  intro s _ t h
  rcases serviceInterrupt_cases hl h with ⟨u, hunmoved, rfl⟩ | ⟨u, -, hkept, rfl⟩
  · exact retired_restores hunmoved.restored
  have hused : u.stack.used = s.stack.used + 3 := hkept.used
  have hirq : (u.mapped s.window.active).irq = u.irq := Machine.irq_mapped u s.window.active
  refine retired_restores ⟨⟨rfl, ?_, hkept.capacity, ?_⟩, ?_⟩
  · change u.stack.used - 3 = s.stack.used
    omega
  · exact (congrArg InterruptController.inService hirq).trans hkept.inService
  · exact Machine.active_mapped u s.window.active

end Linkage

namespace Firmware

variable [RegisterBus β] {fw : Firmware β} {image : CodeImage (Routine β)}
  {entries : List DispatchEntry} {config : FirmwareConfig}

/-- How a call of a slot number ends. -/
def verdict (fw : Firmware β) (id : SlotId) (s : Machine β) : Except CallError Unit :=
  match fw.table.slot? id with
  | none => .error (.unknownSlot id)
  | some slot => FarCall.verdict slot s

/-- A target's routine is found while the bank is mapped that the call maps. -/
theorem resolver_target (h : link image entries config = .ok fw) {id : SlotId}
    {slot : DispatchSlot} (hslot : fw.table.slot? id = some slot) (l : Linkage β) (caller : Bank) :
    ∃ placed ∈ fw.image.routines, placed.addr = slot.target ∧
      fw.resolver l slot.target.logical (FarCall.bankOf slot caller) = some (placed.body l) := by
  obtain ⟨placed, hmem, haddr, hresolve⟩ := resolve_target h hslot (FarCall.eq_bankOf caller)
  refine ⟨placed, hmem, haddr, ?_⟩
  simp only [resolver, hresolve, Option.map_some]

/-- A call of a slot number fails on an unknown slot; otherwise it is counted, and carried out as a
call of the slot's routine. -/
theorem callWith_cases (h : link image entries config = .ok fw)
    (himage : fw.image.ComposedOf OwnStep) {l : Linkage β} (hl : l.Keeps Kept) {id : SlotId}
    {param : Option UInt8} {s t : Machine β} {r : Except CallError Unit}
    (hcall : fw.callWith l id param s = .done r t) :
    fw.table.slot? id = none ∧ r = .error (.unknownSlot id) ∧ t = s ∨
      ∃ slot counted placed, fw.table.slot? id = some slot ∧
        counted = { s with stats := s.stats.called id } ∧ placed ∈ fw.image.routines ∧
        placed.addr = slot.target ∧ r = FarCall.verdict slot counted ∧
        (r = .error (FarCall.overflow slot counted.window.active counted.stack) ∧
            FarCall.Unmoved counted t ∨
          r = .ok () ∧ ∃ u, placed.body l param (FarCall.opened slot param counted) = .done () u ∧
            Kept (FarCall.opened slot param counted) u ∧
            t = FarCall.closed slot counted.window.active counted.stack.entries u) := by
  unfold callWith at hcall
  cases hslot : fw.table.slot? id with
  | none =>
    rw [hslot] at hcall
    cases hcall
    exact .inl ⟨rfl, rfl, rfl⟩
  | some slot =>
    rw [hslot] at hcall
    dsimp only at hcall
    let counted : Machine β := { s with stats := s.stats.called id }
    rw [Run.bind_of_done (Run.modify_apply _ s)] at hcall
    obtain ⟨placed, hmem, haddr, hresolve⟩ := resolver_target h hslot l counted.window.active
    have hroutine : (placed.body l param).Keeps Kept := Composed.kept (himage placed hmem param) hl
    have hfar := FarCall.farCall_cases (s := counted) hresolve hroutine hcall
    exact .inr ⟨slot, counted, placed, rfl, rfl, hmem, haddr, hfar⟩

/-- A call with room for its frame succeeds if the routine ends and leaves the frame on top. -/
theorem callWith_of_fits (h : link image entries config = .ok fw) (l : Linkage β) {id : SlotId}
    {slot : DispatchSlot} (hslot : fw.table.slot? id = some slot) (param : Option UInt8)
    {s : Machine β} (hfits : s.stack.used + 5 ≤ s.stack.capacity) :
    let opened := FarCall.opened slot param { s with stats := s.stats.called id }
    ∃ placed ∈ fw.image.routines, placed.addr = slot.target ∧
      ∀ u, placed.body l param opened = .done () u → Kept opened u →
        fw.callWith l id param s =
          .done (.ok ()) (FarCall.closed slot s.window.active s.stack.entries u) := by
  intro opened
  obtain ⟨placed, hmem, haddr, hresolve⟩ := resolver_target h hslot l s.window.active
  refine ⟨placed, hmem, haddr, fun u hrun hkept => ?_⟩
  unfold callWith
  rw [hslot]
  dsimp only
  let counted : Machine β := { s with stats := s.stats.called id }
  have hcounted : counted.stack.used + 5 ≤ counted.stack.capacity := hfits
  rw [Run.bind_of_done (Run.modify_apply _ s),
    FarCall.farCall_of_fits (s := counted) hcounted hresolve, Run.bind_of_done hrun,
    Run.bind_of_done (FarCall.restore_of_framed (FarCall.entries_of_kept hkept))]
  rfl

/-- A call without room fails, and nothing is moved but its count. -/
theorem callWith_of_overflow (h : link image entries config = .ok fw) (l : Linkage β) {id : SlotId}
    {slot : DispatchSlot} (hslot : fw.table.slot? id = some slot) (param : Option UInt8)
    {s : Machine β} (hover : s.stack.capacity < s.stack.used + 5) :
    ∃ t, fw.callWith l id param s =
        .done (.error (FarCall.overflow slot s.window.active s.stack)) t ∧
      FarCall.Unmoved { s with stats := s.stats.called id } t := by
  obtain ⟨placed, -, -, hresolve⟩ := resolver_target h hslot l s.window.active
  let counted : Machine β := { s with stats := s.stats.called id }
  have hcounted : counted.stack.capacity < counted.stack.used + 5 := hover
  obtain ⟨t, hunmoved, hcall⟩ := @FarCall.farCall_of_overflow _ slot param _ hcounted
  refine ⟨t, ?_, hunmoved⟩
  unfold callWith
  rw [hslot]
  dsimp only
  rw [Run.bind_of_done (Run.modify_apply _ s)]
  exact hcall hresolve

theorem callWith_eq_done (h : link image entries config = .ok fw)
    (himage : fw.image.ComposedOf OwnStep) {l : Linkage β} (hl : l.Keeps Kept) {id : SlotId}
    {param : Option UInt8} {s t : Machine β} {r : Except CallError Unit}
    (hcall : fw.callWith l id param s = .done r t) : r = fw.verdict id s ∧ Restored s t := by
  unfold verdict
  rcases callWith_cases h himage hl hcall with
    ⟨hslot, rfl, rfl⟩ | ⟨slot, counted, placed, hslot, rfl, -, -, hr, hcases⟩
  · rw [hslot]
    exact ⟨rfl, .refl _⟩
  rw [hslot]
  have hcounted : Restored s { s with stats := s.stats.called id } := ⟨⟨rfl, rfl, rfl, rfl⟩, rfl⟩
  refine ⟨hr, hcounted.trans ?_⟩
  rcases hcases with ⟨-, hunmoved⟩ | ⟨-, u, -, hkept, rfl⟩
  · exact hunmoved.restored
  · exact FarCall.restored_of_closed hkept

/-- Calls and preemption points of a linked firmware end as they began. -/
structure Restores (l : Linkage β) : Prop where
  call : ∀ id param, (l.call id param).Keeps Restored
  poll : l.poll.Keeps Restored

omit [RegisterBus β] in
theorem Restores.keeps {l : Linkage β} (h : Restores l) : l.Keeps Kept :=
  ⟨fun id param s r t hrun => (h.call id param s r t hrun).toKept,
    fun s r t hrun => (h.poll s r t hrun).toKept⟩

theorem restores_linkage (h : link image entries config = .ok fw)
    (himage : fw.image.ComposedOf OwnStep) (n : Nat) : Restores (fw.linkage n) := by
  induction n with
  | zero => exact ⟨fun _ _ => Run.keeps_giveUp, Run.keeps_giveUp⟩
  | succ n ih =>
    refine ⟨?_, ?_⟩
    · intro id param s r t hcall
      exact (callWith_eq_done h himage ih.keeps hcall).2
    · intro s _ t hpoll
      rw [poll_linkage] at hpoll
      split at hpoll
      · cases hpoll
        exact .refl s
      next line hline =>
        have hservice := Linkage.serviceInterrupt_restores ih.keeps line
        have hboth := Run.keeps_bind extends_restored hservice fun _ => ih.poll
        exact hboth s _ t hpoll

/-- Every call through a linked firmware that returns has gone as its verdict says. -/
theorem call_eq_done (h : link image entries config = .ok fw)
    (himage : fw.image.ComposedOf OwnStep) {n : Nat} {id : SlotId} {param : Option UInt8}
    {s t : Machine β} {r : Except CallError Unit}
    (hcall : (fw.linkage n).call id param s = .done r t) :
    r = fw.verdict id s ∧ Restored s t := by
  cases n with
  | zero => cases hcall
  | succ n => exact callWith_eq_done h himage (restores_linkage h himage n).keeps hcall

end Firmware

end BankedController
