import BankedController.Proofs.Linked

namespace BankedController

variable {β α : Type}

/-- A class of runs that has the bookkeeping of calls. -/
structure CallKeeping (P : Steps β) : Prop extends Sequential P where
  stack : ∀ {α : Type} (f : CallStack → α × CallStack), P α (Machine.onStack f)
  select : ∀ bank, P Unit (Machine.selectBank bank)
  count : ∀ f : DispatchStats → DispatchStats,
    P Unit (Run.modify fun s => { s with stats := f s.stats })
  note : ∀ event, P Unit (Machine.note event)
  look : ∀ {α : Type} (f : Bank → CallStack → InterruptController → α),
    P α (Run.gets fun s => f s.window.active s.stack s.irq)

/-- A class of runs that has the bookkeeping of calls and interrupts. -/
structure Bookkeeping (P : Steps β) : Prop extends CallKeeping P where
  irq : ∀ f, P Unit (Machine.onIrq f)

/-- The class of all runs. -/
theorem bookkeeping_all : Bookkeeping (fun _ _ => True : Steps β) := by
  refine ⟨⟨⟨?_, ?_, ?_⟩, ?_, ?_, ?_, ?_, ?_⟩, ?_⟩ <;> intros <;> trivial

/-- The frame of an interrupt and the route of its line, and what is done about a frame that did not
come off. -/
def Linkage.serve [RegisterBus β] (l : Linkage β) (line : IrqLine) : Run (Machine β) Unit := do
  let depth ← Run.gets fun s => s.stack.depth
  let bank ← Run.gets fun s => s.window.active
  Machine.note (.interruptEntry line bank depth)
  match ← l.interruptFrame line bank with
  | .ok () => pure ()
  | .error e =>
    Machine.note (.frameCorrupted line e)
    FarCall.unwind depth bank

/-- Between its start and its end, the service of an interrupt leaves the controller to the
route. -/
theorem Linkage.serviceInterrupt_eq [RegisterBus β] (l : Linkage β) (line : IrqLine) :
    l.serviceInterrupt line = (do
      Machine.onIrq fun irq => irq.acknowledge line
      l.serve line
      Machine.onIrq fun irq => irq.complete line
      Machine.note (.interruptExit line)) := by
  unfold serviceInterrupt serve
  simp only [bind_assoc]
  refine congrArg (Machine.onIrq _ >>= ·) (funext fun _ => ?_)
  refine congrArg (Run.gets _ >>= ·) (funext fun depth => ?_)
  refine congrArg (Run.gets _ >>= ·) (funext fun bank => ?_)
  refine congrArg (Machine.note _ >>= ·) (funext fun _ => ?_)
  refine congrArg (l.interruptFrame line bank >>= ·) (funext fun result => ?_)
  cases result with
  | ok => rfl
  | error e => simp only [retire, bind_assoc]

namespace CallKeeping

/-- The bookkeeping of calls leaves the bus and the interrupt controller as they are. -/
theorem of_still {R : Machine β → Machine β → Prop} (hR : Extends R)
    (h : ∀ {s t}, t.bus = s.bus → t.irq = s.irq → R s t) : CallKeeping (Keeping R) where
  toSequential := hR.sequential
  stack f := by
    rintro s a t ⟨⟩
    exact h rfl rfl
  select bank := by
    intro s a t hrun
    unfold Machine.selectBank at hrun
    split at hrun
    · cases hrun
      exact h rfl rfl
    · cases hrun
      exact h rfl rfl
  count f := Run.keeps_modify fun s => h rfl rfl
  note event := Run.keeps_modify fun s => h rfl rfl
  look f := Run.keeps_gets hR _

variable {P : Steps β} (hP : CallKeeping P)

include hP

theorem carries (hcritical : ∀ {α : Type} (body : Run (Machine β) α), P α body →
    P α (Machine.critical body)) : Carries P where
  toSequential := hP.toSequential
  failed := hP.count DispatchStats.failed
  note := hP.note
  critical := hcritical

theorem restore (slot : DispatchSlot) : P _ (FarCall.restore slot) := by
  refine hP.sequence (hP.stack _) fun popped => ?_
  cases popped with
  | error e => exact hP.done _
  | ok =>
    refine hP.sequence (hP.stack _) fun saved => ?_
    cases saved with
    | error e => exact hP.done _
    | ok bank =>
      refine hP.sequence (hP.select bank) fun _ => ?_
      exact hP.sequence (hP.note _) fun _ => hP.stack _

theorem unwind (depth : Nat) (caller : Bank) : P _ (FarCall.unwind depth caller) :=
  hP.sequence (hP.stack fun stack => ((), stack.truncate depth)) fun _ => hP.select caller

theorem mapTarget (slot : DispatchSlot) : P _ (FarCall.mapTarget slot) := by
  unfold FarCall.mapTarget
  cases slot.target.bank? with
  | some bank => exact hP.select bank
  | none => exact hP.done _

theorem leaveInterrupt : P _ Linkage.leaveInterrupt := by
  refine hP.sequence (hP.stack _) fun saved => ?_
  cases saved with
  | error e => exact hP.done _
  | ok bank => exact hP.sequence (hP.select bank) fun _ => hP.stack _

theorem serve [RegisterBus β] {l : Linkage β} {line : IrqLine} (hroute : P Unit (l.route line)) :
    P _ (l.serve line) := by
  have hframe (bank : Bank) : P _ (l.interruptFrame line bank) := by
    refine hP.sequence (hP.stack _) fun pushed => ?_
    cases pushed with
    | error e => exact hP.done _
    | ok =>
      refine hP.sequence (hP.stack _) fun saved => ?_
      cases saved with
      | error e => exact hP.done _
      | ok => exact hP.sequence hroute fun _ => hP.leaveInterrupt
  refine hP.sequence (hP.look fun _ stack _ => stack.depth) fun depth => ?_
  refine hP.sequence (hP.look fun bank _ _ => bank) fun bank => ?_
  refine hP.sequence (hP.note _) fun _ => ?_
  refine hP.sequence (hframe bank) fun result => ?_
  cases result with
  | ok => exact hP.done _
  | error e => exact hP.sequence (hP.note _) fun _ => hP.unwind depth bank

section Calls

variable {resolve : Resolver β} {slot : DispatchSlot} {param : Option UInt8}
  (hresolve : ∀ active routine, resolve slot.target.logical active = some routine →
    P Unit (routine param))

include hresolve

theorem land : P _ (FarCall.land resolve slot param) := by
  refine hP.sequence (hP.look fun bank _ _ => bank) fun active => ?_
  cases hfound : resolve slot.target.logical active with
  | none => exact hP.done _
  | some routine =>
    refine hP.sequence (hP.stack _) fun pushed => ?_
    cases pushed with
    | error e => exact hP.done _
    | ok =>
      refine hP.sequence (hP.look fun _ stack _ => stack.depth) fun depth => ?_
      refine hP.sequence (hP.note _) fun _ => ?_
      refine hP.sequence (hresolve active routine hfound) fun _ => ?_
      exact hP.restore slot

theorem enter (caller : Bank) : P _ (FarCall.enter resolve slot param caller) := by
  refine hP.sequence (hP.stack _) fun pushed => ?_
  cases pushed with
  | error e => exact hP.done _
  | ok =>
    refine hP.sequence (hP.stack _) fun saved => ?_
    cases saved with
    | error e => exact hP.done _
    | ok =>
      refine hP.sequence (hP.mapTarget slot) fun _ => ?_
      exact hP.land hresolve

/-- A call is in the class if the routine is that it may find. -/
theorem farCall : P _ (BankedController.farCall resolve slot param) := by
  refine hP.sequence (hP.look fun _ stack _ => stack.depth) fun depth => ?_
  refine hP.sequence (hP.look fun bank _ _ => bank) fun caller => ?_
  refine hP.sequence (hP.enter hresolve caller) fun result => ?_
  cases result with
  | ok => exact hP.done _
  | error e => exact hP.sequence (hP.unwind depth caller) fun _ => hP.done _

end Calls

section Firmware

variable {fw : Firmware β}

/-- A call is in the class if the routines are that may be found at the target of its slot. -/
theorem callFound {l : Linkage β} {id : SlotId} {param : Option UInt8}
    (hfound : ∀ slot, fw.table.slot? id = some slot → ∀ active placed,
      fw.image.resolve slot.target.logical active = some placed → P Unit (placed.body l param)) :
    P _ (fw.callWith l id param) := by
  unfold Firmware.callWith
  cases hslot : fw.table.slot? id with
  | none => exact hP.done _
  | some slot =>
    refine hP.sequence (hP.count fun stats => stats.called id) fun _ => hP.farCall ?_
    intro active routine hresolve
    obtain ⟨placed, hplaced, rfl⟩ := Option.map_eq_some_iff.1 hresolve
    exact hfound slot hslot active placed hplaced

variable [RegisterBus β] {Q : Steps β} (hQ : ∀ α m, Q α m → P α m)
  (hcritical : ∀ {α : Type} (body : Run (Machine β) α), P α body → P α (Machine.critical body))

include hQ hcritical

theorem callWith (himage : fw.image.ComposedOf Q) {l : Linkage β} (hl : l.Within P) (id : SlotId)
    (param : Option UInt8) : P _ (fw.callWith l id param) := by
  refine hP.callFound fun slot _ active placed hplaced => ?_
  exact Composed.within (hP.carries hcritical) hQ hl
    (himage placed (CodeImage.mem_of_resolve hplaced) param)

/-- A class with the bookkeeping, critical sections and the own steps of the routines has every call
and every preemption point, if it has the service of an interrupt with its route. -/
theorem linkage (hservice : ∀ (l : Linkage β) line, P Unit (l.route line) →
      P Unit (l.serviceInterrupt line)) (hroute : Admits Q RouteWrite)
    (himage : fw.image.ComposedOf Q) (n : Nat) : (fw.linkage n).Within P := by
  induction n with
  | zero => exact ⟨fun _ _ => hP.giveUp, hP.giveUp⟩
  | succ n ih =>
    refine ⟨fun id param => hP.callWith hQ hcritical himage ih id param, ?_⟩
    have hpoll : (fw.linkage (n + 1)).poll = Run.gets (fun s => s.irq.next?) >>= fun found =>
        found.elim (pure ()) fun line =>
          (fw.linkage n).serviceInterrupt line >>= fun _ => (fw.linkage n).poll := by
      funext s
      rw [Firmware.poll_linkage]
      refine Eq.trans ?_ (Run.bind_of_done (Run.gets_apply _ s)).symm
      cases s.irq.next? with
      | none => rfl
      | some line => rfl
    rw [hpoll]
    refine hP.sequence (hP.look fun _ _ irq => irq.next?) fun found => ?_
    cases found with
    | none => exact hP.done _
    | some line =>
      have hserved : P Unit ((fw.linkage n).route line) :=
        Composed.within (hP.carries hcritical) hQ ih (Composed.route hroute line)
      exact hP.sequence (hservice _ line hserved) fun _ => ih.poll

end Firmware

end CallKeeping

namespace Bookkeeping

variable {P : Steps β} (hP : Bookkeeping P)

include hP

/-- Critical sections are bookkeeping around what they enclose. -/
theorem critical {α : Type} (body : Run (Machine β) α) (h : P α body) :
    P α (Machine.critical body) := by
  refine hP.sequence (hP.look fun _ _ irq => irq.globallyEnabled) fun enabled => ?_
  refine hP.sequence (hP.irq _) fun _ => ?_
  refine hP.sequence h fun a => ?_
  exact hP.sequence (hP.irq _) fun _ => hP.done a

theorem carries : Carries P := hP.toCallKeeping.carries hP.critical

variable [RegisterBus β]

theorem serviceInterrupt {l : Linkage β} (line : IrqLine) (hroute : P Unit (l.route line)) :
    P _ (l.serviceInterrupt line) := by
  rw [Linkage.serviceInterrupt_eq]
  refine hP.sequence (hP.irq _) fun _ => ?_
  refine hP.sequence (hP.serve hroute) fun _ => ?_
  exact hP.sequence (hP.irq _) fun _ => hP.note _

variable {fw : Firmware β} {Q : Steps β} (hQ : ∀ α m, Q α m → P α m)

include hQ

/-- A class with the bookkeeping and the own steps of the routines has every call and every
preemption point. -/
theorem linkage (hroute : Admits Q RouteWrite) (himage : fw.image.ComposedOf Q) (n : Nat) :
    (fw.linkage n).Within P :=
  hP.toCallKeeping.linkage hQ hP.critical (fun _ line => hP.serviceInterrupt line) hroute himage n

end Bookkeeping

end BankedController
