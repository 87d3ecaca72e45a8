import BankedController.Proofs.ResolvedCalls
import BankedController.Proofs.Watch

namespace BankedController

variable {β : Type}

/-- A call as it stands in a routine that does nothing but call. -/
inductive Invocation where
  /-- A call of which the result is not looked at. -/
  | call (slot : SlotId) (param : Option UInt8)
  | dispatch (slot : SlotId) (param : Option UInt8)

namespace Invocation

def slot : Invocation → SlotId
  | call slot _ => slot
  | dispatch slot _ => slot

def param : Invocation → Option UInt8
  | call _ param => param
  | dispatch _ param => param

def run (l : Linkage β) : Invocation → Run (Machine β) Unit
  | call slot param => do
    let _ ← l.call slot param
  | dispatch slot param => l.dispatch slot param

/-- Makes calls in order. -/
def runAll (l : Linkage β) : List Invocation → Run (Machine β) Unit
  | [] => pure ()
  | i :: rest => do
    i.run l
    runAll l rest

end Invocation

/-- The routine that makes calls in order and does nothing else. -/
def Routine.calling (calls : List Invocation) : Routine β :=
  fun l _ => Invocation.runAll l calls

/-- The calls that the routine of each slot makes. -/
abbrev CallGraph : Type := SlotId → List Invocation

/-- How a call ended. -/
inductive CallEnd where
  | ok
  | overflow
  | other
  deriving DecidableEq

/-- How a call with a result ended. -/
def CallEnd.of : Except CallError Unit → CallEnd
  | .ok () => ok
  | .error (.stackOverflow _ _ _) => overflow
  | .error _ => other

/-- What a monitor is told. The calls from outside are at level 1, the calls that their routines make
at level 2, and so on. -/
inductive CallNote where
  /-- The routine of the slot is about to run. -/
  | entered (level : Nat) (slot : SlotId) (param : Option UInt8)
  /-- The call has ended. -/
  | ended (level : Nat) (slot : SlotId) (param : Option UInt8) (result : CallEnd)
  deriving DecidableEq

/-- The machine after the monitor was told something. -/
def Machine.told (tell : CallNote → β → β) (note : CallNote) (s : Machine β) : Machine β :=
  { s with bus := tell note s.bus }

namespace Firmware

/-- Every slot runs the calls that the graph has for it, and these are calls of slots. -/
structure Calls (fw : Firmware β) (graph : CallGraph) : Prop where
  body : ∀ {id slot placed}, fw.table.slot? id = some slot →
    fw.image.get? slot.target = some placed → placed.body = Routine.calling (graph id)
  known : ∀ {id slot}, fw.table.slot? id = some slot → ∀ i ∈ graph id,
    ∃ inner, fw.table.slot? i.slot = some inner

variable [RegisterBus β]

/-- The linkage of the firmware under a monitor, for calls at a level. -/
def monitored (fw : Firmware β) (tell : CallNote → β → β) : Nat → Nat → Linkage β
  | _, 0 => .exhausted fw.config fw.table
  | level, n + 1 =>
    { config := fw.config
      table := fw.table
      patience := n
      call := fun id param => do
        let entering : Run (Machine β) Unit := Run.modify (Machine.told tell (.entered level id param))
        let result ← (fw.hooked fun _ => entering).callWith (fw.monitored tell (level + 1) n) id param
        Run.modify (Machine.told tell (.ended level id param (.of result)))
        pure result
      poll := fun s =>
        match s.irq.next? with
        | none => .done () s
        | some line =>
          (do
            (fw.monitored tell level n).serviceInterrupt line
            (fw.monitored tell level n).poll : Run (Machine β) Unit) s }

end Firmware

section Steps

variable [RegisterBus β] {fw : Firmware β} {image : CodeImage (Routine β)}
  {entries : List DispatchEntry} {config : FirmwareConfig} {graph : CallGraph}
  {tell : CallNote → β → β} {id : SlotId} {slot : DispatchSlot} {param : Option UInt8}
  {s t u : Machine β} {level n : Nat}

namespace Firmware

omit [RegisterBus β] in
/-- The hooked firmware has the same routine at the target of a slot, with the hook in front. -/
theorem resolver_hooked_target {placed : Placed (Routine β)}
    (hplaced : fw.image.get? slot.target = some placed)
    (before : Placed (Routine β) → Run (Machine β) Unit) (l : Linkage β) (caller : Bank) :
    (fw.hooked before).resolver l slot.target.logical (FarCall.bankOf slot caller) =
      some fun param => before placed >>= fun _ => placed.body l param := by
  have hbank := CodeAddr.ofLogical_logical _ slot.target (FarCall.eq_bankOf caller)
  rw [resolver_hooked, CodeImage.resolve, hbank, hplaced]
  rfl

/-- The machine on which the calls of a slot's routine begin. -/
def begun (tell : CallNote → β → β) (level : Nat) (id : SlotId) (slot : DispatchSlot)
    (param : Option UInt8) (s : Machine β) : Machine β :=
  (FarCall.opened slot param { s with stats := s.stats.called id }).told tell
    (.entered level id param)

/-- A call with room for its frame makes the calls of the slot. -/
theorem monitored_call_of_fits (h : link image entries config = .ok fw) (hcalls : fw.Calls graph)
    (hslot : fw.table.slot? id = some slot) (hfits : s.stack.used + 5 ≤ s.stack.capacity)
    (hrun : Invocation.runAll (fw.monitored tell (level + 1) n) (graph id)
      (begun tell level id slot param s) = .done () u)
    (hkept : Kept (begun tell level id slot param s) u) :
    (fw.monitored tell level (n + 1)).call id param s = .done (.ok ())
      ((FarCall.closed slot s.window.active s.stack.entries u).told tell
        (.ended level id param .ok)) := by
  obtain ⟨placed, -, hplaced, -⟩ := get?_target h hslot
  let counted : Machine β := { s with stats := s.stats.called id }
  let l := fw.monitored tell (level + 1) n
  let entering : Run (Machine β) Unit := Run.modify (Machine.told tell (.entered level id param))
  have hresolve : (fw.hooked fun _ => entering).resolver l slot.target.logical
      (FarCall.bankOf slot counted.window.active) = _ :=
    resolver_hooked_target hplaced (fun _ => entering) l s.window.active
  have hcounted : counted.stack.used + 5 ≤ counted.stack.capacity := hfits
  have hbody : placed.body l param ((FarCall.opened slot param counted).told tell
      (.entered level id param)) = .done () u := by
    rw [hcalls.body hslot hplaced]
    exact hrun
  have hopened : Kept (FarCall.opened slot param counted) u :=
    ⟨hkept.entries, hkept.used, hkept.capacity, hkept.inService⟩
  have hcall : (fw.hooked fun _ => entering).callWith l id param s =
      .done (.ok ()) (FarCall.closed slot s.window.active s.stack.entries u) := by
    have hsame : (fw.hooked fun _ => entering).table.slot? id = some slot := hslot
    refine (callWith_apply hsame l param s).trans ?_
    refine (FarCall.farCall_of_fits hcounted hresolve).trans ?_
    rw [bind_assoc, Run.bind_of_done (Run.modify_apply _ _), Run.bind_of_done hbody,
      Run.bind_of_done (FarCall.restore_of_framed (FarCall.entries_of_kept hopened))]
    rfl
  exact (Run.bind_of_done hcall).trans rfl

/-- A call without room for its frame is refused. -/
theorem monitored_call_of_overflow (tell : CallNote → β → β) (level n : Nat) (param : Option UInt8)
    (h : link image entries config = .ok fw) (hslot : fw.table.slot? id = some slot)
    (hover : s.stack.capacity < s.stack.used + 5) :
    (fw.monitored tell level (n + 1)).call id param s =
      .done (.error (FarCall.overflow slot s.window.active s.stack))
        ((FarCall.refused slot { s with stats := s.stats.called id }).told tell
          (.ended level id param .overflow)) := by
  obtain ⟨placed, -, hplaced, -⟩ := get?_target h hslot
  let counted : Machine β := { s with stats := s.stats.called id }
  let l := fw.monitored tell (level + 1) n
  let entering : Run (Machine β) Unit := Run.modify (Machine.told tell (.entered level id param))
  have hresolve := resolver_hooked_target hplaced (fun _ => entering) l counted.window.active
  have hcounted : counted.stack.capacity < counted.stack.used + 5 := hover
  have hsame : (fw.hooked fun _ => entering).table.slot? id = some slot := hslot
  have hcall : (fw.hooked fun _ => entering).callWith l id param s =
      .done (.error (FarCall.overflow slot s.window.active s.stack)) (FarCall.refused slot counted) :=
    (callWith_apply hsame l param s).trans (FarCall.farCall_refused param hcounted hresolve)
  have hend : CallEnd.of (.error (FarCall.overflow slot s.window.active s.stack)) = .overflow := by
    unfold FarCall.overflow
    split
    · rfl
    · split
      · rfl
      · rfl
  refine (Run.bind_of_done hcall).trans ?_
  rw [hend]
  rfl

omit [RegisterBus β] in
theorem hooked_silent (fw : Firmware β) : (fw.hooked fun _ => pure ()) = fw := by
  obtain ⟨config, table, ⟨routines⟩⟩ := fw
  unfold hooked CodeImage.map
  simp only [pure_bind, Firmware.mk.injEq, CodeImage.mk.injEq, true_and]
  exact List.map_id' routines

/-- A monitor that keeps nothing makes no difference. -/
theorem monitored_silent (fw : Firmware β) (level n : Nat) :
    fw.monitored (fun _ bus => bus) level n = fw.linkage n := by
  induction n generalizing level with
  | zero => rfl
  | succ n ih =>
    have hcall : (fw.monitored (fun _ bus => bus) level (n + 1)).call =
        (fw.linkage (n + 1)).call := by
      funext id param
      have hhooked : (fw.hooked fun _ => pure ()).callWith (fw.linkage n) id param =
          fw.callWith (fw.linkage n) id param := by
        rw [hooked_silent]
      calc (fw.monitored (fun _ bus => bus) level (n + 1)).call id param
          = (fw.hooked fun _ => pure ()).callWith (fw.monitored (fun _ bus => bus) (level + 1) n)
              id param >>= pure := rfl
        _ = fw.callWith (fw.linkage n) id param := by rw [bind_pure, ih, hhooked]
    have hpoll : (fw.monitored (fun _ bus => bus) level (n + 1)).poll =
        (fw.linkage (n + 1)).poll := by
      funext s
      rw [poll_linkage, ← ih level]
      rfl
    have hparts := congr (congrArg (Linkage.mk fw.config fw.table n) hcall) hpoll
    exact hparts

end Firmware

end Steps

end BankedController
