import BankedController.Firmware
import BankedController.Proofs.FarCalls

namespace BankedController

variable {β : Type}

namespace Linkage

/-- The machine that has acknowledged a line. -/
def taken (line : IrqLine) (s : Machine β) : Machine β :=
  { s with irq := s.irq.acknowledge line }.noted
    (.interruptEntry line s.window.active s.stack.depth)

/-- The machine on which a line's route runs. -/
def interrupted (line : IrqLine) (s : Machine β) : Machine β :=
  (taken line s).restacked
    ((s.stack.pushed (.returnTo .interrupt)).pushed (.savedBank s.window.active))

theorem leaveInterrupt_of_framed {bank : Bank} {entries : List StackEntry} {s : Machine β}
    (h : s.stack.entries = .savedBank bank :: .returnTo .interrupt :: entries) :
    leaveInterrupt s =
      .done (.ok ()) ((s.mapped bank).restacked (s.stack.lowered 3 entries)) := by
  unfold leaveInterrupt
  rw [Run.bind_of_done (Machine.popBank_apply h)]
  dsimp only
  rw [Run.bind_of_done (Machine.selectBank_apply _ bank)]
  refine (Machine.popExpect_apply (show _ = _ :: entries from ?_)).trans ?_
  · simp only [Machine.restacked_mapped]
    rfl
  · simp only [Machine.restacked_mapped]
    rfl

/-- The machine that has ended the service of a line. -/
def retired (line : IrqLine) (s : Machine β) : Machine β :=
  { s with irq := s.irq.complete line }.noted (.interruptExit line)

theorem retire_ok (line : IrqLine) (depth : Nat) (bank : Bank) (s : Machine β) :
    retire line depth bank (.ok ()) s = .done () (retired line s) := rfl

theorem retire_error (line : IrqLine) (depth : Nat) (bank : Bank) (e : CallError) {s t : Machine β}
    (h : FarCall.unwind depth bank (s.noted (.frameCorrupted line e)) = .done () t) :
    retire line depth bank (.error e) s = .done () (retired line t) := by
  unfold retire
  dsimp only
  rw [Run.bind_of_done (Machine.note_apply _ s), Run.bind_of_done h]
  rfl

/-- The error of the first entry of an interrupt's frame for which there is no room. -/
def overflow (caller : Bank) (stack : CallStack) : CallError :=
  if stack.capacity < stack.used + 2 then
    .stackOverflow (.returnTo .interrupt) stack.used stack.capacity
  else .stackOverflow (.savedBank caller) (stack.used + 2) stack.capacity

/-- The machine with as much of the frame of an interrupt as fits. -/
def attempted (line : IrqLine) (s : Machine β) : Machine β :=
  if s.stack.capacity < s.stack.used + 2 then taken line s
  else (taken line s).restacked (s.stack.pushed (.returnTo .interrupt))

/-- The machine after an interrupt for which there was no room. -/
def refused (line : IrqLine) (s : Machine β) : Machine β :=
  let reported := (attempted line s).noted (.frameCorrupted line (overflow s.window.active s.stack))
  retired line (FarCall.unwound s.stack.depth s.window.active reported)

/-- What was pushed before the overflow is unwound by the end of the service. -/
theorem unmoved_attempted (line : IrqLine) (s : Machine β) (event : Event) :
    FarCall.Unmoved (taken line s)
      (FarCall.unwound s.stack.depth s.window.active ((attempted line s).noted event)) := by
  unfold attempted
  split
  · exact @FarCall.unmoved_unwound _ (taken line s) ((taken line s).noted event) []
      rfl rfl rfl rfl rfl rfl
  · let first := (taken line s).restacked (s.stack.pushed (.returnTo .interrupt))
    exact @FarCall.unmoved_unwound _ (taken line s) (first.noted event) [.returnTo .interrupt]
      rfl rfl rfl rfl rfl rfl

variable [RegisterBus β]

theorem serviceInterrupt_apply (l : Linkage β) (line : IrqLine) (s : Machine β) :
    l.serviceInterrupt line s = (l.interruptFrame line s.window.active >>=
      retire line s.stack.depth s.window.active) (taken line s) := rfl

theorem interruptFrame_of_fits (l : Linkage β) (line : IrqLine) {s : Machine β}
    (hfits : s.stack.used + 3 ≤ s.stack.capacity) (bank : Bank) :
    l.interruptFrame line bank s = (l.route line >>= fun _ => leaveInterrupt)
      (s.restacked ((s.stack.pushed (.returnTo .interrupt)).pushed (.savedBank bank))) := by
  unfold interruptFrame
  rw [Run.bind_of_done (Machine.push_apply_fits (by simp only [StackEntry.size]; omega))]
  dsimp only
  rw [Run.bind_of_done (Machine.push_apply_fits
    (by simp only [Machine.stack_restacked, CallStack.pushed, StackEntry.size]; omega))]
  rfl

/-- The frame fits: the route runs on the interrupted machine, and its frame comes off
afterwards. -/
theorem serviceInterrupt_of_fits (l : Linkage β) (line : IrqLine) {s : Machine β}
    (hfits : s.stack.used + 3 ≤ s.stack.capacity) :
    l.serviceInterrupt line s = (l.route line >>= fun _ =>
      leaveInterrupt >>= retire line s.stack.depth s.window.active) (interrupted line s) := by
  have hframe := interruptFrame_of_fits l line (s := taken line s) hfits
  rw [serviceInterrupt_apply, Run.bind_apply, hframe, ← Run.bind_apply, bind_assoc]
  rfl

theorem interruptFrame_refused (l : Linkage β) {line : IrqLine} {s : Machine β}
    (hover : s.stack.capacity < s.stack.used + 3) :
    l.interruptFrame line s.window.active (taken line s) =
      .done (.error (overflow s.window.active s.stack)) (attempted line s) := by
  unfold overflow attempted interruptFrame
  by_cases hreturn : s.stack.capacity < s.stack.used + 2
  · have hpush : Machine.push (.returnTo .interrupt) (taken line s) = .done (.error _) _ :=
      Machine.push_apply_overflows hreturn
    rw [if_pos hreturn, if_pos hreturn, Run.bind_of_done hpush]
    rfl
  let first := (taken line s).restacked (s.stack.pushed (.returnTo .interrupt))
  have hfirst : Machine.push (.returnTo .interrupt) (taken line s) = .done (.ok ()) first :=
    Machine.push_apply_fits (s := taken line s) (Nat.le_of_not_lt hreturn)
  have hpush : Machine.push (.savedBank s.window.active) first = .done (.error _) _ :=
    Machine.push_apply_overflows hover
  rw [if_neg hreturn, if_neg hreturn, Run.bind_of_done hfirst]
  dsimp only
  rw [Run.bind_of_done hpush]
  rfl

theorem serviceInterrupt_refused (l : Linkage β) (line : IrqLine) {s : Machine β}
    (hover : s.stack.capacity < s.stack.used + 3) :
    l.serviceInterrupt line s = .done () (refused line s) := by
  rw [serviceInterrupt_apply, Run.bind_of_done (interruptFrame_refused l hover)]
  exact retire_error line _ _ _ (FarCall.unwind_apply ..)

/-- There is no room for the frame: the line is acknowledged and its service ends at once. -/
theorem serviceInterrupt_of_overflow (line : IrqLine) {s : Machine β}
    (hover : s.stack.capacity < s.stack.used + 3) :
    ∃ t, FarCall.Unmoved (taken line s) t ∧
      ∀ l : Linkage β, l.serviceInterrupt line s = .done () (retired line t) :=
  ⟨_, unmoved_attempted line s _, fun l => serviceInterrupt_refused l line hover⟩

end Linkage

end BankedController
