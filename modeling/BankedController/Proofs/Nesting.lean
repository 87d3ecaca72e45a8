import BankedController.Pass
import BankedController.Proofs.BankInvariant

/-! The stack is at every moment the concatenation of the frames that stand, and the interrupts
among them are the lines in service, in the same order. The invariant ties the two together where
routines are entered, since a line is in service for a moment longer than its frame stands. -/

namespace BankedController

variable {β α : Type}

namespace OpenFrame

/-- The entries of a frame on the stack, the newest first. -/
def entries : OpenFrame → List StackEntry
  | call slot caller =>
    [.returnTo slot.convention.returnSite, .savedBank caller, .returnTo .caller]
  | interrupt _ interrupted => [.savedBank interrupted, .returnTo .interrupt]

/-- The line of the frame of an interrupt. -/
def line? : OpenFrame → Option IrqLine
  | call .. => none
  | interrupt line _ => some line

/-- The number of calls among frames. -/
def calls (frames : List OpenFrame) : Nat :=
  frames.countP fun frame => frame.line?.isNone

/-- The lines of the interrupts among frames, the innermost first. -/
def lines (frames : List OpenFrame) : List IrqLine :=
  frames.filterMap line?

end OpenFrame

/-- What can be in service: nothing, one line at either level, or a high line that was taken above
another line that is low. -/
inductive InService : List (IrqLine × Level) → Prop
  | none : InService []
  | one (line : IrqLine) (level : Level) : InService [(line, level)]
  | two {inner outer : IrqLine} (distinct : inner ≠ outer) :
    InService [(inner, .high), (outer, .low)]

/-- The stack consists of the given frames, fits into internal memory, and holds one interrupt for
every line in service. -/
structure Nested (frames : List OpenFrame) (s : Machine β) : Prop where
  entries : s.stack.entries = frames.flatMap OpenFrame.entries
  used : s.stack.used = 5 * OpenFrame.calls frames + 3 * (OpenFrame.lines frames).length
  fits : s.stack.used ≤ s.stack.capacity
  lines : s.irq.inService.map Prod.fst = OpenFrame.lines frames
  service : InService s.irq.inService

/-- A routine is entered by a call of a slot that leads to it, on a stack that consists of frames. -/
structure Entered (frames : List OpenFrame) (placed : Placed (Routine β)) (s : Machine β) : Prop
    extends Nested frames s where
  interrupts : (OpenFrame.lines frames).length = s.irq.inService.length
  atMostTwo : s.irq.inService.length ≤ 2
  innermost : ∃ slot caller outer, frames = .call slot caller :: outer ∧ placed.addr = slot.target

theorem InService.length_le {list : List (IrqLine × Level)} (h : InService list) :
    list.length ≤ 2 := by
  cases h with
  | none => exact Nat.zero_le 2
  | one line level => exact Nat.le_succ 1
  | two distinct => exact Nat.le_refl 2

/-- A line that can be delivered can be put into service. -/
theorem InService.of_deliverable {c : InterruptController} {line : IrqLine}
    (h : InService c.inService) (hline : c.deliverable line = true) :
    InService ((line, c.level line) :: c.inService) := by
  unfold InterruptController.deliverable at hline
  simp only [Bool.and_eq_true, Bool.not_eq_true'] at hline
  obtain ⟨⟨-, hnew⟩, hrank⟩ := hline
  unfold InterruptController.isInService at hnew
  unfold InterruptController.outranks at hrank
  generalize c.level line = level at hrank ⊢
  generalize c.inService = list at h hnew hrank ⊢
  cases h with
  | none => exact .one line level
  | one outer ceiling =>
    have hdistinct : line ≠ outer := by
      rintro rfl
      simp at hnew
    cases level with
    | low => simp [Level.rank] at hrank
    | high =>
      cases ceiling with
      | low => exact .two hdistinct
      | high => simp [Level.rank] at hrank
  | two distinct => cases level <;> simp [Level.rank] at hrank

namespace Nested

variable {frames : List OpenFrame} {s t : Machine β}

theorem of_empty (hentries : s.stack.entries = []) (hused : s.stack.used = 0)
    (hservice : s.irq.inService = []) : Nested [] s := by
  refine ⟨hentries, hused, ?_, ?_, ?_⟩
  · rw [hused]
    exact Nat.zero_le _
  · rw [hservice]
    rfl
  · rw [hservice]
    exact .none

theorem of_kept (hst : Kept s t) (h : Nested frames s) : Nested frames t := by
  refine ⟨?_, ?_, ?_, ?_, ?_⟩
  · rw [hst.entries, h.entries]
  · rw [hst.used, h.used]
  · rw [hst.used, hst.capacity]
    exact h.fits
  · rw [hst.inService, h.lines]
  · rw [hst.inService]
    exact h.service

theorem opened {slot : DispatchSlot} {param : Option UInt8}
    (hfits : s.stack.used + 5 ≤ s.stack.capacity) (h : Nested frames s) :
    Nested (.call slot s.window.active :: frames) (FarCall.opened slot param s) := by
  have hirq : (FarCall.opened slot param s).irq = s.irq := FarCall.irq_opened slot param s
  have hcalls : OpenFrame.calls (.call slot s.window.active :: frames) =
      OpenFrame.calls frames + 1 := List.countP_cons_of_pos rfl
  have hlines : OpenFrame.lines (.call slot s.window.active :: frames) =
      OpenFrame.lines frames := rfl
  refine ⟨?_, ?_, hfits, ?_, ?_⟩
  · change _ :: _ :: _ :: s.stack.entries = _
    rw [h.entries]
    rfl
  · change s.stack.used + 5 = _
    rw [h.used, hcalls, hlines]
    omega
  · rw [hirq, h.lines, hlines]
  · rw [hirq]
    exact h.service

theorem interrupted {line : IrqLine} (hline : s.irq.next? = some line)
    (hfits : s.stack.used + 3 ≤ s.stack.capacity) (h : Nested frames s) :
    Nested (.interrupt line s.window.active :: frames) (Linkage.interrupted line s) := by
  have hcalls : OpenFrame.calls (.interrupt line s.window.active :: frames) =
      OpenFrame.calls frames := List.countP_cons_of_neg (by simp [OpenFrame.line?])
  have hlines : OpenFrame.lines (.interrupt line s.window.active :: frames) =
      line :: OpenFrame.lines frames := rfl
  have hservice : (Linkage.interrupted line s).irq.inService =
      (line, s.irq.level line) :: s.irq.inService := rfl
  refine ⟨?_, ?_, hfits, ?_, ?_⟩
  · change _ :: _ :: s.stack.entries = _
    rw [h.entries]
    rfl
  · change s.stack.used + 3 = _
    rw [h.used, hcalls, hlines, List.length_cons]
    omega
  · rw [hservice, hlines, List.map_cons, h.lines]
  · rw [hservice]
    exact h.service.of_deliverable (InterruptController.deliverable_of_next? hline)

/-- As many interrupts stand as lines are in service. -/
theorem length_lines (h : Nested frames s) :
    (OpenFrame.lines frames).length = s.irq.inService.length := by
  rw [← h.lines, List.length_map]

theorem entered {slot : DispatchSlot} {caller : Bank} {placed : Placed (Routine β)}
    (haddr : placed.addr = slot.target) (h : Nested (.call slot caller :: frames) s) :
    Entered (.call slot caller :: frames) placed s :=
  ⟨h, h.length_lines, h.service.length_le, slot, caller, frames, rfl, haddr⟩

end Nested

namespace Firmware

variable [RegisterBus β] {fw : Firmware β} {image : CodeImage (Routine β)}
  {entries : List DispatchEntry} {config : FirmwareConfig}

/-- Stops a run that enters a routine with a count of bytes that its frames do not add up to. -/
def countBytes : Hook β := fun frames _ s =>
  if s.stack.used = 5 * OpenFrame.calls frames + 3 * (OpenFrame.lines frames).length then
    .done () s
  else
    .fault .halted s

/-- A program that starts on an empty stack with nothing in service never hears a hook that is
silent wherever the entered routine finds the stack made of the frames that stand. -/
theorem frames_nested (h : link image entries config = .ok fw) (himage : image.ComposedOf OwnStep)
    {hook : Hook β}
    (hsilent : ∀ frames placed s, Entered frames placed s → hook frames placed s = .done () s)
    {program : Linkage β → Run (Machine β) α} (hprogram : Composed OwnStep program) (n : Nat)
    {s : Machine β} (hentries : s.stack.entries = []) (hused : s.stack.used = 0)
    (hservice : s.irq.inService = []) :
    program (fw.watched hook [] n) s = program (fw.linkage n) s := by
  have hfw : fw.image.ComposedOf OwnStep := composedOf_of_link admits_ownStep h himage
  have hunheard : Unheard fw hook Nested := by
    refine ⟨Nested.of_kept, Nested.opened, Nested.interrupted, ?_⟩
    intro frames slot caller placed t haddr _ hnested
    exact hsilent _ placed t (hnested.entered haddr)
  exact watched_apply h hfw hunheard hprogram n (.of_empty hentries hused hservice)

/-- The relay's first routine is run under a hook that counts bytes, and calls its second. -/
theorem frames_nested_relay :
    (Relay.firmware.watched countBytes [] 3).dispatch .hwInit none
        (Relay.firmware.machine RigBus.initial none) =
      (Relay.firmware.linkage 3).dispatch .hwInit none
        (Relay.firmware.machine RigBus.initial none) :=
  frames_nested Relay.link_image Relay.composedOf_image
    (fun _ _ _ hentered => if_pos hentered.used) (.dispatch .hwInit none) 3 rfl rfl rfl

end Firmware

end BankedController
