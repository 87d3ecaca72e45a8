import BankedController.Proofs.Watch
import BankedController.Rig

namespace BankedController

variable {β : Type}

/-- The error of a call that was refused before anything ran. -/
inductive CallError.Refusal : CallError → Prop
  | unknownSlot (slot : SlotId) : Refusal (.unknownSlot slot)
  | unknownStub (addr : UInt16) : Refusal (.unknownStub addr)
  | stackOverflow (entry : StackEntry) (used capacity : Nat) :
    Refusal (.stackOverflow entry used capacity)

/-- A call that returns has restored the bank and the stack, and if it failed it was refused. -/
def CallRestores (m : Run (Machine β) (Except CallError Unit)) : Prop :=
  ∀ s r t, m s = .done r t → Restored s t ∧ ∀ e, r = .error e → e.Refusal

/-- All ways into other routines restore the bank and the stack. -/
structure Linkage.RestoresBanks (l : Linkage β) : Prop where
  call : ∀ id param, CallRestores (l.call id param)
  callStub : ∀ addr param, CallRestores (l.callStub addr param)
  dispatch : ∀ id param, (l.dispatch id param).Keeps Restored
  poll : l.poll.Keeps Restored

/-- The machine has the bank mapped at which a routine stands. Common code stands in every bank. -/
def Placed.Mapped (placed : Placed (Routine β)) (s : Machine β) : Prop :=
  ∀ bank, placed.addr.bank? = some bank → s.window.active = bank

namespace FarCall

theorem refusal_of_verdict {slot : DispatchSlot} {s : Machine β} {e : CallError}
    (h : verdict slot s = .error e) : e.Refusal := by
  unfold verdict at h
  split at h
  · cases h
    unfold overflow
    split
    · exact .stackOverflow ..
    · split
      · exact .stackOverflow ..
      · exact .stackOverflow ..
  · cases h

/-- The bank that a call maps is the bank of its target. -/
theorem mapped_of_bankOf {slot : DispatchSlot} {caller : Bank} {placed : Placed (Routine β)}
    {s : Machine β} (haddr : placed.addr = slot.target)
    (hactive : s.window.active = bankOf slot caller) : placed.Mapped s := by
  intro bank hbank
  rw [haddr] at hbank
  rw [hactive, bankOf, hbank, Option.getD_some]

end FarCall

namespace Relay

/-- The routine that is called last: it takes a preemption point and maps bank 1. -/
def answer : Routine RigBus := fun l _ => do
  l.poll
  Machine.selectBank .bank1

/-- The routine that is called first. -/
def ask : Routine RigBus := fun l _ => do
  Machine.selectBank .bank0
  l.dispatch .usbInit none

def image : CodeImage (Routine RigBus) :=
  ⟨[⟨"answer", .banked .bank0 0x10, answer⟩, ⟨"ask", .banked .bank1 0x20, ask⟩]⟩

def entries : List DispatchEntry :=
  [⟨.hwInit, .bank1, 0x8020, .callReturn⟩, ⟨.usbInit, .bank0, 0x8010, .tailJump⟩]

/-- Two routines. One stands in bank 1, maps bank 0 and calls the other, which is reached by a jump
into bank 0. -/
def firmware : Firmware RigBus where
  config := .standard
  table := ⟨entries.map DispatchTable.slotOf⟩
  image := image

theorem link_image : Firmware.link image entries .standard = .ok firmware := rfl

theorem composedOf_image : image.ComposedOf OwnStep := by
  have hanswer : answer.ComposedOf OwnStep :=
    fun _ => Composed.followed .poll (.step _ (.selectBank _))
  have hask : ask.ComposedOf OwnStep :=
    fun _ => Composed.followed (.step _ (.selectBank _)) (.dispatch _ _)
  intro placed hplaced
  simp only [image, List.mem_cons, List.not_mem_nil, or_false] at hplaced
  rcases hplaced with rfl | rfl
  · exact hanswer
  · exact hask

end Relay

namespace Firmware

section Linked

variable [RegisterBus β] {fw : Firmware β} {image : CodeImage (Routine β)}
  {entries : List DispatchEntry} {config : FirmwareConfig}

omit [RegisterBus β] in
theorem refusal_of_verdict {id : SlotId} {s : Machine β} {e : CallError}
    (h : fw.verdict id s = .error e) : e.Refusal := by
  unfold verdict at h
  split at h
  · cases h
    exact .unknownSlot id
  · exact FarCall.refusal_of_verdict h

theorem restoresBanks_linkage (h : link image entries config = .ok fw)
    (himage : fw.image.ComposedOf OwnStep) (n : Nat) : (fw.linkage n).RestoresBanks := by
  have hrestores : Restores (fw.linkage n) := restores_linkage h himage n
  have hcall : ∀ id param, CallRestores ((fw.linkage n).call id param) := by
    intro id param s r t hrun
    obtain ⟨hr, hrestored⟩ := call_eq_done h himage hrun
    refine ⟨hrestored, ?_⟩
    intro e he
    exact refusal_of_verdict (hr.symm.trans he)
  refine ⟨hcall, ?_, ?_, hrestores.poll⟩
  · intro addr param s r t hrun
    unfold Linkage.callStub at hrun
    cases hstub : (fw.linkage n).table.atStub? addr with
    | none =>
      rw [hstub] at hrun
      cases hrun
      refine ⟨.refl s, ?_⟩
      intro e he
      cases he
      exact .unknownStub addr
    | some slot =>
      rw [hstub] at hrun
      exact hcall slot.id param s r t hrun
  · intro id param
    refine Run.keeps_bind extends_restored (hrestores.call id param) fun result => ?_
    cases result with
    | ok => exact Run.keeps_pure extends_restored _
    | error e =>
      have hcount : ∀ s : Machine β, Restored s { s with stats := s.stats.failed } :=
        fun s => ⟨⟨rfl, rfl, rfl, rfl⟩, rfl⟩
      have hnote : ∀ s : Machine β, Restored s (s.noted (.dispatchFailed id e)) :=
        fun s => ⟨⟨rfl, rfl, rfl, rfl⟩, rfl⟩
      exact Run.keeps_bind extends_restored (Run.keeps_modify hcount) fun _ =>
        Run.keeps_modify hnote

/-- In every linked firmware, calls, dispatches and preemption points restore the bank and the
stack, and a check at the entry of every routine that is silent where the routine's bank is mapped
is never heard. -/
theorem bank_invariant (h : link image entries config = .ok fw)
    (himage : image.ComposedOf OwnStep) (n : Nat) :
    (fw.linkage n).RestoresBanks ∧
      ∀ check : Placed (Routine β) → Run (Machine β) Unit,
        (∀ placed s, placed.Mapped s → check placed s = .done () s) →
        ∀ {α : Type} (m : Linkage β → Run (Machine β) α), Composed OwnStep m →
          m (fw.watched (fun _ => check) [] n) = m (fw.linkage n) := by
  have hfw : fw.image.ComposedOf OwnStep := composedOf_of_link admits_ownStep h himage
  refine ⟨restoresBanks_linkage h hfw n, ?_⟩
  intro check hcheck α m hm
  have hunheard : Unheard fw (fun _ => check) fun _ _ => True := by
    refine ⟨fun _ _ => trivial, fun _ _ => trivial, fun _ _ _ => trivial, ?_⟩
    intro frames slot caller placed s haddr hactive _
    exact hcheck placed s (FarCall.mapped_of_bankOf haddr hactive)
  funext s
  exact watched_apply h hfw hunheard hm n trivial

end Linked

end Firmware

theorem Firmware.bank_invariant_relay : (Relay.firmware.linkage 3).RestoresBanks :=
  (Firmware.bank_invariant Relay.link_image Relay.composedOf_image 3).1

end BankedController
