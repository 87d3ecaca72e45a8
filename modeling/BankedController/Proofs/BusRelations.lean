import BankedController.Proofs.Bookkeeping

namespace BankedController

variable {β α : Type}

/-- A relation between states of the bus, as one between machines. -/
def OnBus (Q : β → β → Prop) (s t : Machine β) : Prop := Q s.bus t.bus

section Aside

variable {Q : β → β → Prop} (hQ : Extends Q)

include hQ

theorem tolerates_onBus : Tolerates (OnBus Q) where
  refl s := hQ.refl s.bus
  trans h h' := hQ.trans h h'
  failed s := hQ.refl s.bus
  note _ s := hQ.refl s.bus
  global _ s := hQ.refl s.bus

theorem extends_onBus : Extends (OnBus Q) := (tolerates_onBus hQ).toExtends

namespace Machine

theorem keeps_onIrq (f : InterruptController → InterruptController) :
    (onIrq f : Run (Machine β) Unit).Keeps (OnBus Q) :=
  Run.keeps_modify fun s => hQ.refl s.bus

theorem keeps_note (event : Event) : (note event : Run (Machine β) Unit).Keeps (OnBus Q) :=
  Run.keeps_modify fun s => hQ.refl s.bus

end Machine

/-- Bookkeeping does not touch the bus. -/
theorem bookkeeping_onBus : Bookkeeping (Keeping (OnBus Q)) where
  toCallKeeping := .of_still (extends_onBus hQ) fun {s t} hbus _ => by
    unfold OnBus
    rw [hbus]
    exact hQ.refl s.bus
  irq := Machine.keeps_onIrq hQ

/-- What the routines extend on the bus that a call may find, the call keeps. -/
theorem Firmware.keeps_call [RegisterBus β] {fw : Firmware β} {n : Nat} {id : SlotId}
    {param : Option UInt8} (hfound : ∀ slot, fw.table.slot? id = some slot → ∀ active placed,
      fw.image.resolve slot.target.logical active = some placed →
        (placed.body (fw.linkage n) param).Keeps (OnBus Q)) :
    ((fw.linkage (n + 1)).call id param).Keeps (OnBus Q) :=
  (bookkeeping_onBus hQ).callFound hfound

/-- What every step extends on the bus, every call and every preemption point keeps. -/
theorem Firmware.keeps_linkage [RegisterBus β] {fw : Firmware β} {P : Steps β}
    (hP : ∀ α m, P α m → m.Keeps (OnBus Q)) (hroute : Admits P RouteWrite)
    (himage : fw.image.ComposedOf P) (n : Nat) : (fw.linkage n).Keeps (OnBus Q) :=
  (bookkeeping_onBus hQ).linkage hP hroute himage n

end Aside

end BankedController
