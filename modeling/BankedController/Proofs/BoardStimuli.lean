import BankedController.Proofs.BoardPasses

namespace BankedController

open RegisterMap

namespace Blocks

variable {b : Blocks}

/-- The hardware sets bits in a byte of interrupt status. -/
theorem Whole.assertInterrupt (h : b.Whole) {addr : UInt16}
    (haddr : addr - interruptStatusBase < interruptStatusSize) (mask : UInt8) :
    ∃ l, b.interruptStatus.assertBits addr mask = .ok l ∧
      Whole { b with interruptStatus := l } ∧
      usb { b with interruptStatus := l } =
        if addr = usbStatus then b.usb ||| mask else b.usb := by
  obtain ⟨l, hassert, hspans, hvalue⟩ :=
    h.interruptStatus.update (f := fun byte => byte ||| mask) haddr
  refine ⟨l, hassert, ⟨hspans, h.timerStatus, h.base⟩, ?_⟩
  have hspan : usbStatus - interruptStatusBase < interruptStatusSize := by decide
  obtain ⟨byte, hbyte, -⟩ := h.interruptStatus.read hspan
  unfold usb
  dsimp only
  rw [hvalue usbStatus]
  by_cases heq : addr = usbStatus
  · rw [if_pos heq.symm, if_pos heq, heq, hbyte]
    rfl
  · rw [if_neg (Ne.symm heq), if_neg heq]

end Blocks

namespace Board

section Events

variable {room : Nat}

/-- What the hardware does to the blocks. -/
theorem does_onBlocks {f : Blocks → Except Fault Blocks} {g : Intake → Intake}
    (h : ∀ rig, Sound rig → ∃ b, f rig.blocks = .ok b ∧ Sound (rig.withBlocks b) ∧
      intake (rig.withBlocks b) = g (intake rig)) : Does room g (Rig.onBlocks f) := by
  refine does_onBus fun rig hrig => ?_
  obtain ⟨b, hf, hsound, hintake⟩ := h rig hrig
  refine ⟨(), rig.withBlocks b, ?_, hsound, hintake⟩
  have hblocks : f rig.bus.devices = .ok b := hf
  simp only [hblocks]
  rfl

/-- Blocks of which neither the command bit nor the NVMe unit changes. -/
theorem does_onBlocks_alike {f : Blocks → Except Fault Blocks}
    (h : ∀ b : Blocks, b.Whole → ∃ b', f b = .ok b' ∧ b'.Whole ∧
      b'.usb &&& usbCommandBit = b.usb &&& usbCommandBit ∧ b'.nvme = b.nvme) :
    Does room id (Rig.onBlocks f) := by
  refine does_onBlocks fun rig hrig => ?_
  obtain ⟨b, hf, hwhole, husb, hnvme⟩ := h rig.blocks hrig.intact.whole
  have halike : Alike rig (rig.withBlocks b) :=
    ⟨⟨hrig.intact.claims, hwhole⟩, husb, rfl, rfl, rfl, rfl, rfl, rfl, hnvme⟩
  exact ⟨b, hf, halike.sound hrig, halike.intake_eq⟩

theorem does_assertInterrupt {addr : UInt16} {mask : UInt8}
    (haddr : addr - interruptStatusBase < interruptStatusSize)
    (hmask : addr = usbStatus → mask &&& usbCommandBit = 0) :
    Does room id (Rig.assertInterrupt addr mask : Run State Unit) := by
  refine does_onBlocks_alike fun b hb => ?_
  obtain ⟨l, hassert, hwhole, husb⟩ := hb.assertInterrupt haddr mask
  refine ⟨{ b with interruptStatus := l }, ?_, hwhole, ?_, rfl⟩
  · rw [hassert]
    rfl
  · rw [husb]
    split
    next hstatus => rw [Bits.or_and, hmask hstatus, UInt8.or_zero]
    next => rfl

/-- The command bit is set. -/
theorem does_arrive : Does room (fun i => { i with arrived := true })
    (Rig.assertInterrupt usbStatus usbCommandBit : Run State Unit) := by
  refine does_onBlocks fun rig hrig => ?_
  obtain ⟨l, hassert, hwhole, husb⟩ :=
    hrig.intact.whole.assertInterrupt (show usbStatus - interruptStatusBase < _ by decide)
      usbCommandBit
  let b : Blocks := { rig.blocks with interruptStatus := l }
  have hbit : (rig.withBlocks b).blocks.usb &&& usbCommandBit ≠ 0 := by
    change b.usb &&& usbCommandBit ≠ 0
    rw [husb, if_pos rfl]
    exact Bits.or_and_ne_zero _ (by decide)
  refine ⟨b, ?_, ⟨⟨hrig.intact.claims, hwhole⟩, hrig.kind, hrig.clean⟩, ?_⟩
  · rw [hassert]
    rfl
  · unfold intake
    rw [decide_eq_true hbit]
    rfl

theorem does_assertTimer (mask : UInt8) :
    Does room id (Rig.assertTimer mask : Run State Unit) := by
  refine does_onBlocks_alike fun b hb => ?_
  obtain ⟨l, hassert, hspans, -⟩ := hb.timerStatus.update (f := fun byte => byte ||| mask)
    (show timerStatus - timerStatus < 1 by decide)
  refine ⟨{ b with timerStatus := l }, ?_, ⟨hb.interruptStatus, hspans, hb.base⟩, rfl, rfl⟩
  exact congrArg (Except.map _) hassert

theorem does_raiseEndpoint {endpoint : Nat} (h : endpoint < 8) (mask : UInt8) :
    Does room id (Rig.raiseEndpoint endpoint mask : Run State Unit) := by
  refine does_onBlocks_alike fun b hb => ?_
  have hraise : b.endpoints.raise endpoint mask = .ok _ := dif_pos h
  exact ⟨_, congrArg (Except.map _) hraise, ⟨hb.interruptStatus, hb.timerStatus, hb.base⟩, rfl, rfl⟩

/-- How long a unit takes is nothing to the intake. -/
theorem does_setLatency (kind : CommandKind) (accept complete : Latency) :
    Does room id (Rig.setLatency kind accept complete : Run State Unit) := by
  refine does_onBlocks fun rig hrig => ?_
  let u := (rig.blocks.unit kind).setLatency accept complete
  have hwhole : (rig.blocks.setUnit kind u).Whole :=
    hrig.intact.whole.setUnit (hrig.intact.whole.base kind)
  refine ⟨rig.blocks.setUnit kind u, rfl, ⟨⟨hrig.intact.claims, hwhole⟩, hrig.kind, ?_⟩, ?_⟩
  · cases kind <;> exact hrig.clean
  · cases kind <;> rfl

end Events

section Injection

variable {p : PerLine Bool} {i : Intake} {s : State} {f : Intake → Intake}

/-- An edge is latched after what it announces. -/
theorem Idle.signalled (hs : Idle p i s) {m : Run State Unit} (hm : Does 0 f m) {line : IrqLine}
    (hannounced : (f i).arrived = true → i.arrived = true ∨ line = .endpoint) :
    ∃ t, (m >>= fun _ => Machine.raiseIrq line) s = .done () t ∧
      Idle (p.set line true) (f i) t := by
  obtain ⟨_, t, hrun, hmoved⟩ := hm s hs.sound (by have := hs.room; omega)
  refine ⟨{ t with irq := t.irq.raise line }, Run.bind_of_done hrun, hmoved.sound, ?_,
    hmoved.fits hs.room, ?_, ?_, ?_, ?_⟩
  · rw [← hs.intake]
    exact hmoved.intake
  · change t.irq.enable = _
    rw [hmoved.irq, hs.enable]
  · change t.irq.inService = _
    rw [hmoved.irq, hs.inService]
  · change t.irq.pending.set line true = _
    rw [hmoved.irq, hs.pending]
  · intro harrived
    rcases hannounced harrived with hbefore | rfl
    · have hendpoint := hs.announced hbefore
      cases line with
      | endpoint => rfl
      | system => exact hendpoint
    · rfl

/-- An event that comes without an edge. -/
theorem Idle.unsignalled (hs : Idle p i s) {m : Run State Unit} (hm : Does 0 f m)
    (harrived : (f i).arrived = i.arrived) :
    ∃ q t, m s = .done () t ∧ Idle q (f i) t := by
  obtain ⟨_, t, hrun, hmoved⟩ := hm s hs.sound (by have := hs.room; omega)
  exact ⟨p, t, hrun, hs.moved hmoved fun h => hs.announced (harrived.symm.trans h)⟩

/-- An event on an idle board. -/
theorem Idle.apply (hs : Idle p i s) (stimulus : Stimulus) :
    ∃ q t, stimulus.apply s = .done () t ∧ Idle q (i.inject stimulus) t := by
  have hstatus {addr : UInt16} {mask : UInt8} (line : IrqLine)
      (haddr : addr - interruptStatusBase < interruptStatusSize)
      (hmask : addr = usbStatus → mask &&& usbCommandBit = 0) :
      ∃ q t, (Rig.assertInterrupt addr mask >>= fun _ => Machine.raiseIrq line : Run State Unit) s =
        .done () t ∧ Idle q i t :=
    ⟨_, hs.signalled (does_assertInterrupt haddr hmask) .inl⟩
  cases stimulus with
  | endpointReady endpoint mask =>
    have hlt : endpoint.toNat % 8 < 8 := Nat.mod_lt _ (by decide)
    have hboth : Does 0 id (Rig.raiseEndpoint (endpoint.toNat % 8) mask >>= fun _ =>
        Rig.assertInterrupt usbStatus usbMasterBit : Run State Unit) :=
      (does_raiseEndpoint hlt mask).then fun _ => does_assertInterrupt (by decide) (by decide)
    obtain ⟨t, hrun, ht⟩ : ∃ t, (_ >>= fun _ => Machine.raiseIrq .endpoint) s = .done () t ∧ _ :=
      hs.signalled hboth .inl
    rw [bind_assoc] at hrun
    exact ⟨_, t, hrun, ht⟩
  | cbw => exact ⟨_, hs.signalled does_arrive fun _ => .inr rfl⟩
  | usbLink => exact hstatus .endpoint (by decide) (by decide)
  | systemEvent => exact hstatus .endpoint (by decide) (by decide)
  | nvmeQueue => exact hstatus .system (by decide) (by decide)
  | pcieEvent => exact hstatus .system (by decide) (by decide)
  | pcieLink => exact hstatus .system (by decide) (by decide)
  | power => exact hstatus .system (by decide) (by decide)
  | timerTick => exact ⟨_, hs.signalled (does_assertTimer _) .inl⟩
  | masterReady => exact hs.unsignalled (does_setBits (by decide) _) rfl
  | deferEndpoint => exact hs.unsignalled (does_defer (by decide)) rfl
  | stall unit => exact hs.unsignalled (does_setLatency _ _ _) rfl
  | release unit reads => exact hs.unsignalled (does_setLatency _ _ _) rfl

/-- Events in a row. -/
theorem Idle.injectAll (hs : Idle p i s) (steps : List ScriptStep) :
    ∃ q t, Board.injectAll steps s = .done () t ∧
      Idle q (steps.foldl (fun i step => i.inject step.stimulus) i) t := by
  induction steps generalizing p i s with
  | nil => exact ⟨p, s, rfl, hs⟩
  | cons step rest ih =>
    have hnoted : Idle p i (s.noted (.inject step.stimulus)) :=
      ⟨hs.sound, hs.intake, hs.room, hs.enable, hs.inService, hs.pending, hs.announced⟩
    obtain ⟨q, t, hrun, ht⟩ := hnoted.apply step.stimulus
    have hinject : inject step.stimulus s = .done () t :=
      (Run.bind_of_done (Machine.note_apply _ s)).trans hrun
    obtain ⟨q', u, hrest, hu⟩ := ih ht
    exact ⟨q', u, (Run.bind_of_done hinject).trans hrest, hu⟩

end Injection

end Board

end BankedController
