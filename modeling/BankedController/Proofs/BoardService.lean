import BankedController.Proofs.BoardPasses
import BankedController.Proofs.CommandSequences
import BankedController.Proofs.RigUnits
import BankedController.Proofs.Sparing

namespace BankedController

open RegisterMap

namespace Rig

/-- An intact rig has its units, and memory for the engine. -/
theorem Intact.wired {ω : Type} {rig : Rig ω} (h : rig.Intact) : rig.Wired := by
  have hinitial := wired_initial rig.record
  refine ⟨?_, ?_, ?_, h.whole.base⟩
  · rw [h.claims]
    exact hinitial.unit
  · rw [h.claims]
    exact hinitial.ram
  · rw [h.claims]
    exact hinitial.control

end Rig

namespace Board

/-- A rig on which the command engine was at work. -/
structure Engaged (rig rig' : Rig Record) : Prop where
  intact : rig'.Intact
  usb : rig'.blocks.usb = rig.blocks.usb
  ram : ∀ addr ∈ watched, rig'.bus.ram.get addr = rig.bus.ram.get addr
  record : rig'.record = rig.record

theorem Engaged.refl {rig : Rig Record} (h : rig.Intact) : Engaged rig rig :=
  ⟨h, rfl, fun _ _ => rfl, rfl⟩

theorem Engaged.trans {rig rig' rig'' : Rig Record} (h : Engaged rig rig')
    (h' : Engaged rig' rig'') : Engaged rig rig'' :=
  ⟨h'.intact, h'.usb.trans h.usb, fun addr haddr => (h'.ram addr haddr).trans (h.ram addr haddr),
    h'.record.trans h.record⟩

/-- With no interrupt to take, nothing but the engine is at work. -/
def Alone (s t : State) : Prop :=
  s.bus.Intact → s.irq.next? = none → Engaged s.bus t.bus ∧ t.irq = s.irq ∧ t.stack = s.stack

theorem extends_alone : Extends Alone := by
  refine ⟨fun s hs _ => ⟨.refl hs, rfl, rfl⟩, ?_⟩
  intro s t u hst htu hs hquiet
  obtain ⟨ht, hirq, hstack⟩ := hst hs hquiet
  obtain ⟨hu, hirq', hstack'⟩ := htu ht.intact (by rw [hirq, hquiet])
  exact ⟨ht.trans hu, hirq'.trans hirq, hstack'.trans hstack⟩

theorem survives_alone : Survives Alone := by
  refine ⟨extends_alone, fun s hs _ => ⟨.refl hs, rfl, rfl⟩,
    fun _ s hs _ => ⟨.refl hs, rfl, rfl⟩, ?_⟩
  intro α body hbody s a t hrun hs _
  obtain ⟨u, hinner, rfl⟩ := Machine.critical_eq_done hrun
  obtain ⟨hu, hirq, hstack⟩ := hbody _ _ u hinner hs s.irq.next?_setGlobal_false
  refine ⟨hu, ?_, hstack⟩
  dsimp only
  rw [hirq]
  exact s.irq.setGlobal_setGlobal

/-- No write of the engine goes to memory that the intake is read off, or to USB status. -/
theorem unwatched_of_engineWrite {addr : UInt16} {value : UInt8} (h : EngineWrite addr value) :
    addr ∉ usbStatus :: watched := by
  cases h with
  | ram h =>
    have hoff : (usbStatus :: watched).all (fun addr => ¬EngineRam addr) = true := by decide
    intro hmem
    exact of_decide_eq_true (List.all_eq_true.1 hoff addr hmem) h
  | recovery h =>
    have hoff : recoveryControls.all (fun addr => addr ∉ usbStatus :: watched) = true := by decide
    exact of_decide_eq_true (List.all_eq_true.1 hoff addr h)
  | @unit kind offset _ h =>
    have hoff : ∀ n : Fin 16, kind.block + UInt16.ofNat n ∉ usbStatus :: watched := by
      cases kind <;> decide
    have hlt : offset.toNat < 16 := UInt16.lt_iff_toNat_lt.1 h
    have := hoff ⟨offset.toNat, hlt⟩
    rwa [UInt16.ofNat_toNat] at this

theorem admits_alone :
    Admits (fun α (m : Run State α) => m.Keeps Alone : Steps (Rig Record)) EngineWrite := by
  refine ⟨fun event => Run.keeps_modify fun s hs _ => ⟨.refl hs, rfl, rfl⟩, ?_, ?_⟩
  · intro addr s value t hrun hs _
    obtain ⟨found, rig', hread, haccessed, hram, hstatus⟩ := hs.read addr
    have hdone : Machine.read addr s = .done found { s with bus := rig' } :=
      Machine.onBus_of_done hread
    rw [hdone] at hrun
    cases hrun
    refine ⟨⟨haccessed.intact, ?_, fun _ _ => ?_, haccessed.record⟩, rfl, rfl⟩
    · rw [Blocks.usb, Blocks.usb, hstatus]
    · rw [hram]
  · intro addr value hengine s _ t hrun hs _
    have hunwatched := unwatched_of_engineWrite hengine
    obtain ⟨rig', hwrite, haccessed, hmemory, husb⟩ := hs.write addr value
    have hdone : Machine.write addr value s = .done () { s with bus := rig' } :=
      Machine.onBus_of_done hwrite
    rw [hdone] at hrun
    cases hrun
    refine ⟨⟨haccessed.intact, ?_, fun other hother => ?_, haccessed.record⟩, rfl, rfl⟩
    · rw [husb, if_neg]
      rintro rfl
      exact hunwatched List.mem_cons_self
    · refine hmemory other ?_
      rintro rfl
      exact hunwatched (List.mem_cons_of_mem _ hother)

section Service

variable {l : Linkage (Rig Record)} {s : State}

theorem execute_alone (hl : l.Quiet) (r : CommandRequest) : (l.execute r).Keeps Alone := by
  have hpoll : l.poll.Keeps Alone := by
    intro s _ t hrun hs hquiet
    rw [hl s hquiet] at hrun
    cases hrun
    exact ⟨.refl hs, rfl, rfl⟩
  exact (Solitary.execute r).keeps (Composed.execute r (admits_alone.command _)) extends_alone
    survives_alone.critical (fun _ _ h => h) hpoll

/-- A command is issued once, whatever becomes of it. -/
theorem execute_submits (hl : CommandBus.CanWait l) {r : CommandRequest} (hkind : r.kind = .nvme)
    (hs : Sound s.bus) (hquiet : s.irq.next? = none) :
    ∃ out t, l.execute r s = .done out t ∧
      Moved (fun i => { i with submitted := i.submitted ++ [r.tag] }) s t := by
  have hat : Rig.commandBus.At s.bus.bench s := ⟨hs.intact.wired, rfl, hquiet⟩
  have hclean : (s.bus.bench.unit r.kind).status &&& errorBit = 0 := by
    rw [hkind]
    exact hs.clean
  obtain ⟨out, v, hleads, hcarried⟩ := CommandBus.leads_execute (b := Rig.commandBus) hl r
    (hs.intact.wired.base r.kind) hclean
  obtain ⟨t, hrun, ht⟩ := hleads s hat
  obtain ⟨hengaged, hirq, hstack⟩ := execute_alone hl.quiet r s out t hrun hs.intact hquiet
  have hnvme : v.unit r.kind = t.bus.blocks.nvme := by
    rw [← ht.view, hkind]
    rfl
  have hissued := hcarried.issued
  have herror := hcarried.clean.error
  rw [hnvme] at hissued herror
  refine ⟨out, t, hrun, ⟨hengaged.intact, ?_, herror⟩, ?_, hirq, ?_⟩
  · rw [hengaged.ram _ (by decide)]
    exact hs.kind
  · unfold intake
    rw [hengaged.usb, hengaged.ram _ (by decide), hengaged.ram _ (by decide),
      hengaged.ram _ (by decide), hengaged.ram _ (by decide), hengaged.record, hissued, hkind,
      List.reverse_cons, List.map_append]
    rfl
  · refine ⟨?_, ?_, ?_, ?_⟩
    all_goals first | rw [hstack] | rw [hirq]

/-- What is taken is what waits, and then nothing waits. -/
theorem take_moved (hs : Sound s.bus) :
    ∃ found t, CommandRequest.take s = .done found t ∧
      Moved (fun i => { i with waiting := none }) s t ∧
      found.map CommandRequest.tag = (intake s.bus).waiting ∧
      ∀ r ∈ found, r.kind = .nvme := by
  have hread {t : State} (ht : t.bus.Intact) {addr : UInt16} (haddr : addr < 0x8000) :
      Machine.read addr t = .done (t.bus.bus.ram.get addr) t :=
    Machine.onBus_of_done (ht.read_free haddr)
  have hcode := hread hs.intact (show requestKind < 0x8000 by decide)
  rcases hs.kind with hzero | hnvme
  · rw [hzero] at hcode
    have hnone : (intake s.bus).waiting = none := if_pos hzero
    refine ⟨none, s, Run.bind_of_done hcode, ⟨hs, ?_, rfl, .refl s⟩, hnone.symm, nofun⟩
    rw [← hnone]
  rw [hnvme] at hcode
  let t : State := { s with bus := s.bus.stored requestKind 0 }
  have ht : t.bus.Intact := hs.intact.stored _ _
  have hwrite : Machine.write requestKind 0 s = .done () t :=
    Machine.onBus_of_done (hs.intact.write_free (by decide) 0)
  have htag : t.bus.bus.ram.get requestTag = s.bus.bus.ram.get requestTag := by
    rw [Rig.ram_stored, if_neg (by decide)]
  have haddress : ∃ address, Machine.read32 requestAddress t = .done address t := by
    simp only [Machine.read32, RegisterBus.read32, Machine.onBus_bind]
    refine ⟨RegisterBus.joinBytes (t.bus.bus.ram.get requestAddress)
      (t.bus.bus.ram.get (requestAddress + 1)) (t.bus.bus.ram.get (requestAddress + 2))
      (t.bus.bus.ram.get (requestAddress + 3)), ?_⟩
    refine (Run.bind_of_done (hread ht (by decide))).trans ?_
    refine (Run.bind_of_done (hread ht (by decide))).trans ?_
    refine (Run.bind_of_done (hread ht (by decide))).trans ?_
    exact Run.bind_of_done (hread ht (by decide))
  obtain ⟨address, haddress⟩ := haddress
  refine ⟨some ⟨.nvme, t.bus.bus.ram.get requestOpcode, t.bus.bus.ram.get requestParam,
    s.bus.bus.ram.get requestTag, address⟩, t, ?_,
    .of_bus ⟨ht, .inl ?_, hs.clean⟩ (intake_stored_kind s.bus), ?_, ?_⟩
  · refine (Run.bind_of_done hcode).trans ((Run.bind_of_done hwrite).trans ?_)
    refine (Run.bind_of_done (hread ht (by decide))).trans ?_
    refine (Run.bind_of_done (hread ht (by decide))).trans ?_
    refine (Run.bind_of_done (hread ht (by decide))).trans ?_
    rw [htag]
    exact Run.bind_of_done haddress
  · rw [Rig.ram_stored, if_pos rfl]
  · have hposted : s.bus.bus.ram.get requestKind ≠ 0 := by
      rw [hnvme]
      decide
    exact (if_neg hposted).symm
  · intro r hr
    rw [← Option.some.inj hr]

/-- The command service submits what waits. -/
theorem commandServiceRoutine_submits (hl : CommandBus.CanWait l) (param : Option UInt8)
    (hs : Sound s.bus) (hquiet : s.irq.next? = none) :
    ∃ t, commandServiceRoutine l param s = .done () t ∧ Moved Intake.submit s t := by
  obtain ⟨found, t, htake, ht, htag, hkind⟩ := take_moved hs
  cases found with
  | none =>
    have hnone : (intake s.bus).waiting = none := htag.symm
    refine ⟨t, Run.bind_of_done htake, ht.sound, ?_, ht.irq, ht.kept⟩
    rw [ht.intake, Intake.submit, hnone]
    exact congrArg _ (List.append_nil _).symm
  | some r =>
    have hsome : (intake s.bus).waiting = some r.tag := htag.symm
    obtain ⟨out, u, hrun, hu⟩ := execute_submits hl (hkind r rfl) ht.sound (ht.irq ▸ hquiet)
    refine ⟨u, (Run.bind_of_done htake).trans (Run.bind_of_done hrun), hu.sound, ?_,
      hu.irq.trans ht.irq, ht.kept.trans hu.kept⟩
    rw [hu.intake, ht.intake, Intake.submit, hsome]
    rfl

variable {config : FirmwareConfig} {fw : BoardFirmware}

/-- With a bound above every threshold, the linkage of a board carries its passes. -/
theorem ready_linkage (h : link config = .ok fw) {n : Nat} (hn : 2 ^ 32 ≤ n) :
    Ready (fw.linkage (n + 4)) := by
  obtain ⟨hdefect, hconfig, -, -⟩ := Firmware.link_eq_ok h
  have hchecked := FirmwareConfig.checked_of_defect? hdefect
  refine ⟨fun slot hreceived hservice => calm_call h (n + 2) hreceived hservice none, ?_, ?_⟩
  · intro p i s hs
    have hraised : p.raised ≤ 2 := by
      obtain ⟨endpoint, system⟩ := p
      cases endpoint <;> cases system <;> decide
    exact poll_receives h n 2 hs hraised
  · intro i s hs
    have hl : CommandBus.CanWait (fw.linkage (n + 3)) := by
      refine ⟨fw.quiet_linkage (n + 2), ?_, ?_⟩
      · change 2 ^ 32 ≤ n + 2
        omega
      · intro wait
        change fw.config.timeouts.get wait ≠ 0
        rw [hconfig]
        exact hchecked.thresholds wait
    have hroom := hs.room
    obtain ⟨slot, hslot⟩ := slot_of_standard h (by decide : SlotId.commandService ∈ _)
    obtain ⟨r, t, hrun, ht⟩ := called_moved h hslot (by omega)
      (commandServiceRoutine_submits hl none
        (s := FarCall.opened slot none { s with stats := s.stats.called .commandService })
        (by rw [FarCall.bus_opened]; exact hs.sound)
        (by rw [FarCall.irq_opened]; exact hs.next?_eq_none_iff.2 rfl))
    exact ⟨r, t, hrun, hs.moved ht hs.announced⟩

end Service

end Board

end BankedController
