import BankedController.Proofs.Restoration

/-! A hook is run whenever a routine is about to be entered. A property holds at every such moment
if every hook that does nothing where the property holds does nothing at all. -/

namespace BankedController

variable {β α : Type}

/-- A frame on the stack: of a call of a slot, or of an interrupt, with the bank that was mapped
when the frame was opened. -/
inductive OpenFrame where
  | call (slot : DispatchSlot) (caller : Bank)
  | interrupt (line : IrqLine) (interrupted : Bank)

/-- What is run when a routine is about to be entered. The frames are those that stand then, the
innermost first. -/
abbrev Hook (β : Type) : Type :=
  List OpenFrame → Placed (Routine β) → Run (Machine β) Unit

namespace Firmware

section Definitions

variable [RegisterBus β]

/-- The firmware with something run in front of every routine. -/
def hooked (fw : Firmware β) (before : Placed (Routine β) → Run (Machine β) Unit) : Firmware β :=
  { fw with
    image := fw.image.map fun placed l param => do
      before placed
      placed.body l param }

/-- The frames that stand while a call is carried out. -/
def opening (fw : Firmware β) (id : SlotId) (caller : Bank) (frames : List OpenFrame) :
    List OpenFrame :=
  match fw.table.slot? id with
  | none => frames
  | some slot => .call slot caller :: frames

/-- The linkage of the watched firmware where `frames` stand. -/
def watched (fw : Firmware β) (hook : Hook β) : List OpenFrame → Nat → Linkage β
  | _, 0 => .exhausted fw.config fw.table
  | frames, n + 1 =>
    { config := fw.config
      table := fw.table
      patience := n
      call := fun id param s =>
        let inner := fw.opening id s.window.active frames
        (fw.hooked (hook inner)).callWith (fw.watched hook inner n) id param s
      poll := fun s =>
        match s.irq.next? with
        | none => .done () s
        | some line =>
          (do
            (fw.watched hook (.interrupt line s.window.active :: frames) n).serviceInterrupt line
            (fw.watched hook frames n).poll : Run (Machine β) Unit) s }

end Definitions

/-- An invariant of the frames and the machine for which a hook is silent. -/
structure Unheard (fw : Firmware β) (hook : Hook β)
    (G : List OpenFrame → Machine β → Prop) : Prop where
  kept : ∀ {frames s t}, Kept s t → G frames s → G frames t
  call : ∀ {frames slot param s}, s.stack.used + 5 ≤ s.stack.capacity → G frames s →
    G (.call slot s.window.active :: frames) (FarCall.opened slot param s)
  interrupt : ∀ {frames line s}, s.irq.next? = some line → s.stack.used + 3 ≤ s.stack.capacity →
    G frames s → G (.interrupt line s.window.active :: frames) (Linkage.interrupted line s)
  silent : ∀ {frames slot caller placed s}, placed.addr = slot.target →
    s.window.active = FarCall.bankOf slot caller → G (.call slot caller :: frames) s →
    hook (.call slot caller :: frames) placed s = .done () s

variable [RegisterBus β] {fw : Firmware β} {image : CodeImage (Routine β)}
  {entries : List DispatchEntry} {config : FirmwareConfig} {hook : Hook β}
  {G : List OpenFrame → Machine β → Prop}

omit [RegisterBus β] in
/-- Whatever a routine may do stays within the invariant. -/
theorem Unheard.keeps (hw : Unheard fw hook G) {m : Run (Machine β) α} (hm : m.Keeps Kept)
    (frames : List OpenFrame) : m.Keeps fun s t => G frames s → G frames t :=
  fun s a t hrun => hw.kept (hm s a t hrun)

omit [RegisterBus β] in
theorem Unheard.tolerates (hw : Unheard fw hook G) (frames : List OpenFrame) :
    Tolerates fun s t => G frames s → G frames t where
  refl _ := id
  trans h h' := h' ∘ h
  failed s := hw.kept (tolerates_kept.failed s)
  note event s := hw.kept (tolerates_kept.note event s)
  global on s := hw.kept (tolerates_kept.global on s)

/-- What is composed runs alike against two linkages that agree wherever the invariant holds. -/
theorem Unheard.agree (hw : Unheard fw hook G) {l l' : Linkage β} (hl : l.Keeps Kept)
    {frames : List OpenFrame} (h : Linkage.Agree (G frames) l l')
    {m : Linkage β → Run (Machine β) α} (hm : Composed OwnStep m) :
    Run.AgreeOn (G frames) (m l) (m l') := by
  have hlG : l.Keeps fun s t => G frames s → G frames t :=
    ⟨fun id param => hw.keeps (hl.call id param) frames, hw.keeps hl.poll frames⟩
  exact Composed.agree (hw.tolerates frames) (fun _ _ hown => hw.keeps hown.kept frames) hlG h hm

omit [RegisterBus β] in
/-- The hooked firmware has the same routine at an address, with the hook in front of it. -/
theorem resolver_hooked (before : Placed (Routine β) → Run (Machine β) Unit) (l : Linkage β)
    (logical : UInt16) (active : Bank) :
    (fw.hooked before).resolver l logical active = (fw.image.resolve logical active).map
      fun placed param => before placed >>= fun _ => placed.body l param := by
  unfold resolver hooked CodeImage.map CodeImage.resolve CodeImage.get?
  dsimp only
  rw [List.find?_map, Option.map_map]
  rfl

/-- A call under a hook that is silent where the routine is entered. -/
theorem callWith_hooked (h : link image entries config = .ok fw)
    (himage : fw.image.ComposedOf OwnStep) {frames : List OpenFrame}
    (hw : Unheard fw hook G) {l l' : Linkage β} (hl : l.Keeps Kept) {id : SlotId}
    {param : Option UInt8} {s : Machine β} (hs : G frames s)
    (hagree : Linkage.Agree (G (fw.opening id s.window.active frames)) l l') :
    fw.callWith l id param s =
      (fw.hooked (hook (fw.opening id s.window.active frames))).callWith l' id param s := by
  unfold callWith
  change _ = (match fw.table.slot? id with | none => _ | some slot => _ : Run (Machine β) _) s
  unfold opening at hagree ⊢
  cases hslot : fw.table.slot? id with
  | none => rfl
  | some slot =>
    rw [hslot] at hagree
    dsimp only at hagree ⊢
    let counted : Machine β := { s with stats := s.stats.called id }
    have hcounted : Kept s counted := ⟨rfl, rfl, rfl, rfl⟩
    rw [Run.bind_of_done (Run.modify_apply _ s), Run.bind_of_done (Run.modify_apply _ s)]
    obtain ⟨placed, hmem, haddr, hresolve⟩ :=
      resolve_target h hslot (FarCall.eq_bankOf counted.window.active)
    have hplain : fw.resolver l slot.target.logical
        (FarCall.bankOf slot counted.window.active) = some (placed.body l) := by
      simp only [resolver, hresolve, Option.map_some]
    have hunder : (fw.hooked (hook (.call slot s.window.active :: frames))).resolver l'
        slot.target.logical (FarCall.bankOf slot counted.window.active) = _ :=
      resolver_hooked _ l' _ _
    rw [hresolve, Option.map_some] at hunder
    by_cases hover : counted.stack.capacity < counted.stack.used + 5
    · -- without room for the frame neither firmware enters the routine
      obtain ⟨u, -, hcall⟩ := FarCall.farCall_of_overflow param hover
      exact (hcall hplain).trans (hcall hunder).symm
    have hfits := Nat.le_of_not_lt hover
    have hopened : G (.call slot s.window.active :: frames) (FarCall.opened slot param counted) :=
      hw.call hfits (hw.kept hcounted hs)
    have hbank : (FarCall.opened slot param counted).window.active =
        FarCall.bankOf slot s.window.active := Machine.active_mapped counted _
    have hsilent := hw.silent haddr hbank hopened
    have hbody : Run.AgreeOn (G (.call slot s.window.active :: frames)) (placed.body l param)
        (placed.body l' param) := hw.agree hl hagree (himage placed hmem param)
    refine (FarCall.farCall_of_fits hfits hplain).trans ?_
    refine Eq.trans ?_ (FarCall.farCall_of_fits hfits hunder).symm
    rw [bind_assoc, Run.bind_of_done hsilent, Run.bind_apply, Run.bind_apply,
      hbody _ hopened]

theorem poll_watched (frames : List OpenFrame) (n : Nat) (s : Machine β) :
    (fw.watched hook frames (n + 1)).poll s = match s.irq.next? with
      | none => .done () s
      | some line =>
        ((fw.watched hook (.interrupt line s.window.active :: frames) n).serviceInterrupt line >>=
          fun _ => (fw.watched hook frames n).poll) s := rfl

/-- An interrupt is taken alike. -/
theorem serviceInterrupt_agree (hw : Unheard fw hook G) {frames : List OpenFrame} {l l' : Linkage β}
    (hl : l.Keeps Kept) {line : IrqLine} {s : Machine β} (hs : G frames s)
    (hline : s.irq.next? = some line)
    (hagree : Linkage.Agree (G (.interrupt line s.window.active :: frames)) l l') :
    l.serviceInterrupt line s = l'.serviceInterrupt line s := by
  by_cases hover : s.stack.capacity < s.stack.used + 3
  · obtain ⟨u, -, hservice⟩ := Linkage.serviceInterrupt_of_overflow line hover
    rw [hservice l, hservice l']
  have hfits := Nat.le_of_not_lt hover
  have hroute := hw.agree hl hagree (Composed.route admits_ownStep.service.route line)
  rw [Linkage.serviceInterrupt_of_fits l line hfits, Linkage.serviceInterrupt_of_fits l' line hfits,
    Run.bind_apply, Run.bind_apply, hroute _ (hw.interrupt hline hfits hs)]

/-- Wherever the invariant holds, the watched firmware is the firmware. -/
theorem watched_agree (h : link image entries config = .ok fw)
    (himage : fw.image.ComposedOf OwnStep) (hw : Unheard fw hook G) (n : Nat)
    (frames : List OpenFrame) :
    Linkage.Agree (G frames) (fw.linkage n) (fw.watched hook frames n) := by
  induction n generalizing frames with
  | zero => exact ⟨rfl, rfl, rfl, fun _ _ => Run.agreeOn_refl _, Run.agreeOn_refl _⟩
  | succ n ih =>
    have hrestores : Restores (fw.linkage n) := restores_linkage h himage n
    refine ⟨rfl, rfl, rfl, ?_, ?_⟩
    · intro id param s hs
      exact callWith_hooked h himage hw hrestores.keeps hs (ih _)
    · intro s hs
      rw [poll_linkage, poll_watched]
      cases hline : s.irq.next? with
      | none => rfl
      | some line =>
        dsimp only
        have hsame := serviceInterrupt_agree hw hrestores.keeps hs hline (ih _)
        rw [Run.bind_apply, Run.bind_apply, ← hsame]
        cases hservice : (fw.linkage n).serviceInterrupt line s with
        | done a t =>
          have hrestored := Linkage.serviceInterrupt_restores hrestores.keeps line s a t hservice
          exact (ih frames).poll t (hw.kept hrestored.toKept hs)
        | fault cause t => rfl
        | exhausted => rfl

/-- No composition can tell the watched firmware from the firmware. -/
theorem watched_apply (h : link image entries config = .ok fw)
    (himage : fw.image.ComposedOf OwnStep) (hw : Unheard fw hook G) {frames : List OpenFrame}
    {m : Linkage β → Run (Machine β) α} (hm : Composed OwnStep m) (n : Nat) {s : Machine β}
    (hs : G frames s) : m (fw.watched hook frames n) s = m (fw.linkage n) s :=
  (hw.agree (restores_linkage h himage n).keeps (watched_agree h himage hw n frames) hm s hs).symm

end Firmware

end BankedController
