import BankedController.Firmware
import BankedController.Proofs.CoreRoutines

namespace BankedController

variable {β : Type}

namespace FirmwareConfig

/-- What the check of a configuration establishes. -/
structure Checked (c : FirmwareConfig) : Prop where
  thresholds : ∀ wait, c.timeouts.get wait ≠ 0
  stackBase : c.stackBase ≤ 0xF8
  workRam : c.workRam.start.toNat + c.workRam.size.toNat ≤ 0x8000

theorem checked_of_defect? {c : FirmwareConfig} (h : c.defect? = none) : c.Checked := by
  unfold defect? at h
  split at h
  · cases h
  next hfind =>
    split at h
    · cases h
    split at h
    · cases h
    next hbase =>
      split at h
      · cases h
      next hram =>
        refine ⟨fun wait => ?_, ?_, Nat.le_of_not_lt hram⟩
        · have hmem : wait ∈ WaitKind.all := by cases wait <;> decide
          simpa using List.find?_eq_none.1 hfind wait hmem
        · simp only [Bool.or_eq_true, decide_eq_true_eq, not_or] at hbase
          exact UInt8.not_lt.1 hbase.2

end FirmwareConfig

namespace CodeImage

variable {ρ : Type} {P : Placed ρ → Prop}

theorem mem_ofList {placed : Placed ρ} {routines : List (Placed ρ)} :
    placed ∈ (ofList routines).routines ↔ placed ∈ routines := by
  unfold ofList
  dsimp only
  induction routines with
  | nil => rfl
  | cons first rest ih => rw [List.foldr_cons, mem_insert, ih, List.mem_cons]

/-- What the processor reaches is in the image. -/
theorem mem_of_resolve {image : CodeImage ρ} {logical : UInt16} {active : Bank} {placed : Placed ρ}
    (h : image.resolve logical active = some placed) : placed ∈ image.routines :=
  List.mem_of_find?_eq_some h

/-- A placement adds the placed routine and nothing else. -/
theorem mem_place {image image' : CodeImage ρ} {p q : Placed ρ} (hplace : image.place p = .ok image')
    (hq : q ∈ image'.routines) : q = p ∨ q ∈ image.routines := by
  unfold place at hplace
  split at hplace
  · cases hplace
  · cases hplace
    exact mem_insert.1 hq

/-- What an image holds after the core routines are installed was in it before, or is a core routine
at the target of its slot. -/
theorem mem_installCore {scan service : ρ} {entries : List DispatchEntry} {image : CodeImage ρ}
    {q : Placed ρ} (hq : q ∈ (image.installCore scan service entries).routines) :
    q ∈ image.routines ∨ ∃ e ∈ entries, q.addr = e.target ∧
      (e.slot = .endpointScan ∧ q.body = scan ∨ e.slot = .commandService ∧ q.body = service) := by
  induction entries generalizing image with
  | nil => exact .inl hq
  | cons e rest ih =>
    have later {image' : CodeImage ρ} (hq : q ∈ (image'.installCore scan service rest).routines) :
        q ∈ image'.routines ∨ ∃ f ∈ e :: rest, q.addr = f.target ∧
          (f.slot = .endpointScan ∧ q.body = scan ∨ f.slot = .commandService ∧ q.body = service) := by
      rcases ih hq with hmem | ⟨f, hf, hcore⟩
      · exact .inl hmem
      · exact .inr ⟨f, List.mem_cons_of_mem _ hf, hcore⟩
    by_cases hs : e.slot = .endpointScan
    · simp only [installCore, if_pos hs] at hq
      split at hq
      next hplace =>
        rcases later hq with hmem | hcore
        · rcases mem_place hplace hmem with rfl | hmem
          · exact .inr ⟨e, List.mem_cons_self, rfl, .inl ⟨hs, rfl⟩⟩
          · exact .inl hmem
        · exact .inr hcore
      next => exact later hq
    by_cases hc : e.slot = .commandService
    · simp only [installCore, if_neg hs, if_pos hc] at hq
      split at hq
      next hplace =>
        rcases later hq with hmem | hcore
        · rcases mem_place hplace hmem with rfl | hmem
          · exact .inr ⟨e, List.mem_cons_self, rfl, .inr ⟨hc, rfl⟩⟩
          · exact .inl hmem
        · exact .inr hcore
      next => exact later hq
    · simp only [installCore, if_neg hs, if_neg hc] at hq
      exact later hq

theorem forall_of_installCore {scan service : ρ} (hscan : ∀ name addr, P ⟨name, addr, scan⟩)
    (hservice : ∀ name addr, P ⟨name, addr, service⟩) (entries : List DispatchEntry)
    {image : CodeImage ρ} (h : ∀ q ∈ image.routines, P q) :
    ∀ q ∈ (image.installCore scan service entries).routines, P q := by
  intro q hq
  rcases mem_installCore hq with hmem | ⟨e, -, -, ⟨-, hbody⟩ | ⟨-, hbody⟩⟩
  · exact h q hmem
  · obtain ⟨name, addr, body⟩ := q
    cases hbody
    exact hscan name addr
  · obtain ⟨name, addr, body⟩ := q
    cases hbody
    exact hservice name addr

end CodeImage

namespace DispatchTable

/-- What makes it into a table comes from an entry. -/
theorem mem_insert {slot other : DispatchSlot} {slots : List DispatchSlot} :
    other ∈ insert slot slots ↔ other = slot ∨ other ∈ slots := by
  induction slots with
  | nil => simp [insert]
  | cons s rest ih =>
    unfold insert
    split
    · simp
    · simp only [List.mem_cons, ih]
      exact or_left_comm

theorem mem_foldr_insert {slot : DispatchSlot} {slots : List DispatchSlot} :
    slot ∈ slots.foldr insert [] ↔ slot ∈ slots := by
  induction slots with
  | nil => simp
  | cons s rest ih => simp only [List.foldr_cons, mem_insert, ih, List.mem_cons]

/-- Without a first defect, no entry has a target without a routine. -/
theorem present_of_firstDefect? {present : CodeAddr → Bool} {seen entries : List DispatchEntry}
    (h : firstDefect? present seen entries = none) : ∀ e ∈ entries, present e.target = true := by
  induction entries generalizing seen with
  | nil => simp
  | cons e rest ih =>
    unfold firstDefect? at h
    split at h
    · cases h
    next hdefect =>
      intro e' he'
      rcases List.mem_cons.1 he' with rfl | he'
      · cases hpresent : present e'.target with
        | true => rfl
        | false =>
          unfold defect? at hdefect
          split at hdefect
          · cases hdefect
          · simp at hdefect
      · exact ih h e' he'

/-- Every slot of a built table leads to a routine. -/
theorem present_of_build {entries : List DispatchEntry} {present : CodeAddr → Bool}
    {table : DispatchTable} (h : build entries present = .ok table) {slot : DispatchSlot}
    (hslot : slot ∈ table.slots) : present slot.target = true := by
  unfold build at h
  split at h
  · cases h
  next hnone =>
    cases h
    obtain ⟨e, he, rfl⟩ := List.mem_map.1 (mem_foldr_insert.1 hslot)
    exact present_of_firstDefect? hnone e he

/-- A slot of a built table is made of an entry. -/
theorem entry_of_slot? {entries : List DispatchEntry} {present : CodeAddr → Bool}
    {table : DispatchTable} (h : build entries present = .ok table) {id : SlotId}
    {slot : DispatchSlot} (hslot : table.slot? id = some slot) :
    ∃ e ∈ entries, e.slot = id ∧ slot = slotOf e := by
  have hid : slot.id = id := by simpa using List.find?_some hslot
  have hmem := List.mem_of_find?_eq_some hslot
  unfold build at h
  split at h
  · cases h
  next hnone =>
    cases h
    obtain ⟨e, he, rfl⟩ := List.mem_map.1 (mem_foldr_insert.1 hmem)
    exact ⟨e, he, hid, rfl⟩

theorem mem_of_slot? {table : DispatchTable} {id : SlotId} {slot : DispatchSlot}
    (h : table.slot? id = some slot) : slot ∈ table.slots :=
  List.mem_of_find?_eq_some h

end DispatchTable

namespace Firmware

variable [RegisterBus β] {image : CodeImage (Routine β)} {entries : List DispatchEntry}
  {config : FirmwareConfig} {fw : Firmware β}

/-- What a linked firmware is made of. -/
theorem link_eq_ok (h : link image entries config = .ok fw) :
    config.defect? = none ∧ fw.config = config ∧
      fw.image = image.installCore scanRoutine commandServiceRoutine entries ∧
      DispatchTable.build entries fw.image.contains = .ok fw.table := by
  unfold link at h
  split at h
  · cases h
  next hconfig =>
    dsimp only at h
    split at h
    · cases h
    next table htable =>
      cases h
      exact ⟨hconfig, rfl, rfl, htable⟩

/-- The routines of a linked firmware are composed of the steps that the given ones are composed
of, if those include the steps of the core routines. -/
theorem composedOf_of_link {P : Steps β} (hP : Admits P CoreWrite)
    (h : link image entries config = .ok fw) (himage : image.ComposedOf P) :
    fw.image.ComposedOf P := by
  obtain ⟨-, -, hfw, -⟩ := link_eq_ok h
  rw [hfw]
  exact CodeImage.forall_of_installCore (fun _ _ => Composed.scanRoutine hP.scan)
    (fun _ _ => Composed.commandServiceRoutine hP.service) entries himage

/-- The processor finds a routine at the target of every slot, once the target's bank is mapped;
for common code any bank will do. -/
theorem resolve_target (h : link image entries config = .ok fw) {id : SlotId}
    {slot : DispatchSlot} (hslot : fw.table.slot? id = some slot) {active : Bank}
    (hactive : ∀ bank, slot.target.bank? = some bank → bank = active) :
    ∃ placed ∈ fw.image.routines, placed.addr = slot.target ∧
      fw.image.resolve slot.target.logical active = some placed := by
  obtain ⟨-, -, -, htable⟩ := link_eq_ok h
  have hpresent := DispatchTable.present_of_build htable (DispatchTable.mem_of_slot? hslot)
  obtain ⟨placed, hplaced⟩ := Option.isSome_iff_exists.1 hpresent
  have hresolve : fw.image.resolve slot.target.logical active = some placed := by
    rw [CodeImage.resolve, CodeAddr.ofLogical_logical active slot.target hactive]
    exact hplaced
  have haddr : placed.addr = slot.target := by
    simpa using List.find?_some hplaced
  exact ⟨placed, CodeImage.mem_of_resolve hresolve, haddr, hresolve⟩

/-- A preemption point serves the line that is to be taken and looks for the next, with a bound that
is smaller by one. -/
theorem poll_linkage (fw : Firmware β) (n : Nat) (s : Machine β) :
    (fw.linkage (n + 1)).poll s = match s.irq.next? with
      | none => .done () s
      | some line =>
        ((fw.linkage n).serviceInterrupt line >>= fun _ => (fw.linkage n).poll) s := rfl

end Firmware

end BankedController
