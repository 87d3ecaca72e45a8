import BankedController.Proofs.PlainRuns

namespace BankedController

variable {β α : Type}

/-- Machines that differ in their logs and in the sites that stand for a convention at most. The
window is compared with its number of switches. -/
structure Machine.Alike (s s' : Machine β) : Prop where
  bus : s.bus = s'.bus
  window : s.window = s'.window
  entries : s.stack.entries.map StackEntry.plain = s'.stack.entries.map StackEntry.plain
  used : s.stack.used = s'.stack.used
  capacity : s.stack.capacity = s'.stack.capacity
  highWater : s.stack.highWater = s'.stack.highWater
  irq : s.irq = s'.irq
  stats : s.stats = s'.stats

/-- Runs that end in the same way, on machines that are alike. -/
inductive Outcome.InStep : Outcome (Machine β) α → Outcome (Machine β) α → Prop
  | done (a : α) {s s' : Machine β} (h : s.Alike s') : InStep (.done a s) (.done a s')
  | fault (cause : Fault) {s s' : Machine β} (h : s.Alike s') :
    InStep (.fault cause s) (.fault cause s')
  | exhausted : InStep .exhausted .exhausted

/-- From machines that are alike, two runs end in step. -/
def Run.Lockstep (m m' : Run (Machine β) α) : Prop := ∀ s s', s.Alike s' → (m s).InStep (m' s')

/-- All ways into other routines run in lockstep, and so does all that can be made of them without a
look at conventions. -/
structure Linkage.Lockstep [RegisterBus β] (l l' : Linkage β) : Prop where
  call : ∀ id param, Run.Lockstep (l.call id param).plain (l'.call id param).plain
  callStub : ∀ addr param, Run.Lockstep (l.callStub addr param).plain (l'.callStub addr param).plain
  dispatch : ∀ id param, Run.Lockstep (l.dispatch id param) (l'.dispatch id param)
  poll : Run.Lockstep l.poll l'.poll
  runPass : Run.Lockstep l.runPass l'.runPass
  discreet : ∀ {α : Type} {m : Linkage β → Run (Machine β) α}, Discreet m → Run.Lockstep (m l) (m l')

/-- What there is to see when a routine is entered: the routine and its byte, the number of calls so
far, the bank that is mapped, and the entries and the bytes on the stack. -/
structure Sighting where
  name : String
  addr : CodeAddr
  param : Option UInt8
  calls : Nat
  active : Bank
  depth : Nat
  used : Nat
  deriving DecidableEq

def Sighting.on (s : Machine β) (placed : Placed (Routine β)) (param : Option UInt8) : Sighting where
  name := placed.name
  addr := placed.addr
  param := param
  calls := s.stats.total
  active := s.window.active
  depth := s.stack.depth
  used := s.stack.used

/-- The firmware with something run on the bus whenever a routine is entered. -/
def Firmware.observed (see : Sighting → Run β Unit) (fw : Firmware β) : Firmware β :=
  { fw with
    image := fw.image.map fun placed l param => do
      let sighting ← Run.gets fun s => Sighting.on s placed param
      Machine.onBus (see sighting)
      placed.body l param }

/-- The plain view shows all that is compared. -/
theorem Machine.alike_iff {s s' : Machine β} : s.Alike s' ↔ s.plain = s'.plain := by
  obtain ⟨bus, window, ⟨entries, used, capacity, highWater⟩, irq, stats, log⟩ := s
  obtain ⟨bus', window', ⟨entries', used', capacity', highWater'⟩, irq', stats', log'⟩ := s'
  constructor
  · rintro ⟨rfl, rfl, hentries, rfl, rfl, rfl, rfl, rfl⟩
    dsimp only at hentries
    unfold plain CallStack.plain
    dsimp only
    rw [hentries]
  · intro h
    unfold plain CallStack.plain at h
    injection h with hbus hwindow hstack hirq hstats
    injection hstack with hentries hused hcapacity hhighWater
    exact ⟨hbus, hwindow, hentries, hused, hcapacity, hhighWater, hirq, hstats⟩

theorem Outcome.inStep_of_through {out out' : Outcome (Machine β) α}
    (h : out.through Machine.plain = out'.through Machine.plain) : out.InStep out' := by
  cases out with
  | done a t => cases out' with
    | done a' t' =>
      obtain ⟨rfl, ht⟩ := Outcome.done.inj h
      exact .done a (Machine.alike_iff.2 ht)
    | fault cause' t' => cases h
    | exhausted => cases h
  | fault cause t => cases out' with
    | done a' t' => cases h
    | fault cause' t' =>
      obtain ⟨rfl, ht⟩ := Outcome.fault.inj h
      exact .fault cause (Machine.alike_iff.2 ht)
    | exhausted => cases h
  | exhausted => cases out' with
    | done a' t' => cases h
    | fault cause' t' => cases h
    | exhausted => exact .exhausted

/-- Two runs that one run mirrors are in lockstep. -/
theorem Run.lockstep_of_mirrors {m m' view : Run (Machine β) α} (h : m.Mirrors view)
    (h' : m'.Mirrors view) : Run.Lockstep m m' := by
  intro s s' hs
  apply Outcome.inStep_of_through
  calc (m s).through Machine.plain = view s.plain := (h s).symm
    _ = view s'.plain := congrArg view (Machine.alike_iff.1 hs)
    _ = (m' s').through Machine.plain := h' s'

theorem Linkage.lockstep_of_mirrors [RegisterBus β] {l l' view : Linkage β} (h : l.Mirrors view)
    (h' : l'.Mirrors view) : l.Lockstep l' := by
  have hdiscreet {α : Type} {m : Linkage β → Run (Machine β) α} (hm : Discreet m) :
      Run.Lockstep (m l) (m l') :=
    Run.lockstep_of_mirrors (hm.mirrors h) (hm.mirrors h')
  constructor
  · exact fun id param => hdiscreet (.call id param)
  · exact fun addr param => hdiscreet (.callStub addr param)
  · exact fun id param => hdiscreet (.dispatch id param)
  · exact hdiscreet .poll
  · exact hdiscreet .runPass
  · exact hdiscreet

namespace DispatchTable

theorem map_plain_insert (slot : DispatchSlot) (slots : List DispatchSlot) :
    (insert slot slots).map DispatchSlot.plain = insert slot.plain (slots.map DispatchSlot.plain) := by
  induction slots with
  | nil => rfl
  | cons first rest ih =>
    rw [List.map_cons, insert, insert]
    by_cases hbefore : slot.id.number < first.id.number
    · have hbefore' : slot.plain.id.number < first.plain.id.number := hbefore
      rw [if_pos hbefore, if_pos hbefore', List.map_cons, List.map_cons]
    · have hbefore' : ¬slot.plain.id.number < first.plain.id.number := hbefore
      rw [if_neg hbefore, if_neg hbefore', List.map_cons, ih]

/-- The plain view of a table is built of the plain views of its rows. -/
theorem plain_of_build {entries : List DispatchEntry} {present : CodeAddr → Bool}
    {table : DispatchTable} (h : build entries present = .ok table) :
    table.plain = ⟨((entries.map DispatchEntry.plain).map slotOf).foldr insert []⟩ := by
  have hslots (entries : List DispatchEntry) :
      ((entries.map slotOf).foldr insert []).map DispatchSlot.plain =
        ((entries.map DispatchEntry.plain).map slotOf).foldr insert [] := by
    induction entries with
    | nil => rfl
    | cons e rest ih =>
      simp only [List.map_cons, List.foldr_cons]
      rw [map_plain_insert, ih]
      rfl
  unfold build at h
  split at h
  · cases h
  · cases h
    exact congrArg DispatchTable.mk (hslots entries)

end DispatchTable

namespace CodeImage

/-- Which core routines are installed, and where, does not depend on conventions. -/
theorem installCore_plain {ρ : Type} (scan service : ρ) (image : CodeImage ρ)
    (entries : List DispatchEntry) :
    image.installCore scan service (entries.map DispatchEntry.plain) =
      image.installCore scan service entries := by
  induction entries generalizing image with
  | nil => rfl
  | cons e rest ih =>
    have htarget : e.plain.target = e.target := rfl
    have hslot : e.plain.slot = e.slot := rfl
    rw [List.map_cons, installCore, installCore, htarget, hslot]
    split
    · exact ih image
    · split
      · exact ih _
      · exact ih image

variable {ρ τ : Type} {image : CodeImage ρ}

theorem resolve_map {f : Placed ρ → τ} {logical : UInt16} {active : Bank} {placed : Placed ρ}
    (h : image.resolve logical active = some placed) :
    (image.map f).resolve logical active = some ⟨placed.name, placed.addr, f placed⟩ := by
  unfold resolve get? at h ⊢
  rw [map, List.find?_map]
  exact congrArg (Option.map _) h

end CodeImage

namespace Firmware

variable {fw : Firmware β} {see : Sighting → Run β Unit}

/-- What an observer is told shows in the plain view of the machine. -/
theorem discreet_observed (himage : fw.image.Discreet) : (fw.observed see).image.Discreet := by
  intro observed hobserved param
  obtain ⟨placed, hplaced, rfl⟩ := List.mem_map.1 hobserved
  have hlook : DiscreetStep Sighting (Run.gets fun s : Machine β => Sighting.on s placed param) := by
    have hplain : (fun s : Machine β => Sighting.on s placed param) =
        fun s => Sighting.on s.plain placed param := by
      funext s
      unfold Sighting.on
      rw [Machine.stack_plain, CallStack.depth_plain]
      rfl
    rw [hplain]
    exact .look fun s => Sighting.on s placed param
  refine .sequence (.step _ hlook) fun sighting => ?_
  exact .followed (.step _ (.bus (see sighting))) (himage placed hplaced param)

theorem complete_observed (hfw : fw.Complete) : (fw.observed see).Complete := by
  intro id slot caller hslot
  obtain ⟨placed, hplaced, hresolve⟩ := hfw id slot caller hslot
  exact ⟨_, List.mem_map.2 ⟨placed, hplaced, rfl⟩, CodeImage.resolve_map hresolve⟩

variable [RegisterBus β] {fw' : Firmware β} {image : CodeImage (Routine β)}
  {entries entries' : List DispatchEntry} {config : FirmwareConfig}

theorem complete_of_link (h : link image entries config = .ok fw) : fw.Complete := by
  intro id slot caller hslot
  obtain ⟨placed, hplaced, -, hresolve⟩ := resolve_target h hslot (FarCall.eq_bankOf caller)
  exact ⟨placed, hplaced, hresolve⟩

theorem discreet_of_link (h : link image entries config = .ok fw) (himage : image.Discreet) :
    fw.image.Discreet := by
  obtain ⟨-, -, hfw, -⟩ := link_eq_ok h
  rw [hfw]
  exact CodeImage.forall_of_installCore (P := fun placed : Placed (Routine β) => placed.body.Discreet)
    (fun _ _ => Discreet.scanRoutine) (fun _ _ => Discreet.commandServiceRoutine) entries himage

/-- Without conventions, the two firmwares are one. -/
theorem plain_of_links (h : link image entries config = .ok fw)
    (h' : link image entries' config = .ok fw')
    (hentries : entries.map DispatchEntry.plain = entries'.map DispatchEntry.plain) :
    fw.plain = fw'.plain := by
  obtain ⟨-, hconfig, himage, htable⟩ := link_eq_ok h
  obtain ⟨-, hconfig', himage', htable'⟩ := link_eq_ok h'
  have hsame : fw.image = fw'.image := by
    rw [himage, himage', ← CodeImage.installCore_plain, hentries, CodeImage.installCore_plain]
  unfold plain
  rw [hconfig, hconfig', hsame, DispatchTable.plain_of_build htable,
    DispatchTable.plain_of_build htable', hentries]

omit [RegisterBus β] in
theorem plain_observed (see : Sighting → Run β Unit) (h : fw.plain = fw'.plain) :
    (fw.observed see).plain = (fw'.observed see).plain :=
  congrArg (observed see) h

theorem lockstep_of_plain (hfw : fw.Complete) (himage : fw.image.Discreet) (hfw' : fw'.Complete)
    (himage' : fw'.image.Discreet) (h : fw.plain = fw'.plain) (n : Nat) :
    (fw.linkage n).Lockstep (fw'.linkage n) := by
  have hview : (fw'.linkage n).Mirrors (fw.plain.linkage n) := by
    rw [h]
    exact linkage_mirrors hfw' himage' n
  exact Linkage.lockstep_of_mirrors (linkage_mirrors hfw himage n) hview

end Firmware

namespace Relay

/-- The table of the relay with each of the two conventions in the place of the other. -/
def flipped : List DispatchEntry :=
  [⟨.hwInit, .bank1, 0x8020, .tailJump⟩, ⟨.usbInit, .bank0, 0x8010, .callReturn⟩]

def flippedFirmware : Firmware RigBus where
  config := .standard
  table := ⟨flipped.map DispatchTable.slotOf⟩
  image := image

theorem link_flipped : Firmware.link image flipped .standard = .ok flippedFirmware := rfl

theorem discreet_image : image.Discreet := by
  have hanswer : answer.Discreet :=
    fun _ => .followed .poll (.step _ (.select _))
  have hask : ask.Discreet :=
    fun _ => .followed (.step _ (.select _)) (.dispatch _ _)
  intro placed hplaced
  simp only [image, List.mem_cons, List.not_mem_nil, or_false] at hplaced
  rcases hplaced with rfl | rfl
  · exact hanswer
  · exact hask

end Relay

end BankedController
