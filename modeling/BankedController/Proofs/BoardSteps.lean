import BankedController.Board.Basic
import BankedController.Proofs.IntactRigs
import BankedController.Proofs.Intakes

namespace BankedController

open RegisterMap

namespace RigBus

/-- All blocks stand above the memory of the firmware. -/
theorem free_of_lt {addr : UInt16} (h : addr < 0x8000) : initial.claim? addr = none := by
  rw [XdataBus.claim?_eq, MappedRange.claimIn, Option.map_eq_none_iff, List.find?_eq_none]
  have hstart : ∀ r ∈ ranges, (0x8000 : UInt16) ≤ r.start := by decide
  intro r hr hcontains
  have hbase := UInt16.le_iff_toNat_le.1 (hstart r hr)
  have hlow := UInt16.lt_iff_toNat_lt.1 h
  have hrange := ((r.contains_iff addr).1 hcontains).1
  omega

end RigBus

namespace Rig

variable {ω : Type} {rig : Rig ω}

/-- The rig with a byte of memory set. -/
def stored (rig : Rig ω) (addr : UInt16) (value : UInt8) : Rig ω :=
  { rig with bus := { rig.bus with ram := rig.bus.ram.set addr value } }

theorem Intact.stored (h : rig.Intact) (addr : UInt16) (value : UInt8) :
    (rig.stored addr value).Intact :=
  ⟨h.claims, h.whole⟩

@[simp] theorem ram_stored (addr other : UInt16) (value : UInt8) :
    (rig.stored addr value).bus.ram.get other =
      if addr = other then value else rig.bus.ram.get other :=
  Paged.get_set ..

@[simp] theorem blocks_stored (addr : UInt16) (value : UInt8) :
    (rig.stored addr value).blocks = rig.blocks := rfl

@[simp] theorem record_stored (addr : UInt16) (value : UInt8) :
    (rig.stored addr value).record = rig.record := rfl

/-- Memory is read as it is. -/
theorem Intact.read_free (h : rig.Intact) {addr : UInt16} (haddr : addr < 0x8000) :
    RegisterBus.read addr rig = .done (rig.bus.ram.get addr) rig := by
  have hfree : rig.bus.claim? addr = none := by rw [h.claims, RigBus.free_of_lt haddr]
  exact onBus_of_done (XdataBus.read_of_free hfree)

theorem Intact.write_free (h : rig.Intact) {addr : UInt16} (haddr : addr < 0x8000)
    (value : UInt8) : RegisterBus.write addr value rig = .done () (rig.stored addr value) := by
  have hfree : rig.bus.claim? addr = none := by rw [h.claims, RigBus.free_of_lt haddr]
  exact onBus_of_done (XdataBus.write_of_free hfree value)

end Rig

namespace Board

/-- The bytes of memory that the intake is read off. -/
def watched : List UInt16 := [requestKind, requestTag, systemState, eventFlags]

/-- How far the commands have come on a rig. -/
def intake (rig : Rig Record) : Intake where
  arrived := rig.blocks.usb &&& usbCommandBit ≠ 0
  waiting :=
    if rig.bus.ram.get requestKind = 0 then none else some (rig.bus.ram.get requestTag)
  deferred := rig.bus.ram.get systemState &&& deferredBits ≠ 0
  asked := rig.bus.ram.get eventFlags &&& passEvents ≠ 0
  nextTag := rig.record.nextTag
  received := rig.record.activity.countP fun call => call.slot = .cbwReceived
  submitted := rig.blocks.nvme.issued.reverse.map fun command => command.tag

/-- A rig in order: nothing faults on it, what is posted is meant for the NVMe unit, and that unit
shows no error. -/
structure Sound (rig : Rig Record) : Prop where
  intact : rig.Intact
  kind : rig.bus.ram.get requestKind = 0 ∨
    rig.bus.ram.get requestKind = CommandKind.nvme.requestCode
  clean : rig.blocks.nvme.status &&& errorBit = 0

/-- Memory is set elsewhere than where the kind of what is posted stands. -/
theorem Sound.stored {rig : Rig Record} (h : Sound rig) {addr : UInt16} (haddr : addr ≠ requestKind)
    (value : UInt8) : Sound (rig.stored addr value) := by
  refine ⟨h.intact.stored addr value, ?_, h.clean⟩
  rw [Rig.ram_stored, if_neg haddr]
  exact h.kind

theorem intake_stored_state (rig : Rig Record) (value : UInt8) :
    intake (rig.stored systemState value) =
      { intake rig with deferred := value &&& deferredBits ≠ 0 } := by
  have hkind : ¬systemState = requestKind := by decide
  have htag : ¬systemState = requestTag := by decide
  have hevents : ¬systemState = eventFlags := by decide
  simp only [intake, Rig.ram_stored, Rig.blocks_stored, Rig.record_stored, if_neg hkind,
    if_neg htag, if_neg hevents, if_true]
  rfl

theorem intake_stored_events (rig : Rig Record) (value : UInt8) :
    intake (rig.stored eventFlags value) =
      { intake rig with asked := value &&& passEvents ≠ 0 } := by
  have hkind : ¬eventFlags = requestKind := by decide
  have htag : ¬eventFlags = requestTag := by decide
  have hstate : ¬eventFlags = systemState := by decide
  simp only [intake, Rig.ram_stored, Rig.blocks_stored, Rig.record_stored, if_neg hkind,
    if_neg htag, if_neg hstate, if_true]
  rfl

/-- Without a kind nothing is posted. -/
theorem intake_stored_kind (rig : Rig Record) :
    intake (rig.stored requestKind 0) = { intake rig with waiting := none } := by
  have htag : ¬requestKind = requestTag := by decide
  have hstate : ¬requestKind = systemState := by decide
  have hevents : ¬requestKind = eventFlags := by decide
  simp only [intake, Rig.ram_stored, Rig.blocks_stored, Rig.record_stored, if_neg htag,
    if_neg hstate, if_neg hevents, if_true]
  rfl

/-- A rig that is changed nowhere where the intake is looked at. -/
structure Alike (rig rig' : Rig Record) : Prop where
  intact : rig'.Intact
  usb : rig'.blocks.usb &&& usbCommandBit = rig.blocks.usb &&& usbCommandBit
  kind : rig'.bus.ram.get requestKind = rig.bus.ram.get requestKind
  tag : rig'.bus.ram.get requestTag = rig.bus.ram.get requestTag
  state : rig'.bus.ram.get systemState &&& deferredBits =
    rig.bus.ram.get systemState &&& deferredBits
  events : rig'.bus.ram.get eventFlags &&& passEvents = rig.bus.ram.get eventFlags &&& passEvents
  nextTag : rig'.record.nextTag = rig.record.nextTag
  received : (rig'.record.activity.countP fun call => call.slot = .cbwReceived) =
    rig.record.activity.countP fun call => call.slot = .cbwReceived
  nvme : rig'.blocks.nvme = rig.blocks.nvme

namespace Alike

variable {rig rig' : Rig Record}

theorem sound (h : Alike rig rig') (hs : Sound rig) : Sound rig' := by
  refine ⟨h.intact, ?_, ?_⟩
  · rw [h.kind]
    exact hs.kind
  · rw [h.nvme]
    exact hs.clean

theorem intake_eq (h : Alike rig rig') : intake rig' = intake rig := by
  unfold intake
  rw [h.usb, h.kind, h.tag, h.state, h.events, h.nextTag, h.received, h.nvme]

end Alike

/-- What a run leaves of a state: the rig in order, the intake moved, and the interrupt controller
and the stack as they were. -/
structure Moved (f : Intake → Intake) (s t : State) : Prop where
  sound : Sound t.bus
  intake : Board.intake t.bus = f (Board.intake s.bus)
  irq : t.irq = s.irq
  kept : Kept s t

/-- From every state in order, and with room on the stack, the run ends, and the intake is moved. -/
def Does {α : Type} (room : Nat) (f : Intake → Intake) (m : Run State α) : Prop :=
  ∀ s, Sound s.bus → s.stack.used + room ≤ s.stack.capacity → ∃ a t, m s = .done a t ∧ Moved f s t

/-- A run that leaves the intake alone, with or without room on the stack. -/
abbrev Calm {α : Type} (m : Run State α) : Prop := Does 0 id m

section Sequences

variable {α γ : Type} {room : Nat} {f g : Intake → Intake} {m : Run State α} {k : α → Run State γ}
  {s t u : State}

theorem Moved.refl (h : Sound s.bus) : Moved id s s := ⟨h, rfl, rfl, .refl s⟩

/-- A run that does nothing but move the rig. -/
theorem Moved.of_bus {rig : Rig Record} (h : Sound rig)
    (hintake : Board.intake rig = f (Board.intake s.bus)) : Moved f s { s with bus := rig } :=
  ⟨h, hintake, rfl, ⟨rfl, rfl, rfl, rfl⟩⟩

theorem Moved.trans (h : Moved f s t) (h' : Moved g t u) : Moved (g ∘ f) s u :=
  ⟨h'.sound, h'.intake.trans (congrArg g h.intake), h'.irq.trans h.irq, h.kept.trans h'.kept⟩

theorem Moved.fits (h : Moved f s t) (hfits : s.stack.used + room ≤ s.stack.capacity) :
    t.stack.used + room ≤ t.stack.capacity := by
  rw [h.kept.used, h.kept.capacity]
  exact hfits

theorem Does.bind (hm : Does room f m) (hk : ∀ a, Does room g (k a)) :
    Does room (g ∘ f) (m >>= k) := by
  intro s hs hfits
  obtain ⟨a, t, hrun, ht⟩ := hm s hs hfits
  obtain ⟨c, u, hrest, hu⟩ := hk a t ht.sound (ht.fits hfits)
  exact ⟨c, u, (Run.bind_of_done hrun).trans hrest, ht.trans hu⟩

/-- Steps that leave the intake alone, in front of others. -/
theorem Does.then (hm : Does room id m) (hk : ∀ a, Does room g (k a)) : Does room g (m >>= k) :=
  hm.bind hk

/-- Steps that leave the intake alone, behind others. -/
theorem Does.before (hm : Does room f m) (hk : ∀ a, Does room id (k a)) : Does room f (m >>= k) :=
  hm.bind hk

theorem Does.mono {room' : Nat} (h : Does room f m) (hle : room ≤ room') : Does room' f m :=
  fun s hs hfits => h s hs (by omega)

theorem does_pure (a : α) : Does room id (pure a : Run State α) :=
  fun s hs _ => ⟨a, s, rfl, .refl hs⟩

theorem does_branch {c : Prop} [Decidable c] {m' : Run State α} (yes : Does room f m)
    (no : Does room f m') : Does room f (if c then m else m') := by
  split
  · exact yes
  · exact no

theorem does_modify {h : State → State} (hmoved : ∀ s, Sound s.bus → Moved f s (h s)) :
    Does room f (Run.modify h) :=
  fun s hs _ => ⟨(), h s, rfl, hmoved s hs⟩

theorem does_gets (h : State → α) : Does room id (Run.gets h) :=
  fun s hs _ => ⟨h s, s, rfl, .refl hs⟩

theorem does_note (event : Event) : Does room id (Machine.note event : Run State Unit) :=
  does_modify fun _ hs => ⟨hs, rfl, rfl, ⟨rfl, rfl, rfl, rfl⟩⟩

/-- A failed dispatch is counted. -/
theorem does_failed :
    Does room id (Run.modify fun s : State => { s with stats := s.stats.failed }) :=
  does_modify fun _ hs => ⟨hs, rfl, rfl, ⟨rfl, rfl, rfl, rfl⟩⟩

theorem does_onBus {n : Run (Rig Record) α}
    (h : ∀ rig, Sound rig → ∃ a rig', n rig = .done a rig' ∧ Sound rig' ∧
      intake rig' = f (intake rig)) : Does room f (Machine.onBus n) := by
  intro s hs _
  obtain ⟨a, rig', hrun, hsound, hintake⟩ := h s.bus hs
  exact ⟨a, { s with bus := rig' }, Machine.onBus_of_done hrun, .of_bus hsound hintake⟩

theorem does_onBus_alike {n : Run (Rig Record) α}
    (h : ∀ rig, Sound rig → ∃ a rig', n rig = .done a rig' ∧ Alike rig rig') :
    Does room id (Machine.onBus n) := by
  refine does_onBus fun rig hrig => ?_
  obtain ⟨a, rig', hrun, halike⟩ := h rig hrig
  exact ⟨a, rig', hrun, halike.sound hrig, halike.intake_eq⟩

end Sequences

/-- An access that says nothing to the intake: it does not go to the NVMe unit, and a write neither
goes to one of the four bytes of memory nor acknowledges a command. -/
structure Harmless (addr : UInt16) (value : UInt8) : Prop where
  ram : addr ∉ watched
  usb : addr = usbStatus → value &&& usbCommandBit = 0
  nvme : ¬addr - nvmeBlock < blockSize

instance (addr : UInt16) (value : UInt8) : Decidable (Harmless addr value) :=
  decidable_of_iff (addr ∉ watched ∧
      (addr = usbStatus → value &&& usbCommandBit = 0) ∧ ¬addr - nvmeBlock < blockSize)
    ⟨fun h => ⟨h.1, h.2.1, h.2.2⟩, fun h => ⟨h.ram, h.usb, h.nvme⟩⟩

/-- An address to which every access is harmless. -/
def Unwatched (addr : UInt16) : Prop :=
  addr ∉ usbStatus :: watched ∧
    ¬addr - nvmeBlock < blockSize

instance (addr : UInt16) : Decidable (Unwatched addr) :=
  inferInstanceAs (Decidable (_ ∧ _))

theorem Unwatched.harmless {addr : UInt16} (h : Unwatched addr) (value : UInt8) :
    Harmless addr value := by
  obtain ⟨hwatched, hnvme⟩ := h
  refine ⟨?_, ?_, hnvme⟩
  · intro hmem
    exact hwatched (List.mem_cons_of_mem _ hmem)
  · rintro rfl
    exact absurd (by decide) hwatched

theorem unwatched_secondary {addr : UInt16} (h : Secondary addr) : Unwatched addr := by
  have habove := UInt16.le_iff_toNat_le.1 h.1
  have hbelow := UInt16.lt_iff_toNat_lt.1 h.2
  have hbase : endpointSecondaryBase.toNat = 0x9096 := rfl
  have hlast : (endpointSecondaryBase + 8).toNat = 0x909E := rfl
  constructor
  · intro hmem
    simp only [watched, List.mem_cons, List.not_mem_nil, or_false] at hmem
    rcases hmem with rfl | rfl | rfl | rfl | rfl
    all_goals exact absurd h (by decide)
  · intro hnvme
    rw [UInt16.lt_iff_toNat_lt, UInt16.toNat_sub] at hnvme
    have hblock : nvmeBlock.toNat = 0xC420 := rfl
    have hsize : blockSize.toNat = 0x10 := rfl
    omega

section Accesses

variable {room : Nat} {addr : UInt16} {value : UInt8}

theorem not_nvme_of_offset (h : ¬addr - nvmeBlock < blockSize) :
    RigBus.initial.claim? addr ≠ some (.unit .nvme) := by
  intro hclaim
  have hblock : addr - CommandKind.nvme.block < blockSize := RigBus.unit_of_claim hclaim
  exact h hblock

theorem does_read (h : ¬addr - nvmeBlock < blockSize) :
    Does room id (Machine.read addr : Run State UInt8) := by
  refine does_onBus_alike fun rig hrig => ?_
  obtain ⟨value, rig', hread, haccessed, hram, hstatus⟩ := hrig.intact.read addr
  refine ⟨value, rig', hread, haccessed.intact, ?_, ?_, ?_, ?_, ?_, ?_, ?_, ?_⟩
  · rw [Blocks.usb, Blocks.usb, hstatus]
  · rw [hram]
  · rw [hram]
  · rw [hram]
  · rw [hram]
  · rw [haccessed.record]
  · rw [haccessed.record]
  · exact haccessed.nvme (not_nvme_of_offset h)

theorem does_write (h : Harmless addr value) :
    Does room id (Machine.write addr value : Run State Unit) := by
  have hram {other : UInt16} (hother : other ∈ watched) :
      other ≠ addr := by
    rintro rfl
    exact h.ram hother
  refine does_onBus_alike fun rig hrig => ?_
  obtain ⟨rig', hwrite, haccessed, hmemory, husb⟩ := hrig.intact.write addr value
  refine ⟨(), rig', hwrite, haccessed.intact, ?_, hmemory _ (hram (by decide)),
    hmemory _ (hram (by decide)), ?_, ?_, ?_, ?_, haccessed.nvme (not_nvme_of_offset h.nvme)⟩
  · rw [husb]
    split
    next hstatus =>
      exact Bits.clear_and_of_disjoint _ (Bits.not_and_of_disjoint (h.usb hstatus))
    next => rfl
  · rw [hmemory _ (hram (by decide))]
  · rw [hmemory _ (hram (by decide))]
  · rw [haccessed.record]
  · rw [haccessed.record]

theorem does_setBits (h : Unwatched addr) (mask : UInt8) :
    Does room id (Machine.setBits addr mask : Run State Unit) := by
  simp only [Machine.setBits, RegisterBus.setBits, Machine.onBus_bind]
  exact (does_read h.2).then fun value => does_write (h.harmless (value ||| mask))

theorem does_clearBits (h : Unwatched addr) (mask : UInt8) :
    Does room id (Machine.clearBits addr mask : Run State Unit) := by
  simp only [Machine.clearBits, RegisterBus.clearBits, Machine.onBus_bind]
  exact (does_read h.2).then fun value => does_write (h.harmless (value &&& ~~~mask))

/-- Bits that are set in the memory of the firmware. -/
theorem setBits_free {rig : Rig Record} (h : rig.Intact) (haddr : addr < 0x8000) (mask : UInt8) :
    RegisterBus.setBits addr mask rig =
      .done () (rig.stored addr (rig.bus.ram.get addr ||| mask)) := by
  unfold RegisterBus.setBits
  rw [Run.bind_of_done (h.read_free haddr)]
  exact h.write_free haddr _

/-- Bits that are cleared in the memory of the firmware. -/
theorem clearBits_free {rig : Rig Record} (h : rig.Intact) (haddr : addr < 0x8000) (mask : UInt8) :
    RegisterBus.clearBits addr mask rig =
      .done () (rig.stored addr (rig.bus.ram.get addr &&& ~~~mask)) := by
  unfold RegisterBus.clearBits
  rw [Run.bind_of_done (h.read_free haddr)]
  exact h.write_free haddr _

/-- Bits of the system state that no work is deferred by. -/
theorem does_setBits_state {mask : UInt8} (h : mask &&& deferredBits = 0) :
    Does room id (Machine.setBits systemState mask : Run State Unit) := by
  refine does_onBus fun rig hrig => ?_
  refine ⟨(), _, setBits_free hrig.intact (by decide) mask, hrig.stored (by decide) _, ?_⟩
  rw [intake_stored_state, Bits.or_and, h, UInt8.or_zero]
  rfl

/-- Work is deferred. -/
theorem does_defer {mask : UInt8} (h : mask &&& deferredBits ≠ 0) :
    Does room (fun i => { i with deferred := true })
      (Machine.setBits systemState mask : Run State Unit) := by
  refine does_onBus fun rig hrig => ?_
  have hsome : (rig.bus.ram.get systemState ||| mask) &&& deferredBits ≠ 0 := by
    rw [Bits.or_and]
    intro hzero
    exact h (UInt8.or_eq_zero_iff.1 hzero).2
  refine ⟨(), _, setBits_free hrig.intact (by decide) mask, hrig.stored (by decide) _, ?_⟩
  rw [intake_stored_state, decide_eq_true hsome]

end Accesses

section StandIns

variable {room : Nat}

theorem does_remember {f : Record → Record} {g : Intake → Intake}
    (h : ∀ rig, intake { rig with record := f rig.record } = g (intake rig)) :
    Does room g (Rig.remember f) := by
  refine does_onBus fun rig hrig => ?_
  exact ⟨(), _, rfl, ⟨⟨hrig.intact.claims, hrig.intact.whole⟩, hrig.kind, hrig.clean⟩, h rig⟩

/-- Of all stand-ins only one does something that the intake sees. -/
theorem does_behaviour {slot : SlotId} (h : slot ≠ .cbwReceived) :
    Does room id (Behaviour.ofSlot slot).run := by
  have hacknowledge {register : UInt16} {mask : UInt8} (hw : Harmless register mask) :
      Does room id (Behaviour.acknowledge register mask).run := does_write hw
  have hclear : Does room id Behaviour.clearMasterReady.run :=
    does_clearBits (by decide) _
  have hlink : Does room id Behaviour.linkUp.run := does_setBits_state (by decide)
  unfold Behaviour.ofSlot
  rw [if_neg h]
  split_ifs
  all_goals first
    | exact hacknowledge (by decide)
    | exact hlink
    | exact hclear
    | exact does_pure ()

theorem does_standIn {l : Linkage (Rig Record)} {slot : SlotId} (h : slot ≠ .cbwReceived)
    (param : Option UInt8) : Does room id (standIn slot l param) := by
  refine (does_gets _).then fun bank => ?_
  have hnote : Does room id (Rig.remember fun r : Record =>
      { r with activity := ⟨slot, param, bank⟩ :: r.activity }) := by
    refine does_remember fun rig => ?_
    unfold intake
    dsimp only
    rw [List.countP_cons_of_neg (by simpa using h)]
    rfl
  exact hnote.then fun _ => does_behaviour h

/-- The request block after a post. -/
def posted (rig : Rig Record) (r : CommandRequest) : Rig Record :=
  ((((((((rig.stored requestOpcode r.opcode).stored requestParam r.param).stored requestTag
    r.tag).stored requestAddress (r.address >>> 24).toUInt8).stored (requestAddress + 1)
    (r.address >>> 16).toUInt8).stored (requestAddress + 2) (r.address >>> 8).toUInt8).stored
    (requestAddress + 3) r.address.toUInt8).stored requestKind r.kind.requestCode)

theorem intact_posted {rig : Rig Record} (h : rig.Intact) (r : CommandRequest) :
    (posted rig r).Intact := by
  unfold posted
  exact (((((((h.stored _ _).stored _ _).stored _ _).stored _ _).stored _ _).stored _ _).stored
    _ _).stored _ _

theorem blocks_posted (rig : Rig Record) (r : CommandRequest) :
    (posted rig r).blocks = rig.blocks := by
  simp only [posted, Rig.blocks_stored]

theorem record_posted (rig : Rig Record) (r : CommandRequest) :
    (posted rig r).record = rig.record := by
  simp only [posted, Rig.record_stored]

theorem kind_posted (rig : Rig Record) (r : CommandRequest) :
    (posted rig r).bus.ram.get requestKind = r.kind.requestCode := by
  rw [posted, Rig.ram_stored, if_pos rfl]

theorem tag_posted (rig : Rig Record) (r : CommandRequest) :
    (posted rig r).bus.ram.get requestTag = r.tag := by
  simp +decide [posted]

/-- A post leaves all memory alone but for the request block. -/
theorem ram_posted (rig : Rig Record) (r : CommandRequest) {addr : UInt16}
    (h : addr < requestKind ∨ requestAddress + 3 < addr) :
    (posted rig r).bus.ram.get addr = rig.bus.ram.get addr := by
  have hne {other : UInt16} (hblock : requestKind ≤ other ∧ other ≤ requestAddress + 3) :
      ¬other = addr := by
    rintro rfl
    rcases h with hlow | hhigh
    · exact absurd hblock.1 (UInt16.not_le.2 hlow)
    · exact absurd hblock.2 (UInt16.not_le.2 hhigh)
  unfold posted
  simp only [Rig.ram_stored]
  repeat rw [if_neg (hne (by decide))]

theorem post_apply (r : CommandRequest) :
    ∃ m : Run (Rig Record) Unit, r.post = Machine.onBus m ∧
      ∀ rig : Rig Record, rig.Intact → m rig = .done () (posted rig r) := by
  refine ⟨do
    RegisterBus.write requestOpcode r.opcode
    RegisterBus.write requestParam r.param
    RegisterBus.write requestTag r.tag
    RegisterBus.write32 requestAddress r.address
    RegisterBus.write requestKind r.kind.requestCode, ?_, ?_⟩
  · simp only [CommandRequest.post, Machine.write, Machine.write32, Machine.onBus_bind]
  · intro rig h
    unfold RegisterBus.write32
    simp only [bind_assoc]
    rw [Run.bind_of_done (h.write_free (by decide) _)]
    have h := h.stored requestOpcode r.opcode
    rw [Run.bind_of_done (h.write_free (by decide) _)]
    have h := h.stored requestParam r.param
    rw [Run.bind_of_done (h.write_free (by decide) _)]
    have h := h.stored requestTag r.tag
    rw [Run.bind_of_done (h.write_free (by decide) _)]
    have h := h.stored requestAddress (r.address >>> 24).toUInt8
    rw [Run.bind_of_done (h.write_free (by decide) _)]
    have h := h.stored (requestAddress + 1) (r.address >>> 16).toUInt8
    rw [Run.bind_of_done (h.write_free (by decide) _)]
    have h := h.stored (requestAddress + 2) (r.address >>> 8).toUInt8
    rw [Run.bind_of_done (h.write_free (by decide) _)]
    have h := h.stored (requestAddress + 3) r.address.toUInt8
    exact h.write_free (by decide) _

theorem does_post (tag : UInt8) :
    Does room (fun i => { i with waiting := some tag }) (readCommand tag).post := by
  obtain ⟨m, hpost, happly⟩ := post_apply (readCommand tag)
  rw [hpost]
  refine does_onBus fun rig hrig => ⟨(), _, happly rig hrig.intact, ⟨?_, ?_, ?_⟩, ?_⟩
  · exact intact_posted hrig.intact _
  · exact .inr (kind_posted rig _)
  · rw [blocks_posted]
    exact hrig.clean
  · have hne : (readCommand tag).kind.requestCode ≠ 0 := show (1 : UInt8) ≠ 0 by decide
    have hstate : (posted rig (readCommand tag)).bus.ram.get systemState = _ :=
      ram_posted rig _ (.inr (by decide))
    have hevents : (posted rig (readCommand tag)).bus.ram.get eventFlags = _ :=
      ram_posted rig _ (.inl (by decide))
    unfold intake
    rw [kind_posted, if_neg hne, tag_posted, hstate, hevents, blocks_posted, record_posted]
    rfl

/-- The command bit is acknowledged. -/
theorem does_acknowledge :
    Does room (fun i => { i with arrived := false })
      (Machine.write usbStatus usbCommandBit : Run State Unit) := by
  refine does_onBus fun rig hrig => ?_
  obtain ⟨rig', hwrite, haccessed, hmemory, husb⟩ := hrig.intact.write usbStatus usbCommandBit
  have hnvme : rig'.blocks.nvme = rig.blocks.nvme :=
    haccessed.nvme (not_nvme_of_offset (by decide))
  have hkind := hmemory requestKind (by decide)
  have htag := hmemory requestTag (by decide)
  have hstate := hmemory systemState (by decide)
  have hevents := hmemory eventFlags (by decide)
  have harrived : rig'.blocks.usb &&& usbCommandBit = 0 := by
    rw [husb, if_pos rfl]
    exact Bits.clear_and_self _ _
  refine ⟨(), rig', hwrite, ⟨haccessed.intact, ?_, ?_⟩, ?_⟩
  · rw [hkind]
    exact hrig.kind
  · rw [hnvme]
    exact hrig.clean
  · unfold intake
    rw [harrived, hkind, htag, hstate, hevents, haccessed.record, hnvme]
    rfl

/-- The tag that is given out is the next one. -/
theorem does_takeTag {γ : Type} {k : UInt8 → Run State γ} {g : UInt8 → Intake → Intake}
    (hk : ∀ tag, Does room (g tag) (k tag)) :
    Does room (fun i => g i.nextTag { i with nextTag := i.nextTag + 1 }) (takeTag >>= k) := by
  intro s hs hfits
  let tag := (intake s.bus).nextTag
  have htake : takeTag s = (Rig.remember (fun r : Record => { r with nextTag := tag + 1 }) >>=
      fun _ => pure tag) s := rfl
  have hremember : Does room (fun i => { i with nextTag := tag + 1 })
      (Rig.remember fun r : Record => { r with nextTag := tag + 1 }) :=
    does_remember fun rig => rfl
  obtain ⟨_, t, hrun, ht⟩ := hremember s hs hfits
  obtain ⟨c, u, hrest, hu⟩ := hk tag t ht.sound (ht.fits hfits)
  have hmoved := ht.trans hu
  refine ⟨c, u, ?_, hmoved.sound, hmoved.intake, hmoved.irq, hmoved.kept⟩
  rw [Run.bind_of_done (htake.trans (Run.bind_of_done hrun))]
  exact hrest

/-- The stand-in for a received command counts itself, acknowledges the command, takes a tag, posts
a request and defers the work. -/
theorem does_relay {l : Linkage (Rig Record)} (param : Option UInt8) :
    Does room Intake.relay (standIn .cbwReceived l param) := by
  have hcount (bank : Bank) : Does room (fun i => { i with received := i.received + 1 })
      (Rig.remember fun r : Record =>
        { r with activity := ⟨.cbwReceived, param, bank⟩ :: r.activity }) := by
    refine does_remember fun rig => ?_
    unfold intake
    dsimp only
    rw [List.countP_cons_of_pos (by simp)]
    rfl
  have hpost (tag : UInt8) : Does room _ _ := (does_post tag).bind fun _ =>
    does_defer (show deferredHost &&& deferredBits ≠ 0 by decide)
  exact (does_gets _).then fun bank => (hcount bank).bind fun _ =>
    does_acknowledge.bind fun _ => does_takeTag hpost

end StandIns

end Board

end BankedController
