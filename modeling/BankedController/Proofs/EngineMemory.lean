import BankedController.Proofs.BusRelations
import BankedController.Proofs.PlainMemory

namespace BankedController

open RegisterMap

variable {β α : Type}

/-- The bytes that the engine keeps in memory. -/
def EngineByte (addr : UInt16) : Prop := EngineRam addr ∨ addr = requestKind

instance (addr : UInt16) : Decidable (EngineByte addr) :=
  inferInstanceAs (Decidable (_ ∨ _))

/-- A bus with plain memory for the engine, as far as its state is `wired`. Nothing is said of an
access that does not return. -/
structure EngineMemory (β : Type) [RegisterBus β] where
  wired : β → Prop
  ram : β → UInt16 → UInt8
  read {bus bus' : β} : wired bus → ∀ {addr value},
    RegisterBus.read addr bus = .done value bus' →
      wired bus' ∧ (∀ a, EngineByte a → ram bus' a = ram bus a) ∧
        (EngineByte addr → value = ram bus addr)
  write {bus bus' : β} : wired bus → ∀ {addr value},
    RegisterBus.write addr value bus = .done () bus' →
      wired bus' ∧ ∀ a, EngineByte a → ram bus' a = if a = addr then value else ram bus a

/-- Plain memory at those bytes holds what the engine keeps. -/
def PlainMemory.engineMemory [RegisterBus β] (b : PlainMemory β EngineByte) : EngineMemory β where
  wired := b.wired
  ram := b.ram
  read {bus bus'} hwired {addr value} h := by
    obtain ⟨hwired', hram⟩ := b.read hwired h
    refine ⟨hwired', hram, fun haddr => ?_⟩
    obtain ⟨fetched, hfetch⟩ := b.fetch hwired haddr
    rw [hfetch] at h
    cases h
    rfl
  write := b.write

namespace EngineMemory

variable [RegisterBus β] (b : EngineMemory β)

/-- The number that a wait counts in memory. -/
def counter (wait : WaitKind) (bus : β) : UInt32 :=
  RegisterBus.joinBytes (b.ram bus wait.counter) (b.ram bus (wait.counter + 1))
    (b.ram bus (wait.counter + 2)) (b.ram bus (wait.counter + 3))

/-- The place in the queue of the command in flight. -/
def slot (bus : β) : UInt8 := b.ram bus commandSlot

/-- A request that is posted is of one of the kinds. -/
def Posted (posts : List CommandKind) (bus : β) : Prop :=
  ∀ kind, CommandKind.ofRequest? (b.ram bus requestKind) = some kind → kind ∈ posts

/-- What commands of the given kinds leave: the counters of all other kinds, and the place in the
queue if there are none of them. None but submissions claim a place, and all clear it. Requests for
commands may be posted of other kinds than those that are carried out. -/
structure Spared (kinds posts : List CommandKind) (bus bus' : β) : Prop where
  wired : b.wired bus'
  posted : b.Posted posts bus'
  counters : ∀ kind, kind ∉ kinds → ∀ addr, kind.CountsAt addr → b.ram bus' addr = b.ram bus addr
  slot : .nvme ∉ kinds → b.slot bus' = b.slot bus ∨ kinds ≠ [] ∧ b.slot bus' = 0

/-- A relation that anything may extend that does no more to the engine's memory than commands and
requests of the given kinds do. -/
def Spares (kinds posts : List CommandKind) (bus bus' : β) : Prop :=
  b.wired bus → b.Posted posts bus → b.Spared kinds posts bus bus'

/-- The writes that are part of such a thing. -/
structure SparingWrite (kinds posts : List CommandKind) (addr : UInt16) (value : UInt8) : Prop where
  request : addr = requestKind → ∀ kind, CommandKind.ofRequest? value = some kind → kind ∈ posts
  counters : ∀ kind, kind ∉ kinds → ¬kind.CountsAt addr
  slot : addr = commandSlot → kinds ≠ [] ∧ (.nvme ∉ kinds → value = 0)

variable {b} {kinds posts : List CommandKind} {addr : UInt16} {value : UInt8}

theorem extends_spares : Extends (b.Spares kinds posts) where
  refl bus hwired hposted := ⟨hwired, hposted, fun _ _ _ _ => rfl, fun _ => .inl rfl⟩
  trans {bus bus' bus''} h h' hwired hposted := by
    have first := h hwired hposted
    have second := h' first.wired first.posted
    refine ⟨second.wired, second.posted, fun kind hkind a ha => ?_, fun hnvme => ?_⟩
    · exact (second.counters kind hkind a ha).trans (first.counters kind hkind a ha)
    rcases second.slot hnvme with hsame | hcleared
    · rw [hsame]
      exact first.slot hnvme
    · exact .inr hcleared

theorem not_countsAt_of_not_engineByte (h : ¬EngineByte addr) (kind : CommandKind) :
    ¬kind.CountsAt addr :=
  fun hcounts => h (.inl (engineRam_of_countsAt hcounts))

/-- The counters lie next to each other. -/
theorem not_countsAt_of_outside (h : addr < queueCounter ∨ recoveryCount ≤ addr)
    (kind : CommandKind) : ¬kind.CountsAt addr := by
  have hqueue : queueCounter.toNat = 0x0A64 := rfl
  have hflash : flashCounter.toNat = 0x0A6C := rfl
  have hphy : phyCounter.toNat = 0x0A70 := rfl
  have hlast : recoveryCount.toNat = 0x0A74 := rfl
  intro hcounts
  simp only [UInt16.le_iff_toNat_le, UInt16.lt_iff_toNat_lt] at h
  cases kind <;>
    simp only [CommandKind.CountsAt, UInt16.le_iff_toNat_le, UInt16.lt_iff_toNat_lt] at hcounts <;>
    omega

/-- The kind of the posted request is the last byte that the engine keeps. -/
theorem not_engineByte_of_gt (h : requestKind < addr) : ¬EngineByte addr := by
  have hlast : recoveryCount.toNat = 0x0A74 := rfl
  have hrequest : requestKind.toNat = 0x0A80 := rfl
  have habove := UInt16.lt_iff_toNat_lt.1 h
  rintro (hram | rfl)
  · have hbelow := UInt16.le_iff_toNat_le.1 hram.2
    omega
  · omega

/-- Nothing that the engine keeps is written. -/
theorem SparingWrite.of_not_engineByte (h : ¬EngineByte addr) :
    SparingWrite kinds posts addr value := by
  refine ⟨?_, fun kind _ => not_countsAt_of_not_engineByte h kind, ?_⟩
  · rintro rfl
    exact absurd (.inr rfl) h
  · rintro rfl
    exact absurd (by decide) h

/-- The registers of a unit are not memory of the engine. -/
theorem not_engineByte_block (kind : CommandKind) {offset : UInt16} (h : offset < blockSize) :
    ¬EngineByte (kind.block + offset) := by
  have hlt : offset.toNat < 16 := by simpa [blockSize, UInt16.lt_iff_toNat_lt] using h
  have hblock : 0xC420 ≤ kind.block.toNat ∧ kind.block.toNat ≤ 0xE710 := by
    cases kind <;> decide
  have hsum : (kind.block + offset).toNat = kind.block.toNat + offset.toNat := by
    rw [UInt16.toNat_add]
    apply Nat.mod_eq_of_lt
    omega
  have hrequest : requestKind.toNat = 0x0A80 := rfl
  apply not_engineByte_of_gt
  apply UInt16.lt_iff_toNat_lt.2
  omega

/-- A byte beside the counters, the place in the queue and the posted request. -/
theorem SparingWrite.of_outside (hcounts : addr < queueCounter ∨ recoveryCount ≤ addr)
    (hslot : addr ≠ commandSlot) (hrequest : addr ≠ requestKind) :
    SparingWrite kinds posts addr value :=
  ⟨fun h => absurd h hrequest, fun kind _ => not_countsAt_of_outside hcounts kind,
    fun h => absurd h hslot⟩

/-- What is written to a unit spares all counters. -/
theorem sparingWrite_of_unitWrite {kind : CommandKind} (h : UnitWrite kind addr value) :
    SparingWrite kinds posts addr value := by
  cases h with
  | register h => exact .of_not_engineByte (not_engineByte_block kind h)
  | recovery h =>
    apply SparingWrite.of_not_engineByte
    simp only [recoveryControls, List.mem_cons, List.not_mem_nil, or_false] at h
    rcases h with rfl | rfl | rfl | rfl <;> decide
  | recoveries => exact .of_outside (by decide) (by decide) (by decide)

/-- No two kinds of command count in the same place. -/
theorem eq_of_countsAt {kind other : CommandKind} (h : kind.CountsAt addr)
    (h' : other.CountsAt addr) : kind = other := by
  have hqueue : queueCounter.toNat = 0x0A64 := rfl
  have hflash : flashCounter.toNat = 0x0A6C := rfl
  have hphy : phyCounter.toNat = 0x0A70 := rfl
  have hlast : recoveryCount.toNat = 0x0A74 := rfl
  cases kind <;> cases other <;>
    simp only [CommandKind.CountsAt, UInt16.le_iff_toNat_le, UInt16.lt_iff_toNat_lt] at h h' <;>
    first | rfl | omega

theorem ne_of_countsAt {kind : CommandKind} (h : kind.CountsAt addr) :
    addr ≠ commandSlot ∧ addr ≠ requestKind := by
  constructor
  · rintro rfl
    exact not_countsAt_of_outside (by decide) kind h
  · rintro rfl
    exact not_countsAt_of_outside (by decide) kind h

/-- The writes of a command spare what commands of its kind spare. -/
theorem sparingWrite_of_commandWrite {kind : CommandKind} (hkind : kind ∈ kinds)
    (h : CommandWrite kind addr value) : SparingWrite kinds posts addr value := by
  have hkinds : kinds ≠ [] := List.ne_nil_of_mem hkind
  cases h with
  | unit h => exact sparingWrite_of_unitWrite h
  | counter h =>
    obtain ⟨hslot, hrequest⟩ := ne_of_countsAt h
    refine ⟨fun he => absurd he hrequest, fun other hother hcounts => ?_, fun he => absurd he hslot⟩
    rw [eq_of_countsAt hcounts h] at hother
    exact hother hkind
  | state => exact .of_outside (by decide) (by decide) (by decide)
  | claim hnvme h =>
    subst hnvme
    rcases h with rfl | rfl
    · refine ⟨fun he => absurd he (by decide), fun other _ => ?_, fun _ => ⟨hkinds, ?_⟩⟩
      · exact not_countsAt_of_outside (by decide) other
      · exact absurd hkind
    · exact .of_outside (by decide) (by decide) (by decide)
  | release =>
    refine ⟨fun he => absurd he (by decide), fun other _ => ?_, fun _ => ⟨hkinds, fun _ => rfl⟩⟩
    exact not_countsAt_of_outside (by decide) other

/-- The code that is written is that of the request's kind. -/
theorem sparingWrite_of_requestWrite {kind : CommandKind} (hkind : kind ∈ posts)
    (h : RequestWrite kind addr value) : SparingWrite kinds posts addr value := by
  cases h with
  | field h =>
    apply SparingWrite.of_not_engineByte
    exact not_engineByte_of_gt h.1
  | kind =>
    refine ⟨fun _ other hother => ?_, fun other _ => ?_, fun he => absurd he (by decide)⟩
    · rw [CommandKind.ofRequest?_requestCode] at hother
      cases hother
      exact hkind
    · exact not_countsAt_of_outside (by decide) other

theorem spares_read {bus bus' : β} (h : RegisterBus.read addr bus = .done value bus') :
    b.Spares kinds posts bus bus' := by
  intro hwired hposted
  obtain ⟨hwired', hram, -⟩ := b.read hwired h
  refine ⟨hwired', ?_, fun kind _ a ha => ?_, fun _ => .inl ?_⟩
  · intro kind hkind
    rw [hram requestKind (.inr rfl)] at hkind
    exact hposted kind hkind
  · exact hram a (.inl (engineRam_of_countsAt ha))
  · exact hram commandSlot (by decide)

theorem spares_write {bus bus' : β} (hsparing : SparingWrite kinds posts addr value)
    (h : RegisterBus.write addr value bus = .done () bus') : b.Spares kinds posts bus bus' := by
  intro hwired hposted
  obtain ⟨hwired', hram⟩ := b.write hwired h
  refine ⟨hwired', ?_, fun kind hkind a ha => ?_, fun hnvme => ?_⟩
  · intro kind hkind
    rw [hram requestKind (.inr rfl)] at hkind
    by_cases haddr : requestKind = addr
    · rw [if_pos haddr] at hkind
      exact hsparing.request haddr.symm kind hkind
    · rw [if_neg haddr] at hkind
      exact hposted kind hkind
  · -- a counter of another kind is not what was written
    rw [hram a (.inl (engineRam_of_countsAt ha)), if_neg]
    rintro rfl
    exact hsparing.counters kind hkind ha
  · have hslot : b.slot bus' = if commandSlot = addr then value else b.slot bus :=
      hram commandSlot (by decide)
    by_cases haddr : commandSlot = addr
    · rw [if_pos haddr] at hslot
      obtain ⟨hkinds, hzero⟩ := hsparing.slot haddr.symm
      exact .inr ⟨hkinds, hslot.trans (hzero hnvme)⟩
    · rw [if_neg haddr] at hslot
      exact .inl hslot

/-- Four bytes of the engine's memory. -/
theorem engineByte_counter {kind : CommandKind} {wait : WaitKind} (h : wait ∈ kind.waits) :
    EngineByte wait.counter ∧ EngineByte (wait.counter + 1) ∧ EngineByte (wait.counter + 2) ∧
      EngineByte (wait.counter + 3) := by
  obtain ⟨h0, h1, h2, h3⟩ := countsAt_counter h
  exact ⟨.inl (engineRam_of_countsAt h0), .inl (engineRam_of_countsAt h1),
    .inl (engineRam_of_countsAt h2), .inl (engineRam_of_countsAt h3)⟩

/-- What is read of a counter is the number that it holds. -/
theorem eq_counter_of_read32 {kind : CommandKind} {wait : WaitKind} (h : wait ∈ kind.waits)
    {bus bus' : β} {number : UInt32} (hwired : b.wired bus)
    (hread : RegisterBus.read32 wait.counter bus = .done number bus') :
    number = b.counter wait bus := by
  obtain ⟨h0, h1, h2, h3⟩ := engineByte_counter h
  obtain ⟨b3, bus1, hread3, hread⟩ := Run.bind_eq_done.1 hread
  obtain ⟨b2, bus2, hread2, hread⟩ := Run.bind_eq_done.1 hread
  obtain ⟨b1, bus3, hread1, hread⟩ := Run.bind_eq_done.1 hread
  obtain ⟨b0, bus4, hread0, hread⟩ := Run.bind_eq_done.1 hread
  obtain ⟨hwired1, hram1, hvalue3⟩ := b.read hwired hread3
  obtain ⟨hwired2, hram2, hvalue2⟩ := b.read hwired1 hread2
  obtain ⟨hwired3, hram3, hvalue1⟩ := b.read hwired2 hread1
  obtain ⟨-, -, hvalue0⟩ := b.read hwired3 hread0
  cases hread
  rw [hvalue3 h0, hvalue2 h1, hvalue1 h2, hvalue0 h3, hram3 _ h3, hram2 _ h3, hram1 _ h3,
    hram2 _ h2, hram1 _ h2, hram1 _ h1]
  rfl

/-- What is written to a counter it holds, and no other kind of command counts there. -/
theorem counter_of_write32 {kind : CommandKind} {wait : WaitKind} (h : wait ∈ kind.waits)
    {bus bus' : β} {number : UInt32} (hwired : b.wired bus)
    (hwrite : RegisterBus.write32 wait.counter number bus = .done () bus') :
    b.wired bus' ∧ b.counter wait bus' = number ∧
      ∀ a, EngineByte a → ¬kind.CountsAt a → b.ram bus' a = b.ram bus a := by
  obtain ⟨h0, h1, h2, h3⟩ := engineByte_counter h
  obtain ⟨k0, k1, k2, k3⟩ := countsAt_counter h
  obtain ⟨_, bus1, hwrite3, hwrite⟩ := Run.bind_eq_done.1 hwrite
  obtain ⟨_, bus2, hwrite2, hwrite⟩ := Run.bind_eq_done.1 hwrite
  obtain ⟨_, bus3, hwrite1, hwrite0⟩ := Run.bind_eq_done.1 hwrite
  obtain ⟨hwired1, hram1⟩ := b.write hwired hwrite3
  obtain ⟨hwired2, hram2⟩ := b.write hwired1 hwrite2
  obtain ⟨hwired3, hram3⟩ := b.write hwired2 hwrite1
  obtain ⟨hwired4, hram4⟩ := b.write hwired3 hwrite0
  have hquad : ∀ a, Quad wait.counter a → EngineByte a := by
    rintro a (rfl | rfl | rfl | rfl)
    · exact h0
    · exact h1
    · exact h2
    · exact h3
  refine ⟨hwired4, joinBytes_of_writes hquad hram1 hram2 hram3 hram4, fun a ha hcounts => ?_⟩
  have hother {c : UInt16} (hc : kind.CountsAt c) : a ≠ c := by
    rintro rfl
    exact hcounts hc
  rw [hram4 a ha, if_neg (hother k3), hram3 a ha, if_neg (hother k2), hram2 a ha,
    if_neg (hother k1), hram1 a ha, if_neg (hother k0)]

/-- Such writes, reads and reports may be made. -/
theorem admits_sparing :
    Admits (Keeping (OnBus (b.Spares kinds posts))) (SparingWrite kinds posts) where
  note event := Run.keeps_modify fun s => extends_spares.refl s.bus
  read addr := by
    intro s value t hrun
    obtain ⟨bus', hread, rfl⟩ := Machine.onBus_eq_done hrun
    exact spares_read hread
  write addr value hsparing := by
    intro s _ t hrun
    obtain ⟨bus', hwrite, rfl⟩ := Machine.onBus_eq_done hrun
    exact spares_write hsparing hwrite

/-- A command of one of the kinds is made of steps that spare all other kinds. -/
theorem composed_execute {r : CommandRequest} (h : r.kind ∈ kinds) :
    Composed (Keeping (OnBus (b.Spares kinds posts))) fun l => l.execute r :=
  Composed.execute r (admits_sparing.mono fun _ _ => sparingWrite_of_commandWrite h)

/-- So is the posting of a request that may be posted. -/
theorem composed_post {r : CommandRequest} (h : r.kind ∈ posts) :
    Composed (Keeping (OnBus (b.Spares kinds posts))) fun _ => r.post :=
  Composed.post r (admits_sparing.mono fun _ _ => sparingWrite_of_requestWrite h)

end EngineMemory

end BankedController
