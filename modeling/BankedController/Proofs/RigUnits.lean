import BankedController.Proofs.CommandBus
import BankedController.Proofs.RigBuses

namespace BankedController

open RegisterMap

namespace Blocks

/-- The blocks with their units set by the surroundings. -/
def tuned (b : Blocks) (t : CommandKind → Tuning) : Blocks :=
  { b with
    nvme := b.nvme.tuned (t .nvme)
    flash := b.flash.tuned (t .flash)
    phy := b.phy.tuned (t .phy) }

theorem unit_tuned (b : Blocks) (t : CommandKind → Tuning) (kind : CommandKind) :
    (b.tuned t).unit kind = (b.unit kind).tuned (t kind) := by
  cases kind <;> rfl

theorem unit_setUnit_eq (b : Blocks) (kind : CommandKind) (u : CommandUnit) :
    (b.setUnit kind u).unit = fun k => if k = kind then u else b.unit k := by
  funext k
  exact unit_setUnit b kind k u

end Blocks

namespace Rig

variable {ω : Type}

/-- The engine finds on the bus what it expects. -/
structure Wired (rig : Rig ω) : Prop where
  unit : ∀ kind off, off < blockSize → rig.bus.claim? (kind.block + off) = some (.unit kind)
  ram : ∀ addr, EngineRam addr → rig.bus.claim? addr = none
  control : ∀ addr ∈ recoveryControls, rig.bus.claim? addr = some .control
  base : ∀ kind, (rig.bus.devices.unit kind).base = kind.block

/-- The rig with other blocks, wired as before. -/
def withBlocks (rig : Rig ω) (blocks : Blocks) : Rig ω :=
  { rig with bus := { rig.bus with devices := blocks } }

theorem Wired.withBlocks {rig : Rig ω} (h : rig.Wired) {blocks : Blocks}
    (hbase : ∀ kind, (blocks.unit kind).base = kind.block) : (rig.withBlocks blocks).Wired :=
  ⟨h.unit, h.ram, h.control, hbase⟩

theorem base_setUnit {rig : Rig ω} (h : rig.Wired) {kind : CommandKind} {u : CommandUnit}
    (hu : u.base = kind.block) (other : CommandKind) :
    ((rig.bus.devices.setUnit kind u).unit other).base = other.block := by
  rw [Blocks.unit_setUnit]
  split
  next heq => rw [hu, heq]
  next => exact h.base other

theorem base_read {u u' : CommandUnit} {addr : UInt16} {value : UInt8}
    (h : u.read addr = .ok (value, u')) : u'.base = u.base := by
  unfold CommandUnit.read at h
  dsimp only at h
  split at h
  · cases h
    unfold CommandUnit.pollTrigger CommandUnit.pollStatus CommandUnit.setTrigger
      CommandUnit.setStatus
    dsimp only
    repeat' split
    all_goals rfl
  · cases h

theorem base_write {u u' : CommandUnit} {addr : UInt16} {value : UInt8}
    (h : u.write addr value = .ok u') : u'.base = u.base := by
  unfold CommandUnit.write at h
  dsimp only at h
  split at h
  · cases h
    unfold CommandUnit.control CommandUnit.start CommandUnit.abort CommandUnit.setTrigger
      CommandUnit.setStatus
    dsimp only
    repeat' split
    all_goals rfl
  · cases h

/-- The units and the memory of a rig. -/
def bench (rig : Rig ω) : Bench := ⟨rig.bus.devices.unit, rig.bus.ram.get⟩

theorem bench_withBlocks_setUnit (rig : Rig ω) (kind : CommandKind) (u : CommandUnit) :
    (rig.withBlocks (rig.bus.devices.setUnit kind u)).bench = rig.bench.setUnit kind u := by
  unfold bench withBlocks Bench.setUnit
  dsimp only
  rw [Blocks.unit_setUnit_eq]

def commandBus : CommandBus (Rig ω) where
  wired := Wired
  view := bench
  tune t rig := rig.withBlocks (rig.bus.devices.tuned t)
  base h := h.base
  read_unit := by
    intro rig h kind off hoff value u hread
    have hblocks : DeviceStore.read (Block.unit kind) (kind.block + off) rig.bus.devices =
        .ok (value, rig.bus.devices.setUnit kind u) :=
      congrArg (Except.map fun r : UInt8 × CommandUnit => (r.1, rig.bus.devices.setUnit kind r.2))
        hread
    have hbase : u.base = kind.block := (base_read hread).trans (h.base kind)
    refine ⟨rig.withBlocks (rig.bus.devices.setUnit kind u), ?_, ?_, ?_⟩
    · exact onBus_of_done (XdataBus.read_of_claim (h.unit kind off hoff) hblocks)
    · exact h.withBlocks (base_setUnit h hbase)
    · exact bench_withBlocks_setUnit rig kind u
  write_unit := by
    intro rig h kind off hoff value u hwrite
    have hblocks : DeviceStore.write (Block.unit kind) (kind.block + off) value rig.bus.devices =
        .ok (rig.bus.devices.setUnit kind u) :=
      congrArg (Except.map fun d : CommandUnit => rig.bus.devices.setUnit kind d) hwrite
    have hbase : u.base = kind.block := (base_write hwrite).trans (h.base kind)
    refine ⟨rig.withBlocks (rig.bus.devices.setUnit kind u), ?_, ?_, ?_⟩
    · exact onBus_of_done (XdataBus.write_of_claim (h.unit kind off hoff) hblocks)
    · exact h.withBlocks (base_setUnit h hbase)
    · exact bench_withBlocks_setUnit rig kind u
  read_ram := by
    intro rig h addr haddr
    exact ⟨rig, onBus_of_done (XdataBus.read_of_free (h.ram addr haddr)), h, rfl⟩
  write_ram := by
    intro rig h addr haddr value
    let rig' : Rig ω := { rig with bus := { rig.bus with ram := rig.bus.ram.set addr value } }
    refine ⟨rig', onBus_of_done (XdataBus.write_of_free (h.ram addr haddr) value), ?_, ?_⟩
    · exact ⟨h.unit, h.ram, h.control, h.base⟩
    · have hram : (rig.bus.ram.set addr value).get =
          fun a => if a = addr then value else rig.bus.ram.get a := by
        funext a
        rw [Paged.get_set]
        by_cases ha : addr = a
        · rw [if_pos ha, if_pos ha.symm]
        · rw [if_neg ha, if_neg (Ne.symm ha)]
      unfold bench Bench.store
      rw [hram]
  read_control := by
    intro rig h addr haddr
    exact ⟨_, rig, onBus_of_done (XdataBus.read_of_claim (h.control addr haddr) rfl), h, rfl⟩
  write_control := by
    intro rig h addr haddr value
    let blocks : Blocks :=
      { rig.bus.devices with control := rig.bus.devices.control.add addr value }
    refine ⟨rig.withBlocks blocks,
      onBus_of_done (XdataBus.write_of_claim (h.control addr haddr) rfl), ?_, rfl⟩
    exact h.withBlocks h.base
  view_tune := by
    intro rig h t
    constructor
    · apply h.withBlocks
      intro kind
      rw [Blocks.unit_tuned]
      exact h.base kind
    · unfold bench withBlocks Bench.tuned
      congr 1
      funext kind
      exact Blocks.unit_tuned _ t kind

/-- A rig is wired from the start. -/
theorem wired_initial (record : ω) : (Rig.mk RigBus.initial record).Wired := by
  refine ⟨?_, ?_, ?_, ?_⟩
  · intro kind off hoff
    have hclaim : ∀ (kind : CommandKind) (n : Fin 16),
        MappedRange.claimIn (kind.block + UInt16.ofNat n) RigBus.ranges = some (.unit kind) := by
      intro kind
      cases kind <;> decide
    have hlt : off.toNat < 16 := by simpa [blockSize, UInt16.lt_iff_toNat_lt] using hoff
    rw [XdataBus.claim?_eq]
    have := hclaim kind ⟨off.toNat, hlt⟩
    rwa [UInt16.ofNat_toNat] at this
  · intro addr haddr
    rw [XdataBus.claim?_eq]
    unfold MappedRange.claimIn
    rw [Option.map_eq_none_iff, List.find?_eq_none]
    have hstart : ∀ r ∈ RigBus.ranges, recoveryCount < r.start := by decide
    intro r hr hcontains
    have hbelow := hstart r hr
    have hle := haddr.2
    rw [MappedRange.contains_iff] at hcontains
    have : r.start.toNat ≤ addr.toNat := hcontains.1
    rw [UInt16.lt_iff_toNat_lt] at hbelow
    rw [UInt16.le_iff_toNat_le] at hle
    omega
  · intro addr haddr
    rw [XdataBus.claim?_eq]
    have hclaim : recoveryControls.all
        (fun addr => MappedRange.claimIn addr RigBus.ranges = some .control) = true := by decide
    exact of_decide_eq_true (List.all_eq_true.1 hclaim addr haddr)
  · intro kind
    cases kind <;> rfl

end Rig

end BankedController
