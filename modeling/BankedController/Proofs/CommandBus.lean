import BankedController.Command.Recovery
import BankedController.Interrupt
import BankedController.Proofs.Composed
import BankedController.Proofs.CommandUnits
import BankedController.Rig

/-! What the command engine sees of a bus is three units and the memory of its counters. A run leads
from one such view to another if it does so from every machine that has the first view and no
interrupt to take. -/

namespace BankedController

open RegisterMap

/-- What the surroundings set on a unit: its latencies, and whether its next command fails. -/
structure Tuning where
  accept : Latency
  complete : Latency
  fails : Bool

/-- A unit as the surroundings have set it. A failure that was asked for stays asked for. -/
def CommandUnit.tuned (u : CommandUnit) (t : Tuning) : CommandUnit :=
  { u.setLatency t.accept t.complete with failNext := u.failNext || t.fails }

/-- The three units and memory. -/
structure Bench where
  unit : CommandKind → CommandUnit
  ram : UInt16 → UInt8

namespace Bench

def setUnit (v : Bench) (kind : CommandKind) (u : CommandUnit) : Bench :=
  { v with unit := fun k => if k = kind then u else v.unit k }

def store (v : Bench) (addr : UInt16) (value : UInt8) : Bench :=
  { v with ram := fun a => if a = addr then value else v.ram a }

def store32 (v : Bench) (addr : UInt16) (value : UInt32) : Bench :=
  (((v.store addr (value >>> 24).toUInt8).store (addr + 1) (value >>> 16).toUInt8).store (addr + 2)
    (value >>> 8).toUInt8).store (addr + 3) value.toUInt8

def tuned (v : Bench) (t : CommandKind → Tuning) : Bench :=
  { v with unit := fun kind => (v.unit kind).tuned (t kind) }

@[simp] theorem unit_setUnit (v : Bench) (kind : CommandKind) (u : CommandUnit) :
    (v.setUnit kind u).unit kind = u := if_pos rfl

theorem unit_setUnit_of_ne (v : Bench) {kind other : CommandKind} (h : other ≠ kind)
    (u : CommandUnit) : (v.setUnit kind u).unit other = v.unit other := if_neg h

@[simp] theorem ram_setUnit (v : Bench) (kind : CommandKind) (u : CommandUnit) :
    (v.setUnit kind u).ram = v.ram := rfl

@[simp] theorem unit_store (v : Bench) (addr : UInt16) (value : UInt8) :
    (v.store addr value).unit = v.unit := rfl

@[simp] theorem unit_store32 (v : Bench) (addr : UInt16) (value : UInt32) :
    (v.store32 addr value).unit = v.unit := rfl

@[simp] theorem ram_store (v : Bench) (addr : UInt16) (value : UInt8) :
    (v.store addr value).ram addr = value := if_pos rfl

theorem ram_store_of_ne (v : Bench) {addr other : UInt16} (h : other ≠ addr) (value : UInt8) :
    (v.store addr value).ram other = v.ram other := if_neg h

theorem setUnit_setUnit (v : Bench) (kind : CommandKind) (u u' : CommandUnit) :
    (v.setUnit kind u).setUnit kind u' = v.setUnit kind u' := by
  unfold setUnit
  congr 1
  funext k
  dsimp only
  split <;> rfl

theorem setUnit_self (v : Bench) (kind : CommandKind) : v.setUnit kind (v.unit kind) = v := by
  have hunit : (fun k => if k = kind then v.unit kind else v.unit k) = v.unit := by
    funext k
    split
    next h => rw [h]
    next => rfl
  unfold setUnit
  rw [hunit]

/-- A number that is stored over another leaves nothing of it. -/
theorem store32_store32 (v : Bench) (addr : UInt16) (value value' : UInt32) :
    (v.store32 addr value).store32 addr value' = v.store32 addr value' := by
  unfold store32 store
  congr 1
  funext a
  dsimp only
  grind

/-- A stored number is the number of the four bytes found there. -/
theorem joinBytes_store32 (v : Bench) (addr : UInt16) (value : UInt32) :
    RegisterBus.joinBytes ((v.store32 addr value).ram addr) ((v.store32 addr value).ram (addr + 1))
      ((v.store32 addr value).ram (addr + 2)) ((v.store32 addr value).ram (addr + 3)) = value := by
  have hne {i j : UInt16} (h : i ≠ j) : addr + i ≠ addr + j := by
    intro heq
    exact h ((UInt16.add_right_inj addr).1 heq)
  have h0 {j : UInt16} (h : 0 ≠ j) : addr ≠ addr + j := by simpa using hne h
  have hram0 : (v.store32 addr value).ram addr = (value >>> 24).toUInt8 := by
    simp [store32, store, h0]
  have hram1 : (v.store32 addr value).ram (addr + 1) = (value >>> 16).toUInt8 := by
    simp [store32, store]
  have hram2 : (v.store32 addr value).ram (addr + 2) = (value >>> 8).toUInt8 := by
    simp [store32, store]
  have hram3 : (v.store32 addr value).ram (addr + 3) = value.toUInt8 := by
    simp [store32, store]
  rw [hram0, hram1, hram2, hram3, RegisterBus.joinBytes_split]

/-- What is not one of the four bytes stays. -/
theorem ram_store32_of_ne (v : Bench) {addr other : UInt16} (h0 : other ≠ addr)
    (h1 : other ≠ addr + 1) (h2 : other ≠ addr + 2) (h3 : other ≠ addr + 3) (value : UInt32) :
    (v.store32 addr value).ram other = v.ram other := by
  unfold store32
  rw [ram_store_of_ne _ h3, ram_store_of_ne _ h2, ram_store_of_ne _ h1, ram_store_of_ne _ h0]

end Bench

/-- The memory of the engine. -/
def EngineRam (addr : UInt16) : Prop := commandState ≤ addr ∧ addr ≤ recoveryCount

instance (addr : UInt16) : Decidable (EngineRam addr) :=
  inferInstanceAs (Decidable (_ ∧ _))

/-- The control registers that recovery toggles. -/
def recoveryControls : List UInt16 := [powerControl, phyControl, timerControl, flashMode]

/-- A bus with a command unit at each of the three blocks and plain memory for the engine, as far as
its state is `wired`. -/
structure CommandBus (β : Type) [RegisterBus β] where
  wired : β → Prop
  view : β → Bench
  tune : (CommandKind → Tuning) → β → β
  base {bus : β} : wired bus → ∀ kind, ((view bus).unit kind).base = kind.block
  read_unit {bus : β} : wired bus → ∀ {kind : CommandKind} {off : UInt16}, off < blockSize →
    ∀ {value u}, ((view bus).unit kind).read (kind.block + off) = .ok (value, u) →
      ∃ bus', RegisterBus.read (kind.block + off) bus = .done value bus' ∧ wired bus' ∧
        view bus' = (view bus).setUnit kind u
  write_unit {bus : β} : wired bus → ∀ {kind : CommandKind} {off : UInt16}, off < blockSize →
    ∀ {value u}, ((view bus).unit kind).write (kind.block + off) value = .ok u →
      ∃ bus', RegisterBus.write (kind.block + off) value bus = .done () bus' ∧ wired bus' ∧
        view bus' = (view bus).setUnit kind u
  read_ram {bus : β} : wired bus → ∀ {addr}, EngineRam addr →
    ∃ bus', RegisterBus.read addr bus = .done ((view bus).ram addr) bus' ∧ wired bus' ∧
      view bus' = view bus
  write_ram {bus : β} : wired bus → ∀ {addr}, EngineRam addr → ∀ value,
    ∃ bus', RegisterBus.write addr value bus = .done () bus' ∧ wired bus' ∧
      view bus' = (view bus).store addr value
  read_control {bus : β} : wired bus → ∀ {addr}, addr ∈ recoveryControls →
    ∃ value bus', RegisterBus.read addr bus = .done value bus' ∧ wired bus' ∧ view bus' = view bus
  write_control {bus : β} : wired bus → ∀ {addr}, addr ∈ recoveryControls → ∀ value,
    ∃ bus', RegisterBus.write addr value bus = .done () bus' ∧ wired bus' ∧ view bus' = view bus
  view_tune {bus : β} : wired bus → ∀ t, wired (tune t bus) ∧ view (tune t bus) = (view bus).tuned t

namespace CommandBus

variable {β α γ : Type} [RegisterBus β] (b : CommandBus β)

/-- A machine on which the engine sees `v` and no interrupt is to be taken. -/
structure At (v : Bench) (s : Machine β) : Prop where
  wired : b.wired s.bus
  view : b.view s.bus = v
  quiet : s.irq.next? = none

/-- Wherever the engine sees `v`, the run ends with `a`, and then the engine sees `v'`. -/
def Leads (m : Run (Machine β) α) (v : Bench) (a : α) (v' : Bench) : Prop :=
  ∀ s, b.At v s → ∃ t, m s = .done a t ∧ b.At v' t

variable {b} {v v' v'' : Bench}

theorem leads_pure (a : α) : b.Leads (pure a) v a v :=
  fun s hs => ⟨s, rfl, hs⟩

theorem leads_bind {m : Run (Machine β) α} {f : α → Run (Machine β) γ} {a : α} {c : γ}
    (hm : b.Leads m v a v') (hf : b.Leads (f a) v' c v'') : b.Leads (m >>= f) v c v'' := by
  intro s hs
  obtain ⟨t, ht, hat⟩ := hm s hs
  obtain ⟨u, hu, hau⟩ := hf t hat
  refine ⟨u, ?_, hau⟩
  rw [Run.bind_of_done ht, hu]

theorem leads_note (event : Event) : b.Leads (Machine.note event) v () v :=
  fun _ hs => ⟨_, rfl, hs.wired, hs.view, hs.quiet⟩

theorem leads_onBus {m : Run β α} {a : α}
    (h : ∀ bus, b.wired bus → b.view bus = v →
      ∃ bus', m bus = .done a bus' ∧ b.wired bus' ∧ b.view bus' = v') :
    b.Leads (Machine.onBus m) v a v' := by
  intro s hs
  obtain ⟨bus', hm, hwired, hview⟩ := h s.bus hs.wired hs.view
  exact ⟨{ s with bus := bus' }, Machine.onBus_of_done hm, hwired, hview, hs.quiet⟩

theorem leads_read_ram {addr : UInt16} (h : EngineRam addr) :
    b.Leads (Machine.read addr) v (v.ram addr) v := by
  apply leads_onBus
  intro bus hwired hview
  have hread := b.read_ram hwired h
  rwa [hview] at hread

theorem leads_write_ram {addr : UInt16} (h : EngineRam addr) (value : UInt8) :
    b.Leads (Machine.write addr value) v () (v.store addr value) := by
  apply leads_onBus
  intro bus hwired hview
  have hwrite := b.write_ram hwired h value
  rwa [hview] at hwrite

theorem leads_read_unit {kind : CommandKind} {off : UInt16} (hoff : off < blockSize) {value : UInt8}
    {u : CommandUnit} (h : (v.unit kind).read (kind.block + off) = .ok (value, u)) :
    b.Leads (Machine.read (kind.block + off)) v value (v.setUnit kind u) := by
  apply leads_onBus
  intro bus hwired hview
  rw [← hview] at h ⊢
  exact b.read_unit hwired hoff h

theorem leads_write_unit {kind : CommandKind} {off : UInt16} (hoff : off < blockSize)
    {value : UInt8} {u : CommandUnit}
    (h : (v.unit kind).write (kind.block + off) value = .ok u) :
    b.Leads (Machine.write (kind.block + off) value) v () (v.setUnit kind u) := by
  apply leads_onBus
  intro bus hwired hview
  rw [← hview] at h ⊢
  exact b.write_unit hwired hoff h

/-- Four bytes of the engine's memory. -/
structure EngineRam32 (addr : UInt16) : Prop where
  byte0 : EngineRam addr
  byte1 : EngineRam (addr + 1)
  byte2 : EngineRam (addr + 2)
  byte3 : EngineRam (addr + 3)

theorem leads_write32_ram {addr : UInt16} (h : EngineRam32 addr) (value : UInt32) :
    b.Leads (Machine.write32 addr value) v () (v.store32 addr value) := by
  simp only [Machine.write32, RegisterBus.write32, Machine.onBus_bind]
  refine leads_bind (leads_write_ram h.byte0 _) ?_
  refine leads_bind (leads_write_ram h.byte1 _) ?_
  refine leads_bind (leads_write_ram h.byte2 _) ?_
  exact leads_write_ram h.byte3 _

/-- What was stored is read. -/
theorem leads_read32_ram {addr : UInt16} (h : EngineRam32 addr) (value : UInt32) :
    b.Leads (Machine.read32 addr) (v.store32 addr value) value (v.store32 addr value) := by
  have hvalue := Bench.joinBytes_store32 v addr value
  generalize v.store32 addr value = stored at hvalue ⊢
  rw [← hvalue]
  simp only [Machine.read32, RegisterBus.read32, Machine.onBus_bind]
  refine leads_bind (leads_read_ram h.byte0) ?_
  refine leads_bind (leads_read_ram h.byte1) ?_
  refine leads_bind (leads_read_ram h.byte2) ?_
  exact leads_bind (leads_read_ram h.byte3) (leads_pure _)

theorem leads_write_control {addr : UInt16} (h : addr ∈ recoveryControls) (value : UInt8) :
    b.Leads (Machine.write addr value) v () v := by
  apply leads_onBus
  intro bus hwired hview
  have hwrite := b.write_control hwired h value
  rwa [hview] at hwrite

/-- Whatever a control register reads as, it is written back. -/
theorem leads_change_control {addr : UInt16} (h : addr ∈ recoveryControls) (f : UInt8 → UInt8) :
    b.Leads (Machine.read addr >>= fun value => Machine.write addr (f value)) v () v := by
  intro s hs
  obtain ⟨value, bus', hread, hwired, hview⟩ := b.read_control hs.wired h
  have hmachine : Machine.read addr s = .done value { s with bus := bus' } :=
    Machine.onBus_of_done hread
  rw [Run.bind_of_done hmachine]
  exact leads_write_control h (f value) _ ⟨hwired, hview.trans hs.view, hs.quiet⟩

theorem leads_setBits {addr : UInt16} (h : addr ∈ recoveryControls) (mask : UInt8) :
    b.Leads (Machine.setBits addr mask) v () v := by
  simp only [Machine.setBits, RegisterBus.setBits, Machine.onBus_bind]
  exact leads_change_control h fun value => value ||| mask

theorem leads_clearBits {addr : UInt16} (h : addr ∈ recoveryControls) (mask : UInt8) :
    b.Leads (Machine.clearBits addr mask) v () v := by
  simp only [Machine.clearBits, RegisterBus.clearBits, Machine.onBus_bind]
  exact leads_change_control h fun value => value &&& ~~~mask

/-- The surroundings set the units. -/
theorem leads_tune (t : CommandKind → Tuning) :
    b.Leads (Machine.onBus (Run.modify (b.tune t))) v () (v.tuned t) := by
  apply leads_onBus
  intro bus hwired hview
  obtain ⟨hwired', hview'⟩ := b.view_tune hwired t
  exact ⟨_, rfl, hwired', by rw [hview', hview]⟩

end CommandBus

end BankedController
