import BankedController.Proofs.Bytes
import BankedController.Proofs.RigBuses
import BankedController.Proofs.Runs

namespace BankedController

variable {β : Type}

/-- Plain memory at the addresses in `A`, as far as the state of the bus is `wired`. -/
structure PlainMemory (β : Type) [RegisterBus β] (A : UInt16 → Prop) where
  wired : β → Prop
  ram : β → UInt16 → UInt8
  fetch {bus : β} : wired bus → ∀ {addr}, A addr →
    ∃ bus', RegisterBus.read addr bus = .done (ram bus addr) bus'
  store {bus : β} : wired bus → ∀ {addr}, A addr → ∀ value,
    ∃ bus', RegisterBus.write addr value bus = .done () bus'
  read {bus bus' : β} : wired bus → ∀ {addr value},
    RegisterBus.read addr bus = .done value bus' →
      wired bus' ∧ ∀ a, A a → ram bus' a = ram bus a
  write {bus bus' : β} : wired bus → ∀ {addr value},
    RegisterBus.write addr value bus = .done () bus' →
      wired bus' ∧ ∀ a, A a → ram bus' a = if a = addr then value else ram bus a

/-- What no device claims is plain memory. -/
def XdataBus.plainMemory {κ σ : Type} [DeviceStore κ σ] (A : UInt16 → Prop) :
    PlainMemory (XdataBus κ σ) A where
  wired bus := ∀ addr, A addr → bus.claim? addr = none
  ram bus := bus.ram.get
  fetch hwired _ haddr := ⟨_, XdataBus.read_of_free (hwired _ haddr)⟩
  store hwired _ haddr value := ⟨_, XdataBus.write_of_free (hwired _ haddr) value⟩
  read {bus bus'} hwired {addr value} h := by
    obtain ⟨hram, hclaim⟩ := XdataBus.read_eq_done h
    refine ⟨fun a ha => ?_, fun a _ => ?_⟩
    · rw [hclaim]
      exact hwired a ha
    · rw [hram]
  write {bus bus'} hwired {addr value} h := by
    have hwrite : XdataBus.write addr value bus = .done () bus' := h
    obtain ⟨hram, hclaim⟩ := XdataBus.write_eq_done hwrite
    refine ⟨fun a ha => ?_, fun a ha => ?_⟩
    · rw [hclaim]
      exact hwired a ha
    by_cases haddr : a = addr
    · subst haddr
      rw [XdataBus.write_of_free (hwired a ha)] at hwrite
      cases hwrite
      dsimp only
      rw [Paged.get_set, if_pos rfl]
    · rw [if_neg haddr]
      exact hram a haddr

/-- A bus that is memory and nothing else. -/
structure Cells where
  get : UInt16 → UInt8

instance : RegisterBus Cells where
  read addr := Run.gets fun cells => cells.get addr
  write addr value := Run.modify fun cells => ⟨fun a => if a = addr then value else cells.get a⟩

def Cells.memory (A : UInt16 → Prop) : PlainMemory Cells A where
  wired _ := True
  ram := Cells.get
  fetch _ _ _ := ⟨_, rfl⟩
  store _ _ _ _ := ⟨_, rfl⟩
  read := by
    rintro bus bus' - addr value ⟨⟩
    exact ⟨trivial, fun _ _ => rfl⟩
  write := by
    rintro bus bus' - addr value ⟨⟩
    exact ⟨trivial, fun _ _ => rfl⟩

/-- The four bytes from an address on. -/
def Quad (base addr : UInt16) : Prop :=
  addr = base ∨ addr = base + 1 ∨ addr = base + 2 ∨ addr = base + 3

instance (base addr : UInt16) : Decidable (Quad base addr) :=
  inferInstanceAs (Decidable (_ ∨ _ ∨ _ ∨ _))

/-- Four bytes that were written one after the other hold the number that they were taken from. -/
theorem joinBytes_of_writes {A : UInt16 → Prop} {ram ram₁ ram₂ ram₃ ram₄ : UInt16 → UInt8}
    {base : UInt16} {number : UInt32} (hquad : ∀ a, Quad base a → A a)
    (h₁ : ∀ a, A a → ram₁ a = if a = base then (number >>> 24).toUInt8 else ram a)
    (h₂ : ∀ a, A a → ram₂ a = if a = base + 1 then (number >>> 16).toUInt8 else ram₁ a)
    (h₃ : ∀ a, A a → ram₃ a = if a = base + 2 then (number >>> 8).toUInt8 else ram₂ a)
    (h₄ : ∀ a, A a → ram₄ a = if a = base + 3 then number.toUInt8 else ram₃ a) :
    RegisterBus.joinBytes (ram₄ base) (ram₄ (base + 1)) (ram₄ (base + 2)) (ram₄ (base + 3)) =
      number := by
  have hA0 : A base := hquad _ (.inl rfl)
  have hA1 : A (base + 1) := hquad _ (.inr (.inl rfl))
  have hA2 : A (base + 2) := hquad _ (.inr (.inr (.inl rfl)))
  have hA3 : A (base + 3) := hquad _ (.inr (.inr (.inr rfl)))
  have hne {i j : UInt16} (hij : i ≠ j) : base + i ≠ base + j :=
    fun heq => hij ((UInt16.add_right_inj _).1 heq)
  have hfirst {j : UInt16} (hj : 0 ≠ j) : base ≠ base + j := by
    simpa only [UInt16.add_zero] using hne hj
  have hbyte0 : ram₄ base = (number >>> 24).toUInt8 := by
    rw [h₄ _ hA0, if_neg (hfirst (by decide)), h₃ _ hA0, if_neg (hfirst (by decide)), h₂ _ hA0,
      if_neg (hfirst (by decide)), h₁ _ hA0, if_pos rfl]
  have hbyte1 : ram₄ (base + 1) = (number >>> 16).toUInt8 := by
    rw [h₄ _ hA1, if_neg (hne (by decide)), h₃ _ hA1, if_neg (hne (by decide)), h₂ _ hA1,
      if_pos rfl]
  have hbyte2 : ram₄ (base + 2) = (number >>> 8).toUInt8 := by
    rw [h₄ _ hA2, if_neg (hne (by decide)), h₃ _ hA2, if_pos rfl]
  have hbyte3 : ram₄ (base + 3) = number.toUInt8 := by
    rw [h₄ _ hA3, if_pos rfl]
  rw [hbyte0, hbyte1, hbyte2, hbyte3, RegisterBus.joinBytes_split]

namespace PlainMemory

variable [RegisterBus β] {A : UInt16 → Prop} (b : PlainMemory β A)

/-- The number that stands in the four bytes from an address on. -/
def number (base : UInt16) (bus : β) : UInt32 :=
  RegisterBus.joinBytes (b.ram bus base) (b.ram bus (base + 1)) (b.ram bus (base + 2))
    (b.ram bus (base + 3))

/-- Nothing was written to the memory. -/
structure Still (bus bus' : β) : Prop where
  wired : b.wired bus'
  ram : ∀ a, A a → b.ram bus' a = b.ram bus a

variable {b} {bus bus' bus'' : β} {addr base : UInt16} {value : UInt8}

theorem Still.refl (h : b.wired bus) : b.Still bus bus := ⟨h, fun _ _ => rfl⟩

theorem Still.trans (h : b.Still bus bus') (h' : b.Still bus' bus'') : b.Still bus bus'' :=
  ⟨h'.wired, fun a ha => (h'.ram a ha).trans (h.ram a ha)⟩

/-- A read writes nothing, whatever it reads. -/
theorem still_read (hwired : b.wired bus) (h : RegisterBus.read addr bus = .done value bus') :
    b.Still bus bus' := by
  obtain ⟨hwired', hram⟩ := b.read hwired h
  exact ⟨hwired', hram⟩

theorem fetch_still (hwired : b.wired bus) (haddr : A addr) :
    ∃ bus', RegisterBus.read addr bus = .done (b.ram bus addr) bus' ∧ b.Still bus bus' := by
  obtain ⟨bus', hread⟩ := b.fetch hwired haddr
  exact ⟨bus', hread, still_read hwired hread⟩

theorem store_ram (hwired : b.wired bus) (haddr : A addr) (value : UInt8) :
    ∃ bus', RegisterBus.write addr value bus = .done () bus' ∧ b.wired bus' ∧
      ∀ a, A a → b.ram bus' a = if a = addr then value else b.ram bus a := by
  obtain ⟨bus', hwrite⟩ := b.store hwired haddr value
  exact ⟨bus', hwrite, b.write hwired hwrite⟩

section Numbers

variable (hquad : ∀ a, Quad base a → A a)

include hquad

theorem Still.number (h : b.Still bus bus') : b.number base bus' = b.number base bus := by
  unfold PlainMemory.number
  rw [h.ram _ (hquad _ (.inl rfl)), h.ram _ (hquad _ (.inr (.inl rfl))),
    h.ram _ (hquad _ (.inr (.inr (.inl rfl)))), h.ram _ (hquad _ (.inr (.inr (.inr rfl))))]

/-- Four bytes of memory are read as the number that stands there. -/
theorem read32_still (hwired : b.wired bus) :
    ∃ bus', RegisterBus.read32 base bus = .done (b.number base bus) bus' ∧ b.Still bus bus' := by
  obtain ⟨bus1, hread3, hstill1⟩ := fetch_still hwired (hquad _ (.inl rfl))
  obtain ⟨bus2, hread2, hstill2⟩ := fetch_still hstill1.wired (hquad _ (.inr (.inl rfl)))
  obtain ⟨bus3, hread1, hstill3⟩ := fetch_still hstill2.wired (hquad _ (.inr (.inr (.inl rfl))))
  obtain ⟨bus4, hread0, hstill4⟩ := fetch_still hstill3.wired (hquad _ (.inr (.inr (.inr rfl))))
  have htwo := hstill1.trans hstill2
  have hthree := htwo.trans hstill3
  refine ⟨bus4, ?_, hthree.trans hstill4⟩
  rw [hstill1.ram _ (hquad _ (.inr (.inl rfl)))] at hread2
  rw [htwo.ram _ (hquad _ (.inr (.inr (.inl rfl))))] at hread1
  rw [hthree.ram _ (hquad _ (.inr (.inr (.inr rfl))))] at hread0
  unfold RegisterBus.read32
  rw [Run.bind_of_done hread3, Run.bind_of_done hread2, Run.bind_of_done hread1,
    Run.bind_of_done hread0]
  rfl

/-- What is written to four bytes of memory is the number that stands there then. -/
theorem write32_number (hwired : b.wired bus) (number : UInt32) :
    ∃ bus', RegisterBus.write32 base number bus = .done () bus' ∧ b.wired bus' ∧
      b.number base bus' = number := by
  obtain ⟨bus1, hwrite3, hwired1, hram1⟩ :=
    store_ram hwired (hquad _ (.inl rfl)) (number >>> 24).toUInt8
  obtain ⟨bus2, hwrite2, hwired2, hram2⟩ :=
    store_ram hwired1 (hquad _ (.inr (.inl rfl))) (number >>> 16).toUInt8
  obtain ⟨bus3, hwrite1, hwired3, hram3⟩ :=
    store_ram hwired2 (hquad _ (.inr (.inr (.inl rfl)))) (number >>> 8).toUInt8
  obtain ⟨bus4, hwrite0, hwired4, hram4⟩ :=
    store_ram hwired3 (hquad _ (.inr (.inr (.inr rfl)))) number.toUInt8
  refine ⟨bus4, ?_, hwired4, joinBytes_of_writes hquad hram1 hram2 hram3 hram4⟩
  unfold RegisterBus.write32
  rw [Run.bind_of_done hwrite3, Run.bind_of_done hwrite2, Run.bind_of_done hwrite1]
  exact hwrite0

end Numbers

end PlainMemory

end BankedController
