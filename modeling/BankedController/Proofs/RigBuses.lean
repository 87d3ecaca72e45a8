import BankedController.Rig

namespace BankedController

namespace XdataBus

variable {κ σ : Type} [DeviceStore κ σ] {bus : XdataBus κ σ} {addr : UInt16}

theorem read_of_free (h : bus.claim? addr = none) :
    read addr bus = .done (bus.ram.get addr) bus := by
  have hclaim : bus.claims.get addr = none := h
  unfold read
  simp only [hclaim]

theorem write_of_free (h : bus.claim? addr = none) (value : UInt8) :
    write addr value bus = .done () { bus with ram := bus.ram.set addr value } := by
  have hclaim : bus.claims.get addr = none := h
  unfold write
  simp only [hclaim]

theorem read_of_claim {key : κ} (h : bus.claim? addr = some key) {value : UInt8} {devices : σ}
    (hread : DeviceStore.read key addr bus.devices = .ok (value, devices)) :
    read addr bus = .done value { bus with devices := devices } := by
  have hclaim : bus.claims.get addr = some key := h
  unfold read
  simp only [hclaim, hread]

theorem write_of_claim {key : κ} (h : bus.claim? addr = some key) {value : UInt8} {devices : σ}
    (hwrite : DeviceStore.write key addr value bus.devices = .ok devices) :
    write addr value bus = .done () { bus with devices := devices } := by
  have hclaim : bus.claims.get addr = some key := h
  unfold write
  simp only [hclaim, hwrite]

theorem read_of_refusal {key : κ} (h : bus.claim? addr = some key) {cause : Fault}
    (hread : DeviceStore.read key addr bus.devices = .error cause) :
    read addr bus = .fault cause bus := by
  have hclaim : bus.claims.get addr = some key := h
  unfold read
  simp only [hclaim, hread]

theorem write_of_refusal {key : κ} (h : bus.claim? addr = some key) {value : UInt8} {cause : Fault}
    (hwrite : DeviceStore.write key addr value bus.devices = .error cause) :
    write addr value bus = .fault cause bus := by
  have hclaim : bus.claims.get addr = some key := h
  unfold write
  simp only [hclaim, hwrite]

/-- A read leaves memory and the claims as they are. -/
theorem read_eq_done {bus' : XdataBus κ σ} {value : UInt8} (h : read addr bus = .done value bus') :
    bus'.ram = bus.ram ∧ bus'.claim? = bus.claim? := by
  obtain ⟨ram, devices, ranges, claims, hclaims⟩ := bus
  unfold read at h
  dsimp only at h
  split at h
  · cases h
    exact ⟨rfl, rfl⟩
  · split at h
    · cases h
      exact ⟨rfl, rfl⟩
    · cases h

/-- A write leaves the claims as they are, and memory at every other address. -/
theorem write_eq_done {bus' : XdataBus κ σ} {value : UInt8}
    (h : write addr value bus = .done () bus') :
    (∀ other, other ≠ addr → bus'.ram.get other = bus.ram.get other) ∧
      bus'.claim? = bus.claim? := by
  obtain ⟨ram, devices, ranges, claims, hclaims⟩ := bus
  unfold write at h
  dsimp only at h
  split at h
  · cases h
    refine ⟨?_, rfl⟩
    intro other hother
    dsimp only
    rw [Paged.get_set, if_neg (Ne.symm hother)]
  · split at h
    · cases h
      exact ⟨fun _ _ => rfl, rfl⟩
    · cases h

/-- A read of what no device claims leaves the devices alone, and any other is the claimant's. -/
theorem read_cases {bus' : XdataBus κ σ} {value : UInt8} (h : read addr bus = .done value bus') :
    bus.claim? addr = none ∧ bus'.devices = bus.devices ∨
      ∃ key, bus.claim? addr = some key ∧
        DeviceStore.read key addr bus.devices = .ok (value, bus'.devices) := by
  obtain ⟨ram, devices, ranges, claims, hclaims⟩ := bus
  unfold read at h
  dsimp only at h
  split at h
  next hclaim =>
    cases h
    exact .inl ⟨hclaim, rfl⟩
  next key hclaim =>
    split at h
    next hread =>
      cases h
      exact .inr ⟨key, hclaim, hread⟩
    next => cases h

theorem write_cases {bus' : XdataBus κ σ} {value : UInt8}
    (h : write addr value bus = .done () bus') :
    bus.claim? addr = none ∧ bus'.devices = bus.devices ∨
      ∃ key, bus.claim? addr = some key ∧
        DeviceStore.write key addr value bus.devices = .ok bus'.devices := by
  obtain ⟨ram, devices, ranges, claims, hclaims⟩ := bus
  unfold write at h
  dsimp only at h
  split at h
  next hclaim =>
    cases h
    exact .inl ⟨hclaim, rfl⟩
  next key hclaim =>
    split at h
    next hwrite =>
      cases h
      exact .inr ⟨key, hclaim, hwrite⟩
    next => cases h

end XdataBus

namespace Rig

variable {ω α : Type} {m : Run RigBus α} {rig : Rig ω} {a : α}

theorem onBus_of_done {bus : RigBus} (h : m rig.bus = .done a bus) :
    Rig.onBus m rig = .done a { rig with bus := bus } := by
  unfold Rig.onBus
  dsimp only
  rw [h]

theorem onBus_eq_done {rig' : Rig ω} (h : Rig.onBus m rig = .done a rig') :
    m rig.bus = .done a rig'.bus ∧ rig'.record = rig.record := by
  unfold Rig.onBus at h
  dsimp only at h
  split at h
  next hm =>
    cases h
    exact ⟨hm, rfl⟩
  next => cases h
  next => cases h

end Rig

end BankedController
