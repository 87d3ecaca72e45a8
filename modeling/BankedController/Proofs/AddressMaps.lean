import BankedController.Proofs.RangeLayouts
import BankedController.Proofs.RigBuses

namespace BankedController

variable {κ σ : Type}

/-- An operation on a bus. -/
inductive BusOperation (κ : Type) where
  | map (r : MappedRange κ)
  | unmap (start size : UInt16)
  | read (addr : UInt16)
  | write (addr : UInt16) (value : UInt8)
  | reset

/-- What an operation answers. -/
inductive BusAnswer where
  | done
  /-- The range cannot be mapped. -/
  | refused
  /-- No such range is mapped. -/
  | absent
  | value (v : UInt8)
  /-- The device that the address belongs to faulted. -/
  | faulted (cause : Fault)
  deriving DecidableEq

/-- Carries out operations in turn, each on the state that the one before it left, also where that
faulted. -/
def BusOperation.runAll {τ : Type} (run : BusOperation κ → Run τ BusAnswer) :
    List (BusOperation κ) → τ → List BusAnswer × τ
  | [], s => ([], s)
  | op :: rest, s =>
    match run op s with
    | .done answer s =>
      let (answers, s) := runAll run rest s
      (answer :: answers, s)
    | .fault cause s =>
      let (answers, s) := runAll run rest s
      (.faulted cause :: answers, s)
    | .exhausted => ([], s)

namespace XdataBus

variable [DeviceStore κ σ]

/-- Carries out an operation. A range that cannot be mapped leaves the bus as it is. -/
def operate : BusOperation κ → Run (XdataBus κ σ) BusAnswer
  | .map r => fun bus =>
    match bus.mapRange r with
    | .ok bus => .done .done bus
    | .error _ => .done .refused bus
  | .unmap start size => fun bus =>
    match bus.unmapRange? start size with
    | some bus => .done .done bus
    | none => .done .absent bus
  | .read addr => do
    let v ← read addr
    pure (.value v)
  | .write addr value => do
    write addr value
    pure .done
  | .reset => fun bus => .done .done bus.reset

end XdataBus

/-- Every address with the registration that claims it, if one does; the devices; and the writes to
addresses that were not claimed when they were made, since the last reset, the newest first. -/
structure AddressMap (κ σ : Type) where
  owner : UInt16 → Option (MappedRange κ)
  devices : σ
  written : List (UInt16 × UInt8)

namespace AddressMap

/-- Nothing is claimed and nothing was written. -/
def unclaimed (devices : σ) : AddressMap κ σ := ⟨fun _ => none, devices, []⟩

/-- The byte of memory at an address: what was last written there, or zero. -/
def cell (m : AddressMap κ σ) (addr : UInt16) : UInt8 := lastWritten addr m.written

/-- All addresses, ascending. Only what is in the list and in which order matters, and it is never
unfolded. -/
@[irreducible]
def addresses : List UInt16 := (List.range 0x10000).map UInt16.ofNat

/-- The registrations by ascending start. -/
def registrations (m : AddressMap κ σ) : List (MappedRange κ) :=
  addresses.filterMap fun addr => (m.owner addr).filter fun r => r.start = addr

/-- The map once a range claims its addresses. -/
def claimed (m : AddressMap κ σ) (r : MappedRange κ) : AddressMap κ σ :=
  { m with owner := fun addr => if r.contains addr then some r else m.owner addr }

/-- The map once the registrations of `size` addresses from `start` on claim nothing. -/
def released (m : AddressMap κ σ) (start size : UInt16) : AddressMap κ σ :=
  { m with owner := fun addr => (m.owner addr).filter fun r => !(r.start = start && r.size = size) }

/-- A range is refused if it is empty, if it runs past the last address, or if one of its addresses
is claimed already. -/
def Refuses (m : AddressMap κ σ) (r : MappedRange κ) : Prop :=
  r.size = 0 ∨ 0x10000 < r.stop ∨ ∃ addr, r.contains addr ∧ (m.owner addr).isSome

theorem mem_addresses (addr : UInt16) : addr ∈ addresses := by
  unfold addresses
  rw [List.mem_map]
  exact ⟨addr.toNat, List.mem_range.2 addr.toNat_lt, UInt16.ofNat_toNat⟩

instance (m : AddressMap κ σ) (r : MappedRange κ) : Decidable (m.Refuses r) :=
  decidable_of_iff
    (r.size = 0 ∨ 0x10000 < r.stop ∨ ∃ addr ∈ addresses, r.contains addr ∧ (m.owner addr).isSome)
    (by simp only [mem_addresses, true_and, Refuses])

variable [DeviceStore κ σ]

def read (addr : UInt16) : Run (AddressMap κ σ) UInt8 := fun m =>
  match m.owner addr with
  | none => .done (m.cell addr) m
  | some r =>
    match DeviceStore.read r.device addr m.devices with
    | .ok (value, devices) => .done value { m with devices := devices }
    | .error cause => .fault cause m

def write (addr : UInt16) (value : UInt8) : Run (AddressMap κ σ) Unit := fun m =>
  match m.owner addr with
  | none => .done () { m with written := (addr, value) :: m.written }
  | some r =>
    match DeviceStore.write r.device addr value m.devices with
    | .ok devices => .done () { m with devices := devices }
    | .error cause => .fault cause m

/-- Resets the device of every registration, by ascending start, and clears memory. -/
def reset (m : AddressMap κ σ) : AddressMap κ σ :=
  { m with
    devices := m.registrations.foldl (fun ds r => DeviceStore.reset r.device ds) m.devices
    written := [] }

theorem devices_reset (m : AddressMap κ σ) :
    m.reset.devices =
      m.registrations.foldl (fun ds r => DeviceStore.reset r.device ds) m.devices := rfl

/-- Carries out an operation. -/
def operate : BusOperation κ → Run (AddressMap κ σ) BusAnswer
  | .map r => fun m =>
    if m.Refuses r then .done .refused m else .done .done (m.claimed r)
  | .unmap start size => fun m =>
    if ∃ r ∈ m.registrations, r.start = start ∧ r.size = size then
      .done .done (m.released start size)
    else
      .done .absent m
  | .read addr => do
    let v ← read addr
    pure (.value v)
  | .write addr value => do
    write addr value
    pure .done
  | .reset => fun m => .done .done m.reset

end AddressMap

/-- The bus behaves as the map says: its ranges are laid out in order, they claim what the map says
is claimed, and its memory and its devices are those of the map. -/
structure XdataBus.Represents (bus : XdataBus κ σ) (m : AddressMap κ σ) : Prop where
  layout : MappedRange.Layout bus.ranges
  owner : ∀ addr r, m.owner addr = some r ↔ r ∈ bus.ranges ∧ r.contains addr
  devices : bus.devices = m.devices
  ram : ∀ addr, bus.ram.get addr = m.cell addr

/-- Two runs end in the same way, in states that are related. -/
def Outcome.Alike {τ τ' α : Type} (R : τ → τ' → Prop) : Outcome τ α → Outcome τ' α → Prop
  | .done a s, .done b t => a = b ∧ R s t
  | .fault cause s, .fault cause' t => cause = cause' ∧ R s t
  | _, _ => False

/-- Operations that are alike one by one are alike in turn. -/
theorem BusOperation.runAll_alike {τ τ' : Type} {R : τ → τ' → Prop}
    {run : BusOperation κ → Run τ BusAnswer} {run' : BusOperation κ → Run τ' BusAnswer}
    (h : ∀ op s t, R s t → Outcome.Alike R (run op s) (run' op t)) (ops : List (BusOperation κ))
    {s : τ} {t : τ'} (hst : R s t) :
    (runAll run ops s).1 = (runAll run' ops t).1 ∧
      R (runAll run ops s).2 (runAll run' ops t).2 := by
  induction ops generalizing s t with
  | nil => exact ⟨rfl, hst⟩
  | cons op rest ih =>
    have hop := h op s t hst
    unfold runAll
    cases hs : run op s <;> cases ht : run' op t <;> rw [hs, ht] at hop
    case done.done a s' b t' =>
      obtain ⟨rfl, hst'⟩ := hop
      obtain ⟨hanswers, hlast⟩ := ih hst'
      exact ⟨congrArg (a :: ·) hanswers, hlast⟩
    case fault.fault cause s' cause' t' =>
      obtain ⟨rfl, hst'⟩ := hop
      obtain ⟨hanswers, hlast⟩ := ih hst'
      exact ⟨congrArg (.faulted cause :: ·) hanswers, hlast⟩
    all_goals exact hop.elim

namespace XdataBus.Represents

variable {bus : XdataBus κ σ} {m : AddressMap κ σ} {addr : UInt16}

theorem unclaimed (devices : σ) :
    (ofDevices devices : XdataBus κ σ).Represents (.unclaimed devices) where
  layout := .nil
  owner addr r := by simp [ofDevices, ofRanges, AddressMap.unclaimed]
  devices := rfl
  ram addr := Ram.get_zero addr

/-- The range that is found for an address is the registration that claims it. -/
theorem find?_eq (h : bus.Represents m) (addr : UInt16) :
    (bus.ranges.find? fun r => r.contains addr) = m.owner addr := by
  refine Option.ext fun r => ?_
  rw [h.layout.find?_eq_some_iff, h.owner]

theorem claim?_eq (h : bus.Represents m) (addr : UInt16) :
    bus.claim? addr = (m.owner addr).map MappedRange.device := by
  rw [XdataBus.claim?_eq, MappedRange.claimIn, h.find?_eq]

/-- The registrations of the map are the ranges of the bus: each is found at its start. -/
theorem mem_registrations (h : bus.Represents m) (r : MappedRange κ) :
    r ∈ m.registrations ↔ r ∈ bus.ranges := by
  unfold AddressMap.registrations
  rw [List.mem_filterMap]
  constructor
  · rintro ⟨addr, -, hr⟩
    exact ((h.owner addr r).1 (Option.filter_eq_some_iff.1 hr).1).1
  · intro hr
    have hstart := MappedRange.contains_start (h.layout.within r hr).1
    refine ⟨r.start, AddressMap.mem_addresses _, Option.filter_eq_some_iff.2 ⟨?_, by simp⟩⟩
    exact (h.owner _ r).2 ⟨hr, hstart⟩

end XdataBus.Represents

theorem AddressMap.addresses_ascending : addresses.Pairwise (· < ·) := by
  unfold addresses
  refine List.pairwise_map.2 (List.Pairwise.imp_of_mem ?_ List.pairwise_lt_range)
  intro i j hi hj hlt
  rw [List.mem_range] at hi hj
  rw [UInt16.lt_iff_toNat_lt, UInt16.toNat_ofNat_of_lt' hi, UInt16.toNat_ofNat_of_lt' hj]
  exact hlt

theorem AddressMap.registrations_ordered (m : AddressMap κ σ) :
    m.registrations.Pairwise fun r s => r.start < s.start := by
  refine List.pairwise_filterMap.2 (addresses_ascending.imp ?_)
  intro addr addr' hlt r hr s hs
  have hstart : r.start = addr := by simpa using (Option.filter_eq_some_iff.1 hr).2
  have hstart' : s.start = addr' := by simpa using (Option.filter_eq_some_iff.1 hs).2
  rw [hstart, hstart']
  exact hlt

namespace XdataBus.Represents

variable {bus : XdataBus κ σ} {m : AddressMap κ σ} {addr : UInt16}

theorem registrations_eq (h : bus.Represents m) : m.registrations = bus.ranges :=
  MappedRange.eq_of_ordered m.registrations_ordered h.layout.ordered h.mem_registrations

/-- An address of a range is claimed exactly if some mapped range is not apart from it. -/
theorem claims_iff (h : bus.Represents m) {r : MappedRange κ} (hsize : r.size ≠ 0) :
    (∃ addr, r.contains addr ∧ (m.owner addr).isSome) ↔ ∃ s ∈ bus.ranges, ¬r.Apart s := by
  constructor
  · rintro ⟨addr, hin, hsome⟩
    obtain ⟨s, hs⟩ := Option.isSome_iff_exists.1 hsome
    obtain ⟨hmem, hin'⟩ := (h.owner addr s).1 hs
    refine ⟨s, hmem, fun hapart => ?_⟩
    exact (MappedRange.apart_iff hsize (h.layout.within s hmem).1).1 hapart addr hin hin'
  · -- ranges that are not apart have an address in common, which the mapped one claims
    rintro ⟨s, hs, hnot⟩
    rw [MappedRange.apart_iff hsize (h.layout.within s hs).1] at hnot
    obtain ⟨addr, hin, hin'⟩ : ∃ addr, r.contains addr ∧ s.contains addr := by
      simpa using hnot
    refine ⟨addr, hin, ?_⟩
    rw [(h.owner addr s).2 ⟨hs, hin'⟩]
    rfl

/-- Ranges that are those of the bus and one more, apart from them all, claim what the map says once
that one claims its addresses. -/
theorem claimed (h : bus.Represents m) {r : MappedRange κ} {out : List (MappedRange κ)}
    (hadd : r.add bus.ranges = .ok out) :
    (ofRanges bus.ram bus.devices out).Represents (m.claimed r) := by
  obtain ⟨hsize, hstop, hapart, hlayout, hmem⟩ := MappedRange.add_eq_ok hadd h.layout
  refine ⟨hlayout, ?_, h.devices, h.ram⟩
  intro addr s
  change (if r.contains addr then some r else m.owner addr) = some s ↔ s ∈ out ∧ s.contains addr
  rw [hmem]
  by_cases hin : r.contains addr
  · rw [if_pos hin]
    constructor
    · rintro ⟨⟩
      exact ⟨.inl rfl, hin⟩
    · rintro ⟨rfl | hs, hin'⟩
      · rfl
      · -- an address of the new range is in none of the others
        have hdisjoint := (MappedRange.apart_iff hsize (h.layout.within s hs).1).1 (hapart s hs)
        exact absurd hin' (hdisjoint addr hin)
  · rw [if_neg hin, h.owner]
    constructor
    · rintro ⟨hs, hin'⟩
      exact ⟨.inr hs, hin'⟩
    · rintro ⟨rfl | hs, hin'⟩
      · exact absurd hin' hin
      · exact ⟨hs, hin'⟩

/-- Without a registration its addresses are memory again, and what another one claims stays
claimed. -/
theorem released (h : bus.Represents m) (start size : UInt16) :
    (ofRanges bus.ram bus.devices
      (bus.ranges.filter fun r => !(r.start = start && r.size = size))).Represents
      (m.released start size) := by
  refine ⟨h.layout.filter _, ?_, h.devices, h.ram⟩
  intro addr r
  change (m.owner addr).filter _ = some r ↔
    r ∈ bus.ranges.filter (fun r => !(r.start = start && r.size = size)) ∧ r.contains addr
  rw [Option.filter_eq_some_iff, List.mem_filter, h.owner]
  exact and_right_comm

variable [DeviceStore κ σ]

theorem operate_map (h : bus.Represents m) (r : MappedRange κ) :
    (operate (.map r) bus).Alike Represents (AddressMap.operate (.map r) m) := by
  have hmap : bus.mapRange r = (r.add bus.ranges).map (ofRanges bus.ram bus.devices) := by
    unfold mapRange mapAll MappedRange.addAll MappedRange.addAll
    cases r.add bus.ranges <;> rfl
  cases hadd : r.add bus.ranges with
  | ok out =>
    obtain ⟨hsize, hstop, hapart, -⟩ := MappedRange.add_eq_ok hadd h.layout
    have haccepts : ¬m.Refuses r := by
      rintro (hzero | hover | hcommon)
      · exact hsize hzero
      · exact absurd hstop (Nat.not_le.2 hover)
      · obtain ⟨s, hs, hnot⟩ := (h.claims_iff hsize).1 hcommon
        exact hnot (hapart s hs)
    have hmapped : bus.mapRange r = .ok (ofRanges bus.ram bus.devices out) := by
      rw [hmap, hadd]
      rfl
    have hrun : operate (.map r) bus = .done .done (ofRanges bus.ram bus.devices out) := by
      simp only [operate, hmapped]
    have hrun' : AddressMap.operate (.map r) m = .done .done (m.claimed r) := by
      simp only [AddressMap.operate, if_neg haccepts]
    rw [hrun, hrun']
    exact ⟨rfl, h.claimed hadd⟩
  | error e =>
    have hrefuses : m.Refuses r := by
      by_cases hsize : r.size = 0
      · exact .inl hsize
      rcases MappedRange.add_eq_error hadd h.layout with hzero | hstop | hover
      · exact .inl hzero
      · exact .inr (.inl hstop)
      · exact .inr (.inr ((h.claims_iff hsize).2 hover))
    have hmapped : bus.mapRange r = .error e := by
      rw [hmap, hadd]
      rfl
    have hrun : operate (.map r) bus = .done .refused bus := by
      simp only [operate, hmapped]
    have hrun' : AddressMap.operate (.map r) m = .done .refused m := by
      simp only [AddressMap.operate, if_pos hrefuses]
    rw [hrun, hrun']
    exact ⟨rfl, h⟩

theorem operate_unmap (h : bus.Represents m) (start size : UInt16) :
    (operate (.unmap start size) bus).Alike Represents
      (AddressMap.operate (.unmap start size) m) := by
  have hmapped : (bus.ranges.any fun r => r.start = start && r.size = size) ↔
      ∃ r ∈ m.registrations, r.start = start ∧ r.size = size := by
    rw [h.registrations_eq, List.any_eq_true]
    simp
  by_cases hany : bus.ranges.any fun r => r.start = start && r.size = size
  · have hrun : operate (.unmap start size) bus = .done .done (ofRanges bus.ram bus.devices
        (bus.ranges.filter fun r => !(r.start = start && r.size = size))) := by
      simp only [operate, unmapRange?, if_pos hany]
    have hrun' : AddressMap.operate (.unmap start size) m =
        .done .done (m.released start size) := by
      simp only [AddressMap.operate, if_pos (hmapped.1 hany)]
    rw [hrun, hrun']
    exact ⟨rfl, h.released start size⟩
  · have hrun : operate (.unmap start size) bus = .done .absent bus := by
      simp only [operate, unmapRange?, if_neg hany]
    have hrun' : AddressMap.operate (.unmap start size) m = .done .absent m := by
      simp only [AddressMap.operate, if_neg (hany ∘ hmapped.2)]
    rw [hrun, hrun']
    exact ⟨rfl, h⟩

theorem operate_read (h : bus.Represents m) (addr : UInt16) :
    (operate (.read addr) bus).Alike Represents (AddressMap.operate (.read addr) m) := by
  have hclaim := h.claim?_eq addr
  cases howner : m.owner addr with
  | none =>
    rw [howner] at hclaim
    have hrun : operate (.read addr) bus = .done (.value (bus.ram.get addr)) bus := by
      simp only [operate, Run.bind_apply, read_of_free hclaim, Run.pure_apply]
    have hrun' : AddressMap.operate (.read addr) m = .done (.value (m.cell addr)) m := by
      simp only [AddressMap.operate, Run.bind_apply, AddressMap.read, howner, Run.pure_apply]
    rw [hrun, hrun']
    exact ⟨congrArg BusAnswer.value (h.ram addr), h⟩
  | some r =>
    rw [howner] at hclaim
    cases hread : DeviceStore.read r.device addr bus.devices with
    | ok answer =>
      obtain ⟨value, devices⟩ := answer
      have hrun : operate (.read addr) bus =
          .done (.value value) { bus with devices := devices } := by
        simp only [operate, Run.bind_apply, read_of_claim hclaim hread, Run.pure_apply]
      have hrun' : AddressMap.operate (.read addr) m =
          .done (.value value) { m with devices := devices } := by
        simp only [AddressMap.operate, Run.bind_apply, AddressMap.read, howner, ← h.devices, hread,
          Run.pure_apply]
      rw [hrun, hrun']
      exact ⟨rfl, h.layout, h.owner, rfl, h.ram⟩
    | error cause =>
      have hrun : operate (.read addr) bus = .fault cause bus := by
        simp only [operate, Run.bind_apply, read_of_refusal hclaim hread]
      have hrun' : AddressMap.operate (.read addr) m = .fault cause m := by
        simp only [AddressMap.operate, Run.bind_apply, AddressMap.read, howner, ← h.devices, hread]
      rw [hrun, hrun']
      exact ⟨rfl, h⟩

theorem operate_write (h : bus.Represents m) (addr : UInt16) (value : UInt8) :
    (operate (.write addr value) bus).Alike Represents
      (AddressMap.operate (.write addr value) m) := by
  have hclaim := h.claim?_eq addr
  cases howner : m.owner addr with
  | none =>
    rw [howner] at hclaim
    have hrun : operate (.write addr value) bus =
        .done .done { bus with ram := bus.ram.set addr value } := by
      simp only [operate, Run.bind_apply, write_of_free hclaim, Run.pure_apply]
    have hrun' : AddressMap.operate (.write addr value) m =
        .done .done { m with written := (addr, value) :: m.written } := by
      simp only [AddressMap.operate, Run.bind_apply, AddressMap.write, howner, Run.pure_apply]
    rw [hrun, hrun']
    refine ⟨rfl, h.layout, h.owner, h.devices, fun other => ?_⟩
    change (bus.ram.set addr value).get other = lastWritten other ((addr, value) :: m.written)
    rw [Paged.get_set, lastWritten_cons, h.ram]
    rfl
  | some r =>
    rw [howner] at hclaim
    cases hwrite : DeviceStore.write r.device addr value bus.devices with
    | ok devices =>
      have hrun : operate (.write addr value) bus =
          .done .done { bus with devices := devices } := by
        simp only [operate, Run.bind_apply, write_of_claim hclaim hwrite, Run.pure_apply]
      have hrun' : AddressMap.operate (.write addr value) m =
          .done .done { m with devices := devices } := by
        simp only [AddressMap.operate, Run.bind_apply, AddressMap.write, howner, ← h.devices,
          hwrite, Run.pure_apply]
      rw [hrun, hrun']
      exact ⟨rfl, h.layout, h.owner, rfl, h.ram⟩
    | error cause =>
      have hrun : operate (.write addr value) bus = .fault cause bus := by
        simp only [operate, Run.bind_apply, write_of_refusal hclaim hwrite]
      have hrun' : AddressMap.operate (.write addr value) m = .fault cause m := by
        simp only [AddressMap.operate, Run.bind_apply, AddressMap.write, howner, ← h.devices,
          hwrite]
      rw [hrun, hrun']
      exact ⟨rfl, h⟩

/-- A reset clears memory, and leaves the claims as they are. -/
theorem reset (h : bus.Represents m) : bus.reset.Represents m.reset where
  layout := h.layout
  owner := h.owner
  devices := by
    rw [AddressMap.devices_reset, h.registrations_eq, ← h.devices]
    rfl
  ram addr := by
    have hram : bus.reset.ram = Ram.zero := rfl
    rw [hram, Ram.get_zero]
    rfl

theorem operate_reset (h : bus.Represents m) :
    (operate .reset bus).Alike Represents (AddressMap.operate .reset m) := by
  have hrun : operate .reset bus = .done .done bus.reset := by
    simp only [operate]
  have hrun' : AddressMap.operate .reset m = .done .done m.reset := by
    simp only [AddressMap.operate]
  rw [hrun, hrun']
  exact ⟨rfl, h.reset⟩

/-- Every operation answers what the map answers, and leaves the bus as the map it leaves says. -/
theorem operate_alike (op : BusOperation κ) (bus : XdataBus κ σ) (m : AddressMap κ σ)
    (h : bus.Represents m) :
    (operate op bus).Alike Represents (AddressMap.operate op m) := by
  cases op with
  | map r => exact h.operate_map r
  | unmap start size => exact h.operate_unmap start size
  | read addr => exact h.operate_read addr
  | write addr value => exact h.operate_write addr value
  | reset => exact h.operate_reset

end XdataBus.Represents

/-- A bus with devices that are mapped nowhere yet answers every sequence of operations as the map
does in which no address is claimed yet. Whatever the sequence, the ranges are then the
registrations of the map by ascending start, each ending before the next begins. The range that is
looked at for an address, the last that does not start above it, contains the address exactly if a
registration claims it, and is that registration; and the range that is looked at to unmap a range,
the first that does not start below it, is that range exactly if it is a registration. -/
theorem XdataBus.refines_addressMap [DeviceStore κ σ] (devices : σ) (ops : List (BusOperation κ)) :
    let ended := BusOperation.runAll operate ops (ofDevices devices : XdataBus κ σ)
    let mapped := BusOperation.runAll AddressMap.operate ops (.unclaimed devices)
    ended.1 = mapped.1 ∧ ended.2.Represents mapped.2 ∧
      ended.2.ranges = mapped.2.registrations ∧
      (∀ addr,
        (MappedRange.lastBelow addr ended.2.ranges).filter (fun r => r.contains addr) =
            mapped.2.owner addr ∧
          ended.2.claim? addr = (mapped.2.owner addr).map MappedRange.device) ∧
      ∀ start size,
        (MappedRange.firstFrom start ended.2.ranges).filter
            (fun r => r.start = start && r.size = size) =
          mapped.2.registrations.find? fun r => r.start = start && r.size = size := by
  intro ended mapped
  have hinitial : (ofDevices devices : XdataBus κ σ).Represents (.unclaimed devices) :=
    Represents.unclaimed devices
  obtain ⟨hanswers, h⟩ : ended.1 = mapped.1 ∧ ended.2.Represents mapped.2 :=
    BusOperation.runAll_alike Represents.operate_alike ops hinitial
  refine ⟨hanswers, h, h.registrations_eq.symm, ?_, ?_⟩
  · intro addr
    rw [MappedRange.filter_lastBelow h.layout, h.find?_eq]
    exact ⟨rfl, h.claim?_eq addr⟩
  · intro start size
    rw [MappedRange.filter_firstFrom h.layout, h.registrations_eq]

end BankedController
