import BankedController.Proofs.EndpointBuses

namespace BankedController

open RegisterMap

namespace Latch

variable {l l' : Latch} {base size addr other : UInt16} {f : UInt8 → UInt8}

/-- A latch with a byte for each of `size` addresses from `base` on. -/
structure Spans (l : Latch) (base size : UInt16) : Prop where
  base : l.base = base
  size : l.bytes.size = size.toNat

theorem Spans.index_lt (h : l.Spans base size) (haddr : addr - base < size) :
    l.index addr < l.bytes.size := by
  rw [index, h.base, h.size]
  exact UInt16.lt_iff_toNat_lt.1 haddr

theorem Spans.read (h : l.Spans base size) (haddr : addr - base < size) :
    ∃ value, l.value? addr = some value ∧ Latch.read addr l = .ok (value, l) := by
  have hlt := h.index_lt haddr
  have hvalue : l.value? addr = some l.bytes[l.index addr] := Array.getElem?_eq_getElem hlt
  refine ⟨_, hvalue, ?_⟩
  unfold Latch.read
  rw [hvalue]

/-- An update of a byte changes that byte and no other. -/
theorem Spans.update (h : l.Spans base size) (haddr : addr - base < size) :
    ∃ l', l.update addr f = .ok l' ∧ l'.Spans base size ∧
      ∀ other, l'.value? other =
        if other = addr then (l.value? addr).map f else l.value? other := by
  have hlt := h.index_lt haddr
  refine ⟨_, dif_pos hlt, ⟨h.base, (Array.size_set hlt).trans h.size⟩, ?_⟩
  intro other
  unfold value?
  have hindex : Latch.index { l with bytes := l.bytes.set (l.index addr) (f l.bytes[l.index addr]) }
      other = l.index other := rfl
  rw [hindex, Array.getElem?_set]
  by_cases heq : other = addr
  · subst heq
    rw [if_pos rfl, if_pos rfl, Array.getElem?_eq_getElem hlt]
    rfl
  · have hne : l.index addr ≠ l.index other := by
      intro hsame
      refine heq (UInt16.toNat_inj.1 ?_).symm
      have hsub : addr - l.base = other - l.base := UInt16.toNat_inj.1 hsame
      have := congrArg (· + l.base) hsub
      simp only [UInt16.sub_add_cancel] at this
      rw [this]
    rw [if_neg hne, if_neg heq]

end Latch

namespace EndpointBlock

theorem endpointAt_ok {addr : UInt16} (h : addr - endpointSecondaryBase < 8) :
    ∃ e, endpointAt addr = .ok e := by
  have haddr := addr.toNat_lt
  have hbase : endpointSecondaryBase.toNat = 0x9096 := rfl
  have hlt : addr.toNat - 0x9096 < 8 ∧ 0x9096 ≤ addr.toNat := by
    rw [UInt16.lt_iff_toNat_lt, UInt16.toNat_sub, hbase] at h
    have height : (8 : UInt16).toNat = 8 := rfl
    omega
  rw [endpointAt_eq, if_neg (by omega), dif_pos hlt.1]
  exact ⟨_, rfl⟩

end EndpointBlock

namespace RigBus

/-- An address that a block claims lies in one of the ranges of the block. -/
theorem range_of_claim {addr : UInt16} {key : Block} (h : initial.claim? addr = some key) :
    ∃ r ∈ ranges, r.device = key ∧ addr - r.start < r.size := by
  rw [XdataBus.claim?_eq, MappedRange.claimIn, Option.map_eq_some_iff] at h
  obtain ⟨r, hfind, hdevice⟩ := h
  refine ⟨r, List.mem_of_find?_eq_some hfind, hdevice, ?_⟩
  have hfound : r.contains addr = true := by simpa using List.find?_some hfind
  have hcontains := (r.contains_iff addr).1 hfound
  have haddr := addr.toNat_lt
  have hstart := r.start.toNat_lt
  rw [UInt16.lt_iff_toNat_lt, UInt16.toNat_sub]
  omega

theorem interruptStatus_of_claim {addr : UInt16} (h : initial.claim? addr = some .interruptStatus) :
    addr - interruptStatusBase < interruptStatusSize := by
  obtain ⟨r, hr, hdevice, haddr⟩ := range_of_claim h
  have hranges : ∀ r ∈ ranges, r.device = .interruptStatus →
      r.start = interruptStatusBase ∧ r.size = interruptStatusSize := by decide
  obtain ⟨hstart, hsize⟩ := hranges r hr hdevice
  rwa [hstart, hsize] at haddr

theorem timerStatus_of_claim {addr : UInt16} (h : initial.claim? addr = some .timerStatus) :
    addr - RegisterMap.timerStatus < 1 := by
  obtain ⟨r, hr, hdevice, haddr⟩ := range_of_claim h
  have hranges : ∀ r ∈ ranges, r.device = .timerStatus →
      r.start = RegisterMap.timerStatus ∧ r.size = 1 := by decide
  obtain ⟨hstart, hsize⟩ := hranges r hr hdevice
  rwa [hstart, hsize] at haddr

theorem unit_of_claim {addr : UInt16} {kind : CommandKind}
    (h : initial.claim? addr = some (.unit kind)) : addr - kind.block < blockSize := by
  obtain ⟨r, hr, hdevice, haddr⟩ := range_of_claim h
  have hranges : ∀ r ∈ ranges, r.device = .unit kind →
      r.start = kind.block ∧ r.size = blockSize := by
    cases kind <;> decide
  obtain ⟨hstart, hsize⟩ := hranges r hr hdevice
  rwa [hstart, hsize] at haddr

/-- The endpoint block claims the primary register and the secondary registers. -/
theorem endpoints_of_claim {addr : UInt16} (h : initial.claim? addr = some .endpoints) :
    addr = endpointStatus ∨ ∃ e, EndpointBlock.endpointAt addr = .ok e := by
  obtain ⟨r, hr, hdevice, haddr⟩ := range_of_claim h
  have hranges : ∀ r ∈ ranges, r.device = .endpoints →
      r.start = endpointSecondaryBase ∧ r.size = 8 ∨ r.start = endpointStatus ∧ r.size = 1 := by
    decide
  rcases hranges r hr hdevice with ⟨hstart, hsize⟩ | ⟨hstart, hsize⟩
  · rw [hstart, hsize] at haddr
    exact .inr (EndpointBlock.endpointAt_ok haddr)
  · rw [hstart, hsize] at haddr
    exact .inl (by grind)

theorem not_stuck {addr : UInt16} {value : UInt8} : initial.claim? addr ≠ some (.stuck value) := by
  intro h
  obtain ⟨r, hr, hdevice, -⟩ := range_of_claim h
  have hnone : ∀ r ∈ ranges, (match r.device with | .stuck _ => false | _ => true) = true := by
    decide
  have := hnone r hr
  rw [hdevice] at this
  cases this

end RigBus

namespace CommandUnit

variable {u : CommandUnit} {kind : CommandKind} {addr : UInt16}

theorem read_ok (hbase : u.base = kind.block) (h : addr - kind.block < blockSize) :
    ∃ value u', u.read addr = .ok (value, u') ∧ u'.base = kind.block := by
  have hlt : u.offset addr < 16 := by
    rw [offset, hbase]
    exact UInt16.lt_iff_toNat_lt.1 h
  have hread : u.read addr = .ok _ := dif_pos hlt
  exact ⟨_, _, hread, (Rig.base_read hread).trans hbase⟩

theorem write_ok (hbase : u.base = kind.block) (h : addr - kind.block < blockSize)
    (value : UInt8) : ∃ u', u.write addr value = .ok u' ∧ u'.base = kind.block := by
  have hlt : u.offset addr < 16 := by
    rw [offset, hbase]
    exact UInt16.lt_iff_toNat_lt.1 h
  have hwrite : u.write addr value = .ok _ := dif_pos hlt
  exact ⟨_, hwrite, (Rig.base_write hwrite).trans hbase⟩

end CommandUnit

namespace Blocks

/-- The byte of USB status. -/
def usb (b : Blocks) : UInt8 := (b.interruptStatus.value? usbStatus).getD 0

/-- The blocks stand where they were wired, with a register for each of their addresses. -/
structure Whole (b : Blocks) : Prop where
  interruptStatus : b.interruptStatus.Spans interruptStatusBase interruptStatusSize
  timerStatus : b.timerStatus.Spans RegisterMap.timerStatus 1
  base : ∀ kind, (b.unit kind).base = kind.block

theorem whole_initial : Whole .initial := by
  refine ⟨⟨rfl, rfl⟩, ⟨rfl, rfl⟩, ?_⟩
  intro kind
  cases kind <;> rfl

variable {b : Blocks} {key : Block} {addr : UInt16}

theorem Whole.setUnit (h : b.Whole) {kind : CommandKind} {u : CommandUnit}
    (hu : u.base = kind.block) : (b.setUnit kind u).Whole := by
  have hbase (other : CommandKind) : ((b.setUnit kind u).unit other).base = other.block := by
    rw [unit_setUnit]
    split
    next heq => rw [hu, heq]
    next => exact h.base other
  cases kind <;> exact ⟨h.interruptStatus, h.timerStatus, hbase⟩

theorem nvme_setUnit {kind : CommandKind} (h : Block.unit kind ≠ .unit .nvme) (u : CommandUnit) :
    (b.setUnit kind u).nvme = b.nvme := by
  cases kind with
  | nvme => exact absurd rfl h
  | flash => rfl
  | phy => rfl

theorem interruptStatus_setUnit (kind : CommandKind) (u : CommandUnit) :
    (b.setUnit kind u).interruptStatus = b.interruptStatus := by
  cases kind <;> rfl

/-- A read of a block where it is wired. -/
theorem Whole.read (h : b.Whole) (hkey : RigBus.initial.claim? addr = some key) :
    ∃ value b', Blocks.read key addr b = .ok (value, b') ∧ b'.Whole ∧
      b'.interruptStatus = b.interruptStatus ∧ (key ≠ .unit .nvme → b'.nvme = b.nvme) := by
  cases key with
  | control => exact ⟨_, _, rfl, ⟨h.interruptStatus, h.timerStatus, h.base⟩, rfl, fun _ => rfl⟩
  | endpoints =>
    have hread : ∃ value e, EndpointBlock.read addr b.endpoints = .ok (value, e) := by
      unfold EndpointBlock.read
      by_cases hstatus : addr = endpointStatus
      · rw [if_pos hstatus]
        exact ⟨_, _, rfl⟩
      · obtain ⟨e, he⟩ := (RigBus.endpoints_of_claim hkey).resolve_left hstatus
        rw [if_neg hstatus, he]
        exact ⟨_, _, rfl⟩
    obtain ⟨value, e, he⟩ := hread
    exact ⟨value, { b with endpoints := e }, congrArg (Except.map _) he,
      ⟨h.interruptStatus, h.timerStatus, h.base⟩, rfl, fun _ => rfl⟩
  | interruptStatus =>
    obtain ⟨value, -, hread⟩ := h.interruptStatus.read (RigBus.interruptStatus_of_claim hkey)
    exact ⟨value, b, congrArg (Except.map _) hread, h, rfl, fun _ => rfl⟩
  | timerStatus =>
    obtain ⟨value, -, hread⟩ := h.timerStatus.read (RigBus.timerStatus_of_claim hkey)
    exact ⟨value, b, congrArg (Except.map _) hread, h, rfl, fun _ => rfl⟩
  | unit kind =>
    obtain ⟨value, u, hread, hu⟩ :=
      CommandUnit.read_ok (h.base kind) (RigBus.unit_of_claim hkey)
    exact ⟨value, b.setUnit kind u, congrArg (Except.map _) hread, h.setUnit hu,
      interruptStatus_setUnit kind u, fun hne => nvme_setUnit hne u⟩
  | stuck value => exact absurd hkey RigBus.not_stuck

/-- A write to a block where it is wired. Writing a byte of interrupt status clears the bits that
are written, and touches no other byte. -/
theorem Whole.write (h : b.Whole) (hkey : RigBus.initial.claim? addr = some key) (value : UInt8) :
    ∃ b', Blocks.write key addr value b = .ok b' ∧ b'.Whole ∧
      b'.usb = (if addr = usbStatus then b.usb &&& ~~~value else b.usb) ∧
      (key ≠ .unit .nvme → b'.nvme = b.nvme) := by
  have hother (hne : key ≠ .interruptStatus) : addr ≠ usbStatus := by
    rintro rfl
    have husb : RigBus.initial.claim? usbStatus = some .interruptStatus := by
      rw [XdataBus.claim?_eq]
      decide
    exact hne (Option.some.inj (hkey.symm.trans husb))
  cases key with
  | control =>
    refine ⟨_, rfl, ⟨h.interruptStatus, h.timerStatus, h.base⟩, ?_, fun _ => rfl⟩
    rw [if_neg (hother nofun)]
    rfl
  | endpoints =>
    have hwrite : ∃ e, EndpointBlock.write addr value b.endpoints = .ok e := by
      unfold EndpointBlock.write
      by_cases hstatus : addr = endpointStatus
      · rw [if_pos hstatus]
        exact ⟨_, rfl⟩
      · obtain ⟨e, he⟩ := (RigBus.endpoints_of_claim hkey).resolve_left hstatus
        rw [if_neg hstatus, he]
        exact ⟨_, rfl⟩
    obtain ⟨e, he⟩ := hwrite
    refine ⟨{ b with endpoints := e }, congrArg (Except.map _) he,
      ⟨h.interruptStatus, h.timerStatus, h.base⟩, ?_, fun _ => rfl⟩
    rw [if_neg (hother nofun)]
    rfl
  | interruptStatus =>
    obtain ⟨l, hwrite, hspans, hvalue⟩ := h.interruptStatus.update
      (f := fun byte => byte &&& ~~~value) (RigBus.interruptStatus_of_claim hkey)
    refine ⟨{ b with interruptStatus := l }, congrArg (Except.map _) hwrite,
      ⟨hspans, h.timerStatus, h.base⟩, ?_, fun _ => rfl⟩
    obtain ⟨byte, hbyte, -⟩ := h.interruptStatus.read (show usbStatus - interruptStatusBase <
      interruptStatusSize by decide)
    unfold usb
    dsimp only
    rw [hvalue usbStatus]
    by_cases heq : addr = usbStatus
    · rw [if_pos heq.symm, if_pos heq, heq, hbyte]
      rfl
    · rw [if_neg (Ne.symm heq), if_neg heq]
  | timerStatus =>
    obtain ⟨l, hwrite, hspans, -⟩ := h.timerStatus.update
      (f := fun byte => byte &&& ~~~value) (RigBus.timerStatus_of_claim hkey)
    refine ⟨{ b with timerStatus := l }, congrArg (Except.map _) hwrite,
      ⟨h.interruptStatus, hspans, h.base⟩, ?_, fun _ => rfl⟩
    rw [if_neg (hother nofun)]
    rfl
  | unit kind =>
    obtain ⟨u, hwrite, hu⟩ :=
      CommandUnit.write_ok (h.base kind) (RigBus.unit_of_claim hkey) value
    refine ⟨b.setUnit kind u, congrArg (Except.map _) hwrite, h.setUnit hu, ?_,
      fun hne => nvme_setUnit hne u⟩
    rw [if_neg (hother nofun), usb, usb, interruptStatus_setUnit]
  | stuck value => exact absurd hkey RigBus.not_stuck

end Blocks

namespace Rig

variable {ω : Type} {rig : Rig ω}

/-- The rig is wired as it was at first, and its blocks are whole. -/
structure Intact (rig : Rig ω) : Prop where
  claims : rig.bus.claim? = RigBus.initial.claim?
  whole : rig.blocks.Whole

theorem intact_initial (record : ω) : (Rig.mk RigBus.initial record).Intact :=
  ⟨rfl, Blocks.whole_initial⟩

/-- What an access leaves: the rig intact, what the surroundings remember, and the NVMe unit, unless
the address is one of its own. -/
structure Accessed (addr : UInt16) (rig rig' : Rig ω) : Prop where
  intact : rig'.Intact
  record : rig'.record = rig.record
  nvme : RigBus.initial.claim? addr ≠ some (.unit .nvme) → rig'.blocks.nvme = rig.blocks.nvme

/-- Every read of an intact rig ends, and changes neither memory nor interrupt status. -/
theorem Intact.read (h : rig.Intact) (addr : UInt16) :
    ∃ value rig', RegisterBus.read addr rig = .done value rig' ∧ Accessed addr rig rig' ∧
      rig'.bus.ram = rig.bus.ram ∧ rig'.blocks.interruptStatus = rig.blocks.interruptStatus := by
  cases hclaim : RigBus.initial.claim? addr with
  | none =>
    have hfree : rig.bus.claim? addr = none := by rw [h.claims, hclaim]
    exact ⟨_, rig, onBus_of_done (XdataBus.read_of_free hfree), ⟨h, rfl, fun _ => rfl⟩, rfl, rfl⟩
  | some key =>
    obtain ⟨value, b', hread, hwhole, hstatus, hnvme⟩ := h.whole.read hclaim
    have hkey : rig.bus.claim? addr = some key := by rw [h.claims, hclaim]
    refine ⟨value, rig.withBlocks b', onBus_of_done (XdataBus.read_of_claim hkey hread),
      ⟨⟨h.claims, hwhole⟩, rfl, fun hne => hnvme fun heq => hne ?_⟩, rfl, hstatus⟩
    rw [hclaim, heq]

/-- USB status is read as it is, and the rig stays as it is. -/
theorem Intact.read_usb (h : rig.Intact) :
    RegisterBus.read usbStatus rig = .done rig.blocks.usb rig := by
  have hclaim : rig.bus.claim? usbStatus = some .interruptStatus := by
    rw [h.claims, XdataBus.claim?_eq]
    decide
  have hspan : usbStatus - interruptStatusBase < interruptStatusSize := by decide
  obtain ⟨value, hvalue, hread⟩ := h.whole.interruptStatus.read hspan
  have husb : rig.blocks.usb = value := by
    unfold Blocks.usb
    rw [hvalue]
    rfl
  rw [husb]
  exact onBus_of_done (XdataBus.read_of_claim hclaim (congrArg (Except.map _) hread))

/-- Every write to an intact rig ends, and changes memory at its own address only. -/
theorem Intact.write (h : rig.Intact) (addr : UInt16) (value : UInt8) :
    ∃ rig', RegisterBus.write addr value rig = .done () rig' ∧ Accessed addr rig rig' ∧
      (∀ other, other ≠ addr → rig'.bus.ram.get other = rig.bus.ram.get other) ∧
      rig'.blocks.usb =
        (if addr = usbStatus then rig.blocks.usb &&& ~~~value else rig.blocks.usb) := by
  cases hclaim : RigBus.initial.claim? addr with
  | none =>
    have hfree : rig.bus.claim? addr = none := by rw [h.claims, hclaim]
    have hne : addr ≠ usbStatus := by
      rintro rfl
      rw [XdataBus.claim?_eq] at hclaim
      exact absurd hclaim (by decide)
    refine ⟨_, onBus_of_done (XdataBus.write_of_free hfree value),
      ⟨⟨h.claims, h.whole⟩, rfl, fun _ => rfl⟩, fun other hother => ?_, ?_⟩
    · dsimp only
      rw [Paged.get_set, if_neg (Ne.symm hother)]
    · rw [if_neg hne]
      rfl
  | some key =>
    obtain ⟨b', hwrite, hwhole, husb, hnvme⟩ := h.whole.write hclaim value
    have hkey : rig.bus.claim? addr = some key := by rw [h.claims, hclaim]
    refine ⟨rig.withBlocks b', onBus_of_done (XdataBus.write_of_claim hkey hwrite),
      ⟨⟨h.claims, hwhole⟩, rfl, fun hne => hnvme fun heq => hne ?_⟩, fun _ _ => rfl, husb⟩
    rw [hclaim, heq]

end Rig

end BankedController
