import BankedController.Proofs.BankInvariant
import BankedController.Proofs.TableBuilds

namespace BankedController

namespace SlotId

theorem toNat_ofNat_stub (id : SlotId) :
    (UInt16.ofNat id.stub).toNat = (0x300 + 3 * id.number.toNat) % 0x10000 :=
  UInt16.toNat_ofNat'

/-- The slot of an address is the one whose stub stands there in full. -/
theorem ofStub?_eq_some_iff {addr : UInt16} {id : SlotId} :
    ofStub? addr = some id ↔ addr.toNat = id.stub := by
  constructor
  · intro h
    unfold ofStub? at h
    dsimp only at h
    split at h
    · cases h
    next hbase =>
      split at h
      · cases h
      next hrest =>
        obtain rfl := Option.some.inj h
        have haddr := addr.toNat_lt
        have hnumber : (UInt16.ofNat ((addr.toNat - stubBase) / stubSize)).toNat =
            (addr.toNat - stubBase) / stubSize := by
          rw [UInt16.toNat_ofNat']
          exact Nat.mod_eq_of_lt (by simp only [stubSize]; omega)
        simp only [stub, hnumber, stubBase, stubSize] at *
        omega
  · intro h
    have hstub := ofStub?_stub id (h ▸ addr.toNat_lt)
    rwa [← h, UInt16.ofNat_toNat] at hstub

/-- No two slots have stubs at one address, even where a stub lies past the end of the address
space and is cut. -/
theorem ofNat_stub_injective {id other : SlotId}
    (h : UInt16.ofNat id.stub = UInt16.ofNat other.stub) : id = other := by
  have hsame : (0x300 + 3 * id.number.toNat) % 0x10000 =
      (0x300 + 3 * other.number.toNat) % 0x10000 := by
    rw [← toNat_ofNat_stub, h, toNat_ofNat_stub]
  have hid := id.number.toNat_lt
  have hother := other.number.toNat_lt
  -- the difference of the numbers is a multiple of 65536, because three times it is
  have hnumber : id.number = other.number := UInt16.toNat_inj.1 (by omega)
  exact congrArg SlotId.mk hnumber

end SlotId

section Keys

variable {α κ ν : Type} [DecidableEq κ] {key : α → κ} {value : α → ν} {list : List α}

/-- A list is searched by a key that no two of its members share. -/
theorem find?_key_eq_some_iff (hkey : ∀ a ∈ list, ∀ b ∈ list, key a = key b → a = b) {k : κ}
    {a : α} : (list.find? fun a => key a = k) = some a ↔ a ∈ list ∧ key a = k := by
  constructor
  · intro h
    exact ⟨List.mem_of_find?_eq_some h, by simpa using List.find?_some h⟩
  · rintro ⟨ha, rfl⟩
    have hfound : (list.find? fun b => key b = key a).isSome := by
      rw [List.find?_isSome]
      exact ⟨a, ha, decide_eq_true rfl⟩
    obtain ⟨b, hb⟩ := Option.isSome_iff_exists.1 hfound
    have hsame : key b = key a := by simpa using List.find?_some hb
    rw [hb, hkey b (List.mem_of_find?_eq_some hb) a ha hsame]

/-- The look-up that a loop over a list fills. A member takes the place of an earlier one with its
key. -/
def filled (key : α → κ) (value : α → ν) (found : κ → Option ν) (list : List α) : κ → Option ν :=
  list.foldl (fun found a k => if k = key a then some (value a) else found k) found

/-- A key that the list does not have is left as it was. -/
theorem filled_of_not_mem {found : κ → Option ν} {k : κ} (h : k ∉ list.map key) :
    filled key value found list k = found k := by
  induction list generalizing found with
  | nil => rfl
  | cons a rest ih =>
    obtain ⟨hne, hrest⟩ := not_or.1 (mt List.mem_cons.2 h)
    exact (ih hrest).trans (if_neg hne)

/-- If no key comes twice, a key leads to the value of its member. -/
theorem filled_of_mem (hdistinct : (list.map key).Nodup) {found : κ → Option ν} {a : α}
    (ha : a ∈ list) : filled key value found list (key a) = some (value a) := by
  induction list generalizing found with
  | nil => cases ha
  | cons b rest ih =>
    obtain ⟨hnew, hrest⟩ := List.nodup_cons.1 hdistinct
    rcases List.mem_cons.1 ha with rfl | ha
    · exact (filled_of_not_mem hnew).trans (if_pos rfl)
    · exact ih hrest ha

theorem filled_eq_some_iff (hdistinct : (list.map key).Nodup) {k : κ} {v : ν} :
    filled key value (fun _ => none) list k = some v ↔ ∃ a ∈ list, key a = k ∧ value a = v := by
  constructor
  · intro h
    by_cases hk : k ∈ list.map key
    · obtain ⟨a, ha, rfl⟩ := List.mem_map.1 hk
      rw [filled_of_mem hdistinct ha] at h
      exact ⟨a, ha, rfl, Option.some.inj h⟩
    · rw [filled_of_not_mem hk] at h
      cases h
  · rintro ⟨a, ha, rfl, rfl⟩
    exact filled_of_mem hdistinct ha

end Keys

namespace DispatchTable

variable {ρ : Type} {image : CodeImage ρ} {entries : List DispatchEntry} {table : DispatchTable}

/-- The slots of entries by number, as a loop over the entries fills them in. -/
def slotIndex (entries : List DispatchEntry) : SlotId → Option DispatchSlot :=
  filled DispatchEntry.slot slotOf (fun _ => none) entries

/-- The numbers of entries by the addresses of their stubs, as the same loop fills them in. -/
def stubIndex (entries : List DispatchEntry) : UInt16 → Option SlotId :=
  filled (fun e => UInt16.ofNat e.slot.stub) DispatchEntry.slot (fun _ => none) entries

/-- How the slots of a table that was built of entries are found. -/
structure Addressed (table : DispatchTable) (entries : List DispatchEntry) : Prop where
  /-- An address has a slot exactly if it is the stub of a number in the table. -/
  found : ∀ addr, (∃ slot, table.atStub? addr = some slot) ↔
    ∃ id, SlotId.ofStub? addr = some id ∧ ∃ e ∈ entries, e.slot = id
  /-- The slot of an address is the slot of the number whose stub stands there. -/
  same : ∀ addr, table.atStub? addr = (SlotId.ofStub? addr).bind table.slot?
  /-- No two slots share a stub. -/
  distinct : ∀ a ∈ table.slots, ∀ b ∈ table.slots, a.stub = b.stub → a = b
  /-- The stub of no other number, cut to an address, is the stub of a slot. -/
  apart : ∀ a ∈ table.slots, ∀ id : SlotId, UInt16.ofNat id.stub = a.stub → id = a.id
  /-- The table finds what the two indices find that a loop over the entries fills. -/
  byNumber : ∀ id, table.slot? id = slotIndex entries id
  byAddress : ∀ addr, table.atStub? addr = (stubIndex entries addr).bind (slotIndex entries)

/-- The slots of a table that was built are those of its entries. -/
theorem mem_slots_iff (h : build entries image.contains = .ok table) {slot : DispatchSlot} :
    slot ∈ table.slots ↔ ∃ e ∈ entries, slotOf e = slot := by
  obtain ⟨hconsistent, hlists⟩ := build_eq_ok_iff.1 h
  rw [← (hlists.perm hconsistent).mem_iff, List.mem_map]

/-- The stub of a slot is that of its number, uncut. -/
theorem toNat_stub (h : build entries image.contains = .ok table) {slot : DispatchSlot}
    (hslot : slot ∈ table.slots) : slot.stub.toNat = slot.id.stub := by
  obtain ⟨e, he, rfl⟩ := (mem_slots_iff h).1 hslot
  have hadmissible := (build_eq_ok_iff.1 h).1.admissible e he
  exact ((madeOf_iff hadmissible).2 rfl).stub

theorem id_injective (h : build entries image.contains = .ok table) :
    ∀ a ∈ table.slots, ∀ b ∈ table.slots, a.id = b.id → a = b := by
  obtain ⟨hconsistent, hlists⟩ := build_eq_ok_iff.1 h
  have hids : ((entries.map slotOf).map DispatchSlot.id).Nodup := by
    rw [List.map_map]
    exact hconsistent.distinct
  have hnodup := ((hlists.perm hconsistent).map DispatchSlot.id).nodup_iff.1 hids
  exact fun a ha b hb => List.inj_on_of_nodup_map hnodup ha hb

/-- An address that a cut stub falls on belongs to the number of that stub only. -/
theorem apart_of_build (h : build entries image.contains = .ok table) {slot : DispatchSlot}
    (hslot : slot ∈ table.slots) {id : SlotId} (hid : UInt16.ofNat id.stub = slot.stub) :
    id = slot.id := by
  apply SlotId.ofNat_stub_injective
  rw [hid, ← toNat_stub h hslot, UInt16.ofNat_toNat]

theorem stub_injective (h : build entries image.contains = .ok table) :
    ∀ a ∈ table.slots, ∀ b ∈ table.slots, a.stub = b.stub → a = b := by
  intro a ha b hb hsame
  apply id_injective h a ha b hb
  apply apart_of_build h hb
  rw [← hsame, ← toNat_stub h ha, UInt16.ofNat_toNat]

theorem slot?_eq_some_iff (h : build entries image.contains = .ok table) {id : SlotId}
    {slot : DispatchSlot} : table.slot? id = some slot ↔ slot ∈ table.slots ∧ slot.id = id :=
  find?_key_eq_some_iff (id_injective h)

theorem atStub?_eq_some_iff (h : build entries image.contains = .ok table) {addr : UInt16}
    {slot : DispatchSlot} : table.atStub? addr = some slot ↔ slot ∈ table.slots ∧ slot.stub = addr :=
  find?_key_eq_some_iff (stub_injective h)

/-- The two ways to look a slot up meet in the number that an address is the stub of. -/
theorem atStub?_eq_bind (h : build entries image.contains = .ok table) (addr : UInt16) :
    table.atStub? addr = (SlotId.ofStub? addr).bind table.slot? := by
  ext slot
  rw [Option.bind_eq_some_iff, atStub?_eq_some_iff h]
  constructor
  · rintro ⟨hslot, rfl⟩
    exact ⟨slot.id, SlotId.ofStub?_eq_some_iff.2 (toNat_stub h hslot),
      (slot?_eq_some_iff h).2 ⟨hslot, rfl⟩⟩
  · rintro ⟨id, hid, hfound⟩
    obtain ⟨hslot, rfl⟩ := (slot?_eq_some_iff h).1 hfound
    refine ⟨hslot, UInt16.toNat_inj.1 ?_⟩
    rw [toNat_stub h hslot, SlotId.ofStub?_eq_some_iff.1 hid]

theorem slot?_eq_slotIndex (h : build entries image.contains = .ok table) (id : SlotId) :
    table.slot? id = slotIndex entries id := by
  have hdistinct := (build_eq_ok_iff.1 h).1.distinct
  ext slot
  rw [slot?_eq_some_iff h, mem_slots_iff h, slotIndex, filled_eq_some_iff hdistinct]
  constructor
  · rintro ⟨⟨e, he, rfl⟩, hid⟩
    exact ⟨e, he, hid, rfl⟩
  · rintro ⟨e, he, hid, rfl⟩
    exact ⟨⟨e, he, rfl⟩, hid⟩

theorem atStub?_eq_index (h : build entries image.contains = .ok table) (addr : UInt16) :
    table.atStub? addr = (stubIndex entries addr).bind (slotIndex entries) := by
  have hnumbers := (build_eq_ok_iff.1 h).1.distinct
  have hdistinct : (entries.map fun e => UInt16.ofNat e.slot.stub).Nodup := by
    have hmap := hnumbers.map (f := fun id : SlotId => UInt16.ofNat id.stub)
      fun _ _ => SlotId.ofNat_stub_injective
    rwa [List.map_map] at hmap
  ext slot
  rw [atStub?_eq_some_iff h, mem_slots_iff h, Option.bind_eq_some_iff]
  constructor
  · rintro ⟨⟨e, he, rfl⟩, hstub⟩
    exact ⟨e.slot, (filled_eq_some_iff hdistinct).2 ⟨e, he, hstub, rfl⟩,
      filled_of_mem hnumbers he⟩
  · rintro ⟨id, hid, hslot⟩
    obtain ⟨e, he, rfl, rfl⟩ := (filled_eq_some_iff hdistinct).1 hid
    obtain rfl := Option.some.inj ((filled_of_mem hnumbers he).symm.trans hslot)
    exact ⟨⟨e, he, rfl⟩, rfl⟩

theorem addressed_of_build (h : build entries image.contains = .ok table) :
    table.Addressed entries where
  found addr := by
    constructor
    · rintro ⟨slot, hfound⟩
      obtain ⟨hslot, rfl⟩ := (atStub?_eq_some_iff h).1 hfound
      obtain ⟨e, he, rfl⟩ := (mem_slots_iff h).1 hslot
      exact ⟨e.slot, SlotId.ofStub?_eq_some_iff.2 (toNat_stub h hslot), e, he, rfl⟩
    · rintro ⟨_, hid, e, he, rfl⟩
      have hslot : table.slot? e.slot = some (slotOf e) :=
        (slot?_eq_some_iff h).2 ⟨(mem_slots_iff h).2 ⟨e, he, rfl⟩, rfl⟩
      exact ⟨slotOf e, by rw [atStub?_eq_bind h, hid, Option.bind_some, hslot]⟩
  same := atStub?_eq_bind h
  distinct := stub_injective h
  apart _ hslot _ hid := apart_of_build h hslot hid
  byNumber := slot?_eq_slotIndex h
  byAddress := atStub?_eq_index h

end DispatchTable

namespace Linkage

variable {β : Type} {l : Linkage β}

/-- A call by the address of a registered slot's stub is a call of the slot. -/
theorem callStub_of_found {addr : UInt16} {slot : DispatchSlot}
    (h : l.table.atStub? addr = some slot) (param : Option UInt8) :
    l.callStub addr param = l.call slot.id param := by
  unfold callStub
  rw [h]

theorem callStub_of_unknown {addr : UInt16} (h : l.table.atStub? addr = none)
    (param : Option UInt8) (s : Machine β) :
    l.callStub addr param s = .done (.error (.unknownStub addr)) s := by
  unfold callStub
  rw [h]
  rfl

end Linkage

namespace Firmware

variable {β ρ : Type} [RegisterBus β]

theorem table_linkage (fw : Firmware β) (n : Nat) : (fw.linkage n).table = fw.table := by
  cases n <;> rfl

/-- In a table that was built, an address leads to the slot of the number whose stub it is, and to
nothing if there is none. In a firmware with such a table, on whatever machine, a call by address is
the call of that slot, and otherwise it is refused and leaves the machine as it was. -/
theorem stubs_addressed {entries : List DispatchEntry} {image : CodeImage ρ} {table : DispatchTable}
    (h : DispatchTable.build entries image.contains = .ok table) :
    table.Addressed entries ∧
      ∀ fw : Firmware β, fw.table = table → ∀ n addr param,
        (∀ id, SlotId.ofStub? addr = some id → (∃ slot, table.slot? id = some slot) →
          (fw.linkage n).callStub addr param = (fw.linkage n).call id param) ∧
        ((∀ id, SlotId.ofStub? addr = some id → table.slot? id = none) →
          ∀ s, (fw.linkage n).callStub addr param s = .done (.error (.unknownStub addr)) s) := by
  have haddressed := DispatchTable.addressed_of_build h
  refine ⟨haddressed, ?_⟩
  rintro fw rfl n addr param
  have hsame : (fw.linkage n).table.atStub? addr = (SlotId.ofStub? addr).bind fw.table.slot? := by
    rw [table_linkage]
    exact haddressed.same addr
  constructor
  · rintro id hid ⟨slot, hslot⟩
    rw [hid, Option.bind_some, hslot] at hsame
    obtain ⟨-, rfl⟩ := (DispatchTable.slot?_eq_some_iff h).1 hslot
    exact Linkage.callStub_of_found hsame param
  · intro hnone s
    rw [Option.bind_eq_none_iff.2 hnone] at hsame
    exact Linkage.callStub_of_unknown hsame param s

/-- In the relay, the address of the second stub calls the second routine. Between the stubs, below
them, and at the stub of a number that is not in the table, a call by address is refused. -/
theorem stubs_addressed_relay :
    DispatchTable.build Relay.entries Relay.firmware.image.contains = .ok Relay.firmware.table ∧
      Relay.firmware.table.Addressed Relay.entries ∧
      (SlotId.ofStub? 0x303 = some .usbInit ∧ ∀ n param,
        (Relay.firmware.linkage n).callStub 0x303 param =
          (Relay.firmware.linkage n).call .usbInit param) ∧
      ∀ addr ∈ [0x304, 0x2FD, 0x306], ∀ n param s,
        (Relay.firmware.linkage n).callStub addr param s = .done (.error (.unknownStub addr)) s := by
  obtain ⟨-, -, -, hbuild⟩ := link_eq_ok Relay.link_image
  obtain ⟨haddressed, hcalls⟩ := stubs_addressed (β := RigBus) hbuild
  refine ⟨hbuild, haddressed, ⟨by decide, fun n param => ?_⟩, fun addr haddr n param => ?_⟩
  · exact (hcalls _ rfl n 0x303 param).1 .usbInit (by decide) ⟨_, rfl⟩
  · have hnone : (SlotId.ofStub? addr).bind Relay.firmware.table.slot? = none := by
      simp only [List.mem_cons, List.not_mem_nil, or_false] at haddr
      rcases haddr with rfl | rfl | rfl <;> decide
    exact (hcalls _ rfl n addr param).2 (Option.bind_eq_none_iff.1 hnone)

end Firmware

end BankedController
