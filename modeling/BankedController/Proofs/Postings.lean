import BankedController.Pass
import BankedController.Proofs.BusRelations

namespace BankedController

open RegisterMap

/-- The two bytes that the main loop shares with everybody. -/
inductive SharedByte where
  | events
  | state
  deriving DecidableEq

def SharedByte.addr : SharedByte → UInt16
  | events => eventFlags
  | state => systemState

theorem SharedByte.addr_injective {byte other : SharedByte} (h : byte.addr = other.addr) :
    byte = other := by
  revert h
  cases byte <;> cases other <;> decide

/-- An entry of a ledger: bits that were set in one of the bytes, or a dispatch of the main loop. -/
inductive LedgerEntry where
  | posting (byte : SharedByte) (mask : UInt8)
  | dispatch (slot : SlotId)
  deriving DecidableEq

namespace LedgerEntry

/-- The bits that an entry posts in a byte. -/
def mask (byte : SharedByte) : LedgerEntry → UInt8
  | posting b m => if b = byte then m else 0
  | dispatch _ => 0

def slot? : LedgerEntry → Option SlotId
  | posting .. => none
  | dispatch slot => some slot

end LedgerEntry

namespace Ledger

/-- All bits that the entries post in a byte. -/
def posted (byte : SharedByte) : List LedgerEntry → UInt8
  | [] => 0
  | entry :: rest => posted byte rest ||| entry.mask byte

/-- The slots that were dispatched, in order. The newest entry of a ledger stands first. -/
def dispatched (entries : List LedgerEntry) : List SlotId :=
  (entries.filterMap LedgerEntry.slot?).reverse

/-- What was entered between an earlier and a later state of a ledger. -/
def since (earlier later : List LedgerEntry) : List LedgerEntry :=
  later.take (later.length - earlier.length)

theorem since_append (entries earlier : List LedgerEntry) :
    since earlier (entries ++ earlier) = entries := by
  simp only [since, List.length_append, Nat.add_sub_cancel, List.take_left]

theorem posted_append (byte : SharedByte) (later earlier : List LedgerEntry) :
    posted byte (later ++ earlier) = posted byte earlier ||| posted byte later := by
  induction later with
  | nil => exact UInt8.or_zero.symm
  | cons entry rest ih => rw [List.cons_append, posted, posted, ih, UInt8.or_assoc]

theorem dispatched_append (later earlier : List LedgerEntry) :
    dispatched (later ++ earlier) = dispatched earlier ++ dispatched later := by
  simp only [dispatched, List.filterMap_append, List.reverse_append]

end Ledger

/-- The two bytes, and the ledger. -/
structure Account where
  value : SharedByte → UInt8
  ledger : List LedgerEntry

namespace Account

open Ledger

def store (v : Account) (byte : SharedByte) (value : UInt8) : Account :=
  { v with value := fun b => if b = byte then value else v.value b }

def entered (v : Account) (entry : LedgerEntry) : Account :=
  { v with ledger := entry :: v.ledger }

/-- From the one account to the other the bytes took up what was posted, and nothing else. -/
structure Grown (entries : List LedgerEntry) (v v' : Account) : Prop where
  ledger : v'.ledger = entries ++ v.ledger
  value : ∀ byte, v'.value byte = v.value byte ||| posted byte entries

@[simp] theorem value_store (v : Account) (byte : SharedByte) (value : UInt8) :
    (v.store byte value).value byte = value := if_pos rfl

theorem value_store_of_ne (v : Account) {byte other : SharedByte} (h : other ≠ byte)
    (value : UInt8) : (v.store byte value).value other = v.value other := if_neg h

theorem store_self (v : Account) (byte : SharedByte) : v.store byte (v.value byte) = v := by
  have hvalue : (fun b => if b = byte then v.value byte else v.value b) = v.value := by
    funext b
    split
    next h => rw [h]
    next => rfl
  unfold store
  rw [hvalue]

theorem Grown.refl (v : Account) : Grown [] v v :=
  ⟨rfl, fun _ => UInt8.or_zero.symm⟩

theorem Grown.trans {xs ys : List LedgerEntry} {v v' v'' : Account} (h : Grown xs v v')
    (h' : Grown ys v' v'') : Grown (ys ++ xs) v v'' := by
  constructor
  · rw [h'.ledger, h.ledger, List.append_assoc]
  · intro byte
    rw [h'.value, h.value, posted_append, UInt8.or_assoc]

theorem Grown.posting (v : Account) (byte : SharedByte) (mask : UInt8) :
    Grown [.posting byte mask] v
      ((v.store byte (v.value byte ||| mask)).entered (.posting byte mask)) := by
  refine ⟨rfl, ?_⟩
  intro other
  by_cases h : other = byte
  · subst h
    simp [store, entered, posted, LedgerEntry.mask]
  · simp [store, entered, posted, LedgerEntry.mask, h, Ne.symm h]

/-- A dispatch posts nothing. -/
theorem Grown.dispatch (v : Account) (slot : SlotId) :
    Grown [.dispatch slot] v (v.entered (.dispatch slot)) := by
  refine ⟨rfl, ?_⟩
  intro byte
  simp [entered, posted, LedgerEntry.mask]

end Account

/-- A bus that holds the two bytes in plain memory, as far as its state is `wired`, and a ledger
that no access to the bus touches. -/
structure LedgerBus (β : Type) [RegisterBus β] where
  wired : β → Prop
  view : β → Account
  enter : LedgerEntry → β → β
  read_shared {bus : β} : wired bus → ∀ byte : SharedByte,
    ∃ bus', RegisterBus.read byte.addr bus = .done ((view bus).value byte) bus' ∧ wired bus' ∧
      view bus' = view bus
  write_shared {bus : β} : wired bus → ∀ (byte : SharedByte) value,
    ∃ bus', RegisterBus.write byte.addr value bus = .done () bus' ∧ wired bus' ∧
      view bus' = (view bus).store byte value
  read_other {bus bus' : β} : wired bus → ∀ {addr value}, (∀ byte : SharedByte, addr ≠ byte.addr) →
    RegisterBus.read addr bus = .done value bus' → wired bus' ∧ view bus' = view bus
  write_other {bus bus' : β} : wired bus → ∀ {addr value}, (∀ byte : SharedByte, addr ≠ byte.addr) →
    RegisterBus.write addr value bus = .done () bus' → wired bus' ∧ view bus' = view bus
  view_enter {bus : β} : wired bus → ∀ entry,
    wired (enter entry bus) ∧ view (enter entry bus) = (view bus).entered entry

namespace LedgerBus

open Account Ledger

variable {β α : Type} [RegisterBus β] (b : LedgerBus β)

/-- Nothing happened to the two bytes and the ledger. -/
def Aside (s t : β) : Prop :=
  b.wired s → b.wired t ∧ b.view t = b.view s

/-- All that happened to the two bytes is what was posted, and the main loop has dispatched
`slots`. -/
def Grows (slots : List SlotId) (s t : β) : Prop :=
  b.wired s → b.wired t ∧ ∃ entries, Grown entries (b.view s) (b.view t) ∧
    dispatched entries = slots

def record (entry : LedgerEntry) : Run (Machine β) Unit :=
  Machine.onBus (Run.modify (b.enter entry))

/-- Sets bits of one of the bytes and enters that. -/
def post (byte : SharedByte) (mask : UInt8) : Run (Machine β) Unit := do
  Machine.setBits byte.addr mask
  b.record (.posting byte mask)

/-- What a routine may do by itself: post, and anything that leaves the two bytes and the ledger
alone. -/
inductive PostingStep : Steps β
  | post (byte : SharedByte) (mask : UInt8) : PostingStep Unit (b.post byte mask)
  | aside {α : Type} (m : Run (Machine β) α) (h : m.Keeps (OnBus b.Aside)) : PostingStep α m

variable {b}

theorem Grows.of_aside {s t : β} (h : b.Aside s t) : b.Grows [] s t := by
  intro hs
  obtain ⟨ht, hview⟩ := h hs
  refine ⟨ht, [], ?_, rfl⟩
  rw [hview]
  exact .refl _

theorem Grows.trans {xs ys : List SlotId} {s t u : β} (h : b.Grows xs s t) (h' : b.Grows ys t u) :
    b.Grows (xs ++ ys) s u := by
  intro hs
  obtain ⟨ht, earlier, hearlier, hxs⟩ := h hs
  obtain ⟨hu, later, hlater, hys⟩ := h' ht
  refine ⟨hu, later ++ earlier, hearlier.trans hlater, ?_⟩
  rw [dispatched_append, hxs, hys]

theorem extends_grows : Extends (b.Grows []) :=
  ⟨fun _ => .of_aside fun hs => ⟨hs, rfl⟩, Grows.trans⟩

theorem grows_bind {γ : Type} {xs ys : List SlotId} {m : Run (Machine β) α}
    {f : α → Run (Machine β) γ} (hm : m.Keeps (OnBus (b.Grows xs)))
    (hf : ∀ a, (f a).Keeps (OnBus (b.Grows ys))) :
    (m >>= f).Keeps (OnBus (b.Grows (xs ++ ys))) := by
  intro s c u h
  obtain ⟨a, t, hma, hfa⟩ := Run.bind_eq_done.1 h
  exact Grows.trans (hm s a t hma) (hf a t c u hfa)

variable (b) in
/-- The two bytes and the ledger of a machine are as in `v`. -/
structure At (v : Account) (s : Machine β) : Prop where
  wired : b.wired s.bus
  view : b.view s.bus = v

variable {v : Account} {s : Machine β}

theorem read_apply (hs : b.At v s) (byte : SharedByte) :
    ∃ t, Machine.read byte.addr s = .done (v.value byte) t ∧ b.At v t := by
  obtain ⟨bus', hread, hwired, hview⟩ := b.read_shared hs.wired byte
  rw [hs.view] at hread hview
  exact ⟨_, Machine.onBus_of_done hread, hwired, hview⟩

theorem write_apply (hs : b.At v s) (byte : SharedByte) (value : UInt8) :
    ∃ t, Machine.write byte.addr value s = .done () t ∧ b.At (v.store byte value) t := by
  obtain ⟨bus', hwrite, hwired, hview⟩ := b.write_shared hs.wired byte value
  rw [hs.view] at hview
  exact ⟨_, Machine.onBus_of_done hwrite, hwired, hview⟩

theorem setBits_apply (hs : b.At v s) (byte : SharedByte) (mask : UInt8) :
    ∃ t, Machine.setBits byte.addr mask s = .done () t ∧
      b.At (v.store byte (v.value byte ||| mask)) t := by
  obtain ⟨t, hread, ht⟩ := read_apply hs byte
  obtain ⟨u, hwrite, hu⟩ := write_apply ht byte (v.value byte ||| mask)
  refine ⟨u, ?_, hu⟩
  unfold Machine.setBits RegisterBus.setBits
  rw [Machine.onBus_bind]
  exact (Run.bind_of_done hread).trans hwrite

theorem clearBits_apply (hs : b.At v s) (byte : SharedByte) (mask : UInt8) :
    ∃ t, Machine.clearBits byte.addr mask s = .done () t ∧
      b.At (v.store byte (v.value byte &&& ~~~mask)) t := by
  obtain ⟨t, hread, ht⟩ := read_apply hs byte
  obtain ⟨u, hwrite, hu⟩ := write_apply ht byte (v.value byte &&& ~~~mask)
  refine ⟨u, ?_, hu⟩
  unfold Machine.clearBits RegisterBus.clearBits
  rw [Machine.onBus_bind]
  exact (Run.bind_of_done hread).trans hwrite

theorem record_apply (hs : b.At v s) (entry : LedgerEntry) :
    ∃ t, b.record entry s = .done () t ∧ b.At (v.entered entry) t := by
  obtain ⟨hwired, hview⟩ := b.view_enter hs.wired entry
  rw [hs.view] at hview
  exact ⟨_, Machine.onBus_of_done (Run.modify_apply _ _), hwired, hview⟩

/-- What is posted is entered. -/
theorem grows_post (byte : SharedByte) (mask : UInt8) :
    (b.post byte mask).Keeps (OnBus (b.Grows [])) := by
  intro s a u hrun hs
  obtain ⟨t, hset, ht⟩ := setBits_apply ⟨hs, rfl⟩ byte mask
  obtain ⟨u', hrecord, hu'⟩ := record_apply ht (.posting byte mask)
  have hpost : b.post byte mask s = .done () u' := (Run.bind_of_done hset).trans hrecord
  rw [hpost] at hrun
  cases hrun
  refine ⟨hu'.wired, [.posting byte mask], ?_, rfl⟩
  rw [hu'.view]
  exact .posting _ byte mask

theorem grows_record_dispatch (slot : SlotId) :
    (b.record (.dispatch slot)).Keeps (OnBus (b.Grows [slot])) := by
  intro s a u hrun hs
  obtain ⟨t, hrecord, ht⟩ := record_apply ⟨hs, rfl⟩ (.dispatch slot)
  rw [hrecord] at hrun
  cases hrun
  refine ⟨ht.wired, [.dispatch slot], ?_, rfl⟩
  rw [ht.view]
  exact .dispatch _ slot

theorem PostingStep.grows {m : Run (Machine β) α} (h : b.PostingStep α m) :
    m.Keeps (OnBus (b.Grows [])) := by
  cases h with
  | post byte mask => exact grows_post byte mask
  | aside m haside =>
    intro s a t hrun
    exact Grows.of_aside (haside s a t hrun)

/-- An address is that of one of the two bytes, or it is past both. -/
theorem shared_or_other (addr : UInt16) :
    (∃ byte : SharedByte, addr = byte.addr) ∨ ∀ byte : SharedByte, addr ≠ byte.addr := by
  by_cases h : ∃ byte : SharedByte, addr = byte.addr
  · exact .inl h
  · exact .inr fun byte heq => h ⟨byte, heq⟩

theorem admits_postingStep : Admits b.PostingStep CoreWrite where
  note event := .aside _ (Run.keeps_modify fun _ hs => ⟨hs, rfl⟩)
  read addr := by
    refine .aside _ ?_
    intro s value t hrun hs
    rcases shared_or_other addr with ⟨byte, rfl⟩ | hother
    · obtain ⟨u, hread, hu⟩ := read_apply ⟨hs, rfl⟩ byte
      rw [hread] at hrun
      cases hrun
      exact ⟨hu.wired, hu.view⟩
    · obtain ⟨bus', hread, rfl⟩ := Machine.onBus_eq_done hrun
      exact b.read_other hs hother hread
  write addr value haddr := by
    refine .aside _ ?_
    intro s _ t hrun hs
    have hother : ∀ byte : SharedByte, addr ≠ byte.addr := by
      intro byte
      cases byte with
      | events => exact haddr.1
      | state => exact haddr.2
    obtain ⟨bus', hwrite, rfl⟩ := Machine.onBus_eq_done hrun
    exact b.write_other hs hother hwrite

/-- Calls and preemption points of a firmware of posting routines do to the two bytes what is
posted. -/
theorem grows_linkage {fw : Firmware β} {image : CodeImage (Routine β)}
    {entries : List DispatchEntry} {config : FirmwareConfig}
    (h : Firmware.link image entries config = .ok fw) (himage : image.ComposedOf b.PostingStep)
    (n : Nat) : (fw.linkage n).Keeps (OnBus (b.Grows [])) := by
  have hfw := Firmware.composedOf_of_link admits_postingStep h himage
  exact Firmware.keeps_linkage extends_grows (fun _ _ hstep => hstep.grows)
    admits_postingStep.service.route hfw n

end LedgerBus

end BankedController
