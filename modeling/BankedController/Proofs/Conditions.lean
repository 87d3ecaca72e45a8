import BankedController.Endpoint.Tables
import BankedController.Proofs.BusRelations
import BankedController.Proofs.Bytes
import BankedController.Proofs.Courses
import BankedController.Proofs.Restoration

/-! To say in which order conditions are raised, handed over and cleared, the bus is paired with a
journal, which every write to a secondary register enters itself into and which is never read back.
-/

namespace BankedController

open RegisterMap

variable {β α : Type}

/-- A condition: a bit of a secondary register. -/
structure Condition where
  endpoint : Fin 8
  bit : Fin 8
  deriving DecidableEq

namespace Condition

theorem endpoint_lt (endpoint : Fin 8) : endpoint.val < 8 := endpoint.isLt

/-- The secondary register of an endpoint. -/
def register (endpoint : Fin 8) : UInt16 :=
  endpointSecondaryBase + (UInt8.ofNat endpoint.val).toUInt16

def mask (c : Condition) : UInt8 := Endpoint.conditionBit (UInt8.ofNat c.bit.val)

/-- The offset by which the handler knows the condition. -/
def offset (c : Condition) : UInt8 :=
  Endpoint.offsetBase (UInt8.ofNat c.endpoint.val) + UInt8.ofNat c.bit.val

/-- Whether the condition is among those that a value of its register shows. -/
def isIn (c : Condition) (value : UInt8) : Bool := value &&& c.mask ≠ 0

theorem toNat_ofNat (i : Fin 8) : (UInt8.ofNat i.val).toNat = i.val := by
  rw [UInt8.toNat_ofNat']
  exact Nat.mod_eq_of_lt (by omega)

theorem toNat_offset (c : Condition) : c.offset.toNat = 8 * c.endpoint.val + c.bit.val := by
  have hendpoint := c.endpoint.isLt
  have hbit := c.bit.isLt
  unfold offset Endpoint.offsetBase
  rw [UInt8.toNat_add, UInt8.toNat_mul, toNat_ofNat, toNat_ofNat]
  have height : (8 : UInt8).toNat = 8 := rfl
  rw [height]
  omega

theorem offset_injective {c c' : Condition} (h : c.offset = c'.offset) : c = c' := by
  have hnat := congrArg UInt8.toNat h
  rw [toNat_offset, toNat_offset] at hnat
  obtain ⟨⟨e, he⟩, ⟨k, hk⟩⟩ := c
  obtain ⟨⟨e', he'⟩, ⟨k', hk'⟩⟩ := c'
  have hsame : e = e' ∧ k = k' := by
    dsimp only at hnat
    omega
  obtain ⟨rfl, rfl⟩ := hsame
  rfl

theorem toNat_register (e : Fin 8) : (register e).toNat = 0x9096 + e.val := by
  have hbase : endpointSecondaryBase.toNat = 0x9096 := rfl
  have he := e.isLt
  unfold register
  rw [UInt16.toNat_add, UInt8.toNat_toUInt16, toNat_ofNat, hbase]
  omega

theorem register_injective {e e' : Fin 8} (h : register e = register e') : e = e' := by
  have hnat := congrArg UInt16.toNat h
  rw [toNat_register, toNat_register] at hnat
  exact Fin.ext (by omega)

/-- The secondary registers are those of the endpoints. -/
theorem secondary_iff {addr : UInt16} : Secondary addr ↔ ∃ e, addr = register e := by
  have hbase : endpointSecondaryBase.toNat = 0x9096 := rfl
  have hlast : (endpointSecondaryBase + 8).toNat = 0x909E := rfl
  constructor
  · rintro ⟨hlow, hhigh⟩
    rw [UInt16.le_iff_toNat_le, hbase] at hlow
    rw [UInt16.lt_iff_toNat_lt, hlast] at hhigh
    refine ⟨⟨addr.toNat - 0x9096, by omega⟩, UInt16.toNat_inj.1 ?_⟩
    rw [toNat_register]
    dsimp only
    omega
  · rintro ⟨e, rfl⟩
    have he := e.isLt
    constructor
    · rw [UInt16.le_iff_toNat_le, hbase, toNat_register]
      omega
    · rw [UInt16.lt_iff_toNat_lt, hlast, toNat_register]
      omega

theorem mask_and (c c' : Condition) : (c'.mask &&& c.mask ≠ 0) ↔ c'.bit = c.bit := by
  have hall : ∀ i j : Fin 8, (Endpoint.conditionBit (UInt8.ofNat j.val) &&&
      Endpoint.conditionBit (UInt8.ofNat i.val) ≠ 0) ↔ j = i := by decide
  exact hall c.bit c'.bit

theorem not_mask_and (c c' : Condition) :
    ~~~c'.mask &&& c.mask = if c'.bit = c.bit then 0 else c.mask := by
  have hall : ∀ i j : Fin 8, ~~~Endpoint.conditionBit (UInt8.ofNat j.val) &&&
      Endpoint.conditionBit (UInt8.ofNat i.val) =
        if j = i then 0 else Endpoint.conditionBit (UInt8.ofNat i.val) := by decide
  exact hall c.bit c'.bit

theorem isIn_or (c : Condition) (value raised : UInt8) :
    c.isIn (value ||| raised) = (c.isIn value || c.isIn raised) := by
  unfold isIn
  rw [Bits.or_and, ← Bool.decide_or]
  apply decide_eq_decide.2
  constructor
  · intro h
    by_contra hnone
    rw [not_or, not_not, not_not] at hnone
    exact h (UInt8.or_eq_zero_iff.2 hnone)
  · rintro (h | h) hzero
    · exact h (UInt8.or_eq_zero_iff.1 hzero).1
    · exact h (UInt8.or_eq_zero_iff.1 hzero).2

/-- Clearing the bit of a condition leaves the others of its register. -/
theorem isIn_clear (c c' : Condition) (value : UInt8) :
    c.isIn (value &&& ~~~c'.mask) = if c'.bit = c.bit then false else c.isIn value := by
  unfold isIn
  rw [UInt8.and_assoc, not_mask_and]
  by_cases h : c'.bit = c.bit
  · rw [if_pos h, if_pos h, UInt8.and_zero]
    rfl
  · rw [if_neg h, if_neg h]

end Condition

namespace Endpoint

/-- A bit that is looked up is set. -/
theorem and_lowestBit {value : UInt8} (h : lowestBit value < count) :
    value &&& conditionBit (lowestBit value) ≠ 0 := by
  unfold lowestBit at h ⊢
  split_ifs at h ⊢ with h0 h1 h2 h3 h4 h5 h6 h7
  · exact h0
  · exact h1
  · exact h2
  · exact h3
  · exact h4
  · exact h5
  · exact h6
  · exact h7
  · exact absurd h (by decide)

end Endpoint

/-- An entry of the journal. -/
inductive JournalEntry where
  /-- The hardware raised conditions of an endpoint. -/
  | raised (endpoint : Fin 8) (mask : UInt8)
  /-- The handler was entered with an offset. -/
  | handed (offset : UInt8)
  /-- A secondary register was written. -/
  | cleared (endpoint : Fin 8) (mask : UInt8)
  deriving DecidableEq

namespace JournalEntry

/-- What an entry says of a condition. -/
def mark? (c : Condition) : JournalEntry → Option Mark
  | raised endpoint mask => if endpoint = c.endpoint ∧ c.isIn mask = true then some .raised else none
  | handed offset => if offset = c.offset then some .handed else none
  | cleared endpoint mask =>
    if endpoint = c.endpoint ∧ c.isIn mask = true then some .cleared else none

/-- What a journal says of a condition. -/
def marks (c : Condition) (entries : List JournalEntry) : List Mark := entries.filterMap (mark? c)

theorem marks_append (c : Condition) (first second : List JournalEntry) :
    marks c (first ++ second) = marks c first ++ marks c second := List.filterMap_append

theorem marks_singleton (c : Condition) (entry : JournalEntry) :
    marks c [entry] = (mark? c entry).toList := by
  unfold marks
  rw [List.filterMap_cons]
  cases mark? c entry <;> rfl

theorem mark?_handed (c c' : Condition) :
    mark? c (.handed c'.offset) = if c' = c then some .handed else none := by
  change (if c'.offset = c.offset then some Mark.handed else none) = _
  by_cases h : c' = c
  · rw [if_pos h, if_pos (by rw [h])]
  · rw [if_neg h, if_neg fun hoffset => h (Condition.offset_injective hoffset)]

theorem mark?_cleared (c c' : Condition) :
    mark? c (.cleared c'.endpoint c'.mask) = if c' = c then some .cleared else none := by
  have hiff : (c'.endpoint = c.endpoint ∧ c.isIn c'.mask = true) ↔ c' = c := by
    unfold Condition.isIn
    rw [decide_eq_true_iff, Condition.mask_and]
    constructor
    · intro h
      obtain ⟨hendpoint, hbit⟩ := h
      obtain ⟨endpoint, bit⟩ := c
      obtain ⟨endpoint', bit'⟩ := c'
      cases hendpoint
      cases hbit
      rfl
    · rintro rfl
      exact ⟨rfl, rfl⟩
  change (if c'.endpoint = c.endpoint ∧ c.isIn c'.mask = true then some Mark.cleared else none) = _
  simp only [hiff]

end JournalEntry

/-- A bus on which, as far as its state is `wired`, the secondary registers show the conditions of
the endpoints, a write to one of them clears conditions, and nothing else on the bus touches them. -/
structure ConditionBus (β : Type) [RegisterBus β] where
  wired : β → Prop
  conditions : β → Fin 8 → UInt8
  /-- The hardware raises conditions of an endpoint. -/
  raise : Fin 8 → UInt8 → β → β
  read {bus bus' : β} : wired bus → ∀ {addr value}, RegisterBus.read addr bus = .done value bus' →
    wired bus' ∧ conditions bus' = conditions bus ∧
      ∀ e, addr = Condition.register e → value = conditions bus e
  clear {bus bus' : β} : wired bus → ∀ {e value},
    RegisterBus.write (Condition.register e) value bus = .done () bus' →
    wired bus' ∧ ∀ e', conditions bus' e' =
      if e' = e then conditions bus e &&& ~~~value else conditions bus e'
  write {bus bus' : β} : wired bus → ∀ {addr value}, ¬Secondary addr →
    RegisterBus.write addr value bus = .done () bus' → wired bus' ∧ conditions bus' = conditions bus
  raised {bus : β} : wired bus → ∀ e mask, wired (raise e mask bus) ∧
    ∀ e', conditions (raise e mask bus) e' =
      if e' = e then conditions bus e ||| mask else conditions bus e'

/-- A bus and its journal, the newest entry last. -/
structure Journaled (β : Type) where
  bus : β
  journal : List JournalEntry

namespace Journaled

/-- Runs `m` on the bus. -/
def onBus (m : Run β α) : Run (Journaled β) α := fun j =>
  match m j.bus with
  | .done a bus => .done a { j with bus := bus }
  | .fault cause bus => .fault cause { j with bus := bus }
  | .exhausted => .exhausted

def entered (entry : JournalEntry) (j : Journaled β) : Journaled β :=
  { j with journal := j.journal ++ [entry] }

/-- The endpoint of which an address is the secondary register. -/
def endpointAt? (addr : UInt16) : Option (Fin 8) :=
  (List.finRange 8).find? fun e => Condition.register e = addr

instance [RegisterBus β] : RegisterBus (Journaled β) where
  read addr := onBus (RegisterBus.read addr)
  write addr value := do
    onBus (RegisterBus.write addr value)
    match endpointAt? addr with
    | some e => Run.modify (entered (.cleared e value))
    | none => pure ()

/-- The journal is not read, and forgetting it leaves what happens on the bus. -/
theorem onBus_eq_done {m : Run β α} {j j' : Journaled β} {a : α} (h : onBus m j = .done a j') :
    m j.bus = .done a j'.bus ∧ j'.journal = j.journal := by
  unfold onBus at h
  split at h
  next hm =>
    cases h
    exact ⟨hm, rfl⟩
  next => cases h
  next => cases h

theorem endpointAt?_register (e : Fin 8) : endpointAt? (Condition.register e) = some e := by
  unfold endpointAt?
  rw [List.find?_eq_some_iff_append]
  have hmem : e ∈ List.finRange 8 := List.mem_finRange e
  obtain ⟨first, rest, hsplit, hnot⟩ := List.eq_append_cons_of_mem hmem
  refine ⟨decide_eq_true rfl, first, rest, hsplit, fun e' he' => ?_⟩
  have hne : e' ≠ e := fun heq => hnot (heq ▸ he')
  simpa using fun heq => hne (Condition.register_injective heq)

theorem endpointAt?_of_not_secondary {addr : UInt16} (h : ¬Secondary addr) :
    endpointAt? addr = none := by
  refine List.find?_eq_none.2 fun e _ => ?_
  have hne : Condition.register e ≠ addr := fun heq => h (Condition.secondary_iff.2 ⟨e, heq.symm⟩)
  simpa using hne

end Journaled

namespace ConditionBus

variable [RegisterBus β] (b : ConditionBus β)

/-- Whether a condition is pending. -/
def pending (c : Condition) (j : Journaled β) : Bool := c.isIn (b.conditions j.bus c.endpoint)

/-- Nothing happened to the conditions. -/
def Aside (j j' : Journaled β) : Prop :=
  b.wired j.bus → b.wired j'.bus ∧ b.conditions j'.bus = b.conditions j.bus ∧ j'.journal = j.journal

/-- Everything that happened to the conditions is in the journal. -/
structure Told (entries : List JournalEntry) (j j' : Journaled β) : Prop where
  wired : b.wired j'.bus
  journal : j'.journal = j.journal ++ entries
  pending : ∀ c, b.pending c j' = pendingAfter (b.pending c j) (JournalEntry.marks c entries)

/-- The hardware raises conditions. -/
def raiseConditions (e : Fin 8) (mask : UInt8) : Run (Machine (Journaled β)) Unit :=
  Machine.onBus (Run.modify fun j =>
    { j with bus := b.raise e mask j.bus }.entered (.raised e mask))

variable {b}

theorem extends_aside : Extends b.Aside := by
  refine ⟨fun j hj => ⟨hj, rfl, rfl⟩, ?_⟩
  intro j j' j'' h h' hj
  obtain ⟨hwired, hconditions, hjournal⟩ := h hj
  obtain ⟨hwired', hconditions', hjournal'⟩ := h' hwired
  exact ⟨hwired', hconditions'.trans hconditions, hjournal'.trans hjournal⟩

theorem told_of_aside {j j' : Journaled β} (h : b.Aside j j') (hj : b.wired j.bus) :
    b.Told [] j j' := by
  obtain ⟨hwired, hconditions, hjournal⟩ := h hj
  refine ⟨hwired, ?_, fun c => ?_⟩
  · rw [hjournal, List.append_nil]
  · unfold pending
    rw [hconditions]
    rfl

theorem Told.trans {first second : List JournalEntry} {j j' j'' : Journaled β}
    (h : b.Told first j j') (h' : b.Told second j' j'') : b.Told (first ++ second) j j'' := by
  refine ⟨h'.wired, ?_, fun c => ?_⟩
  · rw [h'.journal, h.journal, List.append_assoc]
  · rw [h'.pending, h.pending, JournalEntry.marks_append, pendingAfter_append]

theorem aside_read {addr : UInt16} {value : UInt8} {j j' : Journaled β}
    (h : RegisterBus.read addr j = .done value j') : b.Aside j j' := by
  intro hj
  obtain ⟨hread, hjournal⟩ := Journaled.onBus_eq_done h
  obtain ⟨hwired, hconditions, -⟩ := b.read hj hread
  exact ⟨hwired, hconditions, hjournal⟩

/-- A secondary register shows the conditions of its endpoint. -/
theorem read_register {e : Fin 8} {value : UInt8} {j j' : Journaled β} (hj : b.wired j.bus)
    (h : RegisterBus.read (Condition.register e) j = .done value j') :
    value = b.conditions j.bus e := by
  obtain ⟨hread, -⟩ := Journaled.onBus_eq_done h
  exact (b.read hj hread).2.2 e rfl

theorem aside_write {addr : UInt16} (haddr : ¬Secondary addr) {value : UInt8} {j j' : Journaled β}
    (h : RegisterBus.write addr value j = .done () j') : b.Aside j j' := by
  intro hj
  obtain ⟨_, u, hwrite, hrest⟩ := Run.bind_eq_done.1 h
  rw [Journaled.endpointAt?_of_not_secondary haddr] at hrest
  cases hrest
  obtain ⟨hwrite, hjournal⟩ := Journaled.onBus_eq_done hwrite
  obtain ⟨hwired, hconditions⟩ := b.write hj haddr hwrite
  exact ⟨hwired, hconditions, hjournal⟩

/-- Writing the mask of a condition to its register clears it and no other. -/
theorem told_clear (c : Condition) {j j' : Journaled β} (hj : b.wired j.bus)
    (h : RegisterBus.write (Condition.register c.endpoint) c.mask j = .done () j') :
    b.Told [.cleared c.endpoint c.mask] j j' := by
  obtain ⟨_, u, hwrite, hrest⟩ := Run.bind_eq_done.1 h
  rw [Journaled.endpointAt?_register] at hrest
  cases hrest
  obtain ⟨hwrite, hjournal⟩ := Journaled.onBus_eq_done hwrite
  obtain ⟨hwired, hconditions⟩ := b.clear hj hwrite
  refine ⟨hwired, ?_, fun c' => ?_⟩
  · change u.journal ++ _ = _
    rw [hjournal]
  change c'.isIn (b.conditions u.bus c'.endpoint) = _
  rw [hconditions, JournalEntry.marks_singleton, JournalEntry.mark?_cleared]
  by_cases hc : c = c'
  · subst hc
    rw [if_pos rfl, if_pos rfl, Condition.isIn_clear, if_pos rfl]
    rfl
  · rw [if_neg hc]
    change _ = c'.isIn (b.conditions j.bus c'.endpoint)
    by_cases he : c'.endpoint = c.endpoint
    · have hbit : c.bit ≠ c'.bit := by
        intro hbit
        apply hc
        obtain ⟨endpoint, bit⟩ := c
        obtain ⟨endpoint', bit'⟩ := c'
        cases he
        cases hbit
        rfl
      rw [if_pos he, Condition.isIn_clear, if_neg hbit, he]
    · rw [if_neg he]

theorem told_raise (e : Fin 8) (mask : UInt8) {j : Journaled β} (hj : b.wired j.bus) :
    b.Told [.raised e mask] j ({ j with bus := b.raise e mask j.bus }.entered (.raised e mask)) := by
  obtain ⟨hwired, hconditions⟩ := b.raised hj e mask
  refine ⟨hwired, rfl, fun c => ?_⟩
  change c.isIn (b.conditions (b.raise e mask j.bus) c.endpoint) = _
  rw [hconditions]
  change _ = pendingAfter (c.isIn (b.conditions j.bus c.endpoint)) _
  rw [JournalEntry.marks_singleton]
  unfold JournalEntry.mark?
  dsimp only
  by_cases he : e = c.endpoint
  · subst he
    rw [if_pos rfl, Condition.isIn_or]
    cases c.isIn mask with
    | false => rw [Bool.or_false, if_neg (by simp)]; rfl
    | true => rw [Bool.or_true, if_pos ⟨rfl, rfl⟩]; rfl
  · rw [if_neg (Ne.symm he), if_neg fun h => he h.1]
    rfl

/-- The handler is announced, which moves no condition. -/
theorem told_handed (offset : UInt8) {j : Journaled β} (hj : b.wired j.bus) :
    b.Told [.handed offset] j (j.entered (.handed offset)) := by
  refine ⟨hj, rfl, fun c => ?_⟩
  change b.pending c j = _
  rw [JournalEntry.marks_singleton]
  unfold JournalEntry.mark?
  dsimp only
  split <;> rfl

/-- What a routine may do by itself: raise conditions as the hardware does, and anything that leaves
the conditions, the stack and the lines in service alone. -/
inductive StatusStep (b : ConditionBus β) : Steps (Journaled β)
  | raise (e : Fin 8) (mask : UInt8) : StatusStep b Unit (b.raiseConditions e mask)
  | aside {α : Type} (m : Run (Machine (Journaled β)) α) (own : OwnStep α m)
      (h : m.Keeps (OnBus b.Aside)) : StatusStep b α m

theorem StatusStep.own {m : Run (Machine (Journaled β)) α} (h : StatusStep b α m) : OwnStep α m := by
  cases h with
  | raise e mask => exact .bus _
  | aside m own => exact own

theorem admits_statusStep : Admits (StatusStep b) ServiceWrite where
  note event := .aside _ (.note event) (Machine.keeps_note extends_aside event)
  read addr := by
    refine .aside _ (.bus _) fun s value t h => ?_
    obtain ⟨bus, hread, rfl⟩ := Machine.onBus_eq_done h
    exact aside_read hread
  write addr value haddr := by
    refine .aside _ (.bus _) fun s _ t h => ?_
    obtain ⟨bus, hwrite, rfl⟩ := Machine.onBus_eq_done h
    exact aside_write haddr.secondary hwrite

end ConditionBus

end BankedController
