import BankedController.Proofs.EngineCounts
import Mathlib.Data.Bool.AllAny
import Mathlib.Data.List.Induction

namespace BankedController

open RegisterMap

variable {β α : Type}

/-- A byte of the block. -/
def RequestByte (addr : UInt16) : Prop := requestKind ≤ addr ∧ addr < requestKind + 8

instance (addr : UInt16) : Decidable (RequestByte addr) :=
  inferInstanceAs (Decidable (_ ∧ _))

namespace CommandRequest

/-- The bytes of a request after its kind, with their places. -/
def fields (r : CommandRequest) : List (UInt16 × UInt8) :=
  [(requestOpcode, r.opcode), (requestParam, r.param), (requestTag, r.tag),
    (requestAddress, (r.address >>> 24).toUInt8), (requestAddress + 1, (r.address >>> 16).toUInt8),
    (requestAddress + 2, (r.address >>> 8).toUInt8), (requestAddress + 3, r.address.toUInt8)]

/-- The bytes of a request, the kind last. -/
def bytes (r : CommandRequest) : List (UInt16 × UInt8) :=
  r.fields ++ [(requestKind, r.kind.requestCode)]

/-- Where the bytes of a request stand. -/
theorem map_fst_bytes (r : CommandRequest) :
    r.bytes.map Prod.fst = [requestOpcode, requestParam, requestTag, requestAddress,
      requestAddress + 1, requestAddress + 2, requestAddress + 3, requestKind] := rfl

theorem nodup_bytes (r : CommandRequest) : (r.bytes.map Prod.fst).Nodup := by
  rw [map_fst_bytes]
  decide

theorem requestByte_of_mem {r : CommandRequest} {p : UInt16 × UInt8} (h : p ∈ r.bytes) :
    RequestByte p.1 := by
  have hall : ∀ addr ∈ r.bytes.map Prod.fst, RequestByte addr := by
    rw [map_fst_bytes]
    exact List.all_iff_forall_prop.1 rfl
  exact hall _ (List.mem_map_of_mem h)

/-- The kind stands apart from the other bytes. -/
theorem ne_kind_of_mem {r : CommandRequest} {p : UInt16 × UInt8} (h : p ∈ r.fields) :
    p.1 ≠ requestKind := by
  have hall : ∀ addr ∈ r.fields.map Prod.fst, addr ≠ requestKind := by
    change ∀ addr ∈ [requestOpcode, requestParam, requestTag, requestAddress, requestAddress + 1,
      requestAddress + 2, requestAddress + 3], addr ≠ requestKind
    exact List.all_iff_forall_prop.1 rfl
  exact hall _ (List.mem_map_of_mem h)

theorem mem_kind (r : CommandRequest) : (requestKind, r.kind.requestCode) ∈ r.bytes :=
  List.mem_append_right _ List.mem_cons_self

end CommandRequest

theorem CommandKind.requestCode_ne_zero (kind : CommandKind) : kind.requestCode ≠ 0 := by
  cases kind <;> decide

/-- Something that is done at the block. -/
inductive BlockUse where
  | posted (r : CommandRequest)
  | taken (found : Option CommandRequest)
  | seen (addr : UInt16) (value : UInt8)

/-- The code of the request that waits. Zero is no request. -/
def waitingCode : Option CommandRequest → UInt8
  | none => 0
  | some r => r.kind.requestCode

namespace BlockUse

/-- The accesses that a use is made of. -/
def deeds : BlockUse → List Deed
  | posted r => r.bytes.map fun p => .write p.1 p.2
  | taken none => [.read requestKind 0]
  | taken (some r) =>
    .read requestKind r.kind.requestCode :: .write requestKind 0 ::
      r.fields.map fun p => .read p.1 p.2
  | seen addr value => [.read addr value]

/-- The requests that are posted and not yet taken after a use. -/
def next (posts : List CommandRequest) : BlockUse → List CommandRequest
  | posted r => posts ++ [r]
  | taken _ => []
  | seen .. => posts

/-- The requests that were posted since the last take. -/
def since (uses : List BlockUse) : List CommandRequest := uses.foldl next []

/-- The last request that was posted since the last take. -/
def waiting (uses : List BlockUse) : Option CommandRequest := (since uses).getLast?

@[simp] theorem since_concat (uses : List BlockUse) (use : BlockUse) :
    since (uses ++ [use]) = next (since uses) use := by
  simp only [since, List.foldl_append, List.foldl_cons, List.foldl_nil]

theorem waiting_posted (uses : List BlockUse) (r : CommandRequest) :
    waiting (uses ++ [posted r]) = some r := by
  simp [waiting, next]

theorem waiting_taken (uses : List BlockUse) (found : Option CommandRequest) :
    waiting (uses ++ [taken found]) = none := by
  simp [waiting, next]

theorem waiting_seen (uses : List BlockUse) (addr : UInt16) (value : UInt8) :
    waiting (uses ++ [seen addr value]) = waiting uses := by
  simp [waiting, next]

/-- A use that tells the truth: a take finds what waits, and a look at the kind sees its code. -/
def Holds (before : List BlockUse) : BlockUse → Prop
  | posted _ => True
  | taken found => found = waiting before
  | seen addr value => addr = requestKind → value = waitingCode (waiting before)

/-- Every use tells the truth, whatever came before it. -/
def Faithful (uses : List BlockUse) : Prop :=
  ∀ before use after, uses = before ++ use :: after → Holds before use

theorem faithful_nil : Faithful [] := by
  intro before use after h
  simp at h

/-- Where an element stands in a list with one more at the end. -/
theorem concat_eq_split {uses front back : List BlockUse} {last use : BlockUse} :
    uses ++ [last] = front ++ use :: back ↔ back = [] ∧ uses = front ∧ last = use ∨
      ∃ rest, back = rest ++ [last] ∧ uses = front ++ use :: rest := by
  constructor
  · intro h
    rcases List.eq_nil_or_concat back with rfl | ⟨rest, end_, rfl⟩
    · obtain ⟨hinit, hone⟩ := List.append_inj' h rfl
      exact .inl ⟨rfl, hinit, List.singleton_inj.1 hone⟩
    · have hsplit : uses ++ [last] = (front ++ use :: rest) ++ [end_] := by
        simpa only [List.concat_eq_append, List.append_assoc, List.cons_append] using h
      obtain ⟨hinit, hone⟩ := List.append_inj' hsplit rfl
      obtain rfl := List.singleton_inj.1 hone
      exact .inr ⟨rest, List.concat_eq_append, hinit⟩
  · rintro (⟨rfl, rfl, rfl⟩ | ⟨rest, rfl, rfl⟩)
    · rfl
    · simp only [List.append_assoc, List.cons_append]

/-- A request waits if it was posted and nothing but looks came after. -/
theorem waiting_eq_some_iff {uses : List BlockUse} {r : CommandRequest} :
    waiting uses = some r ↔ ∃ front back, uses = front ++ posted r :: back ∧
      ∀ use ∈ back, ∃ addr value, use = seen addr value := by
  -- by one more use at the end, which alone decides unless it is a look
  induction uses using List.reverseRecOn with
  | nil => simp [waiting, since]
  | append_singleton uses last ih =>
    simp only [concat_eq_split]
    constructor
    · intro h
      cases last with
      | posted r' =>
        rw [waiting_posted] at h
        cases h
        exact ⟨uses, [], .inl ⟨rfl, rfl, rfl⟩, by simp⟩
      | taken found =>
        rw [waiting_taken] at h
        cases h
      | seen addr value =>
        rw [waiting_seen] at h
        obtain ⟨front, back, hback, hseen⟩ := ih.1 h
        refine ⟨front, back ++ [seen addr value], .inr ⟨back, rfl, hback⟩, fun use huse => ?_⟩
        rcases List.mem_append.1 huse with huse | huse
        · exact hseen use huse
        · exact ⟨addr, value, List.mem_singleton.1 huse⟩
    · rintro ⟨front, back, ⟨rfl, rfl, rfl⟩ | ⟨rest, rfl, hrest⟩, hseen⟩
      · exact waiting_posted ..
      · obtain ⟨addr, value, rfl⟩ := hseen last (List.mem_append_right _ List.mem_cons_self)
        rw [waiting_seen]
        exact ih.2 ⟨front, rest, hrest, fun use huse => hseen use (List.mem_append_left _ huse)⟩

theorem Faithful.concat {uses : List BlockUse} {last : BlockUse} (h : Faithful uses)
    (hlast : Holds uses last) : Faithful (uses ++ [last]) := by
  intro before use after heq
  rcases concat_eq_split.1 heq with ⟨-, rfl, rfl⟩ | ⟨rest, -, hrest⟩
  · exact hlast
  · exact h before use rest hrest

/-- Looks tell the truth if they see the code of what waits, and what waits goes on to wait. -/
theorem Faithful.look {uses : List BlockUse} (h : Faithful uses) {memory : UInt16 → UInt8}
    (hkind : memory requestKind = waitingCode (waiting uses)) (looks : List UInt16) :
    Faithful (uses ++ looks.map fun a => seen a (memory a)) ∧
      waiting (uses ++ looks.map fun a => seen a (memory a)) = waiting uses := by
  induction looks generalizing uses with
  | nil =>
    rw [List.map_nil, List.append_nil]
    exact ⟨h, rfl⟩
  | cons a rest ih =>
    have hlast : Holds uses (seen a (memory a)) := by
      rintro rfl
      exact hkind
    rw [List.map_cons, List.append_cons]
    obtain ⟨hfaithful, hwaiting⟩ := ih (h.concat hlast) (by rw [waiting_seen, hkind])
    exact ⟨hfaithful, hwaiting.trans (waiting_seen ..)⟩

end BlockUse

/-- An access to the block. -/
def Deed.atBlock : Deed → Bool
  | read addr _ => decide (RequestByte addr)
  | write addr _ => decide (RequestByte addr)
  | called .. => false
  | polled => false

/-- What a record says of the block. -/
def Recorded.blockDeeds (r : Recorded β) : List Deed := r.deeds.filter Deed.atBlock

/-- What a use is made of happens at the block. -/
theorem BlockUse.filter_deeds (use : BlockUse) (h : ∀ addr value, use = .seen addr value →
    RequestByte addr) : use.deeds.filter Deed.atBlock = use.deeds := by
  rw [List.filter_eq_self]
  intro deed hdeed
  cases use with
  | posted r =>
    obtain ⟨p, hp, rfl⟩ := List.mem_map.1 hdeed
    exact decide_eq_true (CommandRequest.requestByte_of_mem hp)
  | taken found =>
    cases found with
    | none =>
      obtain rfl := List.mem_singleton.1 hdeed
      decide
    | some r =>
      rcases List.mem_cons.1 hdeed with rfl | hdeed
      · exact decide_eq_true (CommandRequest.requestByte_of_mem r.mem_kind)
      rcases List.mem_cons.1 hdeed with rfl | hdeed
      · decide
      obtain ⟨p, hp, rfl⟩ := List.mem_map.1 hdeed
      exact decide_eq_true (CommandRequest.requestByte_of_mem (List.mem_append_left _ hp))
  | seen addr value =>
    obtain rfl := List.mem_singleton.1 hdeed
    exact decide_eq_true (h addr value rfl)

/-- Writes values to addresses in turn. -/
def Machine.storeAll [RegisterBus β] : List (UInt16 × UInt8) → Run (Machine β) Unit
  | [] => pure ()
  | p :: rest => do
    Machine.write p.1 p.2
    storeAll rest

/-- A request is posted by writing its bytes. -/
theorem CommandRequest.post_eq [RegisterBus β] (r : CommandRequest) :
    (r.post : Run (Machine β) Unit) = Machine.storeAll r.bytes := by
  simp only [post, Machine.write32, RegisterBus.write32, Machine.onBus_bind, bind_assoc, bytes,
    fields, List.cons_append, List.nil_append, Machine.storeAll, bind_pure_unit]
  rfl

namespace PlainMemory

variable [RegisterBus β] {A : UInt16 → Prop} (b : PlainMemory β A)

/-- A request waits whose bytes all stand in the block, or none does. -/
def Waits : Option CommandRequest → β → Prop
  | none, bus => b.ram bus requestKind = 0
  | some r, bus => ∀ p ∈ r.bytes, b.ram bus p.1 = p.2

/-- Bytes were read, one after the other, and nothing else was done. -/
structure Looked (addrs : List UInt16) (s t : Machine (Recorded β)) : Prop where
  machine : t = { s with bus := t.bus }
  still : b.Still s.bus.bus t.bus.bus
  deeds : t.bus.deeds = s.bus.deeds ++ addrs.map fun a => .read a (b.ram s.bus.bus a)

variable {b} {s t u : Machine (Recorded β)} {addr : UInt16}

theorem Looked.trans {addrs more : List UInt16} (h : b.Looked addrs s t) (h' : b.Looked more t u)
    (hmore : ∀ a ∈ more, A a) : b.Looked (addrs ++ more) s u := by
  refine ⟨?_, h.still.trans h'.still, ?_⟩
  · rw [h'.machine, h.machine]
  · have hsame : (more.map fun a => Deed.read a (b.ram t.bus.bus a)) =
        more.map fun a => .read a (b.ram s.bus.bus a) :=
      List.map_congr_left fun a ha => by rw [h.still.ram a (hmore a ha)]
    rw [h'.deeds, h.deeds, hsame, List.map_append, List.append_assoc]

theorem read_looked (hwired : b.wired s.bus.bus) (haddr : A addr) :
    ∃ t, Machine.read addr s = .done (b.ram s.bus.bus addr) t ∧ b.Looked [addr] s t := by
  obtain ⟨bus, hread, hstill⟩ := fetch_still hwired haddr
  have haccess : RegisterBus.read addr s.bus =
      .done (b.ram s.bus.bus addr) ⟨bus, s.bus.deeds ++ [.read addr (b.ram s.bus.bus addr)]⟩ := by
    change Recorded.access (RegisterBus.read addr) (.read addr) s.bus = _
    unfold Recorded.access
    rw [hread]
  exact ⟨_, Machine.onBus_of_done haccess, rfl, hstill, rfl⟩

theorem looked_nil (hwired : b.wired s.bus.bus) : b.Looked [] s s :=
  ⟨rfl, ⟨hwired, fun _ _ => rfl⟩, (List.append_nil _).symm⟩

/-- No byte has changed by the time it is read. -/
theorem Looked.read {addrs : List UInt16} (h : b.Looked addrs s t) (haddr : A addr) :
    ∃ u, Machine.read addr t = .done (b.ram s.bus.bus addr) u ∧
      b.Looked (addrs ++ [addr]) s u := by
  obtain ⟨u, hread, hmore⟩ := read_looked h.still.wired haddr
  rw [h.still.ram _ haddr] at hread
  exact ⟨u, hread, h.trans hmore (List.forall_mem_singleton.2 haddr)⟩

theorem Looked.read32 {addrs : List UInt16} (h : b.Looked addrs s t) {base : UInt16}
    (hbase : ∀ a, Quad base a → A a) :
    ∃ u, Machine.read32 base t = .done (b.number base s.bus.bus) u ∧
      b.Looked (addrs ++ [base, base + 1, base + 2, base + 3]) s u := by
  obtain ⟨s1, hread3, h1⟩ := h.read (hbase _ (.inl rfl))
  obtain ⟨s2, hread2, h2⟩ := h1.read (hbase _ (.inr (.inl rfl)))
  obtain ⟨s3, hread1, h3⟩ := h2.read (hbase _ (.inr (.inr (.inl rfl))))
  obtain ⟨s4, hread0, h4⟩ := h3.read (hbase _ (.inr (.inr (.inr rfl))))
  refine ⟨s4, ?_, ?_⟩
  · simp only [Machine.read32, RegisterBus.read32, Machine.onBus_bind]
    refine (Run.bind_of_done hread3).trans ((Run.bind_of_done hread2).trans ?_)
    exact (Run.bind_of_done hread1).trans (Run.bind_of_done hread0)
  · simpa only [List.append_assoc, List.cons_append, List.nil_append] using h4

theorem store_done (hwired : b.wired s.bus.bus) (haddr : A addr) (value : UInt8) :
    ∃ bus, Machine.write addr value s = .done () { s with bus := bus } ∧ b.wired bus.bus ∧
      bus.deeds = s.bus.deeds ++ [.write addr value] ∧
      ∀ a, A a → b.ram bus.bus a = if a = addr then value else b.ram s.bus.bus a := by
  obtain ⟨bus, hstore, hwired', hram⟩ := store_ram hwired haddr value
  have haccess : RegisterBus.write addr value s.bus =
      .done () ⟨bus, s.bus.deeds ++ [.write addr value]⟩ := by
    change Recorded.access (RegisterBus.write addr value) (fun _ => .write addr value) s.bus = _
    unfold Recorded.access
    rw [hstore]
  exact ⟨_, Machine.onBus_of_done haccess, hwired', rfl, hram⟩

/-- Writes to plain memory all return; of several to one address the last stays. -/
theorem storeAll_done {pairs : List (UInt16 × UInt8)} (hpairs : ∀ p ∈ pairs, A p.1)
    (hwired : b.wired s.bus.bus) :
    ∃ bus, Machine.storeAll pairs s = .done () { s with bus := bus } ∧ b.wired bus.bus ∧
      bus.deeds = s.bus.deeds ++ (pairs.map fun p => .write p.1 p.2) ∧
      (∀ a, A a → a ∉ pairs.map Prod.fst → b.ram bus.bus a = b.ram s.bus.bus a) ∧
      ((pairs.map Prod.fst).Nodup → ∀ p ∈ pairs, b.ram bus.bus p.1 = p.2) := by
  induction pairs generalizing s with
  | nil => exact ⟨s.bus, rfl, hwired, (List.append_nil _).symm, fun _ _ _ => rfl, by simp⟩
  | cons p rest ih =>
    obtain ⟨bus, hstore, hwired', hdeeds, hram⟩ :=
      store_done hwired (hpairs p List.mem_cons_self) p.2
    obtain ⟨bus', hrest, hwired'', hdeeds', hkeep, hput⟩ := ih (s := { s with bus := bus })
      (fun q hq => hpairs q (List.mem_cons_of_mem _ hq)) hwired'
    refine ⟨bus', (Run.bind_of_done hstore).trans hrest, hwired'', ?_, fun a ha hnot => ?_,
      fun hnodup q hq => ?_⟩
    · rw [hdeeds', hdeeds, List.map_cons, List.append_assoc, List.singleton_append]
    · rw [List.map_cons, List.mem_cons, not_or] at hnot
      rw [hkeep a ha hnot.2, hram a ha, if_neg hnot.1]
    · rw [List.map_cons, List.nodup_cons] at hnodup
      rcases List.mem_cons.1 hq with rfl | hq
      · rw [hkeep _ (hpairs _ List.mem_cons_self) hnodup.1, hram _ (hpairs _ List.mem_cons_self),
          if_pos rfl]
      · exact hput hnodup.2 q hq

section Block

variable (hA : ∀ a, RequestByte a → A a)

include hA

/-- A post leaves the request in the block, whatever was there, and writes nowhere else. -/
theorem post_done (r : CommandRequest) (hwired : b.wired s.bus.bus) :
    ∃ bus, r.post s = .done () { s with bus := bus } ∧ b.wired bus.bus ∧ b.Waits (some r) bus.bus ∧
      bus.deeds = s.bus.deeds ++ (BlockUse.posted r).deeds ∧
      ∀ a, A a → ¬RequestByte a → b.ram bus.bus a = b.ram s.bus.bus a := by
  obtain ⟨bus, hstore, hwired', hdeeds, hkeep, hput⟩ := storeAll_done
    (fun p hp => hA _ (r.requestByte_of_mem hp)) hwired
  refine ⟨bus, by rw [r.post_eq, hstore], hwired', hput r.nodup_bytes, hdeeds, fun a ha hout => ?_⟩
  refine hkeep a ha fun hmem => hout ?_
  obtain ⟨p, hp, rfl⟩ := List.mem_map.1 hmem
  exact r.requestByte_of_mem hp

/-- The bytes of a request that stand in the block are read as the request. -/
theorem fields_looked {r : CommandRequest} (hwired : b.wired s.bus.bus)
    (hfields : ∀ p ∈ r.fields, b.ram s.bus.bus p.1 = p.2) :
    ∃ t, (do
        let opcode ← Machine.read requestOpcode
        let param ← Machine.read requestParam
        let tag ← Machine.read requestTag
        let address ← Machine.read32 requestAddress
        pure (some ⟨r.kind, opcode, param, tag, address⟩) : Run (Machine (Recorded β)) _) s =
      .done (some r) t ∧ b.Looked (r.fields.map Prod.fst) s t := by
  have haddress : ∀ a, Quad requestAddress a → A a := by
    rintro a (rfl | rfl | rfl | rfl) <;> exact hA _ (by decide)
  have hmem (i : Fin 7) : A (r.fields.get i).1 ∧
      b.ram s.bus.bus (r.fields.get i).1 = (r.fields.get i).2 :=
    ⟨hA _ (r.requestByte_of_mem (List.mem_append_left _ (List.get_mem ..))),
      hfields _ (List.get_mem ..)⟩
  obtain ⟨s1, hopcode, h1⟩ := (looked_nil hwired).read (hmem 0).1
  obtain ⟨s2, hparam, h2⟩ := h1.read (hmem 1).1
  obtain ⟨s3, htag, h3⟩ := h2.read (hmem 2).1
  obtain ⟨s4, hnumber, h4⟩ := h3.read32 haddress
  have hjoin : b.number requestAddress s.bus.bus = r.address := by
    have h3 : b.ram s.bus.bus requestAddress = (r.address >>> 24).toUInt8 := (hmem 3).2
    have h2 : b.ram s.bus.bus (requestAddress + 1) = (r.address >>> 16).toUInt8 := (hmem 4).2
    have h1 : b.ram s.bus.bus (requestAddress + 2) = (r.address >>> 8).toUInt8 := (hmem 5).2
    have h0 : b.ram s.bus.bus (requestAddress + 3) = r.address.toUInt8 := (hmem 6).2
    rw [number, h3, h2, h1, h0, RegisterBus.joinBytes_split]
  rw [(hmem 0).2] at hopcode
  rw [(hmem 1).2] at hparam
  rw [(hmem 2).2] at htag
  rw [hjoin] at hnumber
  refine ⟨s4, ?_, h4⟩
  refine (Run.bind_of_done hopcode).trans ((Run.bind_of_done hparam).trans ?_)
  exact (Run.bind_of_done htag).trans (Run.bind_of_done hnumber)

/-- A take finds what waits in the block, and clears the kind if something does. -/
theorem take_done {found : Option CommandRequest} (hwired : b.wired s.bus.bus)
    (hwaits : b.Waits found s.bus.bus) :
    ∃ bus, CommandRequest.take s = .done found { s with bus := bus } ∧ b.wired bus.bus ∧
      b.Waits none bus.bus ∧ bus.deeds = s.bus.deeds ++ (BlockUse.taken found).deeds ∧
      ∀ a, A a → ¬RequestByte a → b.ram bus.bus a = b.ram s.bus.bus a := by
  have hkind : A requestKind := hA _ (by decide)
  obtain ⟨s1, hread, hlooked⟩ := read_looked hwired hkind
  cases found with
  | none =>
    have hcode : b.ram s.bus.bus requestKind = 0 := hwaits
    refine ⟨s1.bus, ?_, hlooked.still.wired, ?_, ?_, fun a ha _ => hlooked.still.ram a ha⟩
    · rw [← hlooked.machine]
      refine (Run.bind_of_done hread).trans ?_
      rw [hcode]
      rfl
    · exact (hlooked.still.ram _ hkind).trans hcode
    · rw [hlooked.deeds, List.map_singleton, hcode]
      rfl
  | some r =>
    have hbytes : ∀ p ∈ r.bytes, b.ram s.bus.bus p.1 = p.2 := hwaits
    have hcode : b.ram s.bus.bus requestKind = r.kind.requestCode := hbytes _ r.mem_kind
    obtain ⟨bus, hclear, hwired', hdeeds, hram⟩ := store_done hlooked.still.wired hkind 0
    have hfields : ∀ p ∈ r.fields, b.ram bus.bus p.1 = p.2 := by
      intro p hp
      have hmem : p ∈ r.bytes := List.mem_append_left _ hp
      have hin : A p.1 := hA _ (r.requestByte_of_mem hmem)
      rw [hram _ hin, if_neg (r.ne_kind_of_mem hp), hlooked.still.ram _ hin, hbytes p hmem]
    obtain ⟨t, hrest, hread'⟩ := fields_looked (s := { s1 with bus := bus }) hA hwired' hfields
    have hseen : (r.fields.map Prod.fst).map (fun a => Deed.read a (b.ram bus.bus a)) =
        r.fields.map fun p => .read p.1 p.2 := by
      rw [List.map_map]
      refine List.map_congr_left fun p hp => ?_
      rw [Function.comp_apply, hfields p hp]
    refine ⟨t.bus, ?_, hread'.still.wired, ?_, ?_, fun a ha hout => ?_⟩
    · have hlast : t = { s with bus := t.bus } := by rw [hread'.machine, hlooked.machine]
      rw [← hlast]
      refine (Run.bind_of_done hread).trans ?_
      rw [hcode, if_neg r.kind.requestCode_ne_zero]
      refine (Run.bind_of_done hclear).trans ?_
      rw [CommandKind.ofRequest?_requestCode]
      exact hrest
    · refine (hread'.still.ram _ hkind).trans ?_
      rw [hram _ hkind, if_pos rfl]
    · rw [hread'.deeds, hseen, hdeeds, hlooked.deeds, List.map_singleton, hcode]
      simp only [BlockUse.deeds, List.append_assoc, List.cons_append, List.nil_append]
    · have hne : a ≠ requestKind := fun heq => hout (heq ▸ by decide)
      rw [hread'.still.ram a ha, hram a ha, if_neg hne, hlooked.still.ram a ha]

end Block

end PlainMemory

end BankedController
