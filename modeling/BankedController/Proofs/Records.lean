import BankedController.Json.Record

namespace BankedController.Json

section Numbers

/-- The number that a numeral stands for. -/
def Numeral.value (n : Numeral) : Rat :=
  let exponent : Int := match n.exponent with
    | none => 0
    | some (false, digits) => digitsValue digits
    | some (true, digits) => - (digitsValue digits : Int)
  (if n.negative then -1 else 1) *
    (digitsValue n.whole + digitsValue n.fraction / 10 ^ n.fraction.length) * 10 ^ exponent

/-- A number outside the range of the natural numbers below `bound`. -/
def Numeral.Outside (bound : Nat) (n : Numeral) : Prop := n.value < 0 ∨ (bound : Rat) ≤ n.value

/-- A numeral that is read as a natural number stands for it. -/
theorem Numeral.value_of_toNat? {n : Numeral} {k : Nat} (h : n.toNat? = some k) :
    n.value = k := by
  obtain ⟨negative, whole, fraction, exponent⟩ := n
  simp only [toNat?, Option.ite_none_left_eq_some, Bool.or_eq_true, decide_eq_true_eq, not_or,
    ne_eq, Decidable.not_not, Bool.not_eq_true, Option.isSome_eq_false_iff, Option.isNone_iff_eq_none,
    Option.some.injEq] at h
  obtain ⟨⟨⟨rfl, rfl⟩, rfl⟩, rfl⟩ := h
  have hfraction : ((digitsValue [] : Nat) : Rat) / 10 ^ ([] : List Char).length = 0 := by
    have hempty : digitsValue [] = 0 := rfl
    rw [hempty, Rat.div_def]
    exact Rat.zero_mul _
  simp only [value, hfraction, Bool.false_eq_true, if_false, Rat.zpow_zero, Rat.mul_one,
    Rat.one_mul, Rat.add_zero]

theorem Numeral.outside_ofNat {bound n : Nat} (h : bound ≤ n) : (ofNat n).Outside bound := by
  refine .inr ?_
  rw [value_of_toNat? (toNat?_ofNat n)]
  exact Rat.natCast_le_natCast.2 h

theorem natBelow?_nat {bound n : Nat} (h : n < bound) : natBelow? bound (.nat n) = some n := by
  simp only [natBelow?, Value.nat, Numeral.toNat?_ofNat, if_pos h]

theorem natBelow?_outside {bound : Nat} {n : Numeral} (h : n.Outside bound) :
    natBelow? bound (.number n) = none := by
  simp only [natBelow?]
  cases hnat : n.toNat? with
  | none => rfl
  | some k =>
    have hvalue := Numeral.value_of_toNat? hnat
    refine if_neg fun hk => ?_
    rcases h with hnegative | hlarge
    · rw [hvalue] at hnegative
      exact absurd hnegative (Rat.not_lt.2 Rat.natCast_nonneg)
    · rw [hvalue, Rat.natCast_le_natCast] at hlarge
      exact absurd hk (Nat.not_lt.2 hlarge)

/-- What is read as an integer of some type is within its range. -/
theorem natBelow?_isSome {α : Type} {bound : Nat} {ofNat : Nat → α} {v : Value} {a : α}
    (h : (natBelow? bound v).map ofNat = some a) : (natBelow? bound v).isSome := by
  obtain ⟨k, hk, -⟩ := Option.map_eq_some_iff.1 h
  rw [hk]
  rfl

@[simp] theorem uint8?_nat (x : UInt8) : uint8? (.nat x.toNat) = some x := by
  simp [uint8?, natBelow?_nat x.toNat_lt]

@[simp] theorem uint16?_nat (x : UInt16) : uint16? (.nat x.toNat) = some x := by
  simp [uint16?, natBelow?_nat x.toNat_lt]

@[simp] theorem uint32?_nat (x : UInt32) : uint32? (.nat x.toNat) = some x := by
  simp [uint32?, natBelow?_nat x.toNat_lt]

@[simp] theorem uint64?_nat (x : UInt64) : uint64? (.nat x.toNat) = some x := by
  simp [uint64?, natBelow?_nat x.toNat_lt]

end Numbers

section Fields

variable {name : String} {members others : List Member}

/-- A field that stands more than once among the members of an object. -/
def Repeated (name : String) (members : List Member) : Prop :=
  1 < (members.map Prod.fst).count (some name)

/-- A field is repeated where another member has its name. -/
theorem repeated_of_mem {front back : List Member} {m : Member} (hm : m ∈ front ++ back)
    (hname : m.1 = some name) (v : Value) : Repeated name (front ++ field name v :: back) := by
  have hperm : (front ++ field name v :: back).Perm (field name v :: (front ++ back)) :=
    List.perm_middle
  have hother : 0 < ((front ++ back).map Prod.fst).count (some name) :=
    List.count_pos_iff.2 (hname ▸ List.mem_map_of_mem hm)
  unfold Repeated
  rw [(hperm.map Prod.fst).count_eq, List.map_cons]
  simpa [field] using hother

/-- The members with a key stand apart from the others. -/
theorem length_named (name : String) (members : List Member) :
    (members.filter fun m => m.1 = some name).length =
      (members.map Prod.fst).count (some name) := by
  rw [List.count, List.countP_map, List.countP_eq_length_filter]
  exact congrArg List.length (List.filter_congr fun m _ => Bool.eq_iff_iff.2 (by simp))

theorem single?_of_repeated (h : Repeated name members) : single? name members = none := by
  unfold Repeated at h
  rw [← length_named] at h
  unfold single?
  split
  next hnone => rw [hnone] at h; cases h
  next hone => rw [hone] at h; exact absurd h (Nat.lt_irrefl 1)
  next => rfl

theorem single?_of_lacking (h : ∀ m ∈ members, m.1 ≠ some name) :
    single? name members = some none := by
  have hnone : (members.filter fun m => m.1 = some name) = [] :=
    List.filter_eq_nil_iff.2 fun m hm => by simpa using h m hm
  rw [single?, hnone]

/-- The value that is read is that of every member with the name. -/
theorem single?_of_mem {w : Value} {value : Option Value} (h : single? name members = some value)
    (hw : (some name, w) ∈ members) : value = some w := by
  have hnamed : (some name, w) ∈ members.filter fun m => m.1 = some name :=
    List.mem_filter.2 ⟨hw, decide_eq_true rfl⟩
  unfold single? at h
  split at h
  next hnone => rw [hnone] at hnamed; cases hnamed
  next m hone =>
    rw [hone, List.mem_singleton] at hnamed
    rw [← hnamed] at h
    exact (Option.some.inj h).symm
  next => cases h

theorem mem_of_single? {w : Value} (h : single? name members = some (some w)) :
    (some name, w) ∈ members := by
  unfold single? at h
  split at h
  next => cases h
  next m hone =>
    have hmem : m ∈ members.filter fun m => m.1 = some name := hone ▸ List.mem_singleton_self m
    obtain ⟨hmem, hname⟩ := List.mem_filter.1 hmem
    obtain ⟨key, v⟩ := m
    obtain rfl : key = some name := of_decide_eq_true hname
    obtain rfl : v = w := Option.some.inj (Option.some.inj h)
    exact hmem
  next => cases h

theorem single?_perm {members' : List Member} (h : members.Perm members') :
    single? name members = single? name members' := by
  have hnamed := h.filter fun m => m.1 = some name
  unfold single?
  revert hnamed
  generalize (members.filter fun m => m.1 = some name) = found
  generalize (members'.filter fun m => m.1 = some name) = found'
  intro hnamed
  match found with
  | [] => rw [hnamed.nil_eq.symm]
  | [m] => rw [List.perm_singleton.1 hnamed.symm]
  | _ :: _ :: rest =>
    match found', hnamed.length_eq with
    | _ :: _ :: _, _ => rfl

theorem single?_append (h : ∀ m ∈ others, m.1 ≠ some name) :
    single? name (members ++ others) = single? name members := by
  have hnone : (others.filter fun m => m.1 = some name) = [] :=
    List.filter_eq_nil_iff.2 fun m hm => by simpa using h m hm
  rw [single?, List.filter_append, hnone, List.append_nil]
  rfl

/-- A member that stands alone is read wherever it stands. -/
theorem single?_cons (w : Value) (h : ∀ m ∈ members, m.1 ≠ some name) :
    single? name (field name w :: members) = some (some w) := by
  have hread : single? name ([field name w] ++ members) = single? name [field name w] :=
    single?_append h
  rw [List.singleton_append] at hread
  rw [hread]
  simp [single?, field]

/-- Members of another name may be left out. -/
theorem single?_filter {keep : Member → Bool} (h : ∀ m, m.1 = some name → keep m = true) :
    single? name (members.filter keep) = single? name members := by
  have hsame : ((members.filter keep).filter fun m => m.1 = some name) =
      members.filter fun m => m.1 = some name := by
    rw [List.filter_filter]
    refine List.filter_congr fun m _ => ?_
    by_cases hm : m.1 = some name
    · simp [hm, h m hm]
    · simp [hm]
  rw [single?, hsame]
  rfl

theorem required?_eq_some {v : Value} :
    required? name members = some v ↔ single? name members = some (some v) := by
  unfold required?
  split
  next h => rw [h]; simp
  next h => simpa using fun heq => h v heq

theorem required?_of_mem {v w : Value} (h : required? name members = some v)
    (hw : (some name, w) ∈ members) : v = w :=
  Option.some.inj (single?_of_mem (required?_eq_some.1 h) hw)

theorem mem_of_required? {v : Value} (h : required? name members = some v) :
    (some name, v) ∈ members :=
  mem_of_single? (required?_eq_some.1 h)

theorem required?_of_lacking (h : ∀ m ∈ members, m.1 ≠ some name) :
    required? name members = none := by
  rw [required?, single?_of_lacking h]

theorem required?_of_repeated (h : Repeated name members) : required? name members = none := by
  rw [required?, single?_of_repeated h]

theorem required?_congr {members' : List Member} (h : single? name members = single? name members') :
    required? name members = required? name members' := by
  rw [required?, h]
  rfl

end Fields

section Objects

/-- The members for those fields that have a value. -/
def present (fields : List (String × Option Value)) : List Member :=
  fields.filterMap fun f => f.2.map (field f.1)

/-- An object that presents fields, each perhaps absent, in any order and among members of other
names. -/
def Presents (fields : List (String × Option Value)) (v : Value) : Prop :=
  ∃ members others, v = .object members ∧ members.Perm (present fields ++ others) ∧
    ∀ m ∈ others, ∃ key, m.1 = some key ∧ key ∉ fields.map Prod.fst

variable {fields : List (String × Option Value)} {names : List String} {v w : Value}
  {name : String}

theorem mem_present {m : Member} (h : m ∈ present fields) :
    ∃ key, m.1 = some key ∧ key ∈ fields.map Prod.fst := by
  obtain ⟨⟨key, value⟩, hmem, hfield⟩ := List.mem_filterMap.1 h
  obtain ⟨w, rfl, rfl⟩ := Option.map_eq_some_iff.1 hfield
  exact ⟨key, rfl, List.mem_map_of_mem hmem⟩

/-- Among fields of different names, each is read with its own value. -/
theorem single?_present (hnames : (fields.map Prod.fst).Nodup) {value : Option Value}
    (h : (name, value) ∈ fields) : single? name (present fields) = some value := by
  induction fields with
  | nil => cases h
  | cons f rest ih =>
    obtain ⟨key, first⟩ := f
    rw [List.map_cons, List.nodup_cons] at hnames
    obtain ⟨hkey, hrest⟩ := hnames
    have hother : ∀ m ∈ present rest, m.1 ≠ some key := by
      rintro m hm heq
      obtain ⟨other, hm', hother⟩ := mem_present hm
      rw [heq] at hm'
      obtain rfl := Option.some.inj hm'
      exact hkey hother
    rcases List.mem_cons.1 h with hfirst | hlater
    · obtain ⟨rfl, rfl⟩ := Prod.mk.inj hfirst
      cases value with
      | none => exact single?_of_lacking hother
      | some w => exact single?_cons w hother
    · have hname : name ≠ key := by
        rintro rfl
        exact hkey (List.mem_map.2 ⟨(name, value), hlater, rfl⟩)
      cases first with
      | none => exact ih hrest hlater
      | some w =>
        have hskip : single? name (present rest ++ [field key w]) = single? name (present rest) := by
          refine single?_append fun m hm heq => hname ?_
          rw [List.mem_singleton.1 hm] at heq
          exact (Option.some.inj heq).symm
        have hswap : (field key w :: present rest).Perm (present rest ++ [field key w]) :=
          (List.perm_append_singleton _ _).symm
        exact (single?_perm hswap).trans (hskip.trans (ih hrest hlater))

theorem mapM_fst {read : String → Option (Option Value)} :
    ∀ fields : List (String × Option Value), (∀ f ∈ fields, read f.1 = some f.2) →
      (fields.map Prod.fst).mapM read = some (fields.map Prod.snd) := by
  intro fields
  induction fields with
  | nil => exact fun _ => rfl
  | cons f rest ih =>
    intro h
    simp only [List.map_cons, List.mapM_cons, h f List.mem_cons_self,
      ih fun g hg => h g (List.mem_cons_of_mem _ hg)]
    rfl

theorem members?_object {members : List Member} (h : ∀ m ∈ members, ∃ key, m.1 = some key) :
    members? (.object members) = some members := by
  refine if_pos (List.all_eq_true.2 fun m hm => ?_)
  obtain ⟨key, hkey⟩ := h m hm
  rw [hkey]
  rfl

theorem members?_eq_some {members : List Member} (h : members? v = some members) :
    v = .object members ∧ ∀ m ∈ members, ∃ key, m.1 = some key := by
  unfold members? at h
  split at h
  · rw [Option.ite_none_right_eq_some] at h
    obtain ⟨hkeys, h⟩ := h
    obtain rfl := Option.some.inj h
    exact ⟨rfl, fun m hm => Option.isSome_iff_exists.1 (List.all_eq_true.1 hkeys m hm)⟩
  · cases h

theorem record?_object (names : List String) (members : List Member) :
    record? names (.object members) =
      (members? (.object members)).bind fun members =>
        names.mapM fun name => single? name members := by
  simp only [record?]
  cases members? (.object members) <;> rfl

/-- Fields of different names are read off an object that presents them. -/
theorem record?_of_presents (hnames : (fields.map Prod.fst).Nodup) (h : Presents fields v) :
    record? (fields.map Prod.fst) v = some (fields.map Prod.snd) := by
  obtain ⟨members, others, rfl, hmembers, hothers⟩ := h
  rw [record?_object, members?_object]
  · refine mapM_fst fields fun f hf => ?_
    rw [single?_perm hmembers, single?_append, single?_present hnames hf]
    rintro m hm heq
    obtain ⟨key, hkey, hunknown⟩ := hothers m hm
    rw [heq] at hkey
    obtain rfl := Option.some.inj hkey
    exact hunknown (List.mem_map_of_mem hf)
  · intro m hm
    rcases List.mem_append.1 (hmembers.subset hm) with hknown | hother
    · obtain ⟨key, hkey, -⟩ := mem_present hknown
      exact ⟨key, hkey⟩
    · obtain ⟨key, hkey, -⟩ := hothers m hother
      exact ⟨key, hkey⟩

theorem mapM_congr {α : Type} {read read' : String → Option α}
    (h : ∀ name ∈ names, read name = read' name) : names.mapM read = names.mapM read' := by
  induction names with
  | nil => rfl
  | cons first rest ih =>
    rw [List.mapM_cons, List.mapM_cons, h first List.mem_cons_self,
      ih fun name hname => h name (List.mem_cons_of_mem _ hname)]

/-- A record gives a field a value: with a member of an object, or at its place in an array. -/
inductive Gives (names : List String) (name : String) (w : Value) : Value → Prop
  | member {members : List Member} (hname : name ∈ names) (h : (some name, w) ∈ members) :
      Gives names name w (.object members)
  | element {elements : List Value} (h : (name, w) ∈ names.zip elements) :
      Gives names name w (.array elements)

/-- An object in which a field of a record is repeated. -/
def Repeats (names : List String) (v : Value) : Prop :=
  ∃ members, v = .object members ∧ ∃ name ∈ names, Repeated name members

theorem mem_zip_of_mapM {α β : Type} {read : α → Option β} {xs : List α} {values : List β}
    (h : xs.mapM read = some values) {x : α} (hx : x ∈ xs) :
    ∃ value, read x = some value ∧ (x, value) ∈ xs.zip values := by
  induction xs generalizing values with
  | nil => cases hx
  | cons first rest ih =>
    rw [List.mapM_cons] at h
    obtain ⟨value, hvalue, h⟩ := Option.bind_eq_some_iff.1 h
    obtain ⟨later, hlater, h⟩ := Option.bind_eq_some_iff.1 h
    obtain rfl : value :: later = values := Option.some.inj h
    rcases List.mem_cons.1 hx with rfl | hrest
    · exact ⟨value, hvalue, List.mem_cons_self⟩
    · obtain ⟨found, hfound, hmem⟩ := ih hlater hrest
      exact ⟨found, hfound, List.mem_cons_of_mem _ hmem⟩

theorem record?_object_eq_some {members : List Member} {values : List (Option Value)}
    (h : record? names (.object members) = some values) :
    (names.mapM fun name => single? name members) = some values := by
  rw [record?_object] at h
  obtain ⟨kept, hkept, h⟩ := Option.bind_eq_some_iff.1 h
  obtain ⟨hsame, -⟩ := members?_eq_some hkept
  obtain rfl := Value.object.inj hsame
  exact h

/-- A value that a record gives a field is the one that is read for it. -/
theorem record?_gives {values : List (Option Value)} (h : record? names v = some values)
    (hgives : Gives names name w v) : (name, some w) ∈ names.zip values := by
  cases hgives with
  | member hname hmem =>
    obtain ⟨value, hread, hzip⟩ := mem_zip_of_mapM (record?_object_eq_some h) hname
    rwa [single?_of_mem hread hmem] at hzip
  | @element elements hmem =>
    simp only [record?, Option.ite_none_right_eq_some, Option.some.injEq] at h
    obtain ⟨hlength, rfl⟩ := h
    obtain ⟨i, hi, hat⟩ := List.mem_iff_getElem.1 hmem
    rw [List.length_zip] at hi
    rw [List.getElem_zip] at hat
    obtain ⟨rfl, rfl⟩ := Prod.mk.inj hat
    refine List.mem_iff_getElem.2 ⟨i, by simp; omega, ?_⟩
    simp only [List.getElem_zip]
    rw [List.getElem_append_left (by simp; omega), List.getElem_map]

theorem record?_of_repeats (h : Repeats names v) : record? names v = none := by
  obtain ⟨members, rfl, name, hname, hrepeated⟩ := h
  cases hread : record? names (.object members) with
  | none => rfl
  | some values =>
    obtain ⟨value, hvalue, -⟩ := mem_zip_of_mapM (record?_object_eq_some hread) hname
    rw [single?_of_repeated hrepeated] at hvalue
    cases hvalue

end Objects

end BankedController.Json
