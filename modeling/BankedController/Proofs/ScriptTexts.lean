import BankedController.Proofs.PrintedValues
import BankedController.Proofs.Records
import BankedController.ScriptText
import Mathlib.Data.List.Forall2

namespace BankedController

open Json

namespace Json

section Holding

theorem le_ofDigitChars (digits : List Char) (n : Nat) : n ≤ Nat.ofDigitChars 10 digits n := by
  induction digits generalizing n with
  | nil => exact Nat.le_refl n
  | cons c rest ih =>
    rw [Nat.ofDigitChars_cons]
    exact Nat.le_trans (by omega) (ih _)

/-- As long as the number fits in the significand, no digit is dropped. -/
theorem scaleWhole_eq (digits : List Char) (n : Nat)
    (h : Nat.ofDigitChars 10 digits n ≤ Numeral.significandBound) :
    Numeral.scaleWhole n digits = (Nat.ofDigitChars 10 digits n, 0) := by
  induction digits generalizing n with
  | nil => rfl
  | cons c rest ih =>
    rw [Nat.ofDigitChars_cons] at h ⊢
    have hnext := le_ofDigitChars rest (10 * n + (c.toNat - '0'.toNat))
    rw [Numeral.scaleWhole, Nat.mul_comm n, if_neg (by omega)]
    exact ih _ h

theorem isFinite_ofNat {n : Nat} (h : n < UInt64.size) : (Numeral.ofNat n).isFinite = true := by
  have hvalue : Nat.ofDigitChars 10 (Nat.toDigits 10 n) 0 = n :=
    Nat.ofDigitChars_toDigits (by decide) (by decide)
  have hbound : n ≤ Numeral.significandBound := by
    unfold Numeral.significandBound
    omega
  have hscale := scaleWhole_eq (Nat.toDigits 10 n) 0 (by rwa [hvalue])
  rw [hvalue] at hscale
  simp [Numeral.isFinite, Numeral.ofNat, hscale, Numeral.scaleFraction]

end Holding

end Json

namespace CommandKind

theorem ofJson?_name (kind : CommandKind) : ofJson? (.text kind.name) = some kind := by
  cases kind <;> rfl

/-- A value that picks something by name: the name, or an object with the name as its only key. -/
def Picks (name : String) (w : Value) : Prop :=
  w = .text name ∨ ∃ v, w = .object [(some name, v)]

theorem name_of_lookup {name : String} {kind : CommandKind} (h : choices.lookup name = some kind) :
    kind.name = name := by
  obtain ⟨before, after, hsplit, -⟩ := List.lookup_eq_some_iff.1 h
  have hmem : (name, kind) ∈ choices := by
    rw [hsplit]
    exact List.mem_append_right _ List.mem_cons_self
  obtain ⟨kind', -, hkind⟩ := List.mem_map.1 hmem
  obtain ⟨rfl, rfl⟩ := Prod.mk.inj hkind
  rfl

/-- A unit that is read is the one whose name is given. -/
theorem name_of_picks {name : String} {w : Value} {kind : CommandKind}
    (h : ofJson? w = some kind) (hname : Picks name w) : kind.name = name := by
  rcases hname with rfl | ⟨v, rfl⟩
  · exact name_of_lookup h
  · exact name_of_lookup (Option.ite_none_right_eq_some.1 h).2

end CommandKind

namespace Stimulus

variable {byPlace : Bool} {members members' : List Member} {event name : String} {w : Value}
  {values : List Value} {stimulus : Stimulus}

/-- The members name an event, by its name or by its place. -/
def Names (members : List Member) (event : String) : Prop :=
  ∃ w, (some "event", w) ∈ members ∧ eventName? true w = some event

/-- The bounds on the integers of events. -/
def bounds : List (String × Nat) :=
  [("endpoint", UInt8.size), ("mask", UInt8.size), ("reads", UInt32.size)]

/-- A value that can be read for a field of an event. -/
def Fits (name : String) (w : Value) : Prop :=
  (∀ bound, bounds.lookup name = some bound → (natBelow? bound w).isSome) ∧
    (name = "unit" → (CommandKind.ofJson? w).isSome)

theorem fits_integer {bound : Nat} (hname : name ≠ "unit") (hbound : bounds.lookup name = some bound)
    (h : (natBelow? bound w).isSome) : Fits name w := by
  refine ⟨fun other hother => ?_, fun hunit => absurd hunit hname⟩
  rw [hbound] at hother
  exact Option.some.inj hother ▸ h

theorem fits_unit {unit : CommandKind} (h : CommandKind.ofJson? w = some unit) : Fits "unit" w :=
  ⟨fun _ hbound => (nomatch hbound), fun _ => by rw [h]; rfl⟩

/-- An event that is read is known, and each of its fields is given a value that fits. -/
theorem fits_of_ofValues? (h : ofValues? event values = some stimulus) :
    event ∈ eventNames ∧ ∀ name w, (name, w) ∈ (fieldNames event).zip values → Fits name w := by
  unfold ofValues? at h
  split at h
  next endpoint mask =>
    obtain ⟨_, hendpoint, h⟩ := Option.bind_eq_some_iff.1 h
    obtain ⟨_, hmask, -⟩ := Option.bind_eq_some_iff.1 h
    refine ⟨by decide, fun name w hw => ?_⟩
    simp only [fieldNames, List.zip_cons_cons, List.zip_nil_left, List.mem_cons, Prod.mk.injEq,
      List.not_mem_nil, or_false] at hw
    rcases hw with ⟨rfl, rfl⟩ | ⟨rfl, rfl⟩
    · exact fits_integer (by decide) rfl (natBelow?_isSome hendpoint)
    · exact fits_integer (by decide) rfl (natBelow?_isSome hmask)
  case h_12 unit =>
    obtain ⟨_, hunit, -⟩ := Option.map_eq_some_iff.1 h
    refine ⟨by decide, fun name w hw => ?_⟩
    simp only [fieldNames, List.zip_cons_cons, List.zip_nil_left, List.mem_singleton,
      Prod.mk.injEq] at hw
    obtain ⟨rfl, rfl⟩ := hw
    exact fits_unit hunit
  case h_13 unit reads =>
    obtain ⟨_, hunit, h⟩ := Option.bind_eq_some_iff.1 h
    obtain ⟨_, hreads, -⟩ := Option.bind_eq_some_iff.1 h
    refine ⟨by decide, fun name w hw => ?_⟩
    simp only [fieldNames, List.zip_cons_cons, List.zip_nil_left, List.mem_cons, Prod.mk.injEq,
      List.not_mem_nil, or_false] at hw
    rcases hw with ⟨rfl, rfl⟩ | ⟨rfl, rfl⟩
    · exact fits_unit hunit
    · exact fits_integer (by decide) rfl (natBelow?_isSome hreads)
  case h_14 => cases h
  all_goals exact ⟨by decide, fun _ _ hw => nomatch hw⟩

/-- Behind what the members tell of the event and its fields, nothing matters. -/
theorem ofMembers?_congr (hevent : required? "event" members = required? "event" members')
    (hfields : ∀ event, (required? "event" members).bind (eventName? byPlace) = some event →
      ∀ name ∈ fieldNames event, required? name members = required? name members') :
    ofMembers? byPlace members = ofMembers? byPlace members' := by
  unfold ofMembers?
  rw [← hevent]
  cases hname : (required? "event" members).bind (eventName? byPlace) with
  | none => rfl
  | some event =>
    have hvalues : (fieldNames event).mapM (fun name => required? name members) =
        (fieldNames event).mapM fun name => required? name members' :=
      mapM_congr (hfields event hname)
    simp only [Option.bind_eq_bind, Option.bind_some, hvalues]

theorem not_pass_mem_fieldNames (event : String) : "pass" ∉ fieldNames event := by
  unfold fieldNames
  split <;> decide

end Stimulus

namespace ScriptStep

variable {members members' others : List Member} {step : ScriptStep} {v v' : Value}

/-- What is asked of a step: its pass, its event, and the fields of the event. -/
def Asked (members : List Member) (name : String) : Prop :=
  name = "pass" ∨ name = "event" ∨
    ∃ event, Stimulus.Names members event ∧ name ∈ Stimulus.fieldNames event

/-- A member that nothing asks for, and that can be held. -/
def Spare (members : List Member) (m : Member) : Prop :=
  ∃ key, m.1 = some key ∧ ¬ Asked members key ∧ m.2.isHoldable nesting = true

/-- A step with its members in another order and with spare ones among them. -/
inductive Rearranged : Value → Value → Prop
  | same (v : Value) : Rearranged v v
  | members {members members' others : List Member} (h : members'.Perm (members ++ others))
      (hothers : ∀ m ∈ others, Spare members m) : Rearranged (.object members) (.object members')

/-- Members that can be held, but for the pass, which is read at once. -/
def Held (members : List Member) : Prop :=
  ∀ m ∈ members, (∃ key, m.1 = some key) ∧ (m.1 ≠ some "pass" → m.2.isHoldable nesting = true)

/-- The step that held members describe. -/
def ofHeld? (members : List Member) : Option ScriptStep := do
  let pass ← (required? "pass" members).bind uint64?
  let stimulus ← Stimulus.ofMembers? true members
  pure ⟨pass, stimulus⟩

/-- The event does not ask for the pass. -/
theorem ofMembers?_others :
    Stimulus.ofMembers? true (members.filter fun m => m.1 ≠ some "pass") =
      Stimulus.ofMembers? true members := by
  have hsame (name : String) (hname : name ≠ "pass") :
      required? name (members.filter fun m => m.1 ≠ some "pass") = required? name members :=
    required?_congr (single?_filter fun m hm => by simp [hm, hname])
  refine Stimulus.ofMembers?_congr (hsame "event" (by decide)) fun event _ name hname => ?_
  exact hsame name fun hpass => Stimulus.not_pass_mem_fieldNames event (hpass ▸ hname)

theorem ofJson?_of_held (h : Held members) : ofJson? (.object members) = ofHeld? members := by
  have hall : ((members.filter fun m => m.1 ≠ some "pass").all fun m =>
      m.2.isHoldable nesting) = true := by
    refine List.all_eq_true.2 fun m hm => ?_
    obtain ⟨hm, hpass⟩ := List.mem_filter.1 hm
    exact (h m hm).2 (of_decide_eq_true hpass)
  simp only [ofJson?, ofHeld?, members?_object fun m hm => (h m hm).1, hall, if_true,
    ofMembers?_others, Option.bind_eq_bind, Option.bind_some]

theorem held_of_ofJson? (h : ofJson? (.object members) = some step) : Held members := by
  obtain ⟨kept, hkept, h⟩ := Option.bind_eq_some_iff.1 h
  obtain ⟨hsame, hkeys⟩ := members?_eq_some hkept
  obtain rfl := Value.object.inj hsame
  obtain ⟨_, -, h⟩ := Option.bind_eq_some_iff.1 h
  obtain ⟨hall, -⟩ := Option.ite_none_right_eq_some.1 h
  intro m hm
  refine ⟨hkeys m hm, fun hpass => ?_⟩
  exact List.all_eq_true.1 hall m (List.mem_filter.2 ⟨hm, decide_eq_true hpass⟩)

section Rearranging

variable (h : members'.Perm (members ++ others)) (hothers : ∀ m ∈ others, Spare members m)

include h hothers

theorem held_iff_of_perm : Held members' ↔ Held members := by
  constructor
  · intro hheld m hm
    exact hheld m (h.symm.subset (List.mem_append_left _ hm))
  · intro hheld m hm
    rcases List.mem_append.1 (h.subset hm) with hold | hnew
    · exact hheld m hold
    · obtain ⟨key, hkey, -, hholdable⟩ := hothers m hnew
      exact ⟨⟨key, hkey⟩, fun _ => hholdable⟩

/-- What is asked for is read as before. -/
theorem required?_of_perm {name : String} (hname : Asked members name) :
    required? name members = required? name members' := by
  refine required?_congr ((single?_perm h).trans (single?_append ?_)).symm
  rintro m hm heq
  obtain ⟨key, hkey, hunasked, -⟩ := hothers m hm
  rw [heq] at hkey
  obtain rfl := Option.some.inj hkey
  exact hunasked hname

theorem ofHeld?_of_perm : ofHeld? members = ofHeld? members' := by
  have hsame {name : String} (hname : Asked members name) := required?_of_perm h hothers hname
  have hstimulus : Stimulus.ofMembers? true members = Stimulus.ofMembers? true members' := by
    refine Stimulus.ofMembers?_congr (hsame (.inr (.inl rfl))) fun event hevent name hname => ?_
    obtain ⟨w, hw, hevent⟩ := Option.bind_eq_some_iff.1 hevent
    exact hsame (.inr (.inr ⟨event, ⟨w, mem_of_required? hw, hevent⟩, hname⟩))
  rw [ofHeld?, ofHeld?, hsame (.inl rfl), hstimulus]

end Rearranging

theorem ofJson?_of_not_held (h : ¬ Held members) : ofJson? (.object members) = none :=
  Option.eq_none_iff_forall_ne_some.2 fun _ hread => h (held_of_ofJson? hread)

theorem ofJson?_rearranged (h : Rearranged v v') : ofJson? v = ofJson? v' := by
  cases h with
  | same => rfl
  | @members members members' others h hothers =>
    have hiff := held_iff_of_perm h hothers
    by_cases hheld : Held members
    · rw [ofJson?_of_held hheld, ofJson?_of_held (hiff.2 hheld), ofHeld?_of_perm h hothers]
    · rw [ofJson?_of_not_held hheld, ofJson?_of_not_held fun hheld' => hheld (hiff.1 hheld')]

/-- What a step that is read consists of. -/
theorem ofHeld?_eq_some (h : ofHeld? members = some step) :
    (∃ v, required? "pass" members = some v ∧ (natBelow? UInt64.size v).isSome) ∧
      ∃ w event, required? "event" members = some w ∧ Stimulus.eventName? true w = some event ∧
        event ∈ Stimulus.eventNames ∧
        ∀ name ∈ Stimulus.fieldNames event,
          ∃ v, required? name members = some v ∧ Stimulus.Fits name v := by
  obtain ⟨pass, hpass, h⟩ := Option.bind_eq_some_iff.1 h
  obtain ⟨stimulus, hstimulus, -⟩ := Option.bind_eq_some_iff.1 h
  obtain ⟨v, hv, hpass⟩ := Option.bind_eq_some_iff.1 hpass
  obtain ⟨event, hevent, hstimulus⟩ := Option.bind_eq_some_iff.1 hstimulus
  obtain ⟨values, hvalues, hstimulus⟩ := Option.bind_eq_some_iff.1 hstimulus
  obtain ⟨w, hw, hevent⟩ := Option.bind_eq_some_iff.1 hevent
  obtain ⟨hknown, hfits⟩ := Stimulus.fits_of_ofValues? hstimulus
  refine ⟨⟨v, hv, natBelow?_isSome hpass⟩, w, event, hw, hevent, hknown, fun name hname => ?_⟩
  obtain ⟨value, hvalue, hzip⟩ := mem_zip_of_mapM hvalues hname
  exact ⟨value, hvalue, hfits name value hzip⟩

/-- The bounds on the integers of a step. -/
def bounds : List (String × Nat) := ("pass", UInt64.size) :: Stimulus.bounds

/-- A step that lacks or repeats what is asked of it, names an event or a unit that nobody knows, or
gives an integer outside the range of its field. -/
inductive Faulty (members : List Member) : Prop
  | lacking {name : String} (hname : Asked members name) (h : ∀ m ∈ members, m.1 ≠ some name)
  | repeated {name : String} (hname : Asked members name) (h : Repeated name members)
  | unknownEvent {w : Value} (hw : (some "event", w) ∈ members)
      (h : ∀ event ∈ Stimulus.eventNames, Stimulus.eventName? true w ≠ some event)
  | unknownUnit {w : Value} {name : String} (hunit : Asked members "unit")
      (hw : (some "unit", w) ∈ members) (hname : CommandKind.Picks name w)
      (h : ∀ kind : CommandKind, kind.name ≠ name)
  | outside {name : String} {bound : Nat} {n : Numeral} (hbound : (name, bound) ∈ bounds)
      (hname : Asked members name) (hn : (some name, .number n) ∈ members) (h : n.Outside bound)

/-- Whatever is asked of a step that is read is there, with a value that fits where it is a field
of the event. -/
theorem asked_of_ofHeld? (h : ofHeld? members = some step) {name : String}
    (hname : Asked members name) :
    ∃ v, required? name members = some v ∧
      (name ≠ "pass" → name ≠ "event" → Stimulus.Fits name v) ∧
      (name = "pass" → (natBelow? UInt64.size v).isSome) := by
  obtain ⟨⟨v, hv, hpass⟩, w, event, hw, hevent, -, hfields⟩ := ofHeld?_eq_some h
  rcases hname with rfl | rfl | ⟨event', ⟨w', hw', hevent'⟩, hname⟩
  · exact ⟨v, hv, fun hne => absurd rfl hne, fun _ => hpass⟩
  · exact ⟨w, hw, fun _ hne => absurd rfl hne, fun h => nomatch h⟩
  · obtain rfl := required?_of_mem hw hw'
    obtain rfl : event = event' := Option.some.inj (hevent.symm.trans hevent')
    obtain ⟨value, hvalue, hfits⟩ := hfields name hname
    exact ⟨value, hvalue, fun _ _ => hfits,
      fun hpass => absurd (hpass ▸ hname) (Stimulus.not_pass_mem_fieldNames event)⟩

theorem ofJson?_of_faulty (h : Faulty members) : ofJson? (.object members) = none := by
  refine Option.eq_none_iff_forall_ne_some.2 fun step hread => ?_
  rw [ofJson?_of_held (held_of_ofJson? hread)] at hread
  cases h with
  | lacking hname h =>
    obtain ⟨v, hv, -⟩ := asked_of_ofHeld? hread hname
    rw [required?_of_lacking h] at hv
    cases hv
  | repeated hname h =>
    obtain ⟨v, hv, -⟩ := asked_of_ofHeld? hread hname
    rw [required?_of_repeated h] at hv
    cases hv
  | unknownEvent hw h =>
    obtain ⟨-, w', event, hw', hevent, hknown, -⟩ := ofHeld?_eq_some hread
    obtain rfl := required?_of_mem hw' hw
    exact h event hknown hevent
  | unknownUnit hunit hw hname h =>
    obtain ⟨v, hv, hfits, -⟩ := asked_of_ofHeld? hread hunit
    obtain rfl := required?_of_mem hv hw
    obtain ⟨kind, hkind⟩ := Option.isSome_iff_exists.1 ((hfits (by decide) (by decide)).2 rfl)
    exact h kind (CommandKind.name_of_picks hkind hname)
  | @outside name bound n hbound hname hn h =>
    obtain ⟨v, hv, hfits, hpass⟩ := asked_of_ofHeld? hread hname
    obtain rfl := required?_of_mem hv hn
    have hnone := natBelow?_outside h
    rcases List.mem_cons.1 hbound with heq | hbound
    · obtain ⟨rfl, rfl⟩ := Prod.mk.inj heq
      have hsome := hpass rfl
      rw [hnone] at hsome
      cases hsome
    · have hlookup : Stimulus.bounds.lookup name = some bound ∧ name ≠ "pass" ∧ name ≠ "event" := by
        simp only [Stimulus.bounds, List.mem_cons, Prod.mk.injEq, List.not_mem_nil, or_false]
          at hbound
        rcases hbound with ⟨rfl, rfl⟩ | ⟨rfl, rfl⟩ | ⟨rfl, rfl⟩ <;> exact ⟨rfl, by decide, by decide⟩
      obtain ⟨hlookup, hnotPass, hnotEvent⟩ := hlookup
      have hsome := (hfits hnotPass hnotEvent).1 bound hlookup
      rw [hnone] at hsome
      cases hsome

/-- A value that steps are written with: a text or a number that fits in eight bytes. -/
inductive Plain : Value → Prop
  | text (s : String) : Plain (.text s)
  | nat {n : Nat} (h : n < UInt64.size) : Plain (.nat n)

theorem Plain.isHoldable (h : Plain v) : v.isHoldable nesting = true := by
  cases h with
  | text => rfl
  | nat h => exact isFinite_ofNat h

theorem Plain.writable (h : Plain v) : v.Writable := by
  cases h with
  | text s => exact .string s
  | nat => exact Value.writable_nat _

theorem plain_toMembers (stimulus : Stimulus) :
    ∀ m ∈ stimulus.toMembers, (∃ key, m.1 = some key) ∧ Plain m.2 := by
  have hbyte (x : UInt8) : Plain (.nat x.toNat) :=
    .nat (Nat.lt_trans x.toNat_lt (by decide))
  have hword (x : UInt32) : Plain (.nat x.toNat) :=
    .nat (Nat.lt_trans x.toNat_lt (by decide))
  cases stimulus <;> simp [Stimulus.toMembers, field, Plain.text, hbyte, hword]

theorem plain_members (step : ScriptStep) :
    ∀ m ∈ field "pass" (.nat step.pass.toNat) :: step.stimulus.toMembers,
      (∃ key, m.1 = some key) ∧ Plain m.2 :=
  List.forall_mem_cons.2 ⟨⟨⟨_, rfl⟩, .nat step.pass.toNat_lt⟩, plain_toMembers step.stimulus⟩

theorem writable_toJson (step : ScriptStep) : step.toJson.Writable :=
  .object (fun m hm => (plain_members step m hm).1) fun m hm => (plain_members step m hm).2.writable

theorem ofMembers?_toMembers (pass : Value) (stimulus : Stimulus) :
    Stimulus.ofMembers? true (field "pass" pass :: stimulus.toMembers) = some stimulus := by
  cases stimulus with
  | endpointReady endpoint mask =>
    change Stimulus.ofValues? "endpoint_ready" [.nat endpoint.toNat, .nat mask.toNat] = _
    simp [Stimulus.ofValues?]
  | stall unit =>
    change Stimulus.ofValues? "stall" [.text unit.name] = _
    simp [Stimulus.ofValues?, CommandKind.ofJson?_name]
  | release unit reads =>
    change Stimulus.ofValues? "release" [.text unit.name, .nat reads.toNat] = _
    simp [Stimulus.ofValues?, CommandKind.ofJson?_name]
  | _ => rfl

/-- A step is read back. -/
theorem ofJson?_toJson (step : ScriptStep) : ofJson? step.toJson = some step := by
  have hpass : required? "pass" (field "pass" (.nat step.pass.toNat) :: step.stimulus.toMembers) =
      some (.nat step.pass.toNat) := by
    cases step.stimulus <;> rfl
  have hheld : Held (field "pass" (.nat step.pass.toNat) :: step.stimulus.toMembers) := fun m hm =>
    ⟨(plain_members step m hm).1, fun _ => (plain_members step m hm).2.isHoldable⟩
  rw [toJson, ofJson?_of_held hheld, ofHeld?, hpass, ofMembers?_toMembers]
  simp

end ScriptStep

namespace Script

/-- A script with the members of its steps in another order and with spare ones among them. -/
inductive Rearranged : Value → Value → Prop
  | object {front back : List Member} {steps steps' : List Value}
      (h : List.Forall₂ ScriptStep.Rearranged steps steps') :
      Rearranged (.object (front ++ field "steps" (.array steps) :: back))
        (.object (front ++ field "steps" (.array steps') :: back))
  | array {steps steps' : List Value} (h : List.Forall₂ ScriptStep.Rearranged steps steps') :
      Rearranged (.array [.array steps]) (.array [.array steps'])

variable {front back : List Member} {v v' : Value} {steps steps' : List Value}

/-- The steps are read where nothing else goes by their name. -/
theorem ofJson?_object (h : ∀ m ∈ front ++ back, ∃ key, m.1 = some key ∧ key ≠ "steps")
    (steps : Value) :
    ofJson? (.object (front ++ field "steps" steps :: back)) =
      (stepsOfJson? steps).map Script.mk := by
  have hpresents : Presents [("steps", some steps)]
      (.object (front ++ field "steps" steps :: back)) :=
    ⟨_, front ++ back, rfl, List.perm_middle, by simpa using h⟩
  have hread : record? ["steps"] (.object (front ++ field "steps" steps :: back)) =
      some [some steps] := record?_of_presents (by simp) hpresents
  rw [ofJson?, hread]

/-- Where a key is no text, or something else goes by the name of the steps, nothing is read. -/
theorem ofJson?_object_none (h : ¬ ∀ m ∈ front ++ back, ∃ key, m.1 = some key ∧ key ≠ "steps")
    (steps : Value) : ofJson? (.object (front ++ field "steps" steps :: back)) = none := by
  refine Option.eq_none_iff_forall_ne_some.2 fun script hread => h fun m hm => ?_
  unfold ofJson? at hread
  split at hread
  next given hrecord =>
    rw [record?_object] at hrecord
    obtain ⟨kept, hkept, hrecord⟩ := Option.bind_eq_some_iff.1 hrecord
    obtain ⟨hsame, hkeys⟩ := members?_eq_some hkept
    obtain rfl := Value.object.inj hsame
    have hmem : m ∈ front ++ field "steps" steps :: back :=
      List.perm_middle.symm.subset (List.mem_cons_of_mem _ hm)
    obtain ⟨key, hkey⟩ := hkeys m hmem
    refine ⟨key, hkey, ?_⟩
    rintro rfl
    have hnone : record? ["steps"] (.object (front ++ field "steps" steps :: back)) = none :=
      record?_of_repeats ⟨_, rfl, "steps", by decide, repeated_of_mem hm hkey steps⟩
    rw [record?_object, hkept, Option.bind_some, hrecord] at hnone
    cases hnone
  next => cases hread

theorem stepsOfJson?_rearranged (h : List.Forall₂ ScriptStep.Rearranged steps steps') :
    stepsOfJson? (.array steps) = stepsOfJson? (.array steps') := by
  change steps.mapM ScriptStep.ofJson? = steps'.mapM ScriptStep.ofJson?
  induction h with
  | nil => rfl
  | cons hstep _ ih =>
    rw [List.mapM_cons, List.mapM_cons, ScriptStep.ofJson?_rearranged hstep, ih]

theorem ofJson?_rearranged (h : Rearranged v v') : ofJson? v = ofJson? v' := by
  cases h with
  | @object front back steps steps' h =>
    by_cases hothers : ∀ m ∈ front ++ back, ∃ key, m.1 = some key ∧ key ≠ "steps"
    · rw [ofJson?_object hothers, ofJson?_object hothers, stepsOfJson?_rearranged h]
    · rw [ofJson?_object_none hothers, ofJson?_object_none hothers]
  | @array steps steps' h =>
    change (stepsOfJson? (.array steps)).map Script.mk = (stepsOfJson? (.array steps')).map Script.mk
    rw [stepsOfJson?_rearranged h]

/-- One faulty step spoils the script. -/
theorem ofJson?_of_faulty {members : List Member} (hsteps : Gives ["steps"] "steps" (.array steps) v)
    (hstep : .object members ∈ steps) (h : ScriptStep.Faulty members) : ofJson? v = none := by
  refine Option.eq_none_iff_forall_ne_some.2 fun script hread => ?_
  unfold ofJson? at hread
  split at hread
  next given hrecord =>
    have hgiven := record?_gives hrecord hsteps
    obtain rfl : .array steps = given := by simpa using hgiven
    obtain ⟨_, hread, -⟩ := Option.map_eq_some_iff.1 hread
    obtain ⟨step, hread, -⟩ := mem_zip_of_mapM hread hstep
    rw [ScriptStep.ofJson?_of_faulty h] at hread
    cases hread
  next => cases hread

theorem writable_toJson (script : Script) : script.toJson.Writable := by
  refine .field (.array fun v hv => ?_) .empty
  obtain ⟨step, -, rfl⟩ := List.mem_map.1 hv
  exact step.writable_toJson

theorem ofJson?_toJson (script : Script) : ofJson? script.toJson = some script := by
  have hsteps : stepsOfJson? (.array (script.steps.map ScriptStep.toJson)) = some script.steps := by
    change (script.steps.map ScriptStep.toJson).mapM ScriptStep.ofJson? = _
    induction script.steps with
    | nil => rfl
    | cons step rest ih =>
      rw [List.map_cons, List.mapM_cons, ScriptStep.ofJson?_toJson, ih]
      rfl
  have hread : ofJson? (.object ([] ++ [field "steps" (.array (script.steps.map ScriptStep.toJson))])) =
      (stepsOfJson? (.array (script.steps.map ScriptStep.toJson))).map Script.mk :=
    ofJson?_object (by simp) _
  rw [hsteps] at hread
  exact hread

/-- The text of a script is read back as that script. In another order, and with members among them
that nothing asks for, the members of its steps make the same script, or none as before. A step that
lacks or repeats what is asked of it, names an event or a unit that nobody knows, or has an integer
out of its range, spoils the text. -/
theorem texts_parsed :
    (∀ script : Script, parse? script.toJson.render = some script) ∧
    (∀ text text' v v', Value.parse? text = some v → Value.parse? text' = some v' →
      Rearranged v v' → parse? text' = parse? text) ∧
    ∀ text v steps members, Value.parse? text = some v →
      Gives ["steps"] "steps" (.array steps) v → .object members ∈ steps →
      ScriptStep.Faulty members → parse? text = none := by
  refine ⟨fun script => ?_, fun text text' v v' hv hv' h => ?_,
    fun text v steps members hv hsteps hstep h => ?_⟩
  · rw [parse?, Value.parse?_render script.writable_toJson, Option.bind_some, ofJson?_toJson]
  · rw [parse?, parse?, hv, hv', Option.bind_some, Option.bind_some, ofJson?_rearranged h]
  · rw [parse?, hv, Option.bind_some, ofJson?_of_faulty hsteps hstep h]

/-- The members of a step with conditions on an endpoint. -/
def conditions (mask : Nat) : List Member :=
  [field "pass" (.nat 2), field "event" (.text "endpoint_ready"), field "endpoint" (.nat 3),
    field "mask" (.nat mask)]

/-- A script of one step. -/
def single (members : List Member) : Value := .object [field "steps" (.array [.object members])]

theorem writable_single {members : List Member}
    (h : ∀ m ∈ members, (∃ key, m.1 = some key) ∧ m.2.Writable) : (single members).Writable := by
  refine .field (.array fun v hv => ?_) .empty
  rw [List.mem_singleton.1 hv]
  exact .object (fun m hm => (h m hm).1) fun m hm => (h m hm).2

/-- The members stand backwards, behind one that nothing asks for, and the step is the same. With a
mask that does not fit in a byte the text is refused. -/
theorem texts_parsed_backwards :
    parse? (single (conditions 4 ++ [field "spare" .null]).reverse).render =
        some ⟨[⟨2, .endpointReady 3 4⟩]⟩ ∧
      parse? (single (conditions 256)).render = none := by
  have hconditions (mask : Nat) : ∀ m ∈ conditions mask, (∃ key, m.1 = some key) ∧ m.2.Writable := by
    simp [conditions, field, Value.writable_nat, Value.text, Value.Writable.string]
  have hbackwards : ∀ m ∈ (conditions 4 ++ [field "spare" .null]).reverse,
      (∃ key, m.1 = some key) ∧ m.2.Writable := by
    intro m hm
    rcases List.mem_append.1 (List.mem_reverse.1 hm) with hold | hspare
    · exact hconditions 4 m hold
    · rw [List.mem_singleton.1 hspare]
      exact ⟨⟨_, rfl⟩, .null⟩
  have hunasked : ¬ ScriptStep.Asked (conditions 4) "spare" := by
    rintro (h | h | ⟨event, -, h⟩)
    · exact absurd h (by decide)
    · exact absurd h (by decide)
    · unfold Stimulus.fieldNames at h
      split at h <;> revert h <;> decide
  have hrearranged : Rearranged (single (conditions 4))
      (single (conditions 4 ++ [field "spare" .null]).reverse) := by
    refine @Rearranged.object [] [] _ _ (.cons (.members (List.reverse_perm _) ?_) .nil)
    intro m hm
    rw [List.mem_singleton.1 hm]
    exact ⟨"spare", rfl, hunasked, rfl⟩
  have hasked : ScriptStep.Asked (conditions 256) "mask" :=
    .inr (.inr ⟨"endpoint_ready", ⟨.text "endpoint_ready", by simp [conditions, field], rfl⟩,
      by decide⟩)
  have hbound : ("mask", 256) ∈ ScriptStep.bounds := by decide
  have hfaulty : ScriptStep.Faulty (conditions 256) :=
    .outside hbound hasked (by simp [conditions, field, Value.nat])
      (Numeral.outside_ofNat (Nat.le_refl 256))
  obtain ⟨hread, hsame, hspoiled⟩ := texts_parsed
  constructor
  · rw [hsame _ _ _ _ (Value.parse?_render (writable_single (hconditions 4)))
      (Value.parse?_render (writable_single hbackwards)) hrearranged]
    exact hread ⟨[⟨2, .endpointReady 3 4⟩]⟩
  · exact hspoiled _ _ _ _ (Value.parse?_render (writable_single (hconditions 256)))
      (.member (by decide) List.mem_cons_self) List.mem_cons_self hfaulty

end Script

end BankedController
