import BankedController.ConfigText
import BankedController.Proofs.PrintedValues
import BankedController.Proofs.ReceivedCommands
import BankedController.Proofs.Records
import Mathlib.Data.List.Forall2

namespace BankedController

open Json

namespace Json

section Defaults

variable {α β : Type} {standard : α} {read : Value → Option α}

/-- A field that is written where it is present is read as its value, or as the standard one. -/
theorem orDefault_map {write : α → Value} (h : ∀ a, read (write a) = some a) (given : Option α) :
    orDefault standard read (given.map write) = some (given.getD standard) := by
  cases given with
  | none => rfl
  | some a => exact h a

/-- The same for a field that can be spelled in several ways. -/
theorem orDefault_rel {Spelled : β → Value → Prop} {meaning : β → α}
    {given : Option β} {value : Option Value} (hvalue : Option.Rel Spelled given value)
    (h : ∀ {b v}, Spelled b v → read v = some (meaning b)) :
    orDefault standard read value = some ((given.map meaning).getD standard) := by
  cases hvalue with
  | none => rfl
  | some hspelled => exact h hspelled

theorem read_of_orDefault {value : Option Value} {a : α} (h : orDefault standard read value = some a)
    {w : Value} (hw : value = some w) : read w = some a := by
  rw [hw] at h
  exact h

end Defaults

section Faults

/-- The names of a record's fields, those of integers with a bound on them. -/
abbrev Ranges : Type := List (String × Option Nat)

/-- A record in which a field is repeated, or an integer is outside the range of its field. -/
inductive Faulty (ranges : Ranges) (v : Value) : Prop
  | repeated (h : Repeats (ranges.map Prod.fst) v)
  | outside {name : String} {bound : Nat} {n : Numeral} (hname : (name, some bound) ∈ ranges)
      (h : Gives (ranges.map Prod.fst) name (.number n) v) (houtside : n.Outside bound)

/-- The value of a field, if there is a bound on it, is an integer below the bound. -/
def Bounded (range : String × Option Nat) (value : Option Value) : Prop :=
  ∀ bound w, range.2 = some bound → value = some w → (natBelow? bound w).isSome

/-- A record that can be read, and with every integer within the range of its field. -/
def InRange (ranges : Ranges) (v : Value) : Prop :=
  ∃ values, record? (ranges.map Prod.fst) v = some values ∧ List.Forall₂ Bounded ranges values

theorem bounded_free {name : String} {value : Option Value} : Bounded (name, none) value :=
  fun _ _ hbound => nomatch hbound

/-- An integer that is read is within its range. -/
theorem bounded_of_orDefault {α : Type} {standard a : α} {name : String} {bound : Nat}
    {ofNat : Nat → α} {value : Option Value}
    (h : orDefault standard (fun v => (natBelow? bound v).map ofNat) value = some a) :
    Bounded (name, some bound) value := by
  rintro _ w ⟨⟩ hw
  exact natBelow?_isSome (read_of_orDefault h hw)

variable {ranges : Ranges} {v : Value}

/-- Fields of different names are found by their names. -/
theorem bounded_of_mem {values : List (Option Value)} {name : String} {bound : Nat} {w : Value}
    (hnames : (ranges.map Prod.fst).Nodup) (h : List.Forall₂ Bounded ranges values)
    (hname : (name, some bound) ∈ ranges)
    (hw : (name, some w) ∈ (ranges.map Prod.fst).zip values) : (natBelow? bound w).isSome := by
  induction h with
  | nil => cases hname
  | @cons range value rest values hfirst _ ih =>
    rw [List.map_cons, List.nodup_cons] at hnames
    obtain ⟨hfresh, hrest⟩ := hnames
    rw [List.map_cons, List.zip_cons_cons] at hw
    rcases List.mem_cons.1 hname with rfl | hname
    · rcases List.mem_cons.1 hw with hw | hw
      · exact hfirst _ _ rfl (Prod.mk.inj hw).2.symm
      · exact absurd (List.of_mem_zip hw).1 hfresh
    · rcases List.mem_cons.1 hw with hw | hw
      · have hmem := List.mem_map_of_mem (f := Prod.fst) hname
        rw [(Prod.mk.inj hw).1] at hmem
        exact absurd hmem hfresh
      · exact ih hrest hname hw

theorem Faulty.not_inRange (hnames : (ranges.map Prod.fst).Nodup) (h : Faulty ranges v) :
    ¬ InRange ranges v := by
  rintro ⟨values, hread, hbounded⟩
  cases h with
  | repeated h =>
    rw [record?_of_repeats h] at hread
    cases hread
  | outside hname h houtside =>
    have hbelow := bounded_of_mem hnames hbounded hname (record?_gives hread h)
    rw [natBelow?_outside houtside] at hbelow
    cases hbelow

end Faults

end Json

namespace Timeouts

/-- Some of the thresholds. -/
structure Fields where
  nvmeQueue : Option UInt32
  nvmeDoorbell : Option UInt32
  flash : Option UInt32
  phySettle : Option UInt32

/-- Thresholds in which the given ones are replaced. -/
def Fields.over (f : Fields) (t : Timeouts) : Timeouts :=
  ⟨f.nvmeQueue.getD t.nvmeQueue, f.nvmeDoorbell.getD t.nvmeDoorbell, f.flash.getD t.flash,
    f.phySettle.getD t.phySettle⟩

/-- An object that presents the given thresholds. -/
def Fields.Spelled (f : Fields) (v : Value) : Prop :=
  Presents
    [("nvme_queue", f.nvmeQueue.map fun n => .nat n.toNat),
      ("nvme_doorbell", f.nvmeDoorbell.map fun n => .nat n.toNat),
      ("flash", f.flash.map fun n => .nat n.toNat),
      ("phy_settle", f.phySettle.map fun n => .nat n.toNat)] v

def ranges : Ranges :=
  [("nvme_queue", some UInt32.size), ("nvme_doorbell", some UInt32.size),
    ("flash", some UInt32.size), ("phy_settle", some UInt32.size)]

variable {f : Fields} {v : Value} {t : Timeouts}

theorem ofJson?_of_spelled (h : f.Spelled v) : ofJson? v = some (f.over .standard) := by
  have hread := record?_of_presents (by simp) h
  simp only [List.map_cons, List.map_nil] at hread
  simp only [ofJson?, hread, orDefault_map uint32?_nat]
  rfl

theorem inRange_of_ofJson? (h : ofJson? v = some t) : InRange ranges v := by
  unfold ofJson? at h
  split at h
  next queue doorbell flash phy hread =>
    obtain ⟨_, hqueue, h⟩ := Option.bind_eq_some_iff.1 h
    obtain ⟨_, hdoorbell, h⟩ := Option.bind_eq_some_iff.1 h
    obtain ⟨_, hflash, h⟩ := Option.bind_eq_some_iff.1 h
    obtain ⟨_, hphy, -⟩ := Option.bind_eq_some_iff.1 h
    exact ⟨_, hread, .cons (bounded_of_orDefault hqueue) (.cons (bounded_of_orDefault hdoorbell)
      (.cons (bounded_of_orDefault hflash) (.cons (bounded_of_orDefault hphy) .nil)))⟩
  next => cases h

end Timeouts

namespace WorkRam

/-- Some of the fields of the work memory. -/
structure Fields where
  start : Option UInt16
  size : Option UInt16

/-- The work memory in which the given fields are replaced. -/
def Fields.over (f : Fields) (w : WorkRam) : WorkRam := ⟨f.start.getD w.start, f.size.getD w.size⟩

/-- An object that presents the given fields. -/
def Fields.Spelled (f : Fields) (v : Value) : Prop :=
  Presents
    [("start", f.start.map fun n => .nat n.toNat), ("len", f.size.map fun n => .nat n.toNat)] v

def ranges : Ranges := [("start", some UInt16.size), ("len", some UInt16.size)]

variable {f : Fields} {v : Value} {w : WorkRam}

theorem ofJson?_of_spelled (h : f.Spelled v) :
    ofJson? v = some (f.over FirmwareConfig.standard.workRam) := by
  have hread := record?_of_presents (by simp) h
  simp only [List.map_cons, List.map_nil] at hread
  simp only [ofJson?, hread, orDefault_map uint16?_nat]
  rfl

theorem inRange_of_ofJson? (h : ofJson? v = some w) : InRange ranges v := by
  unfold ofJson? at h
  split at h
  next start size hread =>
    obtain ⟨_, hstart, h⟩ := Option.bind_eq_some_iff.1 h
    obtain ⟨_, hsize, -⟩ := Option.bind_eq_some_iff.1 h
    exact ⟨_, hread,
      .cons (bounded_of_orDefault hstart) (.cons (bounded_of_orDefault hsize) .nil)⟩
  next => cases h

end WorkRam

theorem IrqLine.ofJson?_name (line : IrqLine) : ofJson? (.text line.name) = some line := by
  cases line <;> rfl

namespace FirmwareConfig

/-- An object that presents the base of the stack, if it is given. -/
def StackSpelled (base : Option UInt8) (v : Value) : Prop :=
  Presents [("base", base.map fun n => .nat n.toNat)] v

def stackRanges : Ranges := [("base", some UInt8.size)]

theorem stackOfJson?_of_spelled {base : Option UInt8} {v : Value} (h : StackSpelled base v) :
    stackOfJson? v = some (base.getD standard.stackBase) := by
  have hread := record?_of_presents (by simp) h
  simp only [List.map_cons, List.map_nil] at hread
  simp only [stackOfJson?, hread, orDefault_map uint8?_nat]

theorem inRange_of_stackOfJson? {base : UInt8} {v : Value} (h : stackOfJson? v = some base) :
    InRange stackRanges v := by
  unfold stackOfJson? at h
  split at h
  next given hread => exact ⟨_, hread, .cons (bounded_of_orDefault h) .nil⟩
  next => cases h

/-- Some of the fields of a configuration, and of the records in it some of theirs. -/
structure Fields where
  timeouts : Option Timeouts.Fields
  stack : Option (Option UInt8)
  scanLimit : Option UInt8
  highLine : Option IrqLine
  workRam : Option WorkRam.Fields

/-- A configuration in which the given fields are replaced, and nothing else is. -/
def Fields.over (f : Fields) (c : FirmwareConfig) : FirmwareConfig where
  timeouts := (f.timeouts.map fun t => t.over c.timeouts).getD c.timeouts
  stackBase := (f.stack.map fun base => base.getD c.stackBase).getD c.stackBase
  scanLimit := f.scanLimit.getD c.scanLimit
  highLine := f.highLine.getD c.highLine
  workRam := (f.workRam.map fun w => w.over c.workRam).getD c.workRam

/-- An object that presents the given fields, in any order and among members of other names, and
likewise in the records in it. -/
def Fields.Spelled (f : Fields) (v : Value) : Prop :=
  ∃ timeouts stack workRam : Option Value,
    Option.Rel Timeouts.Fields.Spelled f.timeouts timeouts ∧
    Option.Rel StackSpelled f.stack stack ∧
    Option.Rel WorkRam.Fields.Spelled f.workRam workRam ∧
    Presents
      [("timeouts", timeouts), ("stack", stack),
        ("endpoint_scan_limit", f.scanLimit.map fun n => .nat n.toNat),
        ("interrupt_priority", f.highLine.map fun line => .text line.name),
        ("work_ram", workRam)] v

def ranges : Ranges :=
  [("timeouts", none), ("stack", none), ("endpoint_scan_limit", some UInt8.size),
    ("interrupt_priority", none), ("work_ram", none)]

theorem ofJson?_of_spelled {f : Fields} {v : Value} (h : f.Spelled v) :
    ofJson? v = some (f.over standard) := by
  obtain ⟨timeouts, stack, workRam, htimeouts, hstack, hworkRam, h⟩ := h
  have hread := record?_of_presents (by simp) h
  simp only [List.map_cons, List.map_nil] at hread
  simp only [ofJson?, hread, orDefault_map uint8?_nat, orDefault_map IrqLine.ofJson?_name,
    orDefault_rel htimeouts Timeouts.ofJson?_of_spelled, orDefault_rel hstack stackOfJson?_of_spelled,
    orDefault_rel hworkRam WorkRam.ofJson?_of_spelled]
  rfl

/-- A configuration in which a field is repeated or an integer is outside its range, or which has a
record in it of which this is true. -/
inductive Faulty (v : Value) : Prop
  | own (h : Json.Faulty ranges v)
  | timeouts {w : Value} (hw : Gives (ranges.map Prod.fst) "timeouts" w v)
      (h : Json.Faulty Timeouts.ranges w)
  | stack {w : Value} (hw : Gives (ranges.map Prod.fst) "stack" w v)
      (h : Json.Faulty stackRanges w)
  | workRam {w : Value} (hw : Gives (ranges.map Prod.fst) "work_ram" w v)
      (h : Json.Faulty WorkRam.ranges w)

theorem ofJson?_of_faulty {v : Value} (h : Faulty v) : ofJson? v = none := by
  cases hread : ofJson? v with
  | none => rfl
  | some c =>
    exfalso
    unfold ofJson? at hread
    split at hread
    next timeouts stack limit line workRam hrecord =>
      obtain ⟨_, htimeouts, hread⟩ := Option.bind_eq_some_iff.1 hread
      obtain ⟨_, hstack, hread⟩ := Option.bind_eq_some_iff.1 hread
      obtain ⟨_, hlimit, hread⟩ := Option.bind_eq_some_iff.1 hread
      obtain ⟨_, hline, hread⟩ := Option.bind_eq_some_iff.1 hread
      obtain ⟨_, hworkRam, -⟩ := Option.bind_eq_some_iff.1 hread
      cases h with
      | own h =>
        exact h.not_inRange (by decide) ⟨_, hrecord, .cons bounded_free (.cons bounded_free
          (.cons (bounded_of_orDefault hlimit) (.cons bounded_free (.cons bounded_free .nil))))⟩
      | timeouts hw h =>
        have hgiven := record?_gives hrecord hw
        have htimeouts := read_of_orDefault htimeouts (by simpa [ranges, eq_comm] using hgiven)
        exact h.not_inRange (by decide) (Timeouts.inRange_of_ofJson? htimeouts)
      | stack hw h =>
        have hgiven := record?_gives hrecord hw
        have hstack := read_of_orDefault hstack (by simpa [ranges, eq_comm] using hgiven)
        exact h.not_inRange (by decide) (inRange_of_stackOfJson? hstack)
      | workRam hw h =>
        have hgiven := record?_gives hrecord hw
        have hworkRam := read_of_orDefault hworkRam (by simpa [ranges, eq_comm] using hgiven)
        exact h.not_inRange (by decide) (WorkRam.inRange_of_ofJson? hworkRam)
    next => cases hread

/-- All fields of a configuration. -/
def fields (c : FirmwareConfig) : Fields where
  timeouts := some ⟨some c.timeouts.nvmeQueue, some c.timeouts.nvmeDoorbell,
    some c.timeouts.flash, some c.timeouts.phySettle⟩
  stack := some (some c.stackBase)
  scanLimit := some c.scanLimit
  highLine := some c.highLine
  workRam := some ⟨some c.workRam.start, some c.workRam.size⟩

theorem spelled_toJson (c : FirmwareConfig) : c.fields.Spelled c.toJson :=
  ⟨_, _, _, .some ⟨_, [], rfl, .refl _, by simp⟩, .some ⟨_, [], rfl, .refl _, by simp⟩,
    .some ⟨_, [], rfl, .refl _, by simp⟩, ⟨_, [], rfl, .refl _, by simp⟩⟩

theorem writable_toJson (c : FirmwareConfig) : c.toJson.Writable := by
  have hnat {n : Nat} : (Value.nat n).Writable := Value.writable_nat n
  have htimeouts : c.timeouts.toJson.Writable :=
    .field hnat (.field hnat (.field hnat (.field hnat .empty)))
  have hworkRam : c.workRam.toJson.Writable := .field hnat (.field hnat .empty)
  exact .field htimeouts (.field (.field hnat .empty) (.field hnat
    (.field (.string _) (.field hworkRam .empty))))

/-- The configuration that a text describes, whether or not it may stand. -/
def decode? (text : String) : Option FirmwareConfig := (Value.parse? text).bind ofJson?

theorem parse_eq_ok {text : String} {c : FirmwareConfig} :
    parse text = .ok c ↔ decode? text = some c ∧ c.defect? = none := by
  unfold parse decode?
  cases (Value.parse? text).bind ofJson? with
  | none => simp
  | some read =>
    cases hdefect : read.defect? with
    | none =>
      simp only [hdefect, Except.ok.injEq, Option.some.injEq]
      exact ⟨fun h => ⟨h, h ▸ hdefect⟩, fun h => h.1⟩
    | some cause =>
      simp only [hdefect, reduceCtorEq, Option.some.injEq, false_iff]
      rintro ⟨rfl, hnone⟩
      rw [hdefect] at hnone
      cases hnone

theorem parse_of_decode? {text : String} (h : decode? text = none) :
    parse text = .error .malformed := by
  unfold decode? at h
  unfold parse
  rw [h]

/-- The text of a configuration is read back as that configuration. A text that spells some fields,
in any order and among others, is read as the standard configuration with just these replaced; a
text that repeats a field or puts an integer out of its range, at either level, is refused. A text
is taken exactly if what it is read as passes the check, and then a board can be linked with it. -/
theorem texts_decoded :
    (∀ c : FirmwareConfig, decode? c.toJson.render = some c) ∧
    (∀ text v, Value.parse? text = some v →
      (∀ f : Fields, f.Spelled v → decode? text = some (f.over standard)) ∧
      (Faulty v → decode? text = none ∧ parse text = .error .malformed)) ∧
    ∀ text c, (parse text = .ok c ↔ decode? text = some c ∧ c.defect? = none) ∧
      (parse text = .ok c → ∃ fw, Board.link c = .ok fw) := by
  refine ⟨fun c => ?_, fun text v hv => ⟨fun f hf => ?_, fun hfaulty => ?_⟩,
    fun text c => ⟨parse_eq_ok, fun hc => Board.link_ok (parse_eq_ok.1 hc).2⟩⟩
  · rw [decode?, Value.parse?_render c.writable_toJson, Option.bind_some,
      ofJson?_of_spelled c.spelled_toJson]
    rfl
  · rw [decode?, hv, Option.bind_some, ofJson?_of_spelled hf]
  · have hnone : decode? text = none := by
      rw [decode?, hv, Option.bind_some, ofJson?_of_faulty hfaulty]
    exact ⟨hnone, parse_of_decode? hnone⟩

/-- A limit and one threshold, behind a member that nobody knows. -/
def sparse : Value :=
  .object
    [field "spare" (.array [.null]), field "endpoint_scan_limit" (.nat 4),
      field "timeouts" (.object [field "flash" (.nat 5)])]

/-- A base of the stack that is given twice. -/
def doubled : Value :=
  .object [field "stack" (.object [field "base" (.nat 8), field "base" (.nat 9)])]

/-- The threshold and the limit that are given replace the standard ones, and a board can be linked.
Where the base of the stack is given twice, the text is refused. -/
theorem texts_decoded_sparse :
    decode? sparse.render =
        some { standard with timeouts := { Timeouts.standard with flash := 5 }, scanLimit := 4 } ∧
      (∃ c fw, parse sparse.render = .ok c ∧ Board.link c = .ok fw) ∧
      parse doubled.render = .error .malformed := by
  have hnat {n : Nat} : (Value.nat n).Writable := Value.writable_nat n
  have hspare : (Value.array [.null]).Writable :=
    .array fun v hv => List.mem_singleton.1 hv ▸ .null
  have hwritten : sparse.Writable :=
    .field hspare (.field hnat (.field (.field hnat .empty) .empty))
  have hdoubled : doubled.Writable := .field (.field hnat (.field hnat .empty)) .empty
  let given : Fields := ⟨some ⟨none, none, some 5, none⟩, none, some 4, none, none⟩
  have hspelled : given.Spelled sparse := by
    refine ⟨some (.object [field "flash" (.nat 5)]), none, none,
      .some ⟨_, [], rfl, .refl _, by simp⟩, .none, .none,
      ⟨_, [field "spare" (.array [.null])], rfl, ?_, by simp [field]⟩⟩
    exact (List.Perm.cons _ (List.Perm.swap _ _ [])).trans (List.perm_append_singleton _ _).symm
  have hfaulty : Faulty doubled :=
    .stack (.member (by decide) List.mem_cons_self)
      (.repeated ⟨_, rfl, "base", by decide, by simp [Repeated, field]⟩)
  obtain ⟨-, htexts, hparse⟩ := texts_decoded
  have hdecode := (htexts _ _ (Value.parse?_render hwritten)).1 given hspelled
  have hok := (hparse sparse.render _).1.2 ⟨hdecode, by decide⟩
  obtain ⟨fw, hfw⟩ := (hparse sparse.render _).2 hok
  exact ⟨hdecode, ⟨_, fw, hok, hfw⟩,
    ((htexts _ _ (Value.parse?_render hdoubled)).2 hfaulty).2⟩

end FirmwareConfig

end BankedController
