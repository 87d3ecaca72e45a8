import BankedController.Proofs.Linked
import Mathlib.Data.List.Nodup
import Mathlib.Data.List.Perm.Subperm

namespace BankedController

variable {ρ : Type} {image : CodeImage ρ} {seen entries entries' : List DispatchEntry}
  {e : DispatchEntry} {error : DispatchError}

theorem CodeImage.contains_eq_true_iff {addr : CodeAddr} :
    image.contains addr = true ↔ ∃ placed ∈ image.routines, placed.addr = addr := by
  unfold contains get?
  rw [List.find?_isSome]
  simp only [decide_eq_true_eq]

/-- An entry that can be in a table: its stub ends in common code, and its target has a routine. -/
structure DispatchEntry.Admissible (image : CodeImage ρ) (e : DispatchEntry) : Prop where
  stub : e.slot.stub + SlotId.stubSize ≤ 0x8000
  target : ∃ placed ∈ image.routines, placed.addr = e.target

/-- Entries that make a table. -/
structure Consistent (image : CodeImage ρ) (entries : List DispatchEntry) : Prop where
  admissible : ∀ e ∈ entries, e.Admissible image
  distinct : (entries.map DispatchEntry.slot).Nodup
  agreed : ∀ e ∈ entries, ∀ f ∈ entries, e.target = f.target → e.convention = f.convention

/-- What is wrong with an entry that comes after others. Each condition is only looked at if those
before it hold, and a conflict is reported with the earliest entry that has the same target. -/
inductive Flaw (image : CodeImage ρ) (seen : List DispatchEntry) (e : DispatchEntry) :
    DispatchError → Prop
  | stub (h : 0x8000 < e.slot.stub + SlotId.stubSize) :
    Flaw image seen e (.stubOutsideCommon e.slot e.slot.stub)
  | target (hstub : e.slot.stub + SlotId.stubSize ≤ 0x8000)
      (h : ∀ placed ∈ image.routines, placed.addr ≠ e.target) :
    Flaw image seen e (.unresolvableTarget e.slot e.target)
  | conflict {earlier later : List DispatchEntry} {f : DispatchEntry}
      (hadmissible : e.Admissible image) (hseen : seen = earlier ++ f :: later)
      (hearliest : ∀ g ∈ earlier, g.target ≠ e.target) (htarget : f.target = e.target)
      (h : f.convention ≠ e.convention) :
    Flaw image seen e (.ambiguousAlias f.slot e.slot e.target f.convention e.convention)
  | taken {f : DispatchEntry} (hadmissible : e.Admissible image)
      (hagreed : ∀ g ∈ seen, g.target = e.target → g.convention = e.convention) (hf : f ∈ seen)
      (h : f.slot = e.slot) :
    Flaw image seen e (.duplicateSlot e.slot)

/-- A slot that is made of an entry. -/
structure DispatchSlot.MadeOf (slot : DispatchSlot) (e : DispatchEntry) : Prop where
  id : slot.id = e.slot
  stub : slot.stub.toNat = e.slot.stub
  target : slot.target = e.target
  convention : slot.convention = e.convention

/-- A table with one slot for every entry, by ascending number. -/
structure DispatchTable.Lists (table : DispatchTable) (entries : List DispatchEntry) : Prop where
  ascending : table.slots.Pairwise fun a b => a.id.number < b.id.number
  size : table.size = entries.length
  slot : ∀ e ∈ entries, ∃ slot ∈ table.slots, slot.MadeOf e

namespace Consistent

theorem nil : Consistent image [] :=
  ⟨fun _ h => absurd h List.not_mem_nil, .nil, fun _ h => absurd h List.not_mem_nil⟩

/-- Entries make a table with one more entry if that one is admissible, has a number of its own and
does not conflict with any of them. -/
theorem concat_iff : Consistent image (seen ++ [e]) ↔
    Consistent image seen ∧ e.Admissible image ∧
      (∀ f ∈ seen, f.target = e.target → f.convention = e.convention) ∧ ∀ f ∈ seen, f.slot ≠ e.slot := by
  constructor
  · intro h
    have hleft : ∀ f ∈ seen, f ∈ seen ++ [e] := fun f hf => List.mem_append_left _ hf
    have hlast : e ∈ seen ++ [e] := List.mem_append_right _ List.mem_cons_self
    have hnodup := h.distinct
    rw [List.map_append, List.map_singleton, List.nodup_append] at hnodup
    refine ⟨⟨fun f hf => h.admissible f (hleft f hf), hnodup.1, ?_⟩, h.admissible e hlast, ?_, ?_⟩
    · exact fun f hf g hg => h.agreed f (hleft f hf) g (hleft g hg)
    · exact fun f hf => h.agreed f (hleft f hf) e hlast
    · exact fun f hf => hnodup.2.2 f.slot (List.mem_map_of_mem hf) e.slot List.mem_cons_self
  · rintro ⟨h, hadmissible, hagreed, hfree⟩
    have hsplit : ∀ f ∈ seen ++ [e], f ∈ seen ∨ f = e := by
      intro f hf
      simpa using hf
    refine ⟨?_, ?_, ?_⟩
    · intro f hf
      rcases hsplit f hf with hf | rfl
      · exact h.admissible f hf
      · exact hadmissible
    · rw [List.map_append, List.map_singleton, List.nodup_append]
      refine ⟨h.distinct, List.pairwise_singleton _ _, ?_⟩
      rintro id hid other hother
      obtain ⟨f, hf, rfl⟩ := List.mem_map.1 hid
      rw [List.mem_singleton.1 hother]
      exact hfree f hf
    · intro f hf g hg htarget
      rcases hsplit f hf with hf | hlast
      · rcases hsplit g hg with hg | hlast
        · exact h.agreed f hf g hg htarget
        · rw [hlast] at htarget ⊢
          exact hagreed f hf htarget
      · rcases hsplit g hg with hg | hlast'
        · rw [hlast] at htarget ⊢
          exact (hagreed g hg htarget.symm).symm
        · rw [hlast, hlast']

theorem of_append {more : List DispatchEntry} (h : Consistent image (seen ++ more)) :
    Consistent image seen := by
  have hleft : ∀ f ∈ seen, f ∈ seen ++ more := fun f hf => List.mem_append_left _ hf
  refine ⟨fun f hf => h.admissible f (hleft f hf), ?_, ?_⟩
  · exact (List.nodup_append.1 (List.map_append ▸ h.distinct)).1
  · exact fun f hf g hg => h.agreed f (hleft f hf) g (hleft g hg)

/-- In which order the entries come makes no difference. -/
theorem perm (hperm : entries.Perm entries') (h : Consistent image entries) :
    Consistent image entries' := by
  have hmem : ∀ f ∈ entries', f ∈ entries := fun f => hperm.mem_iff.2
  refine ⟨fun f hf => h.admissible f (hmem f hf), ?_, ?_⟩
  · exact (hperm.map DispatchEntry.slot).nodup_iff.1 h.distinct
  · exact fun f hf g hg => h.agreed f (hmem f hf) g (hmem g hg)

end Consistent

namespace DispatchTable

/-- Of an admissible entry, conflicts are looked for before its number is. -/
theorem defect?_of_admissible (h : e.Admissible image) : defect? image.contains seen e =
    match seen.find? fun f => f.target = e.target && f.convention ≠ e.convention with
    | some f => some (.ambiguousAlias f.slot e.slot e.target f.convention e.convention)
    | none => if seen.any fun f => f.slot = e.slot then some (.duplicateSlot e.slot) else none := by
  have hpresent : image.contains e.target = true := CodeImage.contains_eq_true_iff.2 h.target
  have htarget : ¬image.contains e.target = false := by simp [hpresent]
  exact (if_neg (Nat.not_lt.2 h.stub)).trans (if_neg htarget)

theorem agreed_of_find? (h :
    (seen.find? fun f => f.target = e.target && f.convention ≠ e.convention) = none) :
    ∀ f ∈ seen, f.target = e.target → f.convention = e.convention := by
  intro f hf htarget
  simpa [htarget] using List.find?_eq_none.1 h f hf

/-- What conflicts with an entry first is the earliest with its target, if the others agree. -/
theorem earliest_of_find? (hseen : Consistent image seen) {f : DispatchEntry}
    (h : (seen.find? fun f => f.target = e.target && f.convention ≠ e.convention) = some f) :
    f.target = e.target ∧ f.convention ≠ e.convention ∧
      ∃ earlier later, seen = earlier ++ f :: later ∧ ∀ g ∈ earlier, g.target ≠ e.target := by
  obtain ⟨hconflict, earlier, later, rfl, hbefore⟩ := List.find?_eq_some_iff_append.1 h
  simp only [Bool.and_eq_true, decide_eq_true_eq] at hconflict
  refine ⟨hconflict.1, hconflict.2, earlier, later, rfl, fun g hg htarget => ?_⟩
  have hsame : g.convention = f.convention := by
    refine hseen.agreed g (List.mem_append_left _ hg) f ?_ (htarget.trans hconflict.1.symm)
    exact List.mem_append_right _ List.mem_cons_self
  have hnone := hbefore g hg
  simp [htarget, hsame, hconflict.2] at hnone

/-- The defect that is found is the flaw of the entry. -/
theorem flaw_of_defect? (hseen : Consistent image seen)
    (h : defect? image.contains seen e = some error) : Flaw image seen e error := by
  by_cases hstub : 0x8000 < e.slot.stub + SlotId.stubSize
  · rw [defect?, if_pos hstub] at h
    cases h
    exact .stub hstub
  have hfits := Nat.le_of_not_lt hstub
  by_cases htarget : ∃ placed ∈ image.routines, placed.addr = e.target
  · have hadmissible : e.Admissible image := ⟨hfits, htarget⟩
    rw [defect?_of_admissible hadmissible] at h
    split at h
    next f hfind =>
      cases h
      obtain ⟨hsame, hconflict, earlier, later, hsplit, hearliest⟩ := earliest_of_find? hseen hfind
      exact .conflict hadmissible hsplit hearliest hsame hconflict
    next hfind =>
      split at h
      next htaken =>
        cases h
        obtain ⟨f, hf, hslot⟩ := List.any_eq_true.1 htaken
        exact .taken hadmissible (agreed_of_find? hfind) hf (of_decide_eq_true hslot)
      next => cases h
  · have habsent : image.contains e.target = false := by
      rw [Bool.eq_false_iff]
      exact fun hpresent => htarget (CodeImage.contains_eq_true_iff.1 hpresent)
    rw [defect?, if_neg hstub, if_pos habsent] at h
    cases h
    exact .target hfits fun placed hplaced haddr => htarget ⟨placed, hplaced, haddr⟩

/-- A flaw is found. -/
theorem defect?_of_flaw (h : Flaw image seen e error) :
    defect? image.contains seen e = some error := by
  cases h with
  | stub h => rw [defect?, if_pos h]
  | target hstub h =>
    have habsent : image.contains e.target = false := by
      rw [Bool.eq_false_iff]
      intro hpresent
      obtain ⟨placed, hplaced, haddr⟩ := CodeImage.contains_eq_true_iff.1 hpresent
      exact h placed hplaced haddr
    rw [defect?, if_neg (Nat.not_lt.2 hstub), if_pos habsent]
  | @conflict earlier later f hadmissible hseen hearliest htarget h =>
    have hfind : (seen.find? fun f => f.target = e.target && f.convention ≠ e.convention) =
        some f := by
      refine List.find?_eq_some_iff_append.2 ⟨by simp [htarget, h], earlier, later, hseen, ?_⟩
      intro g hg
      simp [hearliest g hg]
    rw [defect?_of_admissible hadmissible, hfind]
  | @taken f hadmissible hagreed hf h =>
    have hfind : (seen.find? fun f => f.target = e.target && f.convention ≠ e.convention) =
        none := by
      refine List.find?_eq_none.2 fun g hg => ?_
      by_cases htarget : g.target = e.target
      · simp [htarget, hagreed g hg htarget]
      · simp [htarget]
    have htaken : (seen.any fun f => f.slot = e.slot) = true :=
      List.any_eq_true.2 ⟨f, hf, decide_eq_true h⟩
    rw [defect?_of_admissible hadmissible, hfind]
    exact if_pos htaken

/-- An entry has no defect exactly if the entries before it make a table with it. -/
theorem defect?_eq_none_iff (hseen : Consistent image seen) :
    defect? image.contains seen e = none ↔ Consistent image (seen ++ [e]) := by
  rw [Consistent.concat_iff]
  constructor
  · intro h
    have none_of {error : DispatchError} (hflaw : Flaw image seen e error) : False := by
      rw [defect?_of_flaw hflaw] at h
      cases h
    have hstub : e.slot.stub + SlotId.stubSize ≤ 0x8000 :=
      Nat.le_of_not_lt fun hover => none_of (.stub hover)
    have htarget : ∃ placed ∈ image.routines, placed.addr = e.target := by
      by_contra habsent
      exact none_of (.target hstub fun placed hplaced haddr => habsent ⟨placed, hplaced, haddr⟩)
    have hadmissible : e.Admissible image := ⟨hstub, htarget⟩
    have hagreed : ∀ f ∈ seen, f.target = e.target → f.convention = e.convention := by
      cases hfind : seen.find? fun f => f.target = e.target && f.convention ≠ e.convention with
      | none => exact agreed_of_find? hfind
      | some f =>
        obtain ⟨hsame, hconflict, earlier, later, hsplit, hearliest⟩ :=
          earliest_of_find? hseen hfind
        exact (none_of (.conflict hadmissible hsplit hearliest hsame hconflict)).elim
    exact ⟨hseen, hadmissible, hagreed, fun f hf hslot => none_of (.taken hadmissible hagreed hf hslot)⟩
  · rintro ⟨-, hadmissible, hagreed, hfree⟩
    cases hdefect : defect? image.contains seen e with
    | none => rfl
    | some error =>
      exfalso
      cases flaw_of_defect? hseen hdefect with
      | stub h => exact Nat.not_lt.2 hadmissible.stub h
      | target _ h =>
        obtain ⟨placed, hplaced, haddr⟩ := hadmissible.target
        exact h placed hplaced haddr
      | @conflict earlier later f _ hsplit _ htarget h =>
        refine h (hagreed f ?_ htarget)
        rw [hsplit]
        exact List.mem_append_right _ List.mem_cons_self
      | @taken f _ _ hf h => exact hfree f hf h

/-- Entries have no first defect exactly if those before them make a table with them. -/
theorem firstDefect?_eq_none_iff (hseen : Consistent image seen) :
    firstDefect? image.contains seen entries = none ↔ Consistent image (seen ++ entries) := by
  induction entries generalizing seen with
  | nil =>
    rw [List.append_nil]
    exact iff_of_true rfl hseen
  | cons e rest ih =>
    have hsplit : seen ++ e :: rest = (seen ++ [e]) ++ rest := by simp
    rw [firstDefect?, hsplit]
    cases hdefect : defect? image.contains seen e with
    | none => exact ih ((defect?_eq_none_iff hseen).1 hdefect)
    | some error =>
      refine iff_of_false (by simp) fun h => ?_
      have hnone := (defect?_eq_none_iff (e := e) hseen).2 h.of_append
      rw [hdefect] at hnone
      cases hnone

/-- The first defect is the flaw of the first entry that does not go with those before it. -/
theorem firstDefect?_eq_some_iff (hseen : Consistent image seen) :
    firstDefect? image.contains seen entries = some error ↔
      ∃ before e after, entries = before ++ e :: after ∧ Consistent image (seen ++ before) ∧
        Flaw image (seen ++ before) e error := by
  induction entries generalizing seen with
  | nil => exact iff_of_false (by simp [firstDefect?]) (by simp)
  | cons e rest ih =>
    rw [firstDefect?]
    cases hdefect : defect? image.contains seen e with
    | none =>
      have hnext := (defect?_eq_none_iff hseen).1 hdefect
      rw [ih hnext]
      constructor
      · rintro ⟨before, f, after, rfl, hbefore, hflaw⟩
        exact ⟨e :: before, f, after, rfl, by simpa using hbefore, by simpa using hflaw⟩
      · rintro ⟨before, f, after, hsplit, hbefore, hflaw⟩
        cases before with
        | nil =>
          obtain ⟨rfl, rfl⟩ := List.cons.inj hsplit
          rw [List.append_nil] at hflaw
          rw [defect?_of_flaw hflaw] at hdefect
          cases hdefect
        | cons first before =>
          obtain ⟨rfl, rfl⟩ := List.cons.inj hsplit
          exact ⟨before, f, after, rfl, by simpa using hbefore, by simpa using hflaw⟩
    | some found =>
      constructor
      · rintro ⟨⟩
        refine ⟨[], e, rest, rfl, by simpa using hseen, ?_⟩
        simpa using flaw_of_defect? hseen hdefect
      · rintro ⟨before, f, after, hsplit, hbefore, hflaw⟩
        cases before with
        | nil =>
          obtain ⟨rfl, rfl⟩ := List.cons.inj hsplit
          rw [List.append_nil] at hflaw
          rw [← hdefect, defect?_of_flaw hflaw]
        | cons first before =>
          obtain ⟨rfl, rfl⟩ := List.cons.inj hsplit
          have hsplit : seen ++ e :: before = (seen ++ [e]) ++ before := by simp
          rw [hsplit] at hbefore
          rw [(defect?_eq_none_iff hseen).2 hbefore.of_append] at hdefect
          cases hdefect

section Slots

variable {slot : DispatchSlot} {slots : List DispatchSlot} {table table' : DispatchTable}

theorem perm_insert : (insert slot slots).Perm (slot :: slots) := by
  induction slots with
  | nil => exact .refl _
  | cons s rest ih =>
    unfold insert
    split
    · exact .refl _
    · exact (ih.cons s).trans (.swap slot s rest)

theorem perm_foldr_insert : (slots.foldr insert []).Perm slots := by
  induction slots with
  | nil => exact .refl _
  | cons slot rest ih => exact perm_insert.trans (ih.cons slot)

/-- A slot with a number of its own is put where its number belongs. -/
theorem ascending_insert (hnew : ∀ s ∈ slots, s.id ≠ slot.id)
    (h : slots.Pairwise fun a b => a.id.number < b.id.number) :
    (insert slot slots).Pairwise fun a b => a.id.number < b.id.number := by
  induction slots with
  | nil => exact List.pairwise_singleton _ _
  | cons s rest ih =>
    obtain ⟨hfirst, hrest⟩ := List.pairwise_cons.1 h
    unfold insert
    split
    next hless =>
      refine List.pairwise_cons.2 ⟨fun t ht => ?_, h⟩
      rcases List.mem_cons.1 ht with rfl | ht
      · exact hless
      · exact UInt16.lt_trans hless (hfirst t ht)
    next hnot =>
      have hless : s.id.number < slot.id.number := by
        refine UInt16.lt_of_le_of_ne (UInt16.not_lt.1 hnot) fun hsame => ?_
        exact hnew s List.mem_cons_self (congrArg SlotId.mk hsame)
      refine List.pairwise_cons.2 ⟨fun t ht => ?_, ?_⟩
      · rcases mem_insert.1 ht with rfl | ht
        · exact hless
        · exact hfirst t ht
      · exact ih (fun t ht => hnew t (List.mem_cons_of_mem _ ht)) hrest

theorem ascending_foldr_insert (h : (slots.map DispatchSlot.id).Nodup) :
    (slots.foldr insert []).Pairwise fun a b => a.id.number < b.id.number := by
  induction slots with
  | nil => exact .nil
  | cons slot rest ih =>
    obtain ⟨hnew, hrest⟩ := List.nodup_cons.1 h
    refine ascending_insert (fun s hs hsame => ?_) (ih hrest)
    exact hnew (hsame ▸ List.mem_map_of_mem (mem_foldr_insert.1 hs))

/-- An admissible entry is made into a slot, and the slot says what the entry says. -/
theorem madeOf_iff (h : e.Admissible image) : slot.MadeOf e ↔ slot = slotOf e := by
  have hsize : SlotId.stubSize = 3 := rfl
  have hroom := h.stub
  have hstub : (UInt16.ofNat e.slot.stub).toNat = e.slot.stub := by
    rw [UInt16.toNat_ofNat']
    exact Nat.mod_eq_of_lt (by omega)
  constructor
  · rintro ⟨hid, hstub', htarget, hconvention⟩
    obtain ⟨id, stub, target, convention⟩ := slot
    obtain rfl : stub = UInt16.ofNat e.slot.stub := UInt16.toNat_inj.1 (hstub'.trans hstub.symm)
    cases hid
    cases htarget
    cases hconvention
    rfl
  · rintro rfl
    exact ⟨rfl, hstub, rfl, rfl⟩

theorem lists_of_consistent (h : Consistent image entries) :
    Lists ⟨(entries.map slotOf).foldr insert []⟩ entries := by
  refine ⟨ascending_foldr_insert ?_, ?_, fun e he => ⟨slotOf e, ?_, ?_⟩⟩
  · rw [List.map_map]
    exact h.distinct
  · exact perm_foldr_insert.length_eq.trans (List.length_map _)
  · exact mem_foldr_insert.2 (List.mem_map_of_mem he)
  · exact (madeOf_iff (h.admissible e he)).2 rfl

/-- A table that lists entries has the slots that are made of them, and no others. -/
theorem Lists.perm (hlists : table.Lists entries) (h : Consistent image entries) :
    (entries.map slotOf).Perm table.slots := by
  have hids : ((entries.map slotOf).map DispatchSlot.id).Nodup := by
    rw [List.map_map]
    exact h.distinct
  have hdistinct : (entries.map slotOf).Nodup := List.Nodup.of_map _ hids
  have hall : entries.map slotOf ⊆ table.slots := by
    intro slot hslot
    obtain ⟨e, he, rfl⟩ := List.mem_map.1 hslot
    obtain ⟨slot, hslot, hmade⟩ := hlists.slot e he
    rwa [← (madeOf_iff (h.admissible e he)).1 hmade]
  refine (hdistinct.subperm hall).perm_of_length_le ?_
  exact Nat.le_of_eq (hlists.size.trans (List.length_map _).symm)

theorem Lists.unique (hlists : table.Lists entries) (hlists' : table'.Lists entries)
    (h : Consistent image entries) : table = table' := by
  obtain ⟨slots⟩ := table
  obtain ⟨slots'⟩ := table'
  have hperm : slots.Perm slots' := (hlists.perm h).symm.trans (hlists'.perm h)
  have hslots : slots = slots' := by
    refine hperm.eq_of_pairwise ?_ hlists.ascending hlists'.ascending
    intro a b _ _ hless hgreater
    exact absurd (UInt16.lt_trans hless hgreater) (UInt16.lt_irrefl _)
  rw [hslots]

theorem Lists.of_perm (hperm : entries.Perm entries') (h : table.Lists entries) :
    table.Lists entries' :=
  ⟨h.ascending, h.size.trans hperm.length_eq, fun e he => h.slot e (hperm.mem_iff.2 he)⟩

end Slots

theorem build_eq_ok_iff {table : DispatchTable} :
    build entries image.contains = .ok table ↔ Consistent image entries ∧ table.Lists entries := by
  unfold build
  cases hdefect : firstDefect? image.contains [] entries with
  | none =>
    have h : Consistent image entries := (firstDefect?_eq_none_iff .nil).1 hdefect
    constructor
    · rintro ⟨⟩
      exact ⟨h, lists_of_consistent h⟩
    · rintro ⟨-, hlists⟩
      exact congrArg Except.ok ((lists_of_consistent h).unique hlists h)
  | some error =>
    refine iff_of_false (by simp) fun h => ?_
    have hnone : firstDefect? image.contains [] entries = none :=
      (firstDefect?_eq_none_iff .nil).2 h.1
    rw [hdefect] at hnone
    cases hnone

theorem build_eq_error_iff : build entries image.contains = .error error ↔
    ∃ before e after, entries = before ++ e :: after ∧ Consistent image before ∧
      Flaw image before e error := by
  have hflaw : firstDefect? image.contains [] entries = some error ↔
      ∃ before e after, entries = before ++ e :: after ∧ Consistent image ([] ++ before) ∧
        Flaw image ([] ++ before) e error := firstDefect?_eq_some_iff .nil
  simp only [List.nil_append] at hflaw
  rw [← hflaw, build]
  cases firstDefect? image.contains [] entries with
  | none => simp
  | some found => simp

/-- Entries make a table exactly if they are consistent, and the table then lists them and nothing
else, in whatever order they came; otherwise the report is the flaw of the first entry that does not
go with the entries before it. -/
theorem build_decides (image : CodeImage ρ) (entries : List DispatchEntry) :
    ((∃ table, build entries image.contains = .ok table) ↔ Consistent image entries) ∧
      (∀ table, build entries image.contains = .ok table ↔
        Consistent image entries ∧ table.Lists entries) ∧
      (∀ entries' table, entries.Perm entries' →
        (build entries image.contains = .ok table ↔ build entries' image.contains = .ok table)) ∧
      ∀ error, build entries image.contains = .error error ↔
        ∃ before e after, entries = before ++ e :: after ∧ Consistent image before ∧
          Flaw image before e error := by
  refine ⟨⟨?_, ?_⟩, fun table => build_eq_ok_iff, ?_, fun error => build_eq_error_iff⟩
  · rintro ⟨table, htable⟩
    exact (build_eq_ok_iff.1 htable).1
  · intro h
    exact ⟨_, build_eq_ok_iff.2 ⟨h, lists_of_consistent h⟩⟩
  · intro entries' table hperm
    rw [build_eq_ok_iff, build_eq_ok_iff]
    constructor
    · exact fun h => ⟨h.1.perm hperm, h.2.of_perm hperm⟩
    · exact fun h => ⟨h.1.perm hperm.symm, h.2.of_perm hperm.symm⟩

end DispatchTable

end BankedController
