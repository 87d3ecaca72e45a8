import BankedController.Bus.Xdata

namespace BankedController

variable {κ : Type}

namespace MappedRange

/-- The ranges stand by ascending start, each ending before the next begins, and every one takes
some addresses of the bus. -/
structure Layout (ranges : List (MappedRange κ)) : Prop where
  within : ∀ r ∈ ranges, r.size ≠ 0 ∧ r.stop ≤ 0x10000
  ascending : ranges.Pairwise fun r s => r.stop ≤ s.start.toNat

/-- One of the two ranges ends before the other begins. -/
def Apart (r s : MappedRange κ) : Prop := r.stop ≤ s.start.toNat ∨ s.stop ≤ r.start.toNat

theorem start_lt_stop {r : MappedRange κ} (h : r.size ≠ 0) : r.start.toNat < r.stop := by
  have hsize : r.size.toNat ≠ 0 := fun hzero => h (UInt16.toNat_inj.1 hzero)
  unfold stop
  omega

theorem contains_start {r : MappedRange κ} (h : r.size ≠ 0) : r.contains r.start := by
  have hlt := start_lt_stop h
  rw [contains_iff]
  exact ⟨Nat.le_refl _, hlt⟩

/-- Ranges that take some addresses are apart exactly if they have no address in common. -/
theorem apart_iff {r s : MappedRange κ} (hr : r.size ≠ 0) (hs : s.size ≠ 0) :
    r.Apart s ↔ ∀ addr, r.contains addr → ¬s.contains addr := by
  have hrlt := start_lt_stop hr
  have hslt := start_lt_stop hs
  constructor
  · intro hapart addr hin hin'
    rw [contains_iff] at hin hin'
    unfold Apart stop at hapart
    omega
  · intro hdisjoint
    have hr' : ¬s.contains r.start := hdisjoint r.start (contains_start hr)
    have hs' : ¬r.contains s.start := fun hin => hdisjoint s.start hin (contains_start hs)
    rw [contains_iff] at hr' hs'
    unfold Apart stop at *
    omega

namespace Layout

variable {r s : MappedRange κ} {ranges : List (MappedRange κ)} {addr : UInt16}

theorem nil : Layout ([] : List (MappedRange κ)) := ⟨by simp, .nil⟩

theorem tail (h : Layout (r :: ranges)) : Layout ranges :=
  ⟨fun s hs => h.within s (List.mem_cons_of_mem _ hs), h.ascending.tail⟩

theorem head (h : Layout (r :: ranges)) : ∀ s ∈ ranges, r.stop ≤ s.start.toNat :=
  (List.pairwise_cons.1 h.ascending).1

/-- Leaving ranges out leaves the layout of the others. -/
theorem filter (h : Layout ranges) (p : MappedRange κ → Bool) : Layout (ranges.filter p) :=
  ⟨fun s hs => h.within s ((List.mem_filter.1 hs).1), h.ascending.filter p⟩

theorem start_lt (h : Layout (r :: ranges)) (hs : s ∈ ranges) : r.start.toNat < s.start.toNat :=
  Nat.lt_of_lt_of_le (start_lt_stop (h.within r List.mem_cons_self).1) (h.head s hs)

/-- An address lies in one range at most. -/
theorem eq_of_contains (h : Layout ranges) (hr : r ∈ ranges) (hs : s ∈ ranges)
    (hin : r.contains addr) (hin' : s.contains addr) : r = s := by
  rw [contains_iff] at hin hin'
  induction ranges with
  | nil => cases hr
  | cons first rest ih =>
    rcases List.mem_cons.1 hr with rfl | hr' <;> rcases List.mem_cons.1 hs with rfl | hs'
    · rfl
    · have := h.head s hs'
      unfold stop at this
      omega
    · have := h.head r hr'
      unfold stop at this
      omega
    · exact ih h.tail hr' hs'

/-- The range that is found for an address is the one that contains it. -/
theorem find?_eq_some_iff (h : Layout ranges) :
    ranges.find? (fun r => r.contains addr) = some r ↔ r ∈ ranges ∧ r.contains addr := by
  have hfinds : ∀ s, ranges.find? (fun r => r.contains addr) = some s →
      s ∈ ranges ∧ s.contains addr := by
    intro s hfound
    exact ⟨List.mem_of_find?_eq_some hfound,
      List.find?_some (p := fun r : MappedRange κ => r.contains addr) hfound⟩
  constructor
  · exact hfinds r
  · rintro ⟨hr, hin⟩
    cases hfound : ranges.find? (fun r => r.contains addr) with
    | none => exact absurd hin (List.find?_eq_none.1 hfound r hr)
    | some s =>
      obtain ⟨hs, hin'⟩ := hfinds s hfound
      rw [h.eq_of_contains hs hr hin' hin]

theorem ordered (h : Layout ranges) : ranges.Pairwise fun r s => r.start < s.start := by
  induction ranges with
  | nil => exact .nil
  | cons r rest ih =>
    exact List.pairwise_cons.2 ⟨fun s hs => UInt16.lt_iff_toNat_lt.2 (h.start_lt hs), ih h.tail⟩

end Layout

/-- The last range that does not start above an address. -/
def lastBelow (addr : UInt16) (ranges : List (MappedRange κ)) : Option (MappedRange κ) :=
  (ranges.takeWhile fun r => r.start ≤ addr).getLast?

/-- Ranges by ascending start are determined by which they are. -/
theorem eq_of_ordered {ranges others : List (MappedRange κ)}
    (h : ranges.Pairwise fun r s => r.start < s.start)
    (h' : others.Pairwise fun r s => r.start < s.start) (hmem : ∀ r, r ∈ ranges ↔ r ∈ others) :
    ranges = others := by
  -- with ascending starts no range stands twice, so that the one list is an order of the other
  have distinct {l : List (MappedRange κ)} (hl : l.Pairwise fun r s => r.start < s.start) :
      l.Nodup := by
    refine hl.imp ?_
    rintro r _ hlt rfl
    exact absurd hlt (UInt16.lt_irrefl _)
  have hperm := (List.perm_ext_iff_of_nodup (distinct h) (distinct h')).2 hmem
  refine hperm.eq_of_pairwise ?_ h h'
  intro r s _ _ hlt hgt
  exact absurd (UInt16.lt_trans hlt hgt) (UInt16.lt_irrefl _)

section Insertion

variable {r : MappedRange κ} {previous : Option (MappedRange κ)}
  {ranges out front back : List (MappedRange κ)}

theorem filter_eq_none (h : (previous.filter fun p => r.start.toNat < p.stop) = none) :
    ∀ p ∈ previous, p.stop ≤ r.start.toNat := by
  intro p hp
  have hnot := Option.filter_eq_none_iff.1 h p hp
  simpa using hnot

theorem filter_eq_some {p : MappedRange κ}
    (h : (previous.filter fun p => r.start.toNat < p.stop) = some p) :
    p ∈ previous ∧ r.start.toNat < p.stop := by
  obtain ⟨hp, hlt⟩ := Option.filter_eq_some_iff.1 h
  exact ⟨hp, of_decide_eq_true hlt⟩

/-- A range that starts below another and ends past its start is not apart from it. -/
theorem not_apart_of_reaches {p : MappedRange κ} (hr : r.size ≠ 0) (hstart : p.start < r.start)
    (hlt : r.start.toNat < p.stop) : ¬r.Apart p := by
  have hrlt := start_lt_stop hr
  rw [UInt16.lt_iff_toNat_lt] at hstart
  unfold Apart
  omega

/-- Inserting succeeds only where all ranges in front end before the new one begins, and all ranges
behind begin after it ends. -/
theorem insert_eq_ok (h : insert r previous ranges = .ok out)
    (hlayout : Layout (previous.toList ++ ranges)) :
    ∃ front back, ranges = front ++ back ∧ out = front ++ r :: back ∧
      (∀ s ∈ previous.toList ++ front, s.stop ≤ r.start.toNat) ∧
      ∀ s ∈ back, r.stop ≤ s.start.toNat := by
  induction ranges generalizing previous out with
  | nil =>
    unfold insert at h
    split at h
    · cases h
    next hnone =>
      cases h
      refine ⟨[], [], rfl, rfl, ?_, by simp⟩
      simpa using filter_eq_none hnone
  | cons next rest ih =>
    have hfrom : Layout (next :: rest) := by
      cases previous with
      | none => exact hlayout
      | some p => exact hlayout.tail
    have hnext := start_lt_stop (hfrom.within next List.mem_cons_self).1
    unfold insert at h
    split at h
    next hbelow =>
      split at h
      next rest' hinsert =>
        cases h
        obtain ⟨front, back, rfl, rfl, hfront, hback⟩ := ih hinsert hfrom
        refine ⟨next :: front, back, rfl, rfl, ?_, hback⟩
        intro s hs
        rcases List.mem_append.1 hs with hp | hs
        · -- the range in front of the next ends before the next begins
          obtain rfl := Option.mem_toList.1 hp
          have hle := hlayout.head next List.mem_cons_self
          have hend := hfront next List.mem_cons_self
          omega
        · exact hfront s hs
      next => cases h
    next =>
      split at h
      · cases h
      next hnone =>
        split at h
        · cases h
        next hbehind =>
          cases h
          refine ⟨[], next :: rest, rfl, rfl, ?_, ?_⟩
          · simpa using filter_eq_none hnone
          · intro s hs
            rcases List.mem_cons.1 hs with rfl | hs
            · exact Nat.le_of_not_lt hbehind
            · have hle := hfrom.head s hs
              omega

/-- Where inserting fails, the new range is not apart from some range. -/
theorem insert_eq_error {e : RangeError} (h : insert r previous ranges = .error e)
    (hr : r.size ≠ 0) (hlayout : Layout (previous.toList ++ ranges))
    (hprevious : ∀ p ∈ previous, p.start < r.start) :
    ∃ s ∈ previous.toList ++ ranges, ¬r.Apart s := by
  have hrlt := start_lt_stop hr
  -- by induction, with the range that was passed last in front of those to come
  induction ranges generalizing previous with
  | nil =>
    unfold insert at h
    split at h
    next p hsome =>
      obtain ⟨hp, hlt⟩ := filter_eq_some hsome
      exact ⟨p, List.mem_append_left _ (Option.mem_toList.2 hp),
        not_apart_of_reaches hr (hprevious p hp) hlt⟩
    next => cases h
  | cons next rest ih =>
    have hfrom : Layout (next :: rest) := by
      cases previous with
      | none => exact hlayout
      | some p => exact hlayout.tail
    unfold insert at h
    split at h
    next hbelow =>
      split at h
      · cases h
      next e' hinsert =>
        cases h
        have hbefore : ∀ p ∈ some next, p.start < r.start := by
          rintro p ⟨⟩
          exact hbelow
        obtain ⟨s, hs, hnot⟩ := ih hinsert hfrom hbefore
        exact ⟨s, List.mem_append_right _ hs, hnot⟩
    next hnot =>
      split at h
      next p hsome =>
        obtain ⟨hp, hlt⟩ := filter_eq_some hsome
        exact ⟨p, List.mem_append_left _ (Option.mem_toList.2 hp),
          not_apart_of_reaches hr (hprevious p hp) hlt⟩
      next =>
        split at h
        next hover =>
          have hnext := start_lt_stop (hfrom.within next List.mem_cons_self).1
          rw [UInt16.lt_iff_toNat_lt] at hnot
          refine ⟨next, List.mem_append_right _ List.mem_cons_self, ?_⟩
          unfold Apart
          omega
        next => cases h

theorem layout_insert (hlayout : Layout (front ++ back)) (hr : r.size ≠ 0 ∧ r.stop ≤ 0x10000)
    (hfront : ∀ s ∈ front, s.stop ≤ r.start.toNat) (hback : ∀ s ∈ back, r.stop ≤ s.start.toNat) :
    Layout (front ++ r :: back) := by
  obtain ⟨hbefore, hafter, hacross⟩ := List.pairwise_append.1 hlayout.ascending
  constructor
  · intro s hs
    rcases List.mem_append.1 hs with hs | hs
    · exact hlayout.within s (List.mem_append_left _ hs)
    rcases List.mem_cons.1 hs with rfl | hs
    · exact hr
    · exact hlayout.within s (List.mem_append_right _ hs)
  · refine List.pairwise_append.2 ⟨hbefore, List.pairwise_cons.2 ⟨hback, hafter⟩, ?_⟩
    intro s hs t ht
    rcases List.mem_cons.1 ht with rfl | ht
    · exact hfront s hs
    · exact hacross s hs t ht

/-- Adding succeeds only for a range that takes some addresses of the bus and is apart from all
others, and then the ranges are those from before and the new one. -/
theorem add_eq_ok (h : r.add ranges = .ok out) (hlayout : Layout ranges) :
    r.size ≠ 0 ∧ r.stop ≤ 0x10000 ∧ (∀ s ∈ ranges, r.Apart s) ∧ Layout out ∧
      ∀ s, s ∈ out ↔ s = r ∨ s ∈ ranges := by
  unfold add at h
  split at h
  · cases h
  next hsize =>
    split at h
    · cases h
    next hstop =>
      obtain ⟨front, back, rfl, rfl, hfront, hback⟩ := insert_eq_ok h hlayout
      have hstop : r.stop ≤ 0x10000 := Nat.le_of_not_lt hstop
      refine ⟨hsize, hstop, ?_, layout_insert hlayout ⟨hsize, hstop⟩ hfront hback, ?_⟩
      · intro s hs
        rcases List.mem_append.1 hs with hs | hs
        · exact .inr (hfront s hs)
        · exact .inl (hback s hs)
      · intro s
        simp only [List.mem_append, List.mem_cons]
        exact or_left_comm

theorem add_eq_error {e : RangeError} (h : r.add ranges = .error e) (hlayout : Layout ranges) :
    r.size = 0 ∨ 0x10000 < r.stop ∨ ∃ s ∈ ranges, ¬r.Apart s := by
  unfold add at h
  split at h
  next hsize => exact .inl hsize
  next hsize =>
    split at h
    next hstop => exact .inr (.inl hstop)
    next => exact .inr (.inr (insert_eq_error h hsize hlayout (by simp)))

end Insertion

theorem lastBelow_cons (addr : UInt16) (r : MappedRange κ) (rest : List (MappedRange κ)) :
    lastBelow addr (r :: rest) =
      if r.start ≤ addr then some ((lastBelow addr rest).getD r) else none := by
  unfold lastBelow
  by_cases h : r.start ≤ addr
  · rw [List.takeWhile_cons_of_pos (by simpa using h), List.getLast?_cons, if_pos h]
  · rw [List.takeWhile_cons_of_neg (by simpa using h), List.getLast?_nil, if_neg h]

/-- Of the ranges that do not start above an address, only the last can contain it. -/
theorem filter_lastBelow {ranges : List (MappedRange κ)} (h : Layout ranges) (addr : UInt16) :
    (lastBelow addr ranges).filter (fun r => r.contains addr) =
      ranges.find? fun r => r.contains addr := by
  induction ranges with
  | nil => rfl
  | cons r rest ih =>
    have hrest := ih h.tail
    rw [lastBelow_cons]
    by_cases hstart : r.start ≤ addr
    · rw [if_pos hstart]
      cases hlast : lastBelow addr rest with
      | none =>
        rw [hlast] at hrest
        rw [Option.getD_none, List.find?_cons, ← hrest]
        cases hin : r.contains addr <;> simp [Option.filter, hin]
      | some last =>
        have hmem : last ∈ rest.takeWhile fun r => r.start ≤ addr := List.mem_of_getLast? hlast
        have hnot : r.contains addr = false := by
          have hle : last.start ≤ addr := by
            simpa using List.all_eq_true.1 List.all_takeWhile last hmem
          have hend := h.head last (List.takeWhile_subset _ hmem)
          rw [UInt16.le_iff_toNat_le] at hle
          rw [Bool.eq_false_iff, ne_eq, contains_iff]
          unfold stop at hend
          omega
        rw [Option.getD_some, List.find?_cons, hnot, ← hrest, hlast]
    · -- the first range starts above the address, and so do all behind it
      rw [if_neg hstart, Option.filter_none]
      symm
      rw [List.find?_eq_none]
      intro s hs
      have hle : r.start.toNat ≤ s.start.toNat := by
        rcases List.mem_cons.1 hs with rfl | hs
        · exact Nat.le_refl _
        · exact Nat.le_of_lt (h.start_lt hs)
      rw [UInt16.le_iff_toNat_le] at hstart
      rw [contains_iff]
      omega

/-- The first range that does not start below an address. -/
def firstFrom (start : UInt16) (ranges : List (MappedRange κ)) : Option (MappedRange κ) :=
  ranges.find? fun r => start ≤ r.start

/-- Of the ranges that do not start below an address, only the first can start there. -/
theorem filter_firstFrom {ranges : List (MappedRange κ)} (h : Layout ranges)
    (start size : UInt16) :
    (firstFrom start ranges).filter (fun r => r.start = start && r.size = size) =
      ranges.find? fun r => r.start = start && r.size = size := by
  unfold firstFrom
  induction ranges with
  | nil => rfl
  | cons r rest ih =>
    rw [List.find?_cons, List.find?_cons]
    by_cases hfrom : start ≤ r.start
    · rw [decide_eq_true hfrom]
      cases hsame : r.start = start && r.size = size with
      | true => simp [Option.filter, hsame]
      | false =>
        have hrest : rest.find? (fun r => r.start = start && r.size = size) = none := by
          rw [List.find?_eq_none]
          intro s hs hmatch
          have hlt := h.start_lt hs
          have hstart : s.start = start := by
            have hboth : s.start = start ∧ s.size = size := by simpa using hmatch
            exact hboth.1
          rw [hstart] at hlt
          rw [UInt16.le_iff_toNat_le] at hfrom
          omega
        simp [Option.filter, hsame, hrest]
    · -- a range that starts below is not the one that is looked for
      have hother : (r.start = start && r.size = size) = false := by
        rw [Bool.and_eq_false_imp]
        intro hstart
        rw [of_decide_eq_true hstart] at hfrom
        exact absurd (UInt16.le_refl _) hfrom
      rw [decide_eq_false hfrom, hother]
      exact ih h.tail

end MappedRange

end BankedController
