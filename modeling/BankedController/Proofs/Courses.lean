import Mathlib.Data.List.Infix

/-! What a stretch of a run does to one condition is a list of marks. Steps nest like brackets, only
as deep as interrupts nest. A grammar gives the shape of these lists, and everything else is read
off the grammar by induction. -/

namespace BankedController

/-- What can happen to a condition. -/
inductive Mark where
  | raised
  | handed
  | cleared
  deriving DecidableEq

/-- Whether a condition is pending after marks. -/
def pendingAfter (pending : Bool) : List Mark → Bool
  | [] => pending
  | .raised :: rest => pendingAfter true rest
  | .handed :: rest => pendingAfter pending rest
  | .cleared :: rest => pendingAfter false rest

/-- The marks of a stretch of a run in which steps nest at most `depth` deep. A step hands over a
condition that is pending, and clears it after the marks of whatever interrupted the handler. Where
it is possible that steps are `skipped`, a step may also clear the condition without handing it
over. -/
inductive Course (skipped : Prop) : Nat → Bool → List Mark → Prop
  | nil {depth : Nat} {pending : Bool} : Course skipped depth pending []
  | raised {depth : Nat} {pending : Bool} {rest : List Mark} (next : Course skipped depth true rest) :
    Course skipped depth pending (.raised :: rest)
  | served {depth : Nat} {inner rest : List Mark} (handler : Course skipped depth true inner)
      (next : Course skipped (depth + 1) false rest) :
    Course skipped (depth + 1) true (.handed :: (inner ++ .cleared :: rest))
  | skip {depth : Nat} {rest : List Mark} (reason : skipped)
      (next : Course skipped (depth + 1) false rest) :
    Course skipped (depth + 1) true (.cleared :: rest)

/-- The marks hand over as often as they clear, and never clear first. -/
structure Balanced (marks : List Mark) : Prop where
  total : marks.count .handed = marks.count .cleared
  before : ∀ start, start <+: marks → start.count .cleared ≤ start.count .handed

/-- What lies in a list around an element that it does not contain lies on one side of it. -/
theorem infix_of_not_mem {α : Type} {part left right : List α} {a : α} (ha : a ∉ part)
    (h : part <:+: left ++ a :: right) : part <:+: left ∨ part <:+: right := by
  have hempty {start : List α} (hstart : start <+: a :: right) (hmem : a ∉ start) : start = [] := by
    rcases List.prefix_cons_iff.1 hstart with hnil | ⟨t, ht, -⟩
    · exact hnil
    · rw [ht] at hmem
      exact absurd List.mem_cons_self hmem
  rcases List.infix_append_iff.1 h with hleft | hright | ⟨l, r, rfl, hl, hr⟩
  · exact .inl hleft
  · rcases List.infix_cons_iff.1 hright with hstart | hinner
    · rw [hempty hstart ha]
      exact .inl List.nil_infix
    · exact .inr hinner
  · have hnil : r = [] := hempty hr fun hmem => ha (List.mem_append_right l hmem)
    rw [hnil, List.append_nil]
    exact .inl hl.isInfix

/-- What a list begins with ends before a given element, or contains it. -/
theorem prefix_append_cons {α : Type} {start left right : List α} {a : α}
    (h : start <+: left ++ a :: right) :
    start <+: left ∨ ∃ more, start = left ++ a :: more ∧ more <+: right := by
  obtain ⟨rest, hrest⟩ := h
  rcases List.append_eq_append_iff.1 hrest with ⟨tail, htail, -⟩ | ⟨tail, htail, hcons⟩
  · exact .inl ⟨tail, htail.symm⟩
  · rcases List.append_eq_cons_iff.1 hcons.symm with ⟨hnil, -⟩ | ⟨more, hmore, hright⟩
    · rw [htail, hnil, List.append_nil]
      exact .inl (List.prefix_refl left)
    · exact .inr ⟨more, by rw [htail, hmore], ⟨rest, hright.symm⟩⟩

theorem pendingAfter_append (pending : Bool) (first second : List Mark) :
    pendingAfter pending (first ++ second) = pendingAfter (pendingAfter pending first) second := by
  induction first generalizing pending with
  | nil => rfl
  | cons mark rest ih =>
    cases mark with
    | raised => exact ih true
    | handed => exact ih pending
    | cleared => exact ih false

/-- A condition that is pending is pending until it is cleared. -/
theorem cleared_mem_of_pendingAfter {marks : List Mark} (h : pendingAfter true marks = false) :
    .cleared ∈ marks := by
  induction marks with
  | nil => cases h
  | cons mark rest ih =>
    cases mark with
    | raised => exact List.mem_cons_of_mem _ (ih h)
    | handed => exact List.mem_cons_of_mem _ (ih h)
    | cleared => exact List.mem_cons_self

namespace Course

variable {skipped skipped' : Prop} {depth : Nat} {pending : Bool} {marks : List Mark}

theorem deeper (h : Course skipped depth pending marks) :
    Course skipped (depth + 1) pending marks := by
  induction h with
  | nil => exact .nil
  | raised _ ih => exact .raised ih
  | served _ _ ihhandler ihnext => exact .served ihhandler ihnext
  | skip reason _ ih => exact .skip reason ih

theorem weaken (hskipped : skipped → skipped') (h : Course skipped depth pending marks) :
    Course skipped' depth pending marks := by
  induction h with
  | nil => exact .nil
  | raised _ ih => exact .raised ih
  | served _ _ ihhandler ihnext => exact .served ihhandler ihnext
  | skip reason _ ih => exact .skip (hskipped reason) ih

theorem append {more : List Mark} (h : Course skipped depth pending marks)
    (hmore : Course skipped depth (pendingAfter pending marks) more) :
    Course skipped depth pending (marks ++ more) := by
  induction h with
  | nil => exact hmore
  | raised _ ih => exact .raised (ih hmore)
  | @served depth inner rest handler _ _ ihnext =>
    have hrest : pendingAfter true (.handed :: (inner ++ .cleared :: rest)) =
        pendingAfter false rest := by
      change pendingAfter true (inner ++ .cleared :: rest) = _
      rw [pendingAfter_append]
      rfl
    rw [hrest] at hmore
    rw [List.cons_append, List.append_assoc, List.cons_append]
    exact .served handler (ihnext hmore)
  | skip reason _ ih => exact .skip reason (ih hmore)

/-- Between two clears a condition is handed over at most as often as steps nest. -/
theorem count_handed_le (h : Course skipped depth pending marks) {part : List Mark}
    (hpart : part <:+: marks) (hcleared : .cleared ∉ part) : part.count .handed ≤ depth := by
  induction h generalizing part with
  | nil =>
    rw [List.infix_nil.1 hpart]
    exact Nat.zero_le _
  | raised next ih =>
    rcases List.infix_cons_iff.1 hpart with hstart | hinner
    · rcases List.prefix_cons_iff.1 hstart with rfl | ⟨t, rfl, ht⟩
      · exact Nat.zero_le _
      · rw [List.count_cons_of_ne (by decide)]
        exact ih ht.isInfix fun hmem => hcleared (List.mem_cons_of_mem _ hmem)
    · exact ih hinner hcleared
  | @served depth inner rest handler next ihhandler ihnext =>
    rw [← List.cons_append] at hpart
    rcases infix_of_not_mem hcleared hpart with hstep | hrest
    · rcases List.infix_cons_iff.1 hstep with hstart | hinner
      · rcases List.prefix_cons_iff.1 hstart with rfl | ⟨t, rfl, ht⟩
        · exact Nat.zero_le _
        · -- the step's own hand-over, and those of the steps that are nested in it
          rw [List.count_cons_self]
          have hnested := ihhandler ht.isInfix fun hmem => hcleared (List.mem_cons_of_mem _ hmem)
          omega
      · have hnested := ihhandler hinner hcleared
        omega
    · exact ihnext hrest hcleared
  | skip reason next ih =>
    rcases List.infix_cons_iff.1 hpart with hstart | hrest
    · rcases List.prefix_cons_iff.1 hstart with rfl | ⟨t, rfl, -⟩
      · exact Nat.zero_le _
      · exact absurd List.mem_cons_self hcleared
    · exact ih hrest hcleared

/-- If no step is skipped, the clears close what the hand-overs open. -/
theorem balanced (h : Course False depth pending marks) : Balanced marks := by
  induction h with
  | nil =>
    refine ⟨rfl, fun start hstart => ?_⟩
    rw [List.prefix_nil.1 hstart]
    exact Nat.le_refl _
  | raised next ih =>
    refine ⟨?_, fun start hstart => ?_⟩
    · rw [List.count_cons_of_ne (by decide), List.count_cons_of_ne (by decide)]
      exact ih.total
    · rcases List.prefix_cons_iff.1 hstart with rfl | ⟨t, rfl, ht⟩
      · exact Nat.le_refl _
      · rw [List.count_cons_of_ne (by decide), List.count_cons_of_ne (by decide)]
        exact ih.before t ht
  | @served depth inner rest handler next ihhandler ihnext =>
    have hinner := ihhandler.total
    refine ⟨?_, fun start hstart => ?_⟩
    · have hrest := ihnext.total
      rw [List.count_cons_self, List.count_append, List.count_cons_of_ne (by decide),
        List.count_cons_of_ne (by decide), List.count_append, List.count_cons_self]
      omega
    · rcases List.prefix_cons_iff.1 hstart with rfl | ⟨t, rfl, ht⟩
      · exact Nat.le_refl _
      rw [List.count_cons_self, List.count_cons_of_ne (by decide)]
      rcases prefix_append_cons ht with hstep | ⟨more, rfl, hmore⟩
      · have hbefore := ihhandler.before t hstep
        omega
      · have hbefore := ihnext.before more hmore
        rw [List.count_append, List.count_cons_self, List.count_append,
          List.count_cons_of_ne (by decide)]
        omega
  | skip reason => exact reason.elim

/-- A condition is pending where it is handed over. -/
theorem pending_of_handed (h : Course skipped depth pending marks) {first rest : List Mark}
    (hsplit : marks = first ++ .handed :: rest) : pendingAfter pending first = true := by
  induction h generalizing first rest with
  | nil => simp at hsplit
  | raised next ih =>
    rcases List.append_eq_cons_iff.1 hsplit.symm with ⟨-, hcons⟩ | ⟨first, rfl, hrest⟩
    · cases hcons
    · exact ih hrest
  | @served depth inner after handler next ihhandler ihnext =>
    rcases List.append_eq_cons_iff.1 hsplit.symm with ⟨rfl, -⟩ | ⟨first, rfl, hrest⟩
    · rfl
    change pendingAfter true first = true
    rcases List.append_eq_append_iff.1 hrest with ⟨tail, rfl, hcons⟩ | ⟨tail, rfl, hcons⟩
    · rcases List.append_eq_cons_iff.1 hcons.symm with ⟨-, hbad⟩ | ⟨more, rfl, hmore⟩
      · cases hbad
      · rw [pendingAfter_append]
        exact ihnext hmore
    · rcases List.append_eq_cons_iff.1 hcons.symm with ⟨-, hbad⟩ | ⟨more, rfl, -⟩
      · cases hbad
      · exact ihhandler rfl
  | skip reason next ih =>
    rcases List.append_eq_cons_iff.1 hsplit.symm with ⟨-, hcons⟩ | ⟨first, rfl, hrest⟩
    · cases hcons
    · exact ih hrest

/-- If no step is skipped, every clear is the end of a step. -/
theorem handed_of_cleared (h : Course False depth pending marks) {first rest : List Mark}
    (hsplit : marks = first ++ .cleared :: rest) :
    ∃ outer inner, first = outer ++ .handed :: inner ∧ Balanced inner := by
  induction h generalizing first rest with
  | nil => simp at hsplit
  | raised next ih =>
    rcases List.append_eq_cons_iff.1 hsplit.symm with ⟨-, hcons⟩ | ⟨first, rfl, hrest⟩
    · cases hcons
    · obtain ⟨outer, inner, rfl, hinner⟩ := ih hrest
      exact ⟨.raised :: outer, inner, rfl, hinner⟩
  | @served depth own after handler next ihhandler ihnext =>
    rcases List.append_eq_cons_iff.1 hsplit.symm with ⟨-, hcons⟩ | ⟨first, rfl, hrest⟩
    · cases hcons
    rcases List.append_eq_append_iff.1 hrest with ⟨tail, rfl, hcons⟩ | ⟨tail, rfl, hcons⟩
    · rcases List.append_eq_cons_iff.1 hcons.symm with ⟨rfl, -⟩ | ⟨more, rfl, hmore⟩
      · -- the clear is that of this step
        rw [List.append_nil]
        exact ⟨[], own, rfl, handler.balanced⟩
      · obtain ⟨outer, inner, rfl, hinner⟩ := ihnext hmore
        refine ⟨.handed :: (own ++ .cleared :: outer), inner, ?_, hinner⟩
        simp only [List.cons_append, List.append_assoc]
    · rcases List.append_eq_cons_iff.1 hcons.symm with ⟨rfl, -⟩ | ⟨more, rfl, -⟩
      · rw [List.append_nil] at handler
        exact ⟨[], first, rfl, handler.balanced⟩
      · obtain ⟨outer, inner, rfl, hinner⟩ := ihhandler rfl
        exact ⟨.handed :: outer, inner, rfl, hinner⟩
  | skip reason => exact reason.elim

end Course

/-- In marks that never clear first, a clear comes after a hand-over. -/
theorem Balanced.handed_before {marks : List Mark} (h : Balanced marks) {start : List Mark}
    (hstart : start <+: marks) (hcleared : .cleared ∈ start) :
    ∃ first second third, start = first ++ .handed :: (second ++ .cleared :: third) := by
  obtain ⟨before, third, rfl, -⟩ := List.eq_append_cons_of_mem hcleared
  have hthrough : before ++ [.cleared] <+: marks := by
    refine List.IsPrefix.trans ⟨third, ?_⟩ hstart
    rw [List.append_assoc]
    rfl
  have hcount := h.before _ hthrough
  rw [List.count_append, List.count_append, List.count_singleton_self] at hcount
  have hhanded : .handed ∈ before := by
    apply List.count_pos_iff.1
    have hnone : List.count Mark.handed [.cleared] = 0 := rfl
    omega
  obtain ⟨first, second, rfl, -⟩ := List.eq_append_cons_of_mem hhanded
  refine ⟨first, second, third, ?_⟩
  rw [List.append_assoc, List.cons_append]

/-- A step hands over a pending condition and clears it. What lies in between leaves the condition
pending, unless a step that is nested in this one was handed the condition and cleared it. -/
structure Step (pending : Bool) (outer inner : List Mark) : Prop where
  balanced : Balanced inner
  pending : pendingAfter pending outer = true
  raised : ∀ before after, inner = before ++ .raised :: after → pendingAfter true before = false →
    ∃ first second third, before = first ++ .handed :: (second ++ .cleared :: third)

/-- What becomes of a condition if no step is skipped and steps nest at most `depth` deep. Every
clear ends a step. A condition that is raised while no step is serving it is pending to the end, or
is handed over before it is cleared, and then at most as often as steps nest. -/
structure Serviced (depth : Nat) (pending : Bool) (marks : List Mark) : Prop where
  cleared : ∀ first rest, marks = first ++ .cleared :: rest →
    ∃ outer inner, first = outer ++ .handed :: inner ∧ Step pending outer inner
  raised : ∀ first rest, marks = first ++ .raised :: rest →
    first.count .handed = first.count .cleared →
      pendingAfter pending marks = true ∨ ∃ part more, rest = part ++ .cleared :: more ∧
        .cleared ∉ part ∧ 1 ≤ part.count .handed ∧ part.count .handed ≤ depth

theorem Course.serviced {depth : Nat} {pending : Bool} {marks : List Mark}
    (h : Course False depth pending marks) : Serviced depth pending marks := by
  refine ⟨fun first rest hsplit => ?_, fun first rest hsplit hidle => ?_⟩
  · obtain ⟨outer, inner, rfl, hbalanced⟩ := h.handed_of_cleared hsplit
    refine ⟨outer, inner, rfl, hbalanced, ?_, ?_⟩
    · rw [List.append_assoc, List.cons_append] at hsplit
      exact h.pending_of_handed hsplit
    · intro before after hinner hlost
      have hstart : before <+: inner := ⟨.raised :: after, hinner.symm⟩
      exact hbalanced.handed_before hstart (cleared_mem_of_pendingAfter hlost)
  · by_cases hcleared : .cleared ∈ rest
    · right
      obtain ⟨part, more, rfl, hpart⟩ := List.eq_append_cons_of_mem hcleared
      refine ⟨part, more, rfl, hpart, ?_, ?_⟩
      · have hthrough : first ++ .raised :: (part ++ [.cleared]) <+: marks := by
          refine ⟨more, ?_⟩
          rw [hsplit]
          simp only [List.append_assoc, List.cons_append, List.nil_append]
        have hcount := h.balanced.before _ hthrough
        have hnone : List.count Mark.handed [.cleared] = 0 := rfl
        rw [List.count_append, List.count_cons_of_ne (by decide), List.count_append,
          List.count_singleton_self, List.count_append, List.count_cons_of_ne (by decide),
          List.count_append, hnone] at hcount
        omega
      · refine h.count_handed_le ⟨first ++ [.raised], .cleared :: more, ?_⟩ hpart
        rw [hsplit]
        simp only [List.append_assoc, List.cons_append, List.nil_append]
    · left
      rw [hsplit, pendingAfter_append]
      change pendingAfter true rest = true
      by_contra hlost
      exact hcleared (cleared_mem_of_pendingAfter (Bool.eq_false_iff.2 hlost))

end BankedController
