import BankedController.Bench.Part
import BankedController.Proofs.Nesting

/-! Lines are put into service only by vectoring, so they stand in service in the order of the
levels at which they were taken, whatever becomes of the priorities afterwards. Comparing with the
innermost line alone decides what can be taken. -/

namespace BankedController

/-- The levels of the lines in service fall strictly from the innermost line outwards, which
therefore holds the highest, and no line is in service twice. -/
structure Ranked (list : List (IrqLine × Level)) : Prop where
  levels : list.Pairwise fun inner outer => outer.2.rank < inner.2.rank
  lines : (list.map Prod.fst).Nodup
  innermost : ∀ top ∈ list.head?, ∀ entry ∈ list, entry.2.rank ≤ top.2.rank
  length : list.length ≤ 2

namespace InService

variable {list : List (IrqLine × Level)}

theorem ranked (h : InService list) : Ranked list := by
  refine ⟨?_, ?_, ?_, h.length_le⟩
  · cases h with
    | none => exact .nil
    | one line level => exact List.pairwise_singleton ..
    | two distinct => exact List.pairwise_pair.2 Nat.zero_lt_one
  · cases h with
    | none => exact .nil
    | one line level => exact List.pairwise_singleton ..
    | two distinct => simpa using distinct
  · intro top htop entry hentry
    cases h with
    | none => cases hentry
    | one line level =>
      obtain rfl : top = (line, level) := by simpa using htop.symm
      obtain rfl := List.mem_singleton.1 hentry
      exact Nat.le_refl _
    | @two inner outer distinct =>
      obtain rfl : top = (inner, .high) := by simpa using htop.symm
      cases entry.2 <;> simp [Level.rank]

/-- Lines are completed in any order. -/
theorem erased (h : InService list) (line : IrqLine) :
    InService (list.eraseP fun entry => entry.1 = line) := by
  cases h with
  | none => exact .none
  | one other level =>
    by_cases hline : other = line
    · rw [List.eraseP_cons_of_pos (by simpa using hline)]
      exact .none
    · rw [List.eraseP_cons_of_neg (by simpa using hline)]
      exact .one other level
  | @two inner outer distinct =>
    by_cases hinner : inner = line
    · rw [List.eraseP_cons_of_pos (by simpa using hinner)]
      exact .one outer .low
    · rw [List.eraseP_cons_of_neg (by simpa using hinner)]
      by_cases houter : outer = line
      · rw [List.eraseP_cons_of_pos (by simpa using houter)]
        exact .one inner .high
      · rw [List.eraseP_cons_of_neg (by simpa using houter)]
        exact .two distinct

end InService

namespace InterruptController

variable {c : InterruptController} {line : IrqLine}

/-- A line that may be taken: it is pending and enabled, it is not in service, and its level is
above that of every line in service. -/
structure Eligible (c : InterruptController) (line : IrqLine) : Prop where
  global : c.globallyEnabled = true
  pending : c.pending.get line = true
  enabled : c.lineEnabled line = true
  idle : ∀ entry ∈ c.inService, entry.1 ≠ line
  above : ∀ entry ∈ c.inService, entry.2.rank < (c.level line).rank

/-- A line goes before another: its level is higher, or the levels are equal and it is polled
first. -/
def Precedes (c : InterruptController) (line other : IrqLine) : Prop :=
  (c.level other).rank < (c.level line).rank ∨ c.level other = c.level line ∧ line = .endpoint

/-- The level of the innermost line in service stands for the levels of all. -/
theorem outranks_iff (h : Ranked c.inService) (level : Level) :
    c.outranks level = true ↔ ∀ entry ∈ c.inService, entry.2.rank < level.rank := by
  have hinnermost := h.innermost
  unfold outranks
  cases hlist : c.inService with
  | nil => simp
  | cons top rest =>
    rw [hlist] at hinnermost
    have hall := hinnermost top rfl
    constructor
    · intro htop entry hentry
      have htop : top.2.rank < level.rank := by simpa using htop
      exact Nat.lt_of_le_of_lt (hall entry hentry) htop
    · intro hevery
      have htop := hevery top List.mem_cons_self
      simpa using htop

theorem deliverable_iff (h : Ranked c.inService) :
    c.deliverable line = true ↔ c.Eligible line := by
  have hidle : (!c.isInService line) = true ↔ ∀ entry ∈ c.inService, entry.1 ≠ line := by
    simp [isInService]
  unfold deliverable
  rw [Bool.and_eq_true, Bool.and_eq_true, Bool.and_eq_true, Bool.and_eq_true, hidle,
    outranks_iff h]
  constructor
  · rintro ⟨⟨⟨⟨hglobal, hpending⟩, henabled⟩, hfree⟩, habove⟩
    exact ⟨hglobal, hpending, henabled, hfree, habove⟩
  · intro hline
    exact ⟨⟨⟨⟨hline.global, hline.pending⟩, hline.enabled⟩, hline.idle⟩, hline.above⟩

/-- The line that is taken goes before every other line that could be. -/
theorem next?_eq_some_iff :
    c.next? = some line ↔
      c.deliverable line = true ∧
        ∀ other, c.deliverable other = true → other ≠ line → c.Precedes line other := by
  have hlines (p : IrqLine → Prop) : (∀ other, p other) ↔ p .endpoint ∧ p .system := by
    refine ⟨fun h => ⟨h _, h _⟩, fun h other => ?_⟩
    cases other with
    | endpoint => exact h.1
    | system => exact h.2
  rw [hlines]
  unfold next? IrqLine.all Precedes
  cases hendpoint : c.deliverable .endpoint <;> cases hsystem : c.deliverable .system <;>
    cases hlow : c.level .endpoint <;> cases hhigh : c.level .system <;> cases line <;>
    simp [hendpoint, hsystem, hlow, hhigh, Level.rank]

theorem next?_eq_none_iff : c.next? = none ↔ ∀ line, c.deliverable line = false := by
  constructor
  · intro hnone line
    have hempty : IrqLine.all.filter c.deliverable = [] := by
      unfold next? at hnone
      dsimp only at hnone
      split at hnone
      · cases hnone
      · exact List.head?_eq_none_iff.1 hnone
    have hline : line ∈ IrqLine.all := by cases line <;> decide
    simpa using List.filter_eq_nil_iff.1 hempty line hline
  · intro hnone
    have hempty : IrqLine.all.filter c.deliverable = [] :=
      List.filter_eq_nil_iff.2 fun line _ => by simp [hnone line]
    simp [next?, hempty]

end InterruptController

namespace Bench.IrqStep

/-- The controller after steps. -/
def runAll (irq : InterruptController) (steps : List IrqStep) : InterruptController :=
  steps.foldl (fun irq step => (step.run irq).2) irq

/-- The number of edges latched on a line since the last reset, after a step more. An edge is
latched where a line is raised that is not pending. -/
def edges (line : IrqLine) (irq : InterruptController) (count : Nat) : IrqStep → Nat
  | raise raised => if raised = line ∧ irq.pending.get line = false then count + 1 else count
  | reset => 0
  | _ => count

/-- The number of edges latched on a line since the last reset, after steps more. -/
def edgesAll (line : IrqLine) (irq : InterruptController) (count : Nat) : List IrqStep → Nat
  | [] => count
  | step :: rest => edgesAll line (step.run irq).2 (step.edges line irq count) rest

/-- Every edge of a line that was latched was delivered, but for one that is pending. -/
def Balanced (line : IrqLine) (irq : InterruptController) (count : Nat) : Prop :=
  count = irq.delivered.get line + if irq.pending.get line = true then 1 else 0

variable {line : IrqLine} {irq : InterruptController} {count : Nat}

/-- Taking a pending line moves its edge from the latch to the count of those delivered. -/
theorem balanced_acknowledge {taken : IrqLine} (htaken : irq.pending.get taken = true)
    (h : Balanced line irq count) : Balanced line (irq.acknowledge taken) count := by
  unfold Balanced at h ⊢
  change count = (irq.delivered.set taken (irq.delivered.get taken + 1)).get line +
    if (irq.pending.set taken false).get line = true then 1 else 0
  rw [PerLine.get_set, PerLine.get_set]
  by_cases hline : line = taken
  · rw [if_pos hline, if_pos hline, ← hline]
    rw [← hline] at htaken
    rw [if_pos htaken] at h
    simpa using h
  · rwa [if_neg hline, if_neg hline]

/-- A raise latches an edge only where none is latched. -/
theorem balanced_raise (raised : IrqLine) (h : Balanced line irq count) :
    Balanced line (irq.raise raised) ((raise raised).edges line irq count) := by
  unfold Balanced at h ⊢
  change (if raised = line ∧ irq.pending.get line = false then count + 1 else count) =
    irq.delivered.get line + if (irq.pending.set raised true).get line = true then 1 else 0
  rw [PerLine.get_set]
  by_cases hline : line = raised
  · rw [if_pos hline, if_pos rfl]
    cases hpending : irq.pending.get line with
    | false =>
      rw [hpending] at h
      rw [if_pos ⟨hline.symm, rfl⟩, h]
      rfl
    | true =>
      rw [hpending] at h
      rw [if_neg (by simp), h]
      rfl
  · rw [if_neg hline, if_neg fun hraised => hline hraised.1.symm]
    exact h

/-- A step that puts lines into service by vectoring only. -/
def Vectored (step : IrqStep) : Prop := ∀ line, step ≠ acknowledge line

/-- What one step preserves. -/
theorem preserves (step : IrqStep) (hstep : step.Vectored)
    (hservice : InService irq.inService) (hbalanced : Balanced line irq count) :
    InService (step.run irq).2.inService ∧
      Balanced line (step.run irq).2 (step.edges line irq count) := by
  cases step with
  | enable bits => exact ⟨hservice, hbalanced⟩
  | priority bits => exact ⟨hservice, hbalanced⟩
  | setGlobal on => exact ⟨hservice, hbalanced⟩
  | raise raised => exact ⟨hservice, balanced_raise raised hbalanced⟩
  | acknowledge taken => exact absurd rfl (hstep taken)
  | complete completed => exact ⟨hservice.erased completed, hbalanced⟩
  | reset => exact ⟨.none, by cases line <;> rfl⟩
  | vector =>
    unfold run
    cases hnext : irq.next? with
    | none => exact ⟨hservice, hbalanced⟩
    | some taken =>
      have htaken := InterruptController.deliverable_of_next? hnext
      have hpending := ((InterruptController.deliverable_iff hservice.ranked).1 htaken).pending
      exact ⟨hservice.of_deliverable htaken, balanced_acknowledge hpending hbalanced⟩

/-- What every sequence of steps preserves. -/
theorem preserves_all {steps : List IrqStep} (hsteps : ∀ step ∈ steps, step.Vectored)
    (hservice : InService irq.inService) (hbalanced : Balanced line irq count) :
    InService (runAll irq steps).inService ∧
      Balanced line (runAll irq steps) (edgesAll line irq count steps) := by
  induction steps generalizing irq count with
  | nil => exact ⟨hservice, hbalanced⟩
  | cons step rest ih =>
    have hstep := preserves step (hsteps step List.mem_cons_self) hservice hbalanced
    exact ih (fun step hrest => hsteps step (List.mem_cons_of_mem _ hrest)) hstep.1 hstep.2

/-- From its initial state, and however it is driven, the controller ranks the lines in service,
takes the first of the lines that may be taken if there is one, and accounts for every edge. -/
theorem arbitrated (steps : List IrqStep) (hsteps : ∀ step ∈ steps, step.Vectored) :
    let irq := runAll .initial steps
    Ranked irq.inService ∧
      ((∃ line, irq.next? = some line) ↔ ∃ line, irq.Eligible line) ∧
      (∀ line, irq.next? = some line →
        irq.Eligible line ∧ ∀ other, irq.Eligible other → other ≠ line → irq.Precedes line other) ∧
      ∀ line, edgesAll line .initial 0 steps =
        irq.delivered.get line + if irq.pending.get line = true then 1 else 0 := by
  intro irq
  have hkept (line : IrqLine) : InService irq.inService ∧
      Balanced line irq (edgesAll line .initial 0 steps) :=
    preserves_all hsteps .none (by cases line <;> rfl)
  have hranked : Ranked irq.inService := (hkept .endpoint).1.ranked
  refine ⟨hranked, ?_, ?_, fun line => (hkept line).2⟩
  · constructor
    · rintro ⟨line, hline⟩
      have htaken := InterruptController.deliverable_of_next? hline
      exact ⟨line, (InterruptController.deliverable_iff hranked).1 htaken⟩
    · rintro ⟨line, hline⟩
      refine Option.ne_none_iff_exists'.1 fun hnone => ?_
      have hfree := InterruptController.next?_eq_none_iff.1 hnone line
      rw [(InterruptController.deliverable_iff hranked).2 hline] at hfree
      cases hfree
  · intro line hline
    obtain ⟨htaken, hfirst⟩ := InterruptController.next?_eq_some_iff.1 hline
    refine ⟨(InterruptController.deliverable_iff hranked).1 htaken, fun other hother => ?_⟩
    exact hfirst other ((InterruptController.deliverable_iff hranked).2 hother)

/-- The system line is taken at high priority above the endpoint line, the priorities are swapped
while both are in service, and the outer line is completed first. -/
def swapped : List IrqStep :=
  [.enable 0x85, .priority 0x04, .raise .endpoint, .vector, .raise .system, .raise .system, .vector,
    .priority 0x01, .raise .endpoint, .complete .endpoint, .vector]

/-- The endpoint line, though at high priority now, does not go above the system line. -/
theorem arbitrated_swapped :
    (∀ step ∈ swapped, step.Vectored) ∧ (runAll .initial swapped).next? = none ∧
      Ranked (runAll .initial swapped).inService ∧
      edgesAll .endpoint .initial 0 swapped = 2 ∧
      (runAll .initial swapped).delivered.get .endpoint = 1 := by
  have hsteps : ∀ step ∈ swapped, step.Vectored := by
    intro step hstep line hline
    rw [hline] at hstep
    simp [swapped] at hstep
  exact ⟨hsteps, by decide, (arbitrated swapped hsteps).1, by decide, by decide⟩

end Bench.IrqStep

end BankedController
