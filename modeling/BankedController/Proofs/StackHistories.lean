import BankedController.Proofs.CallOutcomes

namespace BankedController

open Bench

namespace Bench.StackStep

/-- The stack after steps. -/
def runAll (s : CallStack) (steps : List StackStep) : CallStack :=
  steps.foldl (fun s step => (step.run s).2) s

/-- The stacks since the last reset, the latest first, when steps are taken from `s` on and `seen`
are the stacks before it. -/
def sinceReset (seen : List CallStack) (s : CallStack) : List StackStep → List CallStack
  | [] => s :: seen
  | step :: rest => sinceReset (if step = reset then [] else s :: seen) (step.run s).2 rest

end Bench.StackStep

namespace CallStack

variable {s : CallStack} {entry top : StackEntry} {rest : List StackEntry}

/-- The bytes are those of the entries, and the mark lies between them and the capacity. -/
structure Accounted (s : CallStack) : Prop where
  coherent : s.Coherent
  marked : s.used ≤ s.highWater
  bounded : s.highWater ≤ s.capacity

/-- What the operations do on a stack. -/
structure Operates (s : CallStack) : Prop where
  /-- A push succeeds exactly if it fits. -/
  succeeds : ∀ entry,
    ((StackStep.push entry).run s).1 = .ok ↔ s.used + entry.size ≤ s.capacity
  pushes : ∀ entry, s.used + entry.size ≤ s.capacity →
    ((StackStep.push entry).run s).2 = s.pushed entry
  /-- A push that does not fit changes nothing. -/
  refuses : ∀ entry, s.capacity < s.used + entry.size →
    (StackStep.push entry).run s = (.failed (.stackOverflow entry s.used s.capacity), s)
  /-- Every pop takes the newest entry off, whatever it says of it, and its bytes are counted. -/
  takes : ∀ top rest, s.entries = top :: rest → top.size ≤ s.used ∧
    StackStep.pop.run s = (.entry top, s.lowered top.size rest) ∧
    (∀ expected, (StackStep.popExpect expected).run s =
      (if top = expected then .ok else .failed (.stackCorrupted expected top),
        s.lowered top.size rest)) ∧
    (∀ bank, top = .savedBank bank →
      StackStep.popBank.run s = (.bank bank, s.lowered top.size rest)) ∧
    ∀ site, top = .returnTo site →
      StackStep.popBank.run s =
        (.failed (.stackCorrupted (.savedBank .bank0) top), s.lowered top.size rest)
  /-- A pop from the empty stack changes nothing. -/
  underflows : s.entries = [] → StackStep.pop.run s = (.failed .stackUnderflow, s) ∧
    (∀ expected, (StackStep.popExpect expected).run s = (.failed .stackUnderflow, s)) ∧
    StackStep.popBank.run s = (.failed .stackUnderflow, s)
  /-- Cutting leaves the oldest entries, as many as are asked for. It is as many single pops as
  there are entries too many, so that it takes off no more bytes than are counted either. -/
  truncates : ∀ depth, (s.truncate depth).entries <:+ s.entries ∧
    (s.truncate depth).depth = min depth s.depth ∧
    s.truncate depth = StackStep.runAll s (List.replicate (s.depth - depth) .pop)

theorem size_le_used (h : s.Coherent) (hentries : s.entries = top :: rest) : top.size ≤ s.used := by
  rw [h, hentries, bytes]
  exact Nat.le_add_right _ _

theorem pop_of_cons (h : s.entries = top :: rest) : s.pop = (.ok top, s.lowered top.size rest) := by
  simp only [pop, h, lowered]

theorem pop_of_nil (h : s.entries = []) : s.pop = (.error .stackUnderflow, s) := by
  simp only [pop, h]

/-- A checked pop leaves what a plain pop leaves. -/
theorem popExpect_run (expected : StackEntry) :
    (StackStep.popExpect expected).run s =
      (StackStep.replyOf (fun _ => .ok) (s.popExpect expected).1, s.pop.2) :=
  Prod.ext rfl (popExpect_snd s expected)

theorem popBank_run :
    StackStep.popBank.run s = (StackStep.replyOf .bank s.popBank.1, s.pop.2) :=
  Prod.ext rfl (popBank_snd s)

section Push

theorem push_run_of_fits (h : s.used + entry.size ≤ s.capacity) :
    (StackStep.push entry).run s = (.ok, s.pushed entry) := by
  simp only [StackStep.run, push_fits h]

theorem push_run_of_overflow (h : s.capacity < s.used + entry.size) :
    (StackStep.push entry).run s = (.failed (.stackOverflow entry s.used s.capacity), s) := by
  simp only [StackStep.run, push_overflows h]

end Push

section Truncate

theorem depth_truncate (s : CallStack) (depth : Nat) :
    (s.truncate depth).depth = min depth s.depth := by
  change (s.entries.drop (s.entries.length - depth)).length = min depth s.entries.length
  rw [List.length_drop]
  omega

/-- Pops take the newest entries off one by one. -/
theorem runAll_pops {upper lower : List StackEntry} (h : s.entries = upper ++ lower) :
    StackStep.runAll s (List.replicate upper.length .pop) = s.lowered (bytes upper) lower := by
  induction upper generalizing s with
  | nil =>
    obtain ⟨entries, used, capacity, highWater⟩ := s
    cases h
    rfl
  | cons top upper ih =>
    have hpop : (StackStep.pop.run s).2 = s.lowered top.size (upper ++ lower) :=
      congrArg Prod.snd (pop_of_cons h)
    calc StackStep.runAll s (List.replicate (top :: upper).length .pop)
      _ = StackStep.runAll (s.lowered top.size (upper ++ lower))
            (List.replicate upper.length .pop) := by rw [← hpop]; rfl
      _ = (s.lowered top.size (upper ++ lower)).lowered (bytes upper) lower := ih rfl
      _ = s.lowered (bytes (top :: upper)) lower := by
        simp only [lowered, bytes, Nat.sub_add_eq]

theorem truncate_eq_runAll (s : CallStack) (depth : Nat) :
    s.truncate depth = StackStep.runAll s (List.replicate (s.depth - depth) .pop) := by
  let surplus := s.depth - depth
  have hlength : (s.entries.take surplus).length = surplus := by
    rw [List.length_take]
    exact Nat.min_eq_left (Nat.sub_le _ _)
  have hpops := runAll_pops (List.take_append_drop surplus s.entries).symm
  rw [hlength] at hpops
  exact hpops.symm

end Truncate

theorem operates_of_coherent (h : s.Coherent) : s.Operates where
  succeeds entry := by
    by_cases hfits : s.used + entry.size ≤ s.capacity
    · simp only [push_run_of_fits hfits, hfits]
    · simp [push_run_of_overflow (Nat.lt_of_not_le hfits), hfits]
  pushes entry hfits := congrArg Prod.snd (push_run_of_fits hfits)
  refuses entry hover := push_run_of_overflow hover
  takes top rest hentries := by
    have hpop := pop_of_cons hentries
    refine ⟨size_le_used h hentries, ?_, fun expected => ?_, ?_, ?_⟩
    · simp only [StackStep.run, hpop, StackStep.replyOf]
    · rw [popExpect_run, hpop]
      by_cases heq : top = expected
      · subst heq
        rw [popExpect_of_cons hentries, if_pos rfl]
        rfl
      · rw [popExpect_of_ne hentries heq, if_neg heq]
        rfl
    · rintro bank rfl
      rw [popBank_run, hpop, popBank_of_cons hentries]
      rfl
    · rintro site rfl
      rw [popBank_run, hpop, popBank_of_site hentries]
      rfl
  underflows hentries := by
    have hpop := pop_of_nil hentries
    refine ⟨?_, fun expected => ?_, ?_⟩
    · simp only [StackStep.run, hpop, StackStep.replyOf]
    · rw [popExpect_run, hpop, popExpect_of_nil hentries]
      rfl
    · rw [popBank_run, hpop, popBank_of_nil hentries]
      rfl
  truncates depth :=
    ⟨List.drop_suffix _ _, depth_truncate s depth, truncate_eq_runAll s depth⟩

end CallStack

namespace Bench.StackStep

open CallStack

variable {s : CallStack} {seen history : List CallStack} {mark : Nat}

/-- The largest count of bytes that any stack of a history has. -/
structure Marks (mark : Nat) (history : List CallStack) : Prop where
  bounds : ∀ t ∈ history, t.used ≤ mark
  attained : ∃ t ∈ history, t.used = mark

theorem Marks.cons (h : Marks mark history) (t : CallStack) :
    Marks (max mark t.used) (t :: history) := by
  refine ⟨?_, ?_⟩
  · intro u hu
    rcases List.mem_cons.1 hu with rfl | hu
    · exact Nat.le_max_right _ _
    · exact Nat.le_trans (h.bounds u hu) (Nat.le_max_left _ _)
  · rcases Nat.le_total mark t.used with hle | hle
    · exact ⟨t, List.mem_cons_self, (Nat.max_eq_right hle).symm⟩
    · obtain ⟨u, hu, hmark⟩ := h.attained
      exact ⟨u, List.mem_cons_of_mem _ hu, hmark.trans (Nat.max_eq_left hle).symm⟩

/-- A step that neither counts more bytes nor touches the mark. -/
structure Lowers (s t : CallStack) : Prop where
  used : t.used ≤ s.used
  highWater : t.highWater = s.highWater
  capacity : t.capacity = s.capacity

theorem Lowers.refl (s : CallStack) : Lowers s s := ⟨Nat.le_refl _, rfl, rfl⟩

theorem lowers_pop (s : CallStack) : Lowers s s.pop.2 := by
  cases hentries : s.entries with
  | nil =>
    rw [pop_of_nil hentries]
    exact .refl s
  | cons top rest =>
    rw [pop_of_cons hentries]
    exact ⟨Nat.sub_le _ _, rfl, rfl⟩

/-- A step is a push that fits, a reset, or one that only lowers the count. -/
theorem run_cases (s : CallStack) (step : StackStep) :
    (∃ entry, step = push entry ∧ s.used + entry.size ≤ s.capacity ∧
        (step.run s).2 = s.pushed entry) ∨
      step = reset ∨ step ≠ reset ∧ Lowers s (step.run s).2 := by
  cases step with
  | push entry =>
    by_cases hfits : s.used + entry.size ≤ s.capacity
    · exact .inl ⟨entry, rfl, hfits, congrArg Prod.snd (push_run_of_fits hfits)⟩
    · rw [push_run_of_overflow (Nat.lt_of_not_le hfits)]
      exact .inr (.inr ⟨by simp, .refl s⟩)
  | pop => exact .inr (.inr ⟨by simp, lowers_pop s⟩)
  | popExpect expected =>
    rw [popExpect_run]
    exact .inr (.inr ⟨by simp, lowers_pop s⟩)
  | popBank =>
    rw [popBank_run]
    exact .inr (.inr ⟨by simp, lowers_pop s⟩)
  | truncate depth => exact .inr (.inr ⟨by simp, Nat.sub_le _ _, rfl, rfl⟩)
  | reset => exact .inr (.inl rfl)

theorem capacity_run (s : CallStack) (step : StackStep) :
    (step.run s).2.capacity = s.capacity := by
  obtain ⟨entry, -, -, hrun⟩ | rfl | ⟨-, hlowers⟩ := run_cases s step
  · rw [hrun]
    rfl
  · rfl
  · exact hlowers.capacity

/-- What one step keeps. -/
theorem accounted_run (h : s.Accounted) (step : StackStep) : (step.run s).2.Accounted := by
  refine ⟨coherent_run h.coherent step, ?_, ?_⟩
  · obtain ⟨entry, -, -, hrun⟩ | rfl | ⟨-, hlowers⟩ := run_cases s step
    · rw [hrun]
      exact Nat.le_max_right _ _
    · exact Nat.le_refl 0
    · rw [hlowers.highWater]
      exact Nat.le_trans hlowers.used h.marked
  · rw [capacity_run]
    obtain ⟨entry, -, hfits, hrun⟩ | rfl | ⟨-, hlowers⟩ := run_cases s step
    · rw [hrun]
      exact Nat.max_le.2 ⟨h.bounded, hfits⟩
    · exact Nat.zero_le _
    · rw [hlowers.highWater]
      exact h.bounded

/-- After a step the mark is again the largest count since the last reset. -/
theorem marks_run (haccounted : s.Accounted) (h : Marks s.highWater (s :: seen))
    (step : StackStep) :
    Marks (step.run s).2.highWater ((step.run s).2 :: if step = reset then [] else s :: seen) := by
  obtain ⟨entry, rfl, -, hrun⟩ | rfl | ⟨hstep, hlowers⟩ := run_cases s step
  · rw [if_neg (by simp), hrun]
    exact h.cons (s.pushed entry)
  · rw [if_pos rfl]
    exact ⟨by simp [run, CallStack.reset], _, List.mem_cons_self, rfl⟩
  · have hmark := h.cons (step.run s).2
    rw [Nat.max_eq_left (Nat.le_trans hlowers.used haccounted.marked)] at hmark
    rwa [if_neg hstep, hlowers.highWater]

/-- What every sequence of steps keeps. -/
theorem kept_runAll (steps : List StackStep) (haccounted : s.Accounted)
    (hmarks : Marks s.highWater (s :: seen)) :
    (runAll s steps).Accounted ∧ (runAll s steps).capacity = s.capacity ∧
      Marks (runAll s steps).highWater (sinceReset seen s steps) := by
  induction steps generalizing s seen with
  | nil => exact ⟨haccounted, rfl, hmarks⟩
  | cons step rest ih =>
    obtain ⟨hrest, hcapacity, hmark⟩ :=
      ih (accounted_run haccounted step) (marks_run haccounted hmarks step)
    exact ⟨hrest, hcapacity.trans (capacity_run s step), hmark⟩

/-- However a stack is driven, its count of bytes is that of its entries, and its mark the largest
count since the last reset, up to the room above its base; a push succeeds exactly if it fits, every
pop takes an entry off, and cutting leaves the oldest entries. -/
theorem bytes_accounted (base : UInt8) (steps : List StackStep) :
    let s := runAll (.ofBase base) steps
    s.used = CallStack.bytes s.entries ∧ s.used ≤ s.highWater ∧ s.highWater ≤ s.capacity ∧
      s.capacity = 0x100 - base.toNat ∧
      (∀ t ∈ sinceReset [] (.ofBase base) steps, t.used ≤ s.highWater) ∧
      (∃ t ∈ sinceReset [] (.ofBase base) steps, t.used = s.highWater) ∧ s.Operates := by
  intro s
  have hempty : (CallStack.ofBase base).Accounted := ⟨rfl, Nat.le_refl 0, Nat.zero_le _⟩
  have hfirst : Marks (CallStack.ofBase base).highWater [.ofBase base] :=
    ⟨by simp [CallStack.ofBase], _, List.mem_cons_self, rfl⟩
  obtain ⟨haccounted, hcapacity, hmarks⟩ := kept_runAll steps hempty hfirst
  exact ⟨haccounted.coherent, haccounted.marked, haccounted.bounded, hcapacity, hmarks.bounds,
    hmarks.attained, operates_of_coherent haccounted.coherent⟩

end Bench.StackStep

end BankedController
