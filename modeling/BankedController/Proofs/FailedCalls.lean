import BankedController.Bench.Part
import BankedController.Proofs.FarCalls

namespace BankedController

variable {β : Type}

namespace CallStack

/-- The count of bytes is that of the entries. -/
def Coherent (s : CallStack) : Prop := s.used = bytes s.entries

theorem bytes_append (upper lower : List StackEntry) :
    bytes (upper ++ lower) = bytes upper + bytes lower := by
  induction upper with
  | nil => exact (Nat.zero_add _).symm
  | cons entry rest ih => rw [List.cons_append, bytes, bytes, ih, Nat.add_assoc]

theorem coherent_push {s t : CallStack} {entry : StackEntry} (h : s.Coherent)
    (hpush : s.push entry = .ok t) : t.Coherent := by
  simp only [push] at hpush
  split at hpush
  · cases hpush
  · cases hpush
    change s.used + entry.size = entry.size + bytes s.entries
    rw [h, Nat.add_comm]

theorem coherent_pop {s : CallStack} (h : s.Coherent) : s.pop.2.Coherent := by
  unfold pop
  cases hentries : s.entries with
  | nil => exact h
  | cons entry rest =>
    have hused : s.used = entry.size + bytes rest := by rw [h, hentries, bytes]
    change s.used - entry.size = bytes rest
    omega

theorem entries_pop (s : CallStack) : s.pop.2.entries = s.entries.drop 1 := by
  unfold pop
  cases hentries : s.entries with
  | nil => exact hentries
  | cons entry rest => rfl

/-- A checked pop takes the entry off also where the check fails. -/
theorem popExpect_snd (s : CallStack) (entry : StackEntry) : (s.popExpect entry).2 = s.pop.2 := by
  unfold popExpect
  split
  next h => rw [h]
  next h =>
    rw [h]
    split <;> rfl

theorem popBank_snd (s : CallStack) : s.popBank.2 = s.pop.2 := by
  unfold popBank
  split
  all_goals
    next h => rw [h]

theorem entries_truncate (s : CallStack) (depth : Nat) :
    (s.truncate depth).entries = s.entries.drop (s.depth - depth) := rfl

theorem depth_truncate_le (s : CallStack) (depth : Nat) : (s.truncate depth).depth ≤ depth := by
  change (s.entries.drop (s.entries.length - depth)).length ≤ depth
  rw [List.length_drop]
  omega

theorem coherent_truncate {s : CallStack} (h : s.Coherent) (depth : Nat) :
    (s.truncate depth).Coherent := by
  have hsplit := bytes_append (s.entries.take (s.depth - depth)) (s.entries.drop (s.depth - depth))
  rw [List.take_append_drop] at hsplit
  change s.used - bytes (s.entries.take (s.depth - depth)) =
    bytes (s.entries.drop (s.depth - depth))
  rw [h, hsplit, Nat.add_sub_cancel_left]

/-- Every operation of the stack keeps its count of bytes. -/
theorem coherent_run {s : CallStack} (h : s.Coherent) (step : Bench.StackStep) :
    (step.run s).2.Coherent := by
  cases step with
  | push entry =>
    cases hpush : s.push entry with
    | ok t =>
      have hrun : (Bench.StackStep.push entry).run s = (.ok, t) := by
        simp only [Bench.StackStep.run, hpush]
      rw [hrun]
      exact coherent_push h hpush
    | error e =>
      have hrun : (Bench.StackStep.push entry).run s = (.failed e, s) := by
        simp only [Bench.StackStep.run, hpush]
      rwa [hrun]
  | pop => exact coherent_pop h
  | popExpect entry =>
    change (s.popExpect entry).2.Coherent
    rw [popExpect_snd]
    exact coherent_pop h
  | popBank =>
    change s.popBank.2.Coherent
    rw [popBank_snd]
    exact coherent_pop h
  | truncate depth => exact coherent_truncate h depth
  | reset => exact rfl

/-- Cutting back to the depth of a list of entries leaves that list exactly if it was at the
bottom. -/
theorem entries_truncate_eq_iff {s : CallStack} {entries : List StackEntry} :
    (s.truncate entries.length).entries = entries ↔ entries <:+ s.entries := by
  constructor
  · intro h
    rw [← h, entries_truncate]
    exact List.drop_suffix _ _
  · rintro ⟨extra, hextra⟩
    rw [truncate_of_append hextra.symm]

/-- Two coherent stacks with the same entries take the same bytes. -/
theorem used_eq {s t : CallStack} (hs : s.Coherent) (ht : t.Coherent)
    (h : t.entries = s.entries) : t.used = s.used := by
  rw [ht, h, ← hs]

end CallStack

namespace FarCall

variable {resolve : Resolver β} {slot : DispatchSlot} {param : Option UInt8} {s t : Machine β}
  {e : CallError}

/-- Taking a frame off takes at most three entries, whatever they are. -/
theorem restore_drops {r : Except CallError Unit} (h : restore slot s = .done r t) :
    (∃ k ≤ 3, t.stack.entries = s.stack.entries.drop k) ∧
      (s.stack.Coherent → t.stack.Coherent) := by
  have step {m : Machine β} {entry : StackEntry} {r : Except CallError Unit} {u : Machine β}
      (hpop : Machine.popExpect entry m = .done r u) :
      u.stack.entries = m.stack.entries.drop 1 ∧ (m.stack.Coherent → u.stack.Coherent) := by
    cases hpop
    change (m.stack.popExpect entry).2.entries = _ ∧ (_ → (m.stack.popExpect entry).2.Coherent)
    rw [CallStack.popExpect_snd]
    exact ⟨CallStack.entries_pop _, CallStack.coherent_pop⟩
  obtain ⟨first, m, hfirst, hrest⟩ := Run.bind_eq_done.1 h
  obtain ⟨hone, hkept⟩ := step hfirst
  cases first with
  | error e =>
    cases hrest
    exact ⟨⟨1, by omega, hone⟩, hkept⟩
  | ok =>
    obtain ⟨second, m', hsecond, hrest⟩ := Run.bind_eq_done.1 hrest
    have hbank : m'.stack = m.stack.popBank.2 := by
      cases hsecond
      rfl
    rw [CallStack.popBank_snd] at hbank
    have htwo : m'.stack.entries = s.stack.entries.drop 2 := by
      rw [hbank, CallStack.entries_pop, hone, List.drop_drop]
    have hkept' : s.stack.Coherent → m'.stack.Coherent := by
      intro hs
      rw [hbank]
      exact CallStack.coherent_pop (hkept hs)
    cases second with
    | error e =>
      cases hrest
      exact ⟨⟨2, by omega, htwo⟩, hkept'⟩
    | ok bank =>
      dsimp only at hrest
      rw [Run.bind_of_done (Machine.selectBank_apply m' bank),
        Run.bind_of_done (Machine.note_apply _ _)] at hrest
      obtain ⟨hthree, hkept''⟩ := step hrest
      have hstack : (m'.mapped bank).stack = m'.stack := Machine.stack_mapped m' bank
      change t.stack.entries = (m'.mapped bank).stack.entries.drop 1 at hthree
      change (m'.mapped bank).stack.Coherent → _ at hkept''
      rw [hstack] at hthree hkept''
      refine ⟨⟨3, Nat.le_refl 3, ?_⟩, fun hs => hkept'' (hkept' hs)⟩
      rw [hthree, htwo, List.drop_drop]

/-- A frame that is not completed only adds to the stack. -/
theorem enter_eq_error (h : enter resolve slot param s.window.active s = .done (.error e) t) :
    (∃ extra, t.stack.entries = extra ++ s.stack.entries ∧
        t.stack.used = s.stack.used + CallStack.bytes extra) ∨
      ∃ routine u, resolve slot.target.logical (bankOf slot s.window.active) = some routine ∧
        routine param (opened slot param s) = .done () u ∧ restore slot u = .done (.error e) t := by
  by_cases hcaller : s.stack.capacity < s.stack.used + 2
  · unfold enter at h
    rw [Run.bind_of_done (Machine.push_apply_overflows hcaller)] at h
    cases h
    exact .inl ⟨[], rfl, rfl⟩
  let first := s.restacked (s.stack.pushed (.returnTo .caller))
  have hfirst : Machine.push (.returnTo .caller) s = .done (.ok ()) first :=
    Machine.push_apply_fits (by simp only [StackEntry.size]; omega)
  by_cases hbank : s.stack.capacity < s.stack.used + 3
  · unfold enter at h
    rw [Run.bind_of_done hfirst] at h
    dsimp only at h
    rw [Run.bind_of_done (Machine.push_apply_overflows hbank)] at h
    have ht : first = t := (Outcome.done.inj h).2
    rw [← ht]
    exact .inl ⟨[.returnTo .caller], rfl, rfl⟩
  let second := first.restacked (first.stack.pushed (.savedBank s.window.active))
  have hsecond : Machine.push (.savedBank s.window.active) first = .done (.ok ()) second := by
    apply Machine.push_apply_fits
    simp only [first, Machine.stack_restacked, CallStack.pushed, StackEntry.size]
    omega
  let target := second.mapped (bankOf slot s.window.active)
  have hstack : target.stack = second.stack := Machine.stack_mapped ..
  have hextra : target.stack.entries =
      [.savedBank s.window.active, .returnTo .caller] ++ s.stack.entries := by
    rw [hstack]
    rfl
  have hused : target.stack.used = s.stack.used + 3 := by
    rw [hstack]
    rfl
  have hcapacity : target.stack.capacity = s.stack.capacity := by
    rw [hstack]
    rfl
  have hland : enter resolve slot param s.window.active s = land resolve slot param target := by
    unfold enter
    rw [Run.bind_of_done hfirst]
    dsimp only
    rw [Run.bind_of_done hsecond]
    dsimp only
    rw [Run.bind_of_done (mapTarget_apply slot second)]
    rfl
  have hactive : target.window.active = bankOf slot s.window.active := Machine.active_mapped ..
  cases hfound : resolve slot.target.logical (bankOf slot s.window.active) with
  | none =>
    rw [hland] at h
    unfold land at h
    rw [Run.bind_of_done (Run.gets_apply _ _)] at h
    simp only [hactive, hfound] at h
    have ht : target = t := (Outcome.done.inj h).2
    rw [← ht]
    exact .inl ⟨_, hextra, hused⟩
  | some routine =>
    by_cases hsite : s.stack.capacity < s.stack.used + 5
    · have htop : target.stack.capacity < target.stack.used + 2 := by omega
      have htarget : resolve slot.target.logical target.window.active = some routine := by
        rw [hactive]
        exact hfound
      rw [hland, land_of_overflow param htop htarget] at h
      have ht : target = t := (Outcome.done.inj h).2
      rw [← ht]
      exact .inl ⟨_, hextra, hused⟩
    · rw [enter_of_fits (Nat.le_of_not_lt hsite) hfound] at h
      obtain ⟨_, u, hroutine, hrestore⟩ := Run.bind_eq_done.1 h
      exact .inr ⟨routine, u, rfl, hroutine, hrestore⟩

/-- A failed call is one of which the frame failed, unwound. -/
theorem farCall_eq_error (h : farCall resolve slot param s = .done (.error e) t) :
    ∃ u, enter resolve slot param s.window.active s = .done (.error e) u ∧
      t = (u.restacked (u.stack.truncate s.stack.depth)).mapped s.window.active := by
  rw [farCall_apply] at h
  obtain ⟨result, u, henter, hconclude⟩ := Run.bind_eq_done.1 h
  cases result with
  | ok => cases hconclude
  | error e' =>
    unfold conclude unwind at hconclude
    simp only [bind_assoc] at hconclude
    rw [Run.bind_of_done (Run.modify_apply _ u),
      Run.bind_of_done (Machine.selectBank_apply _ _)] at hconclude
    cases hconclude
    exact ⟨u, henter, rfl⟩

/-- A failed call maps the caller's bank again and leaves the stack no deeper than it was. If the
routine was not entered, the stack is what it was. If it was, the entries are what they were exactly
if they lie at the bottom of the stack on which the call gave up; they do if the routine left them
under three entries or more. -/
theorem failed_call (h : farCall resolve slot param s = .done (.error e) t) :
    t.window.active = s.window.active ∧ t.stack.depth ≤ s.stack.depth ∧
      ((t.stack.entries = s.stack.entries ∧ t.stack.used = s.stack.used) ∨
        ∃ routine u v, resolve slot.target.logical (bankOf slot s.window.active) = some routine ∧
          routine param (opened slot param s) = .done () u ∧ restore slot u = .done (.error e) v ∧
          (t.stack.entries = s.stack.entries ↔ s.stack.entries <:+ v.stack.entries) ∧
          (s.stack.Coherent → u.stack.Coherent → t.stack.entries = s.stack.entries →
            t.stack.used = s.stack.used) ∧
          ∀ extra, u.stack.entries = extra ++ s.stack.entries → 3 ≤ extra.length →
            t.stack.entries = s.stack.entries) := by
  obtain ⟨v, henter, rfl⟩ := farCall_eq_error h
  rw [Machine.stack_mapped, Machine.stack_restacked]
  refine ⟨Machine.active_mapped .., CallStack.depth_truncate_le .., ?_⟩
  rcases enter_eq_error henter with ⟨extra, hentries, hused⟩ | ⟨routine, u, hfound, hrun, hrestore⟩
  · left
    rw [CallStack.depth, CallStack.truncate_of_append hentries]
    refine ⟨rfl, ?_⟩
    change v.stack.used - CallStack.bytes extra = s.stack.used
    omega
  · right
    obtain ⟨⟨k, hk, hdrops⟩, hcoherent⟩ := restore_drops hrestore
    refine ⟨routine, u, v, hfound, hrun, hrestore, CallStack.entries_truncate_eq_iff, ?_, ?_⟩
    · intro hs hu heq
      exact CallStack.used_eq hs (CallStack.coherent_truncate (hcoherent hu) _) heq
    · intro extra hextra hthree
      apply CallStack.entries_truncate_eq_iff.2
      refine ⟨extra.drop k, ?_⟩
      rw [hdrops, hextra, List.drop_append_of_le_length (by omega)]

end FarCall

namespace Overdrawn

open FarCall

/-- A slot of which the routine stands in bank 1. -/
def slot : DispatchSlot := ⟨⟨100⟩, 0x42C, .ofLogical .bank1 0x9000, .callReturn⟩

/-- The stack after a number of pops. -/
def popped (n : Nat) (stack : CallStack) : CallStack :=
  (List.replicate n Bench.StackStep.pop).foldl (fun stack step => (step.run stack).2) stack

/-- Whatever is called pops entries and returns. -/
def pops (n : Nat) : Resolver Unit := fun _ _ => some fun _ =>
  Run.modify fun s => { s with stack := popped n s.stack }

/-- A machine with one entry on its stack. -/
def machine : Machine Unit :=
  ⟨(), ⟨.bank0, 0⟩, ⟨[.returnTo .interrupt], 2, 32, 2⟩, .initial, .initial, ⟨none, []⟩⟩

/-- The machine after a call of a routine that pops one entry. -/
def shortened : Machine Unit :=
  { machine with window := ⟨.bank0, 2⟩, stack := { machine.stack with highWater := 7 } }

/-- A routine that pops one entry leaves the caller's entry under two others, of which taking the
frame off takes one more. -/
theorem failed_call_shortened :
    farCall (pops 1) slot none machine = .done
        (.error (.stackCorrupted (.returnTo .stubResume) (.savedBank .bank0))) shortened ∧
      shortened.window.active = machine.window.active ∧
      shortened.stack.depth ≤ machine.stack.depth ∧
      shortened.stack.entries = machine.stack.entries :=
  have h : farCall (pops 1) slot none machine = .done
      (.error (.stackCorrupted (.returnTo .stubResume) (.savedBank .bank0))) shortened := rfl
  ⟨h, (failed_call h).1, (failed_call h).2.1, rfl⟩

/-- A routine that pops four entries takes its caller's with it, and the failed call does not put it
back. -/
theorem failed_call_overdraws :
    ∃ e t, farCall (pops 4) slot none machine = .done (.error e) t ∧
      machine.stack.entries = [.returnTo .interrupt] ∧ t.stack.entries = [] ∧
      machine.stack.used = 2 ∧ t.stack.used = 0 :=
  ⟨.stackUnderflow, _, rfl, rfl, rfl, rfl, rfl⟩

end Overdrawn

end BankedController
