import BankedController.Proofs.FailedCalls
import BankedController.Proofs.ResolvedCalls

namespace BankedController

variable {β : Type}

/-- What a pop accepts, and what it says it expected. -/
structure Expectation where
  accepts : StackEntry → Prop
  named : StackEntry

/-- The error of the first pop that does not find what it accepts. -/
inductive FirstMismatch : List Expectation → List StackEntry → CallError → Prop
  | underflow {first : Expectation} {more : List Expectation} :
    FirstMismatch (first :: more) [] .stackUnderflow
  | corrupted {first : Expectation} {more : List Expectation} {found : StackEntry}
      {rest : List StackEntry} (h : ¬first.accepts found) :
    FirstMismatch (first :: more) (found :: rest) (.stackCorrupted first.named found)
  | later {first : Expectation} {more : List Expectation} {found : StackEntry}
      {rest : List StackEntry} {e : CallError} (h : first.accepts found)
      (next : FirstMismatch more rest e) : FirstMismatch (first :: more) (found :: rest) e

/-- The error of the first push that does not fit. -/
inductive FirstOverflow : List StackEntry → CallStack → CallError → Prop
  | full {entry : StackEntry} {more : List StackEntry} {stack : CallStack}
      (h : stack.capacity < stack.used + entry.size) :
    FirstOverflow (entry :: more) stack (.stackOverflow entry stack.used stack.capacity)
  | later {entry : StackEntry} {more : List StackEntry} {stack stack' : CallStack} {e : CallError}
      (h : stack.push entry = .ok stack') (next : FirstOverflow more stack' e) :
    FirstOverflow (entry :: more) stack e

namespace FirstOverflow

theorem not_nil {stack : CallStack} {e : CallError} : ¬FirstOverflow [] stack e := by
  rintro ⟨⟩

theorem cons_iff {entry : StackEntry} {more : List StackEntry} {stack : CallStack} {e : CallError} :
    FirstOverflow (entry :: more) stack e ↔
      if stack.capacity < stack.used + entry.size then
        e = .stackOverflow entry stack.used stack.capacity
      else FirstOverflow more (stack.pushed entry) e := by
  by_cases hfull : stack.capacity < stack.used + entry.size
  · rw [if_pos hfull]
    constructor
    · rintro (_ | ⟨hpush, -⟩)
      · rfl
      · rw [CallStack.push_overflows hfull] at hpush
        cases hpush
    · rintro rfl
      exact .full hfull
  · have hpushed := CallStack.push_fits (Nat.le_of_not_lt hfull)
    rw [if_neg hfull]
    constructor
    · rintro (h | ⟨hpush, next⟩)
      · exact absurd h hfull
      · rw [hpushed] at hpush
        cases hpush
        exact next
    · exact .later hpushed

end FirstOverflow

namespace CallStack

variable {s : CallStack} {expected found : StackEntry} {rest : List StackEntry}

theorem popExpect_of_nil (h : s.entries = []) : (s.popExpect expected).1 = .error .stackUnderflow := by
  simp only [popExpect, pop, h]

theorem popExpect_of_ne (h : s.entries = found :: rest) (hne : found ≠ expected) :
    (s.popExpect expected).1 = .error (.stackCorrupted expected found) := by
  simp only [popExpect, pop, h, if_neg hne]

theorem popBank_of_nil (h : s.entries = []) : s.popBank.1 = .error .stackUnderflow := by
  simp only [popBank, pop, h]

theorem popBank_of_site {site : ReturnSite} (h : s.entries = .returnTo site :: rest) :
    s.popBank.1 = .error (.stackCorrupted (.savedBank .bank0) (.returnTo site)) := by
  simp only [popBank, pop, h]

end CallStack

namespace Machine

variable {s : Machine β} {expected : StackEntry} {e : CallError}

theorem popExpect_fails (h : (s.stack.popExpect expected).1 = .error e) :
    ∃ t, popExpect expected s = .done (.error e) t :=
  ⟨_, congrArg (Outcome.done · _) h⟩

theorem popBank_fails (h : s.stack.popBank.1 = .error e) :
    ∃ t, (popBank s : Outcome _ (Except CallError Bank)) = .done (.error e) t :=
  ⟨_, congrArg (Outcome.done · _) h⟩

end Machine

namespace FarCall

variable {resolve : Resolver β} {slot : DispatchSlot} {param : Option UInt8} {s t u : Machine β}
  {routine : Option UInt8 → Run (Machine β) Unit} {e : CallError} {bank : Bank}
  {rest : List StackEntry}

/-- The entries of a frame, in the order in which they are pushed. -/
def frame (slot : DispatchSlot) (caller : Bank) : List StackEntry :=
  [.returnTo .caller, .savedBank caller, .returnTo slot.convention.returnSite]

/-- What the three pops accept, in order: the site of the slot's convention, any bank, and the return
to the caller. -/
def expectations (slot : DispatchSlot) : List Expectation :=
  [⟨fun found => found = .returnTo slot.convention.returnSite,
      .returnTo slot.convention.returnSite⟩,
    ⟨fun found => ∃ bank, found = .savedBank bank, .savedBank .bank0⟩,
    ⟨fun found => found = .returnTo .caller, .returnTo .caller⟩]

/-- A stack from which a frame comes off. -/
def Framed (slot : DispatchSlot) (bank : Bank) (rest : List StackEntry) (stack : CallStack) : Prop :=
  stack.entries =
    .returnTo slot.convention.returnSite :: .savedBank bank :: .returnTo .caller :: rest

/-- The pushes of a frame fit together or the first that does not is told. -/
theorem firstOverflow_iff {stack : CallStack} {caller : Bank} :
    FirstOverflow (frame slot caller) stack e ↔
      stack.capacity < stack.used + 5 ∧ e = overflow slot caller stack := by
  simp only [frame, FirstOverflow.cons_iff, FirstOverflow.not_nil, CallStack.pushed,
    StackEntry.size, overflow]
  by_cases hcaller : stack.capacity < stack.used + 2
  · simp only [if_pos hcaller]
    exact ⟨fun h => ⟨by omega, h⟩, And.right⟩
  by_cases hbank : stack.capacity < stack.used + 3
  · simp only [if_neg hcaller, if_pos hbank]
    exact ⟨fun h => ⟨by omega, h⟩, And.right⟩
  simp only [if_neg hcaller, if_neg hbank]
  by_cases hsite : stack.capacity < stack.used + 5
  · simp only [if_pos hsite]
    exact ⟨fun h => ⟨hsite, h⟩, And.right⟩
  · simp only [if_neg hsite]
    exact ⟨False.elim, fun h => hsite h.1⟩

/-- A frame comes off, or there is a first mismatch. -/
theorem framed_or_mismatch (slot : DispatchSlot) (stack : CallStack) :
    (∃ bank rest, Framed slot bank rest stack) ∨
      ∃ e, FirstMismatch (expectations slot) stack.entries e := by
  unfold Framed expectations
  cases stack.entries with
  | nil => exact .inr ⟨_, .underflow⟩
  | cons top below =>
    by_cases hsite : top = .returnTo slot.convention.returnSite
    case neg => exact .inr ⟨_, .corrupted hsite⟩
    cases below with
    | nil => exact .inr ⟨_, .later hsite .underflow⟩
    | cons saved below =>
      cases saved with
      | returnTo other => exact .inr ⟨_, .later hsite (.corrupted (by simp))⟩
      | savedBank bank =>
        cases below with
        | nil => exact .inr ⟨_, .later hsite (.later ⟨bank, rfl⟩ .underflow)⟩
        | cons last rest =>
          by_cases hcaller : last = .returnTo .caller
          · exact .inl ⟨bank, rest, by rw [hsite, hcaller]⟩
          · exact .inr ⟨_, .later hsite (.later ⟨bank, rfl⟩ (.corrupted hcaller))⟩

theorem restore_fails_site
    (h : (u.stack.popExpect (.returnTo slot.convention.returnSite)).1 = .error e) :
    ∃ v, restore slot u = .done (.error e) v := by
  obtain ⟨v, hv⟩ := Machine.popExpect_fails h
  exact ⟨v, (Run.bind_of_done hv).trans rfl⟩

theorem restore_fails_bank
    (hsite : u.stack.entries = .returnTo slot.convention.returnSite :: rest)
    (h : (u.stack.lowered 2 rest).popBank.1 = .error e) :
    ∃ v, restore slot u = .done (.error e) v := by
  obtain ⟨v, hv⟩ := Machine.popBank_fails (s := u.restacked (u.stack.lowered 2 rest)) h
  refine ⟨v, (Run.bind_of_done (Machine.popExpect_apply hsite)).trans ?_⟩
  exact (Run.bind_of_done hv).trans rfl

theorem restore_fails_caller
    (hframe : u.stack.entries =
      .returnTo slot.convention.returnSite :: .savedBank bank :: rest)
    (h : (((u.stack.lowered 2 (.savedBank bank :: rest)).lowered 1 rest).popExpect
      (.returnTo .caller)).1 = .error e) :
    ∃ v, restore slot u = .done (.error e) v := by
  let m := (u.restacked (u.stack.lowered 2 (.savedBank bank :: rest)))
  let m' := (m.restacked (m.stack.lowered 1 rest)).mapped bank
  have hstack : m'.stack = m.stack.lowered 1 rest := Machine.stack_mapped ..
  let m'' := m'.noted (.bankRestored slot.convention bank)
  have hlast : (m''.stack.popExpect (.returnTo .caller)).1 = .error e := by
    change (m'.stack.popExpect _).1 = _
    rw [hstack]
    exact h
  obtain ⟨v, hv⟩ := Machine.popExpect_fails hlast
  refine ⟨v, (Run.bind_of_done (Machine.popExpect_apply hframe)).trans ?_⟩
  dsimp only
  rw [Run.bind_of_done (Machine.popBank_apply rfl)]
  dsimp only
  rw [Run.bind_of_done (Machine.selectBank_apply _ bank), Run.bind_of_done (Machine.note_apply _ _)]
  exact hv

/-- Taking a frame off fails at the first mismatch. -/
theorem restore_of_mismatch (h : FirstMismatch (expectations slot) u.stack.entries e) :
    ∃ v, restore slot u = .done (.error e) v := by
  generalize hentries : u.stack.entries = entries at h
  cases h with
  | underflow => exact restore_fails_site (CallStack.popExpect_of_nil hentries)
  | corrupted hsite => exact restore_fails_site (CallStack.popExpect_of_ne hentries hsite)
  | later hsite next =>
    subst hsite
    cases next with
    | underflow => exact restore_fails_bank hentries (CallStack.popBank_of_nil rfl)
    | @corrupted _ _ found rest hbank =>
      cases found with
      | returnTo site => exact restore_fails_bank hentries (CallStack.popBank_of_site rfl)
      | savedBank bank => exact absurd ⟨bank, rfl⟩ hbank
    | later hbank last =>
      obtain ⟨bank, rfl⟩ := hbank
      cases last with
      | underflow => exact restore_fails_caller hentries (CallStack.popExpect_of_nil rfl)
      | corrupted hcaller =>
        exact restore_fails_caller hentries (CallStack.popExpect_of_ne rfl hcaller)
      | later _ none => cases none

/-- How a call on `s` ends, where `routine` is what stands at the target of the slot. -/
structure Decided (call : Run (Machine β) (Except CallError Unit)) (slot : DispatchSlot)
    (param : Option UInt8) (routine : Run (Machine β) Unit) (s : Machine β) : Prop where
  /-- It succeeds if the frame has room and the routine leaves a stack from which a frame comes
  off, of which the bank may be any. -/
  succeeds : (∃ t, call s = .done (.ok ()) t) ↔ s.stack.used + 5 ≤ s.stack.capacity ∧
    ∃ u bank rest, routine (opened slot param s) = .done () u ∧ Framed slot bank rest u.stack
  /-- It fails with the error of the first push that has no room or of the first pop that does not
  find what it accepts. -/
  fails : ∀ e, (∃ t, call s = .done (.error e) t) ↔
    FirstOverflow (frame slot s.window.active) s.stack e ∨
      s.stack.used + 5 ≤ s.stack.capacity ∧ ∃ u, routine (opened slot param s) = .done () u ∧
        FirstMismatch (expectations slot) u.stack.entries e
  /-- Without room for the frame it ends, and what was to be run there makes no difference. -/
  unentered : s.stack.capacity < s.stack.used + 5 → ∃ e t, call s = .done (.error e) t ∧
    Unmoved s t ∧ ∀ {resolve' : Resolver β} {routine' : Option UInt8 → Run (Machine β) Unit},
      resolve' slot.target.logical (bankOf slot s.window.active) = some routine' →
      farCall resolve' slot param s = .done (.error e) t
  /-- With room for the frame it ends if the routine does. -/
  ends : s.stack.used + 5 ≤ s.stack.capacity → ∀ u, routine (opened slot param s) = .done () u →
    ∃ r t, call s = .done r t
  /-- After a success the bank is mapped that the routine left, and the stack is what lay beneath
  the frame. -/
  followed : ∀ t, call s = .done (.ok ()) t → ∃ u bank rest,
    routine (opened slot param s) = .done () u ∧ Framed slot bank rest u.stack ∧
      t = closed slot bank rest u ∧ t.window.active = bank ∧ t.stack = u.stack.lowered 5 rest
  /-- After a failure the caller's bank is mapped, and the stack is no deeper than it was. -/
  unwound : ∀ e t, call s = .done (.error e) t →
    t.window.active = s.window.active ∧ t.stack.depth ≤ s.stack.depth
  /-- A routine that returns through the site of another convention is found out. -/
  otherSite : s.stack.used + 5 ≤ s.stack.capacity → ∀ u convention rest,
    routine (opened slot param s) = .done () u → convention ≠ slot.convention →
    u.stack.entries = .returnTo convention.returnSite :: rest →
    ∃ t, call s = .done (.error (.stackCorrupted (.returnTo slot.convention.returnSite)
      (.returnTo convention.returnSite))) t

theorem active_closed (slot : DispatchSlot) (bank : Bank) (rest : List StackEntry) (u : Machine β) :
    (closed slot bank rest u).window.active = bank :=
  Machine.active_mapped u bank

theorem stack_closed (slot : DispatchSlot) (bank : Bank) (rest : List StackEntry) (u : Machine β) :
    (closed slot bank rest u).stack = u.stack.lowered 5 rest := rfl

theorem convention_of_returnSite {c c' : CallConvention} (h : c.returnSite = c'.returnSite) :
    c = c' := by
  cases c <;> cases c' <;> first | rfl | cases h

section Resolved

variable (hresolve : resolve slot.target.logical (bankOf slot s.window.active) = some routine)

include hresolve

/-- A call with room for its frame is the routine and then the taking off of a frame. -/
theorem farCall_of_done (hfits : s.stack.used + 5 ≤ s.stack.capacity)
    (hroutine : routine param (opened slot param s) = .done () u) :
    farCall resolve slot param s =
      (restore slot >>= conclude s.stack.depth s.window.active) u := by
  rw [farCall_of_fits hfits hresolve, Run.bind_of_done hroutine]

theorem farCall_of_framed (hfits : s.stack.used + 5 ≤ s.stack.capacity)
    (hroutine : routine param (opened slot param s) = .done () u)
    (hframed : Framed slot bank rest u.stack) :
    farCall resolve slot param s = .done (.ok ()) (closed slot bank rest u) := by
  rw [farCall_of_done hresolve hfits hroutine, Run.bind_of_done (restore_of_framed hframed)]
  rfl

theorem farCall_of_mismatch (hfits : s.stack.used + 5 ≤ s.stack.capacity)
    (hroutine : routine param (opened slot param s) = .done () u)
    (hmismatch : FirstMismatch (expectations slot) u.stack.entries e) :
    ∃ t, farCall resolve slot param s = .done (.error e) t := by
  obtain ⟨v, hv⟩ := restore_of_mismatch hmismatch
  rw [farCall_of_done hresolve hfits hroutine, Run.bind_of_done hv]
  unfold conclude unwind
  simp only [bind_assoc]
  rw [Run.bind_of_done (Run.modify_apply _ v), Run.bind_of_done (Machine.selectBank_apply _ _)]
  exact ⟨_, rfl⟩

/-- A call that ends had no room, or its routine ended and left a frame or a mismatch. -/
theorem outcome_of_farCall {r : Except CallError Unit} (h : farCall resolve slot param s = .done r t) :
    s.stack.capacity < s.stack.used + 5 ∧ r = .error (overflow slot s.window.active s.stack) ∨
      s.stack.used + 5 ≤ s.stack.capacity ∧ ∃ u, routine param (opened slot param s) = .done () u ∧
        ((∃ bank rest, Framed slot bank rest u.stack ∧ r = .ok () ∧ t = closed slot bank rest u) ∨
          ∃ e, FirstMismatch (expectations slot) u.stack.entries e ∧ r = .error e) := by
  by_cases hover : s.stack.capacity < s.stack.used + 5
  · obtain ⟨u, -, hcall⟩ := farCall_of_overflow param hover
    rw [hcall hresolve] at h
    exact .inl ⟨hover, (Outcome.done.inj h).1.symm⟩
  have hfits := Nat.le_of_not_lt hover
  have hrun := h
  rw [farCall_of_fits hfits hresolve] at hrun
  obtain ⟨_, u, hroutine, -⟩ := Run.bind_eq_done.1 hrun
  refine .inr ⟨hfits, u, hroutine, ?_⟩
  rcases framed_or_mismatch slot u.stack with ⟨bank, rest, hframed⟩ | ⟨e, hmismatch⟩
  · rw [farCall_of_framed hresolve hfits hroutine hframed] at h
    obtain ⟨hr, ht⟩ := Outcome.done.inj h
    exact .inl ⟨bank, rest, hframed, hr.symm, ht.symm⟩
  · obtain ⟨v, hv⟩ := farCall_of_mismatch hresolve hfits hroutine hmismatch
    rw [hv] at h
    exact .inr ⟨e, hmismatch, (Outcome.done.inj h).1.symm⟩

theorem decided_farCall : Decided (farCall resolve slot param) slot param (routine param) s where
  succeeds := by
    constructor
    · rintro ⟨t, h⟩
      rcases outcome_of_farCall hresolve h with ⟨-, hr⟩ | ⟨hfits, u, hroutine, hleft⟩
      · cases hr
      rcases hleft with ⟨bank, rest, hframed, -, -⟩ | ⟨e, -, hr⟩
      · exact ⟨hfits, u, bank, rest, hroutine, hframed⟩
      · cases hr
    · rintro ⟨hfits, u, bank, rest, hroutine, hframed⟩
      exact ⟨_, farCall_of_framed hresolve hfits hroutine hframed⟩
  fails e := by
    constructor
    · rintro ⟨t, h⟩
      rcases outcome_of_farCall hresolve h with ⟨hover, hr⟩ | ⟨hfits, u, hroutine, hleft⟩
      · exact .inl (firstOverflow_iff.2 ⟨hover, Except.error.inj hr⟩)
      rcases hleft with ⟨_, _, -, hr, -⟩ | ⟨e', hmismatch, hr⟩
      · cases hr
      · cases hr
        exact .inr ⟨hfits, u, hroutine, hmismatch⟩
    · rintro (hfull | ⟨hfits, u, hroutine, hmismatch⟩)
      · obtain ⟨hover, rfl⟩ := firstOverflow_iff.1 hfull
        obtain ⟨t, -, hcall⟩ := farCall_of_overflow param hover
        exact ⟨t, hcall hresolve⟩
      · exact farCall_of_mismatch hresolve hfits hroutine hmismatch
  unentered hover := by
    obtain ⟨t, hunmoved, hcall⟩ := farCall_of_overflow param hover
    exact ⟨_, t, hcall hresolve, hunmoved, hcall⟩
  ends hfits u hroutine := by
    rcases framed_or_mismatch slot u.stack with ⟨bank, rest, hframed⟩ | ⟨e, hmismatch⟩
    · exact ⟨_, _, farCall_of_framed hresolve hfits hroutine hframed⟩
    · exact ⟨_, farCall_of_mismatch hresolve hfits hroutine hmismatch⟩
  followed t h := by
    rcases outcome_of_farCall hresolve h with ⟨-, hr⟩ | ⟨-, u, hroutine, hleft⟩
    · cases hr
    rcases hleft with ⟨bank, rest, hframed, -, rfl⟩ | ⟨e, -, hr⟩
    · exact ⟨u, bank, rest, hroutine, hframed, rfl, active_closed .., stack_closed ..⟩
    · cases hr
  unwound e t h := by
    obtain ⟨u, -, rfl⟩ := farCall_eq_error h
    rw [Machine.stack_mapped, Machine.stack_restacked]
    exact ⟨Machine.active_mapped .., CallStack.depth_truncate_le ..⟩
  otherSite hfits u convention rest hroutine hne hentries := by
    apply farCall_of_mismatch hresolve hfits hroutine
    rw [hentries]
    refine .corrupted fun hsame => hne (convention_of_returnSite ?_)
    exact StackEntry.returnTo.inj hsame

end Resolved

end FarCall

namespace Firmware

variable [RegisterBus β] {fw : Firmware β} {image : CodeImage (Routine β)}
  {entries : List DispatchEntry} {config : FirmwareConfig} {id : SlotId} {slot : DispatchSlot}

/-- In a linked firmware, whatever its routines do and on whatever machine, how a call of a slot ends
is decided by the room for its frame and by the stack that the routine at its target leaves. -/
theorem calls_decided (h : link image entries config = .ok fw)
    (hslot : fw.table.slot? id = some slot) :
    ∃ placed, fw.image.get? slot.target = some placed ∧ ∀ l param s,
      fw.callWith l id param s =
        farCall (fw.resolver l) slot param { s with stats := s.stats.called id } ∧
      FarCall.Decided (farCall (fw.resolver l) slot param) slot param (placed.body l param) s := by
  obtain ⟨placed, -, hplaced, hresolve⟩ := get?_target h hslot
  refine ⟨placed, hplaced, fun l param s => ⟨callWith_apply hslot l param s, ?_⟩⟩
  exact FarCall.decided_farCall (hresolve l _)

end Firmware

namespace Astray

/-- Takes the newest entry off and puts another on. -/
def swapped (entry : StackEntry) (stack : CallStack) : CallStack :=
  ⟨entry :: stack.entries.drop 1, stack.used, stack.capacity, stack.highWater⟩

def stray : Routine RigBus := fun _ _ =>
  Run.modify fun s => { s with stack := swapped (.returnTo .stubResume) s.stack }

def image : CodeImage (Routine RigBus) := ⟨[⟨"stray", .ofLogical .bank1 0x8020, stray⟩]⟩

def entries : List DispatchEntry := [⟨.hwInit, .bank1, 0x8020, .tailJump⟩]

def slot : DispatchSlot := ⟨.hwInit, 0x300, .ofLogical .bank1 0x8020, .tailJump⟩

/-- One slot, of which the routine should return into the epilogue that restores the bank, and
returns into the stub. -/
def firmware : Firmware RigBus := ⟨.standard, ⟨[slot]⟩, image⟩

theorem link_image : Firmware.link image entries .standard = .ok firmware := rfl

/-- The machine before the first call. -/
def machine : Machine RigBus := firmware.machine RigBus.initial none

end Astray

/-- The routine of the only slot returns through the site of the other convention. -/
theorem Firmware.calls_decided_astray :
    ∃ t, farCall (Astray.firmware.resolver (Astray.firmware.linkage 0)) Astray.slot none
      Astray.machine = .done (.error (.stackCorrupted (.returnTo .bankRestore)
        (.returnTo .stubResume))) t := by
  have hslot : Astray.firmware.table.slot? .hwInit = some Astray.slot := rfl
  obtain ⟨placed, hplaced, hcalls⟩ := Firmware.calls_decided Astray.link_image hslot
  have hstray : placed.body = Astray.stray := by
    cases hplaced
    rfl
  obtain ⟨-, hdecided⟩ := hcalls (Astray.firmware.linkage 0) none Astray.machine
  rw [hstray] at hdecided
  exact hdecided.otherSite (by decide) _ .callReturn _ rfl (by decide) rfl

end BankedController
