import BankedController.Proofs.DiscreetRoutines
import BankedController.Proofs.ResolvedCalls
import BankedController.Proofs.UnreadLog

/-! One run mirrors another if it does to the plain view of every machine what the other does to the
machine. A convention could matter only at the end of a call, when the frame comes off; there a
discreet routine has left the frames below it as they were, or none at all. -/

namespace BankedController

variable {β α γ : Type}

theorem StackEntry.plain_plain (entry : StackEntry) : entry.plain.plain = entry.plain := by
  cases entry with
  | returnTo site => cases site <;> rfl
  | savedBank bank => rfl

theorem CallError.plain_plain (e : CallError) : e.plain.plain = e.plain := by
  cases e with
  | stackOverflow entry used capacity => rw [plain, plain, StackEntry.plain_plain]
  | unknownSlot slot => rfl
  | unknownStub addr => rfl
  | unresolved addr bank => rfl
  | stackUnderflow => rfl
  | stackCorrupted expected found => rfl

theorem Machine.plain_plain (s : Machine β) : s.plain.plain = s.plain := by
  have hentries : (s.stack.entries.map StackEntry.plain).map StackEntry.plain =
      s.stack.entries.map StackEntry.plain := by
    rw [List.map_map]
    exact List.map_congr_left fun entry _ => StackEntry.plain_plain entry
  unfold plain CallStack.plain
  rw [hentries]

namespace Run

/-- The second run does to the plain view of a machine what the first does to the machine. -/
def Mirrors (m m' : Run (Machine β) α) : Prop := ∀ s, m' s.plain = (m s).through Machine.plain

theorem mirrors_bind {m m' : Run (Machine β) α} {f f' : α → Run (Machine β) γ} (hm : m.Mirrors m')
    (hf : ∀ a, (f a).Mirrors (f' a)) : (m >>= f).Mirrors (m' >>= f') := by
  intro s
  rw [bind_apply, bind_apply, hm s]
  cases m s with
  | done a t => exact hf a t
  | fault cause t => rfl
  | exhausted => rfl

/-- What follows a call may look at the error in its plain view. -/
theorem mirrors_bind_plain {m m' : Run (Machine β) (Except CallError Unit)}
    (hm : m.plain.Mirrors m'.plain) {f f' : Except CallError Unit → Run (Machine β) γ}
    (hf : ∀ r r', r.mapError CallError.plain = r'.mapError CallError.plain →
      (f r).Mirrors (f' r')) : (m >>= f).Mirrors (m' >>= f') := by
  intro s
  have hs := hm s
  unfold Run.plain at hs
  rw [bind_apply, bind_apply] at hs ⊢
  generalize m s = out at hs
  generalize m' s.plain = out' at hs
  cases out with
  | done r t => cases out' with
    | done r' t' =>
      obtain ⟨hr, rfl⟩ := Outcome.done.inj hs
      exact hf r r' hr.symm t
    | fault cause' t' => cases hs
    | exhausted => cases hs
  | fault cause t => cases out' with
    | done r' t' => cases hs
    | fault cause' t' =>
      obtain ⟨rfl, rfl⟩ := Outcome.fault.inj hs
      rfl
    | exhausted => cases hs
  | exhausted => cases out' with
    | done r' t' => cases hs
    | fault cause' t' => cases hs
    | exhausted => rfl

theorem mirrors_pure (a : α) : Mirrors (Pure.pure a : Run (Machine β) α) (Pure.pure a) :=
  fun _ => rfl

theorem mirrors_giveUp : Mirrors (giveUp : Run (Machine β) α) giveUp := fun _ => rfl

/-- What is the same but for the machine is the same with the error in its plain view. -/
theorem plain_of_through {m m' : Run (Machine β) (Except CallError Unit)} {s : Machine β}
    (h : m' s.plain = (m s).through Machine.plain) :
    m'.plain s.plain = (m.plain s).through Machine.plain := by
  unfold Run.plain
  rw [bind_apply, bind_apply, h]
  cases m s <;> rfl

end Run

namespace Machine

variable {s : Machine β}

theorem popExpect_apply_empty {entry : StackEntry} (h : s.stack.entries = []) :
    popExpect entry s = .done (.error .stackUnderflow) s := by
  have hpop : s.stack.popExpect entry = (.error .stackUnderflow, s.stack) := by
    simp only [CallStack.popExpect, CallStack.pop, h]
  simp only [popExpect, onStack, hpop]

theorem popBank_apply_empty (h : s.stack.entries = []) :
    popBank s = .done (.error .stackUnderflow) s := by
  have hpop : s.stack.popBank = (.error .stackUnderflow, s.stack) := by
    simp only [CallStack.popBank, CallStack.pop, h]
  simp only [popBank, onStack, hpop]

end Machine

/-- The entries of the stack stand as they did, or the stack was cleared. -/
def Standing (s t : Machine β) : Prop :=
  t.stack.entries = s.stack.entries ∨ t.stack.entries = []

theorem extends_standing : Extends (Standing : Machine β → Machine β → Prop) where
  refl _ := .inl rfl
  trans {s t u} h h' := by
    rcases h' with hsame | hcleared
    · rw [Standing, hsame]
      exact h
    · exact .inr hcleared

namespace DiscreetStep

variable {m : Run (Machine β) α}

theorem mirrors (h : DiscreetStep α m) : m.Mirrors m := by
  intro s
  cases h with
  | bus =>
    unfold Machine.onBus Machine.plain
    dsimp only
    split <;> rfl
  | select bank =>
    rw [Machine.selectBank_apply, Machine.selectBank_apply, ← Machine.plain_mapped]
    rfl
  | irq f => rfl
  | count f => rfl
  | note event => rfl
  | look f =>
    rw [Run.gets_apply, Run.gets_apply, Machine.plain_plain]
    rfl
  | clear => rfl

theorem standing (h : DiscreetStep α m) : m.Keeps Standing := by
  intro s a t hrun
  cases h with
  | bus =>
    obtain ⟨bus, -, rfl⟩ := Machine.onBus_eq_done hrun
    exact .inl rfl
  | select bank =>
    rw [Machine.selectBank_apply] at hrun
    cases hrun
    exact .inl (congrArg CallStack.entries (Machine.stack_mapped s bank))
  | irq f =>
    cases hrun
    exact .inl rfl
  | count f =>
    cases hrun
    exact .inl rfl
  | note event =>
    cases hrun
    exact .inl rfl
  | look f =>
    cases hrun
    exact .inl rfl
  | clear =>
    cases hrun
    exact .inr rfl

end DiscreetStep

/-- A linkage that does to the plain view what another does, with the plain view of its table. -/
structure Linkage.Mirrors (l l' : Linkage β) : Prop where
  config : l'.config = l.config
  table : l'.table = l.table.plain
  patience : l'.patience = l.patience
  call : ∀ id param, (l.call id param).plain.Mirrors (l'.call id param).plain
  poll : l.poll.Mirrors l'.poll

/-- Whether a call failed shows in the plain view, and what is reported of the error does not. -/
theorem Run.mirrors_reporting {m m' : Run (Machine β) (Except CallError Unit)}
    (h : m.plain.Mirrors m'.plain) (event : CallError → Event) :
    (m.reporting event).Mirrors (m'.reporting event) := by
  refine mirrors_bind_plain h fun result result' hresult => ?_
  cases result with
  | ok => cases result' with
    | ok => exact mirrors_pure _
    | error e' => cases hresult
  | error e => cases result' with
    | ok => cases hresult
    | error e' =>
      have hplain : e.plain = e'.plain := Except.error.inj hresult
      intro s
      exact congrArg (fun e => Outcome.done (Except.error e) s.plain) hplain.symm

theorem Discreet.mirrors {l l' : Linkage β} (hl : l.Mirrors l') {m : Linkage β → Run (Machine β) α}
    (h : Discreet m) : (m l).Mirrors (m l') := by
  induction h with
  | done a => exact Run.mirrors_pure a
  | sequence _ _ first next => exact Run.mirrors_bind first next
  | step m own => exact own.mirrors
  | call id param => exact hl.call id param
  | report id param event => exact Run.mirrors_reporting (hl.call id param) event
  | poll => exact hl.poll
  | @linked _ f _ next =>
    change Run.Mirrors (f l.config l.table.plain l.patience l)
      (f l'.config l'.table.plain l'.patience l')
    rw [hl.config, hl.table, hl.patience, DispatchTable.plain_plain]
    exact next l.config l.table.plain l.patience

theorem Discreet.standing {l : Linkage β} (hl : l.Keeps Standing)
    {m : Linkage β → Run (Machine β) α} (h : Discreet m) : (m l).Keeps Standing :=
  h.within extends_standing.sequential (fun _ _ own => own.standing) hl

namespace FarCall

variable {resolve resolve' : Resolver β} {slot : DispatchSlot} {param : Option UInt8}
  {s t u : Machine β} {routine routine' : Option UInt8 → Run (Machine β) Unit}
  {bank : Bank} {rest : List StackEntry}

theorem conclude_of_framed (depth : Nat) (caller : Bank) (h : s.stack.entries =
      .returnTo slot.convention.returnSite :: .savedBank bank :: .returnTo .caller :: rest) :
    (restore slot >>= conclude depth caller) s = .done (.ok ()) (closed slot bank rest s) := by
  rw [Run.bind_of_done (restore_of_framed h)]
  rfl

theorem conclude_of_empty (slot : DispatchSlot) (depth : Nat) (caller : Bank)
    (h : s.stack.entries = []) : (restore slot >>= conclude depth caller) s =
      .done (.error .stackUnderflow) (unwound depth caller s) := by
  have hrestore : restore slot s = .done (.error .stackUnderflow) s :=
    Run.bind_of_done (Machine.popExpect_apply_empty h)
  rw [Run.bind_of_done hrestore, conclude_error]

theorem entries_unwound_of_empty (depth : Nat) (caller : Bank) (h : s.stack.entries = []) :
    (unwound depth caller s).stack.entries = [] := by
  unfold unwound
  rw [Machine.stack_mapped, Machine.stack_restacked]
  simp only [CallStack.truncate, h, List.drop_nil]

/-- The end of a call after a routine that left the frame on top, or cleared the stack. -/
theorem conclude_mirrors (depth : Nat) (caller : Bank) (ht : Standing (opened slot param s) t) :
    (restore slot.plain >>= conclude depth caller) t.plain =
      ((restore slot >>= conclude depth caller) t).through Machine.plain := by
  rcases ht with hframed | hcleared
  · have hplain : t.plain.stack.entries = .returnTo slot.plain.convention.returnSite ::
        .savedBank s.window.active :: .returnTo .caller :: s.stack.entries.map StackEntry.plain := by
      calc t.plain.stack.entries = (opened slot param s).stack.entries.map StackEntry.plain :=
            congrArg (List.map StackEntry.plain) hframed
        _ = (StackEntry.returnTo slot.convention.returnSite).plain :: .savedBank s.window.active ::
            .returnTo .caller :: s.stack.entries.map StackEntry.plain := rfl
        _ = _ := by rw [StackEntry.plain_site]; rfl
    rw [conclude_of_framed depth caller hplain, conclude_of_framed depth caller hframed]
    exact congrArg (Outcome.done _) (plain_closed ..).symm
  · have hplain : t.plain.stack.entries = [] := congrArg (List.map StackEntry.plain) hcleared
    rw [conclude_of_empty _ depth caller hplain, conclude_of_empty _ depth caller hcleared]
    exact congrArg (Outcome.done _) (plain_unwound ..).symm

theorem conclude_standing {depth : Nat} {caller : Bank} {result : Except CallError Unit}
    (ht : Standing (opened slot param s) t)
    (hrun : (restore slot >>= conclude depth caller) t = .done result u) : Standing s u := by
  rcases ht with hframed | hcleared
  · rw [conclude_of_framed depth caller hframed] at hrun
    cases hrun
    exact .inl rfl
  · rw [conclude_of_empty slot depth caller hcleared] at hrun
    cases hrun
    exact .inr (entries_unwound_of_empty depth caller hcleared)

theorem farCall_standing
    (hfound : resolve slot.target.logical (bankOf slot s.window.active) = some routine)
    (hroutine : (routine param).Keeps Standing) {result : Except CallError Unit}
    (hrun : farCall resolve slot param s = .done result t) : Standing s t := by
  by_cases hover : s.stack.capacity < s.stack.used + 5
  · rw [farCall_refused param hover hfound] at hrun
    cases hrun
    exact .inl (unmoved_refused slot s).entries
  · rw [farCall_of_fits (Nat.le_of_not_lt hover) hfound] at hrun
    obtain ⟨_, v, hbody, hend⟩ := Run.bind_eq_done.1 hrun
    exact conclude_standing (hroutine _ _ v hbody) hend

/-- A call in plain view is the call with one convention in place of both. -/
theorem farCall_mirrors
    (hfound : resolve slot.target.logical (bankOf slot s.window.active) = some routine)
    (hfound' : resolve' slot.target.logical (bankOf slot s.window.active) = some routine')
    (hroutine : (routine param).Keeps Standing)
    (hmirrors : (routine param).Mirrors (routine' param)) :
    (farCall resolve' slot.plain param).plain s.plain =
      ((farCall resolve slot param).plain s).through Machine.plain := by
  by_cases hover : s.stack.capacity < s.stack.used + 5
  · -- the two errors name different sites, which is all that tells them apart
    have hrefused' : farCall resolve' slot.plain param s.plain =
        .done (.error (overflow slot s.window.active s.stack).plain) (refused slot s).plain := by
      rw [plain_overflow, plain_refused]
      exact farCall_refused param hover hfound'
    unfold Run.plain
    rw [Run.bind_of_done hrefused', Run.bind_of_done (farCall_refused param hover hfound)]
    exact congrArg (fun e => Outcome.done (Except.error e) _) (CallError.plain_plain _)
  · have hfits : s.stack.used + 5 ≤ s.stack.capacity := Nat.le_of_not_lt hover
    have hcall' : farCall resolve' slot.plain param s.plain = (routine' param >>= fun _ =>
        restore slot.plain >>= conclude s.stack.depth s.window.active)
          (opened slot param s).plain := by
      rw [plain_opened, ← CallStack.depth_plain]
      exact farCall_of_fits (s := s.plain) hfits hfound'
    apply Run.plain_of_through
    rw [hcall', farCall_of_fits hfits hfound, Run.bind_apply, Run.bind_apply, hmirrors]
    cases hbody : routine param (opened slot param s) with
    | done a t => exact conclude_mirrors _ _ (hroutine _ a t hbody)
    | fault cause t => rfl
    | exhausted => rfl

end FarCall

namespace Linkage

variable {line : IrqLine} {s t u : Machine β}

theorem retire_of_framed {depth : Nat} {caller bank : Bank} {rest : List StackEntry}
    (h : s.stack.entries = .savedBank bank :: .returnTo .interrupt :: rest) :
    (leaveInterrupt >>= retire line depth caller) s =
      .done () (retired line ((s.mapped bank).restacked (s.stack.lowered 3 rest))) := by
  rw [Run.bind_of_done (leaveInterrupt_of_framed h)]
  rfl

theorem retire_of_empty {depth : Nat} {caller : Bank} (h : s.stack.entries = []) :
    (leaveInterrupt >>= retire line depth caller) s = .done () (retired line
      (FarCall.unwound depth caller (s.noted (.frameCorrupted line .stackUnderflow)))) := by
  have hleave : leaveInterrupt s = .done (.error .stackUnderflow) s :=
    Run.bind_of_done (Machine.popBank_apply_empty h)
  rw [Run.bind_of_done hleave]
  exact retire_error line depth caller .stackUnderflow (FarCall.unwind_apply ..)

/-- The end of an interrupt after a route that left the frame on top, or cleared the stack. -/
theorem retire_mirrors (depth : Nat) (caller : Bank) (ht : Standing (interrupted line s) t) :
    (leaveInterrupt >>= retire line depth caller) t.plain =
      ((leaveInterrupt >>= retire line depth caller) t).through Machine.plain := by
  rcases ht with hframed | hcleared
  · have hplain : t.plain.stack.entries = .savedBank s.window.active :: .returnTo .interrupt ::
        s.stack.entries.map StackEntry.plain :=
      congrArg (List.map StackEntry.plain) hframed
    rw [retire_of_framed hplain, retire_of_framed hframed]
    rw [← Machine.plain_mapped]
    rfl
  · have hplain : t.plain.stack.entries = [] := congrArg (List.map StackEntry.plain) hcleared
    rw [retire_of_empty hplain, retire_of_empty hcleared]
    apply congrArg (Outcome.done ())
    rw [plain_retired, FarCall.plain_unwound]
    rfl

theorem retire_standing {depth : Nat} {caller : Bank} (ht : Standing (interrupted line s) t)
    (hrun : (leaveInterrupt >>= retire line depth caller) t = .done () u) : Standing s u := by
  rcases ht with hframed | hcleared
  · rw [retire_of_framed hframed] at hrun
    cases hrun
    exact .inl rfl
  · rw [retire_of_empty hcleared] at hrun
    cases hrun
    let reported := t.noted (.frameCorrupted line .stackUnderflow)
    exact .inr (FarCall.entries_unwound_of_empty (s := reported) depth caller hcleared)

variable [RegisterBus β] {l l' : Linkage β}

theorem serviceInterrupt_standing (hroute : (l.route line).Keeps Standing) :
    (l.serviceInterrupt line).Keeps Standing := by
  intro s a t hrun
  by_cases hover : s.stack.capacity < s.stack.used + 3
  · obtain ⟨u, hunmoved, hservice⟩ := serviceInterrupt_of_overflow line hover
    rw [hservice] at hrun
    cases hrun
    exact .inl hunmoved.entries
  · rw [serviceInterrupt_of_fits l line (Nat.le_of_not_lt hover)] at hrun
    obtain ⟨_, v, hbody, hend⟩ := Run.bind_eq_done.1 hrun
    exact retire_standing (hroute _ _ v hbody) hend

theorem serviceInterrupt_mirrors (hroute : (l.route line).Keeps Standing)
    (hmirrors : (l.route line).Mirrors (l'.route line)) :
    (l.serviceInterrupt line).Mirrors (l'.serviceInterrupt line) := by
  intro s
  by_cases hover : s.stack.capacity < s.stack.used + 3
  · rw [serviceInterrupt_refused l line hover]
    rw [serviceInterrupt_refused (s := s.plain) l' line hover, ← plain_refused]
    rfl
  · have hfits : s.stack.used + 3 ≤ s.stack.capacity := Nat.le_of_not_lt hover
    rw [serviceInterrupt_of_fits l line hfits]
    rw [serviceInterrupt_of_fits (s := s.plain) l' line hfits, ← plain_interrupted]
    rw [Machine.stack_plain, CallStack.depth_plain, Machine.window_plain]
    rw [Run.bind_apply, Run.bind_apply, hmirrors]
    cases hbody : l.route line (interrupted line s) with
    | done a t => exact retire_mirrors _ _ (hroute _ a t hbody)
    | fault cause t => rfl
    | exhausted => rfl

end Linkage

namespace Firmware

/-- The firmware with the plain view of its table. -/
def plain (fw : Firmware β) : Firmware β := { fw with table := fw.table.plain }

/-- Every slot leads to a routine of the image, whatever is mapped when it is called. -/
def Complete (fw : Firmware β) : Prop :=
  ∀ id slot caller, fw.table.slot? id = some slot → ∃ placed ∈ fw.image.routines,
    fw.image.resolve slot.target.logical (FarCall.bankOf slot caller) = some placed

variable {fw : Firmware β} (hfw : fw.Complete) (himage : fw.image.Discreet)

include hfw himage

theorem callWith_standing {l : Linkage β} (hl : l.Keeps Standing) (id : SlotId)
    (param : Option UInt8) : (fw.callWith l id param).Keeps Standing := by
  intro s result t hrun
  cases hslot : fw.table.slot? id with
  | none =>
    unfold callWith at hrun
    rw [hslot] at hrun
    cases hrun
    exact .inl rfl
  | some slot =>
    rw [callWith_apply hslot] at hrun
    obtain ⟨placed, hplaced, hresolve⟩ := hfw id slot s.window.active hslot
    have hfound : fw.resolver l slot.target.logical (FarCall.bankOf slot s.window.active) =
        some (placed.body l) := congrArg (Option.map _) hresolve
    exact FarCall.farCall_standing (s := { s with stats := s.stats.called id }) hfound
      ((himage placed hplaced param).standing hl) hrun

theorem callWith_mirrors {l l' : Linkage β} (hl : l.Keeps Standing) (hmirrors : l.Mirrors l')
    (id : SlotId) (param : Option UInt8) :
    (fw.callWith l id param).plain.Mirrors (fw.plain.callWith l' id param).plain := by
  intro s
  have hslots : fw.plain.table.slot? id = (fw.table.slot? id).map DispatchSlot.plain :=
    DispatchTable.slot?_plain fw.table id
  cases hslot : fw.table.slot? id with
  | none =>
    rw [hslot] at hslots
    unfold callWith
    rw [hslots, hslot]
    rfl
  | some slot =>
    rw [hslot] at hslots
    obtain ⟨placed, hplaced, hresolve⟩ := hfw id slot s.window.active hslot
    have hfound (l : Linkage β) : fw.resolver l slot.target.logical
        (FarCall.bankOf slot s.window.active) = some (placed.body l) :=
      congrArg (Option.map _) hresolve
    have hcall := FarCall.farCall_mirrors (s := { s with stats := s.stats.called id }) (hfound l)
      (hfound l') ((himage placed hplaced param).standing hl)
      ((himage placed hplaced param).mirrors hmirrors)
    unfold Run.plain at hcall ⊢
    rw [Run.bind_apply, Run.bind_apply, callWith_apply hslot, callWith_apply hslots]
    exact hcall

variable [RegisterBus β]

theorem linkage_standing (n : Nat) : (fw.linkage n).Keeps Standing := by
  induction n with
  | zero => exact ⟨fun _ _ => Run.keeps_giveUp, Run.keeps_giveUp⟩
  | succ n ih =>
    refine ⟨callWith_standing hfw himage ih, ?_⟩
    intro s a t hrun
    rw [poll_linkage] at hrun
    cases hnext : s.irq.next? with
    | none =>
      rw [hnext] at hrun
      cases hrun
      exact .inl rfl
    | some line =>
      rw [hnext] at hrun
      have hservice := Linkage.serviceInterrupt_standing ((Discreet.route line).standing ih)
      exact Run.keeps_bind extends_standing hservice (fun _ => ih.poll) s a t hrun

/-- The linkage of a firmware of discreet routines is mirrored by that of the firmware with one
convention in place of both, by induction on the bound. -/
theorem linkage_mirrors (n : Nat) : (fw.linkage n).Mirrors (fw.plain.linkage n) := by
  induction n with
  | zero => exact ⟨rfl, rfl, rfl, fun _ _ => Run.mirrors_giveUp, Run.mirrors_giveUp⟩
  | succ n ih =>
    have hstanding := linkage_standing hfw himage n
    refine ⟨rfl, rfl, rfl, callWith_mirrors hfw himage hstanding ih, ?_⟩
    intro s
    rw [poll_linkage, poll_linkage, Machine.irq_plain]
    cases s.irq.next? with
    | none => rfl
    | some line =>
      have hroute := Discreet.route (β := β) line
      have hservice := Linkage.serviceInterrupt_mirrors (hroute.standing hstanding)
        (hroute.mirrors ih)
      exact Run.mirrors_bind hservice (fun _ => ih.poll) s

end Firmware

end BankedController
