import BankedController.Proofs.Conditions
import BankedController.Proofs.Sparing

/-! Scan steps nest at most two deep, since the endpoint line is in service while its scan runs. A
routine, a call and a preemption point leave a course as deep as the interrupts that may still be
taken, and a scan leaves one that is deeper by one. -/

namespace BankedController

open RegisterMap

variable {β α : Type}

/-- How deep scan steps can nest in the interrupts that are taken from a machine. -/
def interruptDepth (s : Machine β) : Nat :=
  if s.irq.isInService .endpoint then 0 else 1

theorem interruptDepth_of_eq {s t : Machine β} (h : t.irq.inService = s.irq.inService) :
    interruptDepth t = interruptDepth s := by
  unfold interruptDepth InterruptController.isInService
  rw [h]

namespace ConditionBus

variable [RegisterBus β] (b : ConditionBus β)

/-- From the one machine to the other every condition took its course, in which scan steps nested at
most `depth` deep. A step is skipped only where a dispatch failed. -/
structure Traces (depth : Nat) (s t : Machine (Journaled β)) : Prop where
  inService : t.irq.inService = s.irq.inService
  failures : s.stats.failures ≤ t.stats.failures
  told : b.wired s.bus.bus → ∃ entries, b.Told entries s.bus t.bus ∧
    ∀ c, Course (s.stats.failures < t.stats.failures) depth (b.pending c s.bus)
      (JournalEntry.marks c entries)

/-- Steps nested as deep as the interrupts that can be taken, and `extra` deep above that. -/
def Within (extra : Nat) (s t : Machine (Journaled β)) : Prop :=
  b.Traces (interruptDepth s + extra) s t

/-- The machine that has announced an offset to the handler. -/
def announced (offset : UInt8) (s : Machine (Journaled β)) : Machine (Journaled β) :=
  { s with bus := s.bus.entered (.handed offset) }

/-- A routine that announces itself before it does anything else. -/
def announcing (body : Routine (Journaled β)) : Routine (Journaled β) := fun l param => do
  match param with
  | some offset => Machine.onBus (Run.modify (Journaled.entered (.handed offset)))
  | none => pure ()
  body l param

/-- A routine that raises conditions at most, and calls neither the scan nor the handler. -/
structure Plain (body : Routine (Journaled β)) : Prop where
  composed : body.ComposedOf (StatusStep b)
  spares : ∀ param, Spares [.endpointScan, .endpointHandler] fun l => body l param

/-- Where the shipped table has the routine of the scan. -/
def scanTarget : CodeAddr := .ofLogical .bank1 0x9A3C

/-- Where the shipped table has the handler. -/
def handlerTarget : CodeAddr := .ofLogical .bank0 0xD27C

/-- An image in which the handler announces itself, the place of the scan is free for the core
routine, and every other routine is plain. -/
structure Prepared (image : CodeImage (Routine (Journaled β))) : Prop where
  handler : ∀ placed ∈ image.routines, placed.addr = handlerTarget →
    ∃ body, b.Plain body ∧ placed.body = announcing body
  other : ∀ placed ∈ image.routines, placed.addr ≠ handlerTarget →
    placed.addr ≠ scanTarget ∧ b.Plain placed.body

/-- What the calls and the preemption points of a linkage leave of the conditions. -/
structure Serves (l : Linkage (Journaled β)) : Prop where
  call : ∀ id, id ≠ .endpointScan → id ≠ .endpointHandler → ∀ param,
    (l.call id param).Keeps (b.Within 0)
  scan : ∀ param, (l.call .endpointScan param).Keeps (b.Within 1)
  handler : ∀ offset s r t, l.call .endpointHandler (some offset) s = .done r t →
    r = .ok () ∧ b.Traces (interruptDepth s) (announced offset s) t ∨
      ∃ e, r = .error e ∧ t.bus = s.bus ∧ t.irq.inService = s.irq.inService ∧
        t.stats.failures = s.stats.failures
  poll : l.poll.Keeps (b.Within 0)

variable {b} {depth extra : Nat} {s t u : Machine (Journaled β)}

theorem Traces.deeper (h : b.Traces depth s t) : b.Traces (depth + 1) s t := by
  refine ⟨h.inService, h.failures, fun hs => ?_⟩
  obtain ⟨entries, htold, hcourse⟩ := h.told hs
  exact ⟨entries, htold, fun c => (hcourse c).deeper⟩

/-- All that matters of a machine here is its bus, its lines in service and its failures. -/
theorem Traces.of_eq {s' t' : Machine (Journaled β)} (h : b.Traces depth s t)
    (hbus : s'.bus = s.bus) (hservice : s'.irq.inService = s.irq.inService)
    (hfailures : s'.stats.failures = s.stats.failures) (hbus' : t'.bus = t.bus)
    (hservice' : t'.irq.inService = t.irq.inService)
    (hfailures' : t'.stats.failures = t.stats.failures) : b.Traces depth s' t' := by
  refine ⟨?_, ?_, ?_⟩
  · rw [hservice', hservice, h.inService]
  · rw [hfailures', hfailures]
    exact h.failures
  · rw [hbus, hbus', hfailures, hfailures']
    exact h.told

theorem Traces.trans (h : b.Traces depth s t) (h' : b.Traces depth t u) : b.Traces depth s u := by
  refine ⟨h'.inService.trans h.inService, h.failures.trans h'.failures, fun hs => ?_⟩
  obtain ⟨first, htold, hcourse⟩ := h.told hs
  obtain ⟨second, htold', hcourse'⟩ := h'.told htold.wired
  refine ⟨first ++ second, htold.trans htold', fun c => ?_⟩
  have hle := h.failures
  have hle' := h'.failures
  rw [JournalEntry.marks_append]
  refine Course.append ((hcourse c).weaken fun _ => by omega) ?_
  rw [← htold.pending]
  exact (hcourse' c).weaken fun _ => by omega

theorem traces_of_aside (hservice : t.irq.inService = s.irq.inService)
    (hfailures : s.stats.failures ≤ t.stats.failures) (h : b.Aside s.bus t.bus) :
    b.Traces depth s t :=
  ⟨hservice, hfailures, fun hs => ⟨[], told_of_aside h hs, fun _ => .nil⟩⟩

theorem extends_within : Extends (b.Within extra) := by
  refine ⟨fun s => traces_of_aside rfl (Nat.le_refl _) (extends_aside.refl _), ?_⟩
  intro s t u h h'
  unfold Within at h' ⊢
  rw [interruptDepth_of_eq h.inService] at h'
  exact h.trans h'

theorem tolerates_within : Tolerates (b.Within extra) where
  toExtends := extends_within
  failed _ := traces_of_aside rfl (Nat.le_succ _) (extends_aside.refl _)
  note _ _ := traces_of_aside rfl (Nat.le_refl _) (extends_aside.refl _)
  global _ _ := traces_of_aside rfl (Nat.le_refl _) (extends_aside.refl _)

theorem Within.succ (h : b.Within extra s t) : b.Within (extra + 1) s t := h.deeper

theorem StatusStep.within {m : Run (Machine (Journaled β)) α} (h : StatusStep b α m) :
    m.Keeps (b.Within extra) := by
  intro s a t hrun
  have hservice : t.irq.inService = s.irq.inService := (h.own.kept s a t hrun).inService
  have hstats : t.stats = s.stats := h.own.stats hrun
  cases h with
  | raise e mask =>
    refine ⟨hservice, by rw [hstats], fun hs => ?_⟩
    cases hrun
    refine ⟨_, told_raise e mask hs, fun c => ?_⟩
    rw [JournalEntry.marks_singleton]
    unfold JournalEntry.mark?
    dsimp only
    by_cases hin : e = c.endpoint ∧ c.isIn mask = true
    · rw [if_pos hin]
      exact .raised .nil
    · rw [if_neg hin]
      exact .nil
  | aside m own haside =>
    exact traces_of_aside hservice (by rw [hstats]) (haside s a t hrun)

/-- An offset past those of the conditions is no condition's. -/
theorem mark?_forced (c : Condition) :
    JournalEntry.mark? c (.handed Endpoint.forcedOffset) = none := by
  refine if_neg fun h => ?_
  have hnat := congrArg UInt8.toNat h
  rw [Condition.toNat_offset] at hnat
  have hforced : Endpoint.forcedOffset.toNat = 64 := rfl
  omega

section Scan

variable {l : Linkage (Journaled β)} (hl : b.Serves l)

include hl

theorem dispatch_within {id : SlotId} (hscan : id ≠ .endpointScan) (hhandler : id ≠ .endpointHandler)
    (param : Option UInt8) : (l.dispatch id param).Keeps (b.Within 0) := by
  refine Run.keeps_bind extends_within (hl.call id hscan hhandler param) fun result => ?_
  cases result with
  | ok => exact Run.keeps_pure extends_within _
  | error e =>
    exact Run.keeps_bind extends_within (Run.keeps_modify tolerates_within.failed) fun _ =>
      Run.keeps_modify (tolerates_within.note _)

/-- The handler is entered and announced, or the dispatch fails. -/
theorem dispatch_handler {offset : UInt8}
    (h : l.dispatch .endpointHandler (some offset) s = .done () t) :
    b.Traces (interruptDepth s) (announced offset s) t ∨
      t.bus = s.bus ∧ t.irq.inService = s.irq.inService ∧
        t.stats.failures = s.stats.failures + 1 := by
  obtain ⟨result, u, hcall, hrest⟩ := Run.bind_eq_done.1 h
  rcases hl.handler offset s result u hcall with ⟨rfl, htraces⟩ | ⟨e, rfl, hbus, hservice, hfailures⟩
  · cases hrest
    exact .inl htraces
  · cases hrest
    refine .inr ⟨hbus, hservice, ?_⟩
    change u.stats.failures + 1 = s.stats.failures + 1
    rw [hfailures]

theorem forced_within : (l.dispatch .endpointHandler (some Endpoint.forcedOffset)).Keeps
    (b.Within 1) := by
  intro s _ t h
  rcases dispatch_handler hl h with htraces | ⟨hbus, hservice, hfailures⟩
  · refine ⟨htraces.inService, htraces.failures, fun hs => ?_⟩
    obtain ⟨entries, htold, hcourse⟩ := htraces.told hs
    refine ⟨_, (told_handed _ hs).trans htold, fun c => ?_⟩
    have hpending := (told_handed Endpoint.forcedOffset hs).pending c
    rw [JournalEntry.marks_singleton, mark?_forced] at hpending
    rw [JournalEntry.marks_append, JournalEntry.marks_singleton, mark?_forced]
    have hc := hcourse c
    change Course _ _ (b.pending c (s.bus.entered _)) _ at hc
    rw [hpending] at hc
    exact hc.deeper
  · refine traces_of_aside hservice (by omega) ?_
    rw [hbus]
    exact extends_aside.refl _

/-- A step from the dispatch on leaves the lines in service, and forgets no failure. -/
theorem step_failures {c : Condition}
    (hdispatch : l.dispatch .endpointHandler (some c.offset) s = .done () t)
    (hclear : Machine.write (Condition.register c.endpoint) c.mask t = .done () u) :
    u.irq.inService = s.irq.inService ∧ s.stats.failures ≤ u.stats.failures := by
  obtain ⟨bus, -, rfl⟩ := Machine.onBus_eq_done hclear
  rcases dispatch_handler hl hdispatch with htraces | ⟨-, hservice, hfailures⟩
  · exact ⟨htraces.inService, htraces.failures⟩
  · refine ⟨hservice, ?_⟩
    change s.stats.failures ≤ t.stats.failures
    omega

/-- A step from the dispatch on: the condition was pending, is handed over, and is cleared when the
handler has returned. -/
theorem step_courses {c : Condition} (hs : b.wired s.bus.bus) (hpending : b.pending c s.bus = true)
    (hdispatch : l.dispatch .endpointHandler (some c.offset) s = .done () t)
    (hclear : Machine.write (Condition.register c.endpoint) c.mask t = .done () u) :
    ∃ entries, b.Told entries s.bus u.bus ∧
      ∀ c', Course (s.stats.failures < u.stats.failures) (interruptDepth s + 1) (b.pending c' s.bus)
        (JournalEntry.marks c' entries) := by
  obtain ⟨bus, hwrite, rfl⟩ := Machine.onBus_eq_done hclear
  rcases dispatch_handler hl hdispatch with htraces | ⟨hbus, -, hfailures⟩
  · have hhanded := told_handed c.offset hs
    obtain ⟨entries, htold, hcourse⟩ := htraces.told hs
    have hcleared := told_clear c htold.wired hwrite
    refine ⟨_, (hhanded.trans htold).trans hcleared, fun c' => ?_⟩
    have hinner := hcourse c'
    have hsame := hhanded.pending c'
    change Course _ _ (b.pending c' (s.bus.entered _)) _ at hinner
    rw [hsame] at hinner
    rw [JournalEntry.marks_append, JournalEntry.marks_append, JournalEntry.marks_singleton,
      JournalEntry.marks_singleton, JournalEntry.mark?_cleared]
    rw [JournalEntry.marks_singleton] at hinner
    rw [JournalEntry.mark?_handed] at hinner ⊢
    by_cases hc : c = c'
    · subst hc
      rw [if_pos rfl, hpending] at hinner
      rw [if_pos rfl, if_pos rfl, hpending]
      exact .served hinner .nil
    · rw [if_neg hc] at hinner
      rw [if_neg hc, if_neg hc]
      change Course _ _ _ (JournalEntry.marks c' entries ++ [])
      rw [List.append_nil]
      exact hinner.deeper
  · rw [hbus] at hwrite
    refine ⟨_, told_clear c hs hwrite, fun c' => ?_⟩
    rw [JournalEntry.marks_singleton, JournalEntry.mark?_cleared]
    by_cases hc : c = c'
    · subst hc
      rw [if_pos rfl, hpending]
      refine .skip ?_ .nil
      change s.stats.failures < t.stats.failures
      omega
    · rw [if_neg hc]
      exact .nil

theorem scanStep_within : l.scanStep.Keeps (b.Within 1) := by
  have still {α : Type} {m : Run (Machine (Journaled β)) α} (h : StatusStep b α m)
      {s t : Machine (Journaled β)} {a : α} (hrun : m s = .done a t) : b.Within 1 s t :=
    h.within s a t hrun
  have hP := admits_statusStep (b := b)
  intro s found t h
  unfold Linkage.scanStep at h
  obtain ⟨primary, s₁, hprimary, h⟩ := Run.bind_eq_done.1 h
  obtain ⟨_, s₂, hindex, h⟩ := Run.bind_eq_done.1 h
  have htwo : b.Within 1 s s₂ := extends_within.trans (still (hP.read _) hprimary)
    (still (hP.write _ _ (show Apart endpointIndex by decide)) hindex)
  by_cases hnone : Endpoint.lowestBit primary ≥ Endpoint.count
  · rw [if_pos hnone] at h
    cases h
    exact htwo
  rw [if_neg hnone] at h
  obtain ⟨index, s₃, hlatched, h⟩ := Run.bind_eq_done.1 h
  have hthree := extends_within.trans htwo (still (hP.read _) hlatched)
  by_cases hlarge : index ≥ Endpoint.count
  · rw [if_pos hlarge] at h
    cases h
    exact hthree
  rw [if_neg hlarge] at h
  obtain ⟨secondary, s₄, hsecondary, h⟩ := Run.bind_eq_done.1 h
  have hfour := extends_within.trans hthree (still (hP.read _) hsecondary)
  by_cases hidle : Endpoint.lowestBit secondary ≥ Endpoint.count
  · rw [if_pos hidle] at h
    cases h
    exact hfour
  rw [if_neg hidle] at h
  obtain ⟨_, s₅, hoffset, h⟩ := Run.bind_eq_done.1 h
  obtain ⟨_, s₆, hnote, h⟩ := Run.bind_eq_done.1 h
  obtain ⟨_, s₇, hdispatch, h⟩ := Run.bind_eq_done.1 h
  obtain ⟨_, s₈, hclear, h⟩ := Run.bind_eq_done.1 h
  cases h
  have hsix : b.Within 1 s₄ s₆ := extends_within.trans
    (still (hP.write _ _ (show Apart endpointOffset by decide)) hoffset) (still (hP.note _) hnote)
  have hcount : Endpoint.count.toNat = 8 := rfl
  have hlt : index.toNat < 8 := by
    rw [ge_iff_le, UInt8.le_iff_toNat_le, hcount] at hlarge
    omega
  have hbit : (Endpoint.lowestBit secondary).toNat < 8 := by
    rw [ge_iff_le, UInt8.le_iff_toNat_le, hcount] at hidle
    omega
  let c : Condition := ⟨⟨index.toNat, hlt⟩, ⟨(Endpoint.lowestBit secondary).toNat, hbit⟩⟩
  have hendpoint : UInt8.ofNat c.endpoint.val = index := UInt8.ofNat_toNat
  have hsub : UInt8.ofNat c.bit.val = Endpoint.lowestBit secondary := UInt8.ofNat_toNat
  have hregister : Condition.register c.endpoint = endpointSecondaryBase + index.toUInt16 := by
    unfold Condition.register
    rw [hendpoint]
  have hoff : c.offset = Endpoint.offsetBase index + Endpoint.lowestBit secondary := by
    unfold Condition.offset
    rw [hendpoint, hsub]
  have hmask : c.mask = Endpoint.conditionBit (Endpoint.lowestBit secondary) := by
    unfold Condition.mask
    rw [hsub]
  rw [← hoff] at hdispatch
  rw [← hregister, ← hmask] at hclear
  rw [← hregister] at hsecondary
  have hbefore : b.Within 1 s s₆ := extends_within.trans hfour hsix
  have haside : b.Aside s₃.bus s₆.bus := by
    obtain ⟨bus₄, hread, rfl⟩ := Machine.onBus_eq_done hsecondary
    obtain ⟨bus₅, hwrite, rfl⟩ := Machine.onBus_eq_done hoffset
    cases hnote
    exact extends_aside.trans (aside_read hread) (aside_write (by decide) hwrite)
  have hpending (hthird : b.wired s₃.bus.bus) : b.pending c s₆.bus = true := by
    obtain ⟨bus₄, hread, -⟩ := Machine.onBus_eq_done hsecondary
    have hvalue := read_register hthird hread
    obtain ⟨-, hconditions, -⟩ := haside hthird
    unfold pending
    rw [hconditions, ← hvalue]
    unfold Condition.isIn
    rw [hmask]
    exact decide_eq_true (Endpoint.and_lowestBit (UInt8.not_le.1 hidle))
  obtain ⟨hservice, hfailures⟩ := step_failures hl hdispatch hclear
  refine ⟨hservice.trans hbefore.inService, hbefore.failures.trans hfailures, fun hs => ?_⟩
  obtain ⟨seen, hthird, -⟩ := hthree.told hs
  have hdepth := interruptDepth_of_eq hbefore.inService
  have hstep : b.Traces (interruptDepth s + 1) s₆ t := by
    refine ⟨hservice, hfailures, fun hsixth => ?_⟩
    rw [← hdepth]
    exact step_courses hl hsixth (hpending hthird.wired) hdispatch hclear
  exact (hbefore.trans hstep).told hs

theorem scanSteps_within (limit : Nat) : (l.scanSteps limit).Keeps (b.Within 1) := by
  induction limit with
  | zero => exact Run.keeps_pure extends_within _
  | succ limit ih =>
    refine Run.keeps_bind extends_within (scanStep_within hl) fun found => ?_
    cases found with
    | none => exact Run.keeps_pure extends_within _
    | some offset =>
      exact Run.keeps_bind extends_within ih fun _ => Run.keeps_pure extends_within _

omit hl in
theorem masterReady_within : (Linkage.masterReady (β := Journaled β)).Keeps (b.Within 1) := by
  have hread : (Machine.read peripheralStatus).Keeps (b.Within 1) :=
    (admits_statusStep.read peripheralStatus).within
  exact Run.keeps_bind extends_within hread fun _ => Run.keeps_pure extends_within _

omit hl in
theorem note_within (event : Event) : (Machine.note event).Keeps (b.Within extra) :=
  Run.keeps_modify (tolerates_within.note event)

theorem scanFrom_within (forced : Bool) (limit : UInt8) :
    (l.scanFrom forced limit).Keeps (b.Within 1) := by
  have hmaster : (l.dispatch .masterEvent none).Keeps (b.Within 1) := fun s _ t h =>
    (dispatch_within hl (by decide) (by decide) none s _ t h).succ
  have hdone {report : Endpoint.ScanReport} :
      (pure report : Run (Machine (Journaled β)) _).Keeps (b.Within 1) :=
    Run.keeps_pure extends_within _
  have hlimit {report : Endpoint.ScanReport} :
      (Machine.note (.scanLimitReached limit) >>= fun _ => pure report :
        Run (Machine (Journaled β)) _).Keeps (b.Within 1) :=
    Run.keeps_bind extends_within (note_within _) fun _ => hdone
  refine Run.keeps_bind extends_within (scanSteps_within hl _) fun done => ?_
  refine Run.keeps_bind extends_within masterReady_within fun master => ?_
  exact Run.keeps_branch
    (Run.keeps_bind extends_within hmaster fun _ => Run.keeps_branch hlimit hdone)
    (Run.keeps_branch hlimit hdone)

/-- The scan nests its steps one deeper than the interrupts that are taken in them. -/
theorem scanRoutine_within (param : Option UInt8) :
    (scanRoutine l param).Keeps (b.Within 1) := by
  have hscan : l.scan.Keeps (b.Within 1) := by
    refine Run.keeps_bind extends_within masterReady_within fun forced => ?_
    have hsteps := scanFrom_within hl forced (min l.config.scanLimit FirmwareConfig.maxScanSteps)
    refine Run.keeps_branch ?_ hsteps
    refine Run.keeps_bind extends_within (note_within _) fun _ => ?_
    exact Run.keeps_bind extends_within (forced_within hl) fun _ => hsteps
  exact Run.keeps_bind extends_within hscan fun _ => note_within _

end Scan

end ConditionBus

end BankedController
