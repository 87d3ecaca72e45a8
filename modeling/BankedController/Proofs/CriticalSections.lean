import BankedController.Proofs.ClosedRegions

/-! In a region without the global enable no line is taken and no edge is lost. At a preemption
point an edge is gone only if it was delivered, and no line stands in service more often than
before. -/

namespace BankedController

open RegisterMap

variable {β α : Type}

namespace InterruptController

/-- How often a line stands in service. -/
def serving (c : InterruptController) (line : IrqLine) : Nat :=
  c.inService.countP fun entry => entry.1 = line

theorem serving_acknowledge (c : InterruptController) (taken line : IrqLine) :
    (c.acknowledge taken).serving line = c.serving line + if taken = line then 1 else 0 := by
  unfold serving acknowledge
  simp [List.countP_cons]

theorem serving_complete (c : InterruptController) (completed line : IrqLine) :
    (c.complete completed).serving line = c.serving line - if completed = line then 1 else 0 := by
  unfold serving complete
  dsimp only
  induction c.inService with
  | nil => simp
  | cons entry rest ih =>
    by_cases hentry : entry.1 = completed
    · rw [List.eraseP_cons_of_pos (by simpa using hentry), List.countP_cons]
      by_cases hline : completed = line <;> simp [hentry, hline]
    · rw [List.eraseP_cons_of_neg (by simpa using hentry), List.countP_cons, List.countP_cons, ih]
      by_cases hline : completed = line
      · have hother : entry.1 ≠ line := fun h => hentry (h.trans hline.symm)
        simp [hother]
      · simp [hline]

theorem inService_eq_nil {c : InterruptController} (h : ∀ line, c.serving line = 0) :
    c.inService = [] := by
  refine List.eq_nil_iff_forall_not_mem.2 fun entry hentry => ?_
  exact List.countP_eq_zero.1 (h entry.1) entry hentry (by simp)

/-- With nothing in service, a line that is not taken though it may be is not pending. -/
theorem pending_of_next?_eq_none {c : InterruptController} (hnone : c.next? = none)
    (hglobal : c.globallyEnabled = true) (hservice : c.inService = []) {line : IrqLine}
    (henabled : c.lineEnabled line = true) : c.pending.get line = false := by
  have hline := next?_eq_none_iff.1 hnone line
  unfold deliverable isInService outranks at hline
  simpa [hglobal, henabled, hservice] using hline

end InterruptController

/-- A record of the edges that were raised on each line, which is kept with the bus. An access to
the bus enters nothing. -/
structure EdgeRecord (β : Type) [RegisterBus β] where
  raised : β → IrqLine → Nat
  read {bus bus' : β} {addr : UInt16} {value : UInt8} :
    RegisterBus.read addr bus = .done value bus' → raised bus' = raised bus
  write {bus bus' : β} {addr : UInt16} {value : UInt8} :
    RegisterBus.write addr value bus = .done () bus' → raised bus' = raised bus

/-- Between two machines no line was taken and no edge was lost. Of the lines in service, at most
those in `lines` were completed. -/
structure Untaken (lines : List IrqLine) (s t : Machine β) : Prop where
  enable : t.irq.enable = s.irq.enable
  delivered : t.irq.delivered = s.irq.delivered
  pending : ∀ line, s.irq.pending.get line = true → t.irq.pending.get line = true
  inService : t.irq.inService.Sublist s.irq.inService
  others : t.irq.inService.filter (fun entry => entry.1 ∉ lines) =
    s.irq.inService.filter fun entry => entry.1 ∉ lines

/-- And the edges that were raised are pending. -/
structure Latched [RegisterBus β] (record : EdgeRecord β) (lines : List IrqLine) (s t : Machine β) :
    Prop extends Untaken lines s t where
  raised : ∀ line, record.raised s.bus line < record.raised t.bus line →
    t.irq.pending.get line = true

/-- Between two machines lines may have been taken. An edge that is gone was delivered, and no line
stands in service more often than before. -/
structure Delivers (s t : Machine β) : Prop where
  enable : t.irq.enable = s.irq.enable
  delivered : ∀ line, s.irq.delivered.get line ≤ t.irq.delivered.get line
  pending : ∀ line, s.irq.pending.get line = true →
    t.irq.pending.get line = true ∨ s.irq.delivered.get line < t.irq.delivered.get line
  serving : ∀ line, t.irq.serving line ≤ s.irq.serving line

namespace Untaken

variable {lines : List IrqLine} {s t u : Machine β}

theorem of_irq (h : t.irq = s.irq) : Untaken lines s t where
  enable := by rw [h]
  delivered := by rw [h]
  pending line hline := by rwa [h]
  inService := h ▸ .refl _
  others := by rw [h]

theorem trans (h : Untaken lines s t) (h' : Untaken lines t u) : Untaken lines s u where
  enable := h'.enable.trans h.enable
  delivered := h'.delivered.trans h.delivered
  pending line hline := h'.pending line (h.pending line hline)
  inService := h'.inService.trans h.inService
  others := h'.others.trans h.others

theorem raise (line : IrqLine) (s : Machine β) :
    Untaken lines s { s with irq := s.irq.raise line } := by
  refine ⟨rfl, rfl, fun other hother => ?_, .refl _, rfl⟩
  change (s.irq.pending.set line true).get other = true
  rw [PerLine.get_set]
  split
  · rfl
  · exact hother

/-- Where no line may be completed, the lines in service are the same. -/
theorem inService_eq (h : Untaken [] s t) : t.irq.inService = s.irq.inService := by
  have hothers := h.others
  rwa [List.filter_eq_self.2 (by simp), List.filter_eq_self.2 (by simp)] at hothers

theorem delivers (h : Untaken lines s t) : Delivers s t where
  enable := h.enable
  delivered line := Nat.le_of_eq (by rw [h.delivered])
  pending line hline := .inl (h.pending line hline)
  serving line := h.inService.countP_le

/-- The global enable is put back at the end of a critical section. -/
theorem reopened (h : Untaken lines { s with irq := s.irq.setGlobal false } t) :
    Untaken lines s { t with irq := t.irq.setGlobal s.irq.globallyEnabled } :=
  ⟨InterruptController.enable_setGlobal h.enable, h.delivered, h.pending, h.inService, h.others⟩

end Untaken

/-- Accesses to the bus take no line. -/
theorem admits_untaken [RegisterBus β] {lines : List IrqLine} {A : UInt16 → UInt8 → Prop} :
    Admits (Keeping (Untaken lines) : Steps β) A := by
  have honBus {γ : Type} (m : Run β γ) : (Machine.onBus m).Keeps (Untaken lines) := by
    intro s c t hrun
    obtain ⟨bus, -, rfl⟩ := Machine.onBus_eq_done hrun
    exact .of_irq rfl
  exact ⟨fun _ => Run.keeps_modify fun _ => .of_irq rfl, fun _ => honBus _, fun _ _ _ => honBus _⟩

section Latching

variable [RegisterBus β] {record : EdgeRecord β} {lines : List IrqLine}

theorem extends_latched : Extends (Latched record lines) where
  refl s := ⟨.of_irq rfl, fun line hline => absurd hline (Nat.lt_irrefl _)⟩
  trans {s t u} h h' := by
    refine ⟨h.toUntaken.trans h'.toUntaken, fun line hline => ?_⟩
    by_cases hfirst : record.raised s.bus line < record.raised t.bus line
    · exact h'.pending line (h.raised line hfirst)
    · exact h'.raised line (Nat.lt_of_le_of_lt (Nat.le_of_not_lt hfirst) hline)

theorem latched_of_still {s t : Machine β} (hbus : t.bus = s.bus) (hirq : t.irq = s.irq) :
    Latched record lines s t := by
  refine ⟨.of_irq hirq, fun line hline => ?_⟩
  rw [hbus] at hline
  exact absurd hline (Nat.lt_irrefl _)

/-- An edge that is raised is pending, and the record is of no other. -/
theorem latched_of_raise {line : IrqLine} {s t : Machine β} (hirq : t.irq = s.irq.raise line)
    (hrecord : ∀ other, other ≠ line → record.raised t.bus other = record.raised s.bus other) :
    Latched record lines s t := by
  refine ⟨(Untaken.raise line s).trans (.of_irq hirq), fun other hother => ?_⟩
  have hline : other = line := Decidable.byContradiction fun hne => by
    rw [hrecord other hne] at hother
    exact Nat.lt_irrefl _ hother
  rw [hirq, hline]
  exact (PerLine.get_set ..).trans (if_pos rfl)

theorem callKeeping_latched : CallKeeping (Keeping (Latched record lines)) :=
  .of_still extends_latched latched_of_still

theorem latched_critical {body : Run (Machine β) α} (h : body.Keeps (Latched record lines)) :
    (Machine.critical body).Keeps (Latched record lines) := by
  intro s a t hrun
  obtain ⟨u, hbody, rfl⟩ := Machine.critical_eq_done hrun
  have hu := h _ a u hbody
  exact ⟨hu.toUntaken.reopened, hu.raised⟩

/-- Where no line is served, nothing is taken and no edge is lost. -/
theorem latched_alarmed {fw : Firmware β}
    (himage : fw.image.ComposedOf (Keeping (Latched record lines))) (n : Nat)
    {m : Linkage β → Run (Machine β) α} (hm : Composed (Keeping (Latched record lines)) m) :
    (m (fw.alarmed n)).Keeps (Latched record lines) :=
  Composed.within (callKeeping_latched.carries fun _ => latched_critical) (fun _ _ hown => hown)
    (fw.keeps_alarmed callKeeping_latched extends_latched (fun _ => latched_critical) himage n) hm

/-- Accesses to the bus neither take a line nor raise one. -/
theorem admits_latched {A : UInt16 → UInt8 → Prop} :
    Admits (Keeping (Latched record lines)) A := by
  have honBus {γ : Type} {m : Run β γ}
      (hm : ∀ bus c bus', m bus = .done c bus' → record.raised bus' = record.raised bus) :
      (Machine.onBus m).Keeps (Latched record lines) := by
    intro s c t hrun
    obtain ⟨bus, hbus, rfl⟩ := Machine.onBus_eq_done hrun
    refine ⟨.of_irq rfl, fun line hline => ?_⟩
    dsimp only at hline
    rw [hm _ _ _ hbus] at hline
    exact absurd hline (Nat.lt_irrefl _)
  exact ⟨callKeeping_latched.note, fun _ => honBus fun _ _ _ => record.read,
    fun _ _ _ => honBus fun _ _ _ => record.write⟩

end Latching

section Delivery

theorem Delivers.of_irq {s t : Machine β} (h : t.irq = s.irq) : Delivers s t :=
  Untaken.delivers (.of_irq h : Untaken [] s t)

theorem extends_delivers : Extends (Delivers : Machine β → Machine β → Prop) where
  refl _ := .of_irq rfl
  trans {s t u} h h' := by
    refine ⟨h'.enable.trans h.enable,
      fun line => Nat.le_trans (h.delivered line) (h'.delivered line), fun line hline => ?_,
      fun line => Nat.le_trans (h'.serving line) (h.serving line)⟩
    rcases h.pending line hline with hpending | hdelivered
    · rcases h'.pending line hpending with hpending' | hdelivered'
      · exact .inl hpending'
      · exact .inr (Nat.lt_of_le_of_lt (h.delivered line) hdelivered')
    · exact .inr (Nat.lt_of_lt_of_le hdelivered (h'.delivered line))

theorem callKeeping_delivers : CallKeeping (Keeping (Delivers : Machine β → Machine β → Prop)) :=
  .of_still extends_delivers fun _ hirq => .of_irq hirq

theorem delivers_critical {body : Run (Machine β) α} (h : body.Keeps Delivers) :
    (Machine.critical body).Keeps Delivers := by
  intro s a t hrun
  obtain ⟨u, hbody, rfl⟩ := Machine.critical_eq_done hrun
  have hu := h _ a u hbody
  exact ⟨InterruptController.enable_setGlobal hu.enable, hu.delivered, hu.pending, hu.serving⟩

/-- The service of a line delivers its edge and puts it into service for as long as it lasts. -/
theorem delivers_serviceInterrupt [RegisterBus β] {l : Linkage β} {line : IrqLine}
    (hroute : (l.route line).Keeps Delivers) : (l.serviceInterrupt line).Keeps Delivers := by
  intro s a t hrun
  rw [Linkage.serviceInterrupt_eq] at hrun
  obtain ⟨_, taken, htake, hrun⟩ := Run.bind_eq_done.1 hrun
  cases htake
  obtain ⟨_, u, hserve, hrun⟩ := Run.bind_eq_done.1 hrun
  cases hrun
  have hu := callKeeping_delivers.serve hroute _ _ u hserve
  have hcount (other : IrqLine) : (s.irq.acknowledge line).delivered.get other =
      if other = line then s.irq.delivered.get line + 1 else s.irq.delivered.get other :=
    PerLine.get_set ..
  have hmore := hu.delivered
  dsimp only at hmore
  refine ⟨hu.enable, fun other => ?_, fun other hother => ?_, fun other => ?_⟩
  · refine Nat.le_trans ?_ (hmore other)
    rw [hcount]
    split
    next h =>
      rw [h]
      exact Nat.le_succ _
    next => exact Nat.le_refl _
  · by_cases hline : other = line
    · refine .inr (Nat.lt_of_lt_of_le ?_ (hmore other))
      rw [hcount, if_pos hline, hline]
      exact Nat.lt_succ_self _
    · have hpending : (s.irq.acknowledge line).pending.get other = true := by
        refine (PerLine.get_set ..).trans ?_
        rwa [if_neg hline]
      rcases hu.pending other hpending with hpending' | hdelivered
      · exact .inl hpending'
      · refine .inr ?_
        dsimp only at hdelivered
        rwa [hcount, if_neg hline] at hdelivered
  · have hserving := hu.serving other
    dsimp only at hserving ⊢
    rw [InterruptController.serving_acknowledge] at hserving
    rw [InterruptController.serving_complete]
    omega

variable [RegisterBus β] {fw : Firmware β}

/-- At the end of a preemption point there is nothing to take. -/
theorem Firmware.next?_of_poll {n : Nat} {s t : Machine β}
    (h : (fw.linkage n).poll s = .done () t) : t.irq.next? = none := by
  induction n generalizing s with
  | zero => cases h
  | succ n ih =>
    rw [poll_linkage] at h
    split at h
    next hnone =>
      cases h
      exact hnone
    next =>
      obtain ⟨_, u, -, hrest⟩ := Run.bind_eq_done.1 h
      exact ih hrest

/-- A preemption point with nothing in service delivers every edge of an enabled line. -/
theorem Firmware.delivered_of_poll {P : Steps β} (hP : ∀ α m, P α m → m.Keeps Delivers)
    (hroute : Admits P RouteWrite) (himage : fw.image.ComposedOf P) {n : Nat} {s t : Machine β}
    (hpoll : (fw.linkage n).poll s = .done () t) (hglobal : s.irq.globallyEnabled = true)
    (hservice : s.irq.inService = []) {line : IrqLine} (hpending : s.irq.pending.get line = true)
    (henabled : s.irq.lineEnabled line = true) :
    s.irq.delivered.get line < t.irq.delivered.get line ∧ t.irq.pending.get line = false := by
  have hlinkage := callKeeping_delivers.linkage hP (fun _ => delivers_critical)
    (fun _ _ => delivers_serviceInterrupt) hroute himage n
  have hst := hlinkage.poll s () t hpoll
  have hempty : t.irq.inService = [] := by
    refine InterruptController.inService_eq_nil fun other => Nat.le_zero.1 ?_
    have hnone : s.irq.serving other = 0 := by
      unfold InterruptController.serving
      rw [hservice]
      rfl
    exact hnone ▸ hst.serving other
  have hsame : t.irq.globallyEnabled = true ∧ t.irq.lineEnabled line = true := by
    have henable := hst.enable
    unfold InterruptController.globallyEnabled InterruptController.lineEnabled
    rw [henable]
    exact ⟨hglobal, henabled⟩
  have hgone := InterruptController.pending_of_next?_eq_none (next?_of_poll hpoll) hsame.1 hempty
    hsame.2
  refine ⟨(hst.pending line hpending).resolve_left ?_, hgone⟩
  rw [hgone]
  exact Bool.false_ne_true

end Delivery

namespace Firmware

variable [RegisterBus β] {fw : Firmware β} {image : CodeImage (Routine β)}
  {entries : List DispatchEntry} {config : FirmwareConfig}

/-- A critical section around whatever does not take lines, reset the controller or write its enable
register, against the firmware without the routines that are not entered.

It does what it would do if a line that is taken stopped the run for good; a section in it changes
nothing; and in the end no line was taken, the enable register is as before, the edges from before
and from inside are pending, and the lines in service are those from before but for the ones that
were completed in it. If the global enable was set and nothing is in service then, the next
preemption point delivers every edge of an enabled line, when the routines that it enters do not take
lines by themselves or write the enable register. -/
theorem critical_undisturbed (h : link image entries config = .ok fw)
    (himage : image.ComposedOf fun _ _ => True) (record : EdgeRecord β) (lines : List IrqLine)
    {away off : List CodeAddr}
    (hinside : ∀ placed ∈ image.routines, placed.addr ∉ away →
      placed.body.ComposedOf (Keeping (Latched record lines)))
    (hhandlers : ∀ placed ∈ image.routines, placed.addr ∉ off →
      placed.body.ComposedOf (Keeping (Untaken IrqLine.all)))
    {m : Linkage β → Run (Machine β) α} (hm : Composed (Keeping (Latched record lines)) m) (n : Nat)
    (s : Machine β) :
    let inside := fw.barring away
    let handling := fw.barring off
    let guarded := Machine.critical (m (inside.linkage n)) s
    (guarded = .exhausted ∨ Machine.critical (m (fw.linkage n)) s = guarded) ∧
      guarded = Machine.critical (m (inside.alarmed n)) s ∧
      (∀ {γ : Type} {inner : Linkage β → Run (Machine β) γ},
        Composed (Keeping (Latched record lines)) inner → ∀ t : Machine β, t.Closed →
          Machine.critical (inner (inside.linkage n)) t = inner (inside.linkage n) t ∧
            ∀ c u, inner (inside.linkage n) t = .done c u → u.Closed) ∧
      ∀ a t, guarded = .done a t → Latched record lines s t ∧
        (s.irq.globallyEnabled = true → t.irq.inService = [] → ∀ k,
          ((handling.linkage k).poll t = .exhausted ∨
            (fw.linkage k).poll t = (handling.linkage k).poll t) ∧
          ∀ u, (handling.linkage k).poll t = .done () u → ∀ line,
            t.irq.pending.get line = true → t.irq.lineEnabled line = true →
              t.irq.delivered.get line < u.irq.delivered.get line ∧
                u.irq.pending.get line = false) := by
  intro inside handling guarded
  have hsteps : fw.image.ComposedOf fun _ _ => True := composedOf_of_link admits_all h himage
  have hkept : inside.image.ComposedOf (Keeping (Latched record lines)) :=
    composedOf_barring (fun _ => Run.keeps_giveUp) (others_of_link admits_latched h hinside)
  have hserved : handling.image.ComposedOf (Keeping (Untaken IrqLine.all)) :=
    composedOf_barring (fun _ => Run.keeps_giveUp) (others_of_link admits_untaken h hhandlers)
  have hsame {γ : Type} {inner : Linkage β → Run (Machine β) γ}
      (hinner : Composed (Keeping (Latched record lines)) inner) :=
    follows_alarmed (fun _ _ hm s a t hrun => (hm s a t hrun).enable) hkept n hinner
  have hguarded : guarded = Machine.critical (m (inside.alarmed n)) s :=
    Machine.critical_congr ((hsame hm).eq s.closed_setGlobal)
  refine ⟨?_, hguarded, ?_, ?_⟩
  · exact barring_apply admits_all hsteps away n (.critical (hm.mono fun _ _ _ => trivial)) s
  · intro γ inner hinner t ht
    have hend (c : γ) (u : Machine β) (hrun : inner (inside.linkage n) t = .done c u) : u.Closed :=
      (hsame hinner).end ht hrun
    exact ⟨Machine.critical_of_closed ht hend, hend⟩
  intro a t hrun
  have hlatched : Latched record lines s t :=
    latched_critical (latched_alarmed hkept n hm) s a t (hguarded.symm.trans hrun)
  refine ⟨hlatched, fun hglobal hservice k => ⟨?_, fun u hpoll line hpending henabled => ?_⟩⟩
  · exact barring_apply admits_all hsteps off k .poll t
  · have hopen : t.irq.globallyEnabled = true := by
      have henable := hlatched.enable
      unfold InterruptController.globallyEnabled at hglobal ⊢
      rw [henable]
      exact hglobal
    exact delivered_of_poll (fun _ _ hm s a t hrun => (hm s a t hrun).delivers) admits_untaken
      hserved hpoll hopen hservice hpending henabled

end Firmware

namespace Postponed

structure Bus where
  get : UInt16 → UInt8
  edges : List IrqLine

instance : RegisterBus Bus where
  read addr := Run.gets fun bus => bus.get addr
  write addr value :=
    Run.modify fun bus => { bus with get := fun a => if a = addr then value else bus.get a }

def record : EdgeRecord Bus where
  raised bus line := bus.edges.count line
  read := by
    rintro bus bus' addr value ⟨⟩
    rfl
  write := by
    rintro bus bus' addr value ⟨⟩
    rfl

/-- Raises a line and enters it in the record. -/
def raise (line : IrqLine) : Run (Machine Bus) Unit := do
  Machine.onBus (Run.modify fun bus => { bus with edges := line :: bus.edges })
  Machine.raiseIrq line

def master : Routine Bus := fun l _ => do
  raise .system
  l.poll

def task : Routine Bus := fun _ _ => Machine.onIrq fun irq => { irq with enable := 0xFF }

/-- Where the task stands. -/
def taskAddr : CodeAddr := .ofLogical .bank0 0x5200

/-- The image with a routine of the master. -/
def image (master : Routine Bus) : CodeImage (Routine Bus) :=
  ⟨[⟨"master", .ofLogical .bank0 0x5100, master⟩, ⟨"task", taskAddr, task⟩]⟩

def entries : List DispatchEntry :=
  [⟨.timerPoll, .bank0, 0x5200, .callReturn⟩, ⟨.usbMaster, .bank0, 0x5100, .callReturn⟩]

/-- The routine of the master raises the system line; a task that is not run opens everything. -/
def firmware (master : Routine Bus) : Firmware Bus where
  config := .standard
  table := ⟨entries.map DispatchTable.slotOf⟩
  image := image master

theorem link_image (master : Routine Bus) :
    Firmware.link (image master) entries .standard = .ok (firmware master) := rfl

/-- Dispatches the master, raises the endpoint line in a section of its own, and carries out a
command. -/
def body (l : Linkage Bus) : Run (Machine Bus) Unit := do
  l.dispatch .usbMaster none
  Machine.critical do
    raise .endpoint
    l.poll
  let _ ← l.execute ⟨.flash, 0, 0, 0, 0⟩
  l.poll

/-- Everything is enabled, and the master asks for service. -/
def machine (irq : InterruptController) : Machine Bus where
  bus := ⟨fun addr => if addr = usbStatus then usbMasterBit else 0, []⟩
  window := .initial
  stack := .ofBase 0x21
  irq := { irq with enable := 0x85 }
  stats := .initial
  log := ⟨none, []⟩

theorem latched_raise (line : IrqLine) {lines : List IrqLine} :
    (raise line).Keeps (Latched record lines) := by
  rintro s a t ⟨⟩
  exact latched_of_raise rfl fun other hother => List.count_cons_of_ne (Ne.symm hother)

theorem composedOf_master {P : Steps Bus} (hraise : P Unit (raise .system)) : master.ComposedOf P :=
  fun _ => .followed (.step _ hraise) .poll

theorem composed_body : Composed (Keeping (Latched record [])) body := by
  refine .followed (.dispatch _ _) (.followed (.critical (.followed ?_ .poll)) ?_)
  · exact .step _ (latched_raise .endpoint)
  · exact .sequence (.execute _ admits_latched) fun _ => .poll

end Postponed

/-- Two edges are raised in a section with sections in it, and are delivered after it. -/
theorem Firmware.critical_undisturbed_nested :
    let fw := Postponed.firmware Postponed.master
    let s := Postponed.machine .initial
    ∃ t u, Machine.critical (Postponed.body (fw.linkage 9)) s = .done () t ∧
      (fw.linkage 9).poll t = .done () u ∧ t.irq.enable = 0x85 ∧ t.irq.inService = [] ∧
      t.irq.delivered = ⟨0, 0⟩ ∧ t.irq.pending.get .endpoint = true ∧
      t.irq.pending.get .system = true ∧ 0 < u.irq.delivered.get .endpoint ∧
      0 < u.irq.delivered.get .system := by
  intro fw s
  let guarded := fw.barring [Postponed.taskAddr]
  have hothers {P : Steps Postponed.Bus} (hraise : P Unit (Postponed.raise .system)) :
      ∀ placed ∈ (Postponed.image Postponed.master).routines, placed.addr ∉ [Postponed.taskAddr] →
        placed.body.ComposedOf P :=
    List.forall_mem_cons.2 ⟨fun _ => Postponed.composedOf_master hraise,
      List.forall_mem_singleton.2 fun hbarred => absurd List.mem_cons_self hbarred⟩
  have hany : (Postponed.image Postponed.master).ComposedOf fun _ _ => True :=
    List.forall_mem_cons.2 ⟨Postponed.composedOf_master trivial,
      List.forall_mem_singleton.2 fun _ => .step _ trivial⟩
  obtain ⟨hbarred, -, -, hend⟩ := critical_undisturbed (Postponed.link_image Postponed.master) hany
    Postponed.record [] (hothers (Postponed.latched_raise .system))
    (hothers fun s a t hrun => (Postponed.latched_raise .system s a t hrun).toUntaken)
    Postponed.composed_body 9 s
  have hsection : (Machine.critical (Postponed.body (guarded.linkage 9)) s).ask?
      (fun t => t.irq.pending) = some ⟨true, true⟩ := by decide +kernel
  obtain ⟨_, t, hrun, hpending⟩ := Outcome.done_of_ask? hsection
  have hpolled : ((Machine.critical (Postponed.body (guarded.linkage 9)) >>= fun _ =>
      (guarded.linkage 9).poll) s).ask? (fun _ => ()) = some () := by decide +kernel
  obtain ⟨_, u, hboth, -⟩ := Outcome.done_of_ask? hpolled
  have hpoll : (guarded.linkage 9).poll t = .done () u := by
    rwa [Run.bind_of_done hrun] at hboth
  obtain ⟨hlatched, hafter⟩ := hend () t hrun
  have hservice : t.irq.inService = [] := hlatched.inService_eq
  have hlines (line : IrqLine) : t.irq.pending.get line = true ∧ t.irq.lineEnabled line = true := by
    unfold InterruptController.lineEnabled
    rw [hpending, hlatched.enable]
    cases line <;> exact ⟨rfl, by decide⟩
  obtain ⟨hpolled, hdelivered⟩ := hafter (by decide) hservice 9
  have hgrown (line : IrqLine) : 0 < u.irq.delivered.get line :=
    Nat.zero_lt_of_lt (hdelivered u hpoll line (hlines line).1 (hlines line).2).1
  refine ⟨t, u, ?_, ?_, hlatched.enable, hservice, hlatched.delivered, (hlines _).1, (hlines _).1,
    hgrown _, hgrown _⟩
  · -- the task is not entered, so that nothing gives up
    rcases hbarred with hexhausted | hsame
    · rw [hrun] at hexhausted
      cases hexhausted
    · exact hsame.trans hrun
  · rcases hpolled with hexhausted | hsame
    · rw [hpoll] at hexhausted
      cases hexhausted
    · exact hsame.trans hpoll

namespace Postponed

/-- A routine that takes the endpoint line by itself. -/
def greedy : Routine Bus := fun _ _ => Machine.onIrq fun irq => irq.acknowledge .endpoint

/-- A section that completes a line has changed what is in service when it ends. And a routine that
takes a line by itself leaves it in service, so that the first preemption point after a section
returns with an enabled line pending. -/
theorem critical_disturbed :
    let served := machine (InterruptController.initial.acknowledge .endpoint)
    let raised := machine ((InterruptController.initial.raise .endpoint).raise .system)
    served.irq.inService = [(.endpoint, .low)] ∧
      (Machine.critical (Machine.onIrq fun irq => irq.complete .endpoint) served).ask?
        (fun t => t.irq.inService) = some [] ∧
      raised.irq.globallyEnabled = true ∧ raised.irq.inService = [] ∧
      ((Machine.critical (pure ()) >>= fun _ => ((firmware greedy).linkage 9).poll) raised).ask?
        (fun t => (t.irq.pending.get .system, t.irq.lineEnabled .system,
          t.irq.delivered.get .system)) = some (true, true, 0) := by
  refine ⟨rfl, rfl, rfl, rfl, ?_⟩
  decide +kernel

end Postponed

end BankedController
