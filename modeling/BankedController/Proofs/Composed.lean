import BankedController.Code.Image
import BankedController.Command.BusyWait
import BankedController.Proofs.Runs
import BankedController.RegisterMap

/-! A routine is composed of steps of its own, calls, preemption points, busy waits and critical
sections. What its own steps and the linkage keep it keeps, and it cannot tell two linkages apart
that do the same from the states that it meets. -/

namespace BankedController

open RegisterMap

variable {β α γ : Type}

/-- A class of runs of the machine: the steps that a routine may take by itself. -/
abbrev Steps (β : Type) : Type 1 := ∀ α : Type, Run (Machine β) α → Prop

section Definitions

variable [RegisterBus β]

/-- What a routine can do against a linkage, if the steps it takes by itself are in `P`. -/
inductive Composed (P : Steps β) : {α : Type} → (Linkage β → Run (Machine β) α) → Prop
  | done {α : Type} (a : α) : Composed P fun _ => pure a
  | sequence {α γ : Type} {m : Linkage β → Run (Machine β) α}
      {f : α → Linkage β → Run (Machine β) γ} (first : Composed P m)
      (next : ∀ a, Composed P (f a)) : Composed P fun l => m l >>= fun a => f a l
  | step {α : Type} (m : Run (Machine β) α) (own : P α m) : Composed P fun _ => m
  | call (id : SlotId) (param : Option UInt8) : Composed P fun l => l.call id param
  | callStub (addr : UInt16) (param : Option UInt8) : Composed P fun l => l.callStub addr param
  | dispatch (id : SlotId) (param : Option UInt8) : Composed P fun l => l.dispatch id param
  | poll : Composed P fun l => l.poll
  | wait (w : BusyWait) (sample : Composed P fun _ => Machine.onBus w.sample)
      (count : ∀ n, Composed P fun _ => Machine.write32 w.counter n) : Composed P fun l => w.run l
  | critical {α : Type} {m : Linkage β → Run (Machine β) α} (body : Composed P m) :
      Composed P fun l => Machine.critical (m l)
  /-- The configuration is there to be read. -/
  | configured {α : Type} {f : FirmwareConfig → Linkage β → Run (Machine β) α}
      (next : ∀ config, Composed P (f config)) : Composed P fun l => f l.config l

/-- A routine whose own steps are in `P`. -/
def Routine.ComposedOf (P : Steps β) (routine : Routine β) : Prop :=
  ∀ param, Composed P fun l => routine l param

/-- An image of such routines. -/
def CodeImage.ComposedOf (P : Steps β) (image : CodeImage (Routine β)) : Prop :=
  ∀ placed ∈ image.routines, placed.body.ComposedOf P

/-- A class that has reports, reads, and the writes in `A`. -/
structure Admits (P : Steps β) (A : UInt16 → UInt8 → Prop) : Prop where
  note : ∀ event, P Unit (Machine.note event)
  read : ∀ addr, P UInt8 (Machine.read addr)
  write : ∀ addr value, A addr value → P Unit (Machine.write addr value)

/-- A register of the conditions of an endpoint. -/
def Secondary (addr : UInt16) : Prop :=
  endpointSecondaryBase ≤ addr ∧ addr < endpointSecondaryBase + 8

instance (addr : UInt16) : Decidable (Secondary addr) :=
  inferInstanceAs (Decidable (_ ∧ _))

/-- An address that is neither one of the two shared bytes nor a register of conditions. -/
structure Apart (addr : UInt16) : Prop where
  events : addr ≠ eventFlags
  state : addr ≠ systemState
  secondary : ¬Secondary addr

instance (addr : UInt16) : Decidable (Apart addr) :=
  decidable_of_iff (addr ≠ eventFlags ∧ addr ≠ systemState ∧ ¬Secondary addr)
    ⟨fun h => ⟨h.1, h.2.1, h.2.2⟩, fun h => ⟨h.events, h.state, h.secondary⟩⟩

/-- The writes of the routines of the firmware itself: past the two bytes that the main loop shares
with everybody. -/
def CoreWrite (addr : UInt16) (_ : UInt8) : Prop := addr ≠ eventFlags ∧ addr ≠ systemState

/-- The writes of all routines of the firmware itself but for the endpoint scan, which alone clears
conditions. -/
def ServiceWrite (addr : UInt16) (_ : UInt8) : Prop := Apart addr

theorem Admits.mono {P : Steps β} {A B : UInt16 → UInt8 → Prop} (hP : Admits P A)
    (h : ∀ addr value, B addr value → A addr value) : Admits P B :=
  ⟨hP.note, hP.read, fun addr value hB => hP.write addr value (h addr value hB)⟩

/-- The class of all steps has every write. -/
theorem admits_all {A : UInt16 → UInt8 → Prop} : Admits (fun _ _ => True : Steps β) A :=
  ⟨fun _ => trivial, fun _ => trivial, fun _ _ _ => trivial⟩

theorem Admits.service {P : Steps β} (hP : Admits P CoreWrite) : Admits P ServiceWrite :=
  hP.mono fun _ _ h => ⟨h.events, h.state⟩

end Definitions

namespace Machine

theorem onBus_of_done {m : Run β α} {s : Machine β} {a : α} {bus : β} (h : m s.bus = .done a bus) :
    onBus m s = .done a { s with bus := bus } := by
  unfold onBus
  dsimp only
  rw [h]

/-- A run on the bus that ends with a value has changed nothing but the bus. -/
theorem onBus_eq_done {m : Run β α} {s t : Machine β} {a : α} (h : onBus m s = .done a t) :
    ∃ bus, m s.bus = .done a bus ∧ t = { s with bus := bus } := by
  unfold onBus at h
  dsimp only at h
  split at h
  next hm =>
    cases h
    exact ⟨_, hm, rfl⟩
  next => cases h
  next => cases h

/-- A sequence on the bus is a sequence of runs on the bus. -/
theorem onBus_bind (m : Run β α) (f : α → Run β γ) :
    onBus (m >>= f) = (onBus m >>= fun a => onBus (f a) : Run (Machine β) γ) := by
  funext s
  obtain ⟨bus, window, stack, irq, stats, log⟩ := s
  simp only [onBus, Run.bind_apply]
  cases m bus <;> rfl

/-- A critical section is its body, run with the global enable clear. -/
theorem critical_of_done {body : Run (Machine β) α} {s t : Machine β} {a : α}
    (h : body { s with irq := s.irq.setGlobal false } = .done a t) :
    critical body s = .done a { t with irq := t.irq.setGlobal s.irq.globallyEnabled } := by
  unfold critical
  rw [Run.bind_of_done (Run.gets_apply _ s)]
  refine (Run.bind_of_done (Run.modify_apply _ s)).trans ?_
  exact (Run.bind_of_done h).trans (Run.bind_of_done (Run.modify_apply _ t))

theorem critical_eq_done {body : Run (Machine β) α} {s t : Machine β} {a : α}
    (h : critical body s = .done a t) :
    ∃ u, body { s with irq := s.irq.setGlobal false } = .done a u ∧
      t = { u with irq := u.irq.setGlobal s.irq.globallyEnabled } := by
  obtain ⟨enabled, _, hlook, h⟩ := Run.bind_eq_done.1 h
  cases hlook
  obtain ⟨_, closed, hclose, h⟩ := Run.bind_eq_done.1 h
  cases hclose
  obtain ⟨_, u, hbody, h⟩ := Run.bind_eq_done.1 h
  cases h
  exact ⟨u, hbody, rfl⟩

end Machine

namespace Composed

variable [RegisterBus β] {P : Steps β} {A : UInt16 → UInt8 → Prop}

theorem mono {Q : Steps β} (h : ∀ α m, P α m → Q α m) {m : Linkage β → Run (Machine β) α}
    (hm : Composed P m) : Composed Q m := by
  induction hm with
  | done a => exact .done a
  | sequence _ _ first next => exact .sequence first next
  | step m own => exact .step m (h _ m own)
  | call id param => exact .call id param
  | callStub addr param => exact .callStub addr param
  | dispatch id param => exact .dispatch id param
  | poll => exact .poll
  | wait w _ _ sample count => exact .wait w sample count
  | critical _ body => exact .critical body
  | configured _ next => exact .configured next

theorem branch {m m' : Linkage β → Run (Machine β) α} (c : Prop) [Decidable c]
    (yes : Composed P m) (no : Composed P m') : Composed P fun l => if c then m l else m' l := by
  by_cases h : c
  · simpa only [if_pos h] using yes
  · simpa only [if_neg h] using no

/-- Steps of which the result is not used. -/
theorem followed {m : Linkage β → Run (Machine β) Unit} {m' : Linkage β → Run (Machine β) α}
    (first : Composed P m) (next : Composed P m') :
    Composed P fun l => m l >>= fun _ => m' l :=
  sequence first fun _ => next

theorem note (hP : Admits P A) (event : Event) : Composed P fun _ => Machine.note event :=
  step _ (hP.note event)

theorem read (hP : Admits P A) (addr : UInt16) : Composed P fun _ => Machine.read addr :=
  step _ (hP.read addr)

theorem write (hP : Admits P A) {addr : UInt16} {value : UInt8} (h : A addr value) :
    Composed P fun _ => Machine.write addr value :=
  step _ (hP.write addr value h)

theorem setBits (hP : Admits P A) {addr : UInt16} (mask : UInt8) (h : ∀ value, A addr value) :
    Composed P fun _ => Machine.setBits addr mask := by
  simp only [Machine.setBits, RegisterBus.setBits, Machine.onBus_bind]
  exact sequence (read hP addr) fun v => write hP (h (v ||| mask))

theorem clearBits (hP : Admits P A) {addr : UInt16} (mask : UInt8) (h : ∀ value, A addr value) :
    Composed P fun _ => Machine.clearBits addr mask := by
  simp only [Machine.clearBits, RegisterBus.clearBits, Machine.onBus_bind]
  exact sequence (read hP addr) fun v => write hP (h (v &&& ~~~mask))

theorem read32 (hP : Admits P A) (addr : UInt16) : Composed P fun _ => Machine.read32 addr := by
  simp only [Machine.read32, RegisterBus.read32, Machine.onBus_bind]
  refine sequence (read hP addr) fun b3 => ?_
  refine sequence (read hP (addr + 1)) fun b2 => ?_
  refine sequence (read hP (addr + 2)) fun b1 => ?_
  exact sequence (read hP (addr + 3)) fun b0 => done _

/-- Four bytes that may be written. -/
structure Writable32 (A : UInt16 → UInt8 → Prop) (addr : UInt16) : Prop where
  byte0 : ∀ value, A addr value
  byte1 : ∀ value, A (addr + 1) value
  byte2 : ∀ value, A (addr + 2) value
  byte3 : ∀ value, A (addr + 3) value

theorem write32 (hP : Admits P A) {addr : UInt16} (value : UInt32) (h : Writable32 A addr) :
    Composed P fun _ => Machine.write32 addr value := by
  simp only [Machine.write32, RegisterBus.write32, Machine.onBus_bind]
  refine sequence (write hP (h.byte0 _)) fun _ => ?_
  refine sequence (write hP (h.byte1 _)) fun _ => ?_
  refine sequence (write hP (h.byte2 _)) fun _ => ?_
  exact write hP (h.byte3 _)

/-- A wait of which the counter may be written. -/
theorem busyWait (hP : Admits P A) {w : BusyWait} (h : Writable32 A w.counter) :
    Composed P fun l => w.run l := by
  refine wait w ?_ fun n => write32 hP n h
  simp only [BusyWait.sample, Machine.onBus_bind]
  refine sequence (read hP w.register) fun value => ?_
  exact sequence (read32 hP w.counter) fun n => done _

end Composed

/-- A relation that the bookkeeping around calls and critical sections extends. -/
structure Tolerates (R : Machine β → Machine β → Prop) : Prop extends Extends R where
  failed : ∀ s, R s { s with stats := s.stats.failed }
  note : ∀ event s, R s { s with log := s.log.record event }
  global : ∀ on s, R s { s with irq := s.irq.setGlobal on }

/-- A relation that the bookkeeping around calls extends, and that a critical section keeps if what
it encloses does. -/
structure Survives (R : Machine β → Machine β → Prop) : Prop extends Extends R where
  failed : ∀ s, R s { s with stats := s.stats.failed }
  note : ∀ event s, R s { s with log := s.log.record event }
  critical : ∀ {α : Type} (body : Run (Machine β) α), body.Keeps R → (Machine.critical body).Keeps R

/-- A class of runs that is closed under sequences, and has the runs that do nothing or give up. -/
structure Sequential (P : Steps β) : Prop where
  done : ∀ {α : Type} (a : α), P α (pure a)
  sequence : ∀ {α γ : Type} {m : Run (Machine β) α} {f : α → Run (Machine β) γ},
    P α m → (∀ a, P γ (f a)) → P γ (m >>= f)
  giveUp : ∀ {α : Type}, P α Run.giveUp

/-- A class that has the bookkeeping around calls as well, and critical sections around its runs. -/
structure Carries (P : Steps β) : Prop extends Sequential P where
  failed : P Unit (Run.modify fun s => { s with stats := s.stats.failed })
  note : ∀ event, P Unit (Machine.note event)
  critical : ∀ {α : Type} (body : Run (Machine β) α), P α body → P α (Machine.critical body)

/-- Calls and preemption points are in a class, however they are answered. -/
structure Linkage.Within (P : Steps β) (l : Linkage β) : Prop where
  call : ∀ id param, P _ (l.call id param)
  poll : P Unit l.poll

/-- The runs that keep a relation. -/
abbrev Keeping (R : Machine β → Machine β → Prop) : Steps β := fun _ m => m.Keeps R

/-- Calls and preemption points keep a relation. -/
abbrev Linkage.Keeps (R : Machine β → Machine β → Prop) (l : Linkage β) : Prop :=
  l.Within (Keeping R)

/-- From every state in `G`, two linkages are the same linkage. -/
structure Linkage.Agree (G : Machine β → Prop) (l l' : Linkage β) : Prop where
  config : l.config = l'.config
  table : l.table = l'.table
  patience : l.patience = l'.patience
  call : ∀ id param, Run.AgreeOn G (l.call id param) (l'.call id param)
  poll : Run.AgreeOn G l.poll l'.poll

section Classes

variable {P Q : Steps β} {l : Linkage β}

theorem Linkage.Within.callStub (hQ : Sequential Q) (hl : l.Within Q) (addr : UInt16)
    (param : Option UInt8) : Q _ (l.callStub addr param) := by
  unfold Linkage.callStub
  cases l.table.atStub? addr with
  | none => exact hQ.done _
  | some slot => exact hl.call slot.id param

theorem Linkage.Within.dispatch (hQ : Carries Q) (hl : l.Within Q) (id : SlotId)
    (param : Option UInt8) : Q Unit (l.dispatch id param) := by
  refine hQ.sequence (hl.call id param) fun result => ?_
  cases result with
  | ok => exact hQ.done _
  | error e => exact hQ.sequence hQ.failed fun _ => hQ.note _

variable [RegisterBus β]

theorem BusyWait.within_poll (hQ : Sequential Q) (hl : l.Within Q) {w : BusyWait}
    (hsample : Q _ (Machine.onBus w.sample)) (hcount : ∀ n, Q _ (Machine.write32 w.counter n))
    (patience : Nat) : Q _ (w.poll l patience) := by
  induction patience with
  | zero => exact hQ.giveUp
  | succ patience ih =>
    refine hQ.sequence hsample fun sampled => ?_
    obtain ⟨value, iterations⟩ := sampled
    by_cases herror : value &&& w.error ≠ 0
    · simp only [if_pos herror]
      exact hQ.done _
    by_cases hidle : value &&& w.busy = 0
    · simp only [if_neg herror, if_pos hidle]
      exact hQ.done _
    simp only [if_neg herror, if_neg hidle]
    refine hQ.sequence (hcount (iterations + 1)) fun _ => ?_
    by_cases hout : w.threshold ≤ iterations + 1
    · simp only [if_pos hout]
      exact hQ.done _
    simp only [if_neg hout]
    exact hQ.sequence hl.poll fun _ => ih

theorem BusyWait.within_run (hQ : Sequential Q) (hl : l.Within Q) {w : BusyWait}
    (hsample : Q _ (Machine.onBus w.sample)) (hcount : ∀ n, Q _ (Machine.write32 w.counter n)) :
    Q _ (w.run l) :=
  hQ.sequence (hcount 0) fun _ => within_poll hQ hl hsample hcount l.patience

/-- What the own steps and the linkage are in, a composition is in. -/
theorem Composed.within (hQ : Carries Q) (hP : ∀ α m, P α m → Q α m) (hl : l.Within Q)
    {m : Linkage β → Run (Machine β) α} (h : Composed P m) : Q α (m l) := by
  induction h with
  | done a => exact hQ.done a
  | sequence _ _ first next => exact hQ.sequence first next
  | step m own => exact hP _ m own
  | call id param => exact hl.call id param
  | callStub addr param => exact hl.callStub hQ.toSequential addr param
  | dispatch id param => exact hl.dispatch hQ id param
  | poll => exact hl.poll
  | wait w _ _ sample count => exact BusyWait.within_run hQ.toSequential hl sample count
  | critical _ body => exact hQ.critical _ body
  | configured _ next => exact next l.config

end Classes

section Keeping

variable {R : Machine β → Machine β → Prop} {l : Linkage β}

theorem Extends.sequential (hR : Extends R) : Sequential (Keeping R) :=
  ⟨Run.keeps_pure hR, Run.keeps_bind hR, Run.keeps_giveUp⟩

theorem Survives.carries (hR : Survives R) : Carries (Keeping R) where
  toSequential := hR.toExtends.sequential
  failed := Run.keeps_modify hR.failed
  note event := Run.keeps_modify (hR.note event)
  critical := hR.critical

theorem Machine.keeps_critical (hR : Tolerates R) {body : Run (Machine β) α} (h : body.Keeps R) :
    (Machine.critical body).Keeps R := by
  refine Run.keeps_bind hR.toExtends (Run.keeps_gets hR.toExtends _) fun enabled => ?_
  refine Run.keeps_bind hR.toExtends (Run.keeps_modify (hR.global false)) fun _ => ?_
  refine Run.keeps_bind hR.toExtends h fun a => ?_
  refine Run.keeps_bind hR.toExtends (Run.keeps_modify (hR.global enabled)) fun _ => ?_
  exact Run.keeps_pure hR.toExtends a

theorem Tolerates.survives (hR : Tolerates R) : Survives R :=
  ⟨hR.toExtends, hR.failed, hR.note, fun _ h => Machine.keeps_critical hR h⟩

/-- What the own steps and the linkage keep, a composition keeps. -/
theorem Composed.keeps [RegisterBus β] {P : Steps β} (hR : Survives R)
    (hP : ∀ α m, P α m → m.Keeps R) (hl : l.Keeps R) {m : Linkage β → Run (Machine β) α}
    (h : Composed P m) : (m l).Keeps R :=
  Composed.within hR.carries hP hl h

end Keeping

section Agreement

variable {G : Machine β → Prop} {l l' : Linkage β}

theorem Linkage.Agree.callStub (h : Linkage.Agree G l l') (addr : UInt16) (param : Option UInt8) :
    Run.AgreeOn G (l.callStub addr param) (l'.callStub addr param) := by
  simp only [Linkage.callStub, ← h.table]
  cases l.table.atStub? addr with
  | none => exact Run.agreeOn_refl _
  | some slot => exact h.call slot.id param

theorem Linkage.Agree.dispatch (hl : l.Keeps fun s t => G s → G t) (h : Linkage.Agree G l l')
    (id : SlotId) (param : Option UInt8) : Run.AgreeOn G (l.dispatch id param) (l'.dispatch id param) :=
  Run.agreeOn_bind (h.call id param) (hl.call id param) fun _ => Run.agreeOn_refl _

theorem Machine.agreeOn_critical (hG : Tolerates fun s t : Machine β => G s → G t)
    {body body' : Run (Machine β) α} (hbody : body.Keeps fun s t => G s → G t)
    (h : Run.AgreeOn G body body') :
    Run.AgreeOn G (Machine.critical body) (Machine.critical body') := by
  refine Run.agreeOn_bind (Run.agreeOn_refl _) (Run.keeps_gets hG.toExtends _) fun enabled => ?_
  refine Run.agreeOn_bind (Run.agreeOn_refl _) (Run.keeps_modify (hG.global false)) fun _ => ?_
  exact Run.agreeOn_bind h hbody fun _ => Run.agreeOn_refl _

variable [RegisterBus β]

theorem BusyWait.agreeOn_poll (hl : l.Keeps fun s t => G s → G t) (h : Linkage.Agree G l l')
    {w : BusyWait} (hsample : (Machine.onBus w.sample).Keeps fun s t : Machine β => G s → G t)
    (hcount : ∀ n, (Machine.write32 w.counter n).Keeps fun s t : Machine β => G s → G t)
    (patience : Nat) : Run.AgreeOn G (w.poll l patience) (w.poll l' patience) := by
  induction patience with
  | zero => exact Run.agreeOn_refl _
  | succ patience ih =>
    refine Run.agreeOn_bind (Run.agreeOn_refl _) hsample fun sampled => ?_
    obtain ⟨value, iterations⟩ := sampled
    by_cases herror : value &&& w.error ≠ 0
    · simp only [if_pos herror]
      exact Run.agreeOn_refl _
    by_cases hidle : value &&& w.busy = 0
    · simp only [if_neg herror, if_pos hidle]
      exact Run.agreeOn_refl _
    simp only [if_neg herror, if_neg hidle]
    refine Run.agreeOn_bind (Run.agreeOn_refl _) (hcount (iterations + 1)) fun _ => ?_
    by_cases hout : w.threshold ≤ iterations + 1
    · simp only [if_pos hout]
      exact Run.agreeOn_refl _
    simp only [if_neg hout]
    exact Run.agreeOn_bind h.poll hl.poll fun _ => ih

theorem BusyWait.agreeOn_run (hl : l.Keeps fun s t => G s → G t) (h : Linkage.Agree G l l')
    {w : BusyWait} (hsample : (Machine.onBus w.sample).Keeps fun s t : Machine β => G s → G t)
    (hcount : ∀ n, (Machine.write32 w.counter n).Keeps fun s t : Machine β => G s → G t) :
    Run.AgreeOn G (w.run l) (w.run l') := by
  have hpatience := h.patience
  refine Run.agreeOn_bind (Run.agreeOn_refl _) (hcount 0) fun _ => ?_
  rw [← hpatience]
  exact agreeOn_poll hl h hsample hcount l.patience

/-- A composition cannot tell two linkages apart that are the same from the states in `G`, if
nothing that happens leads out of `G`. -/
theorem Composed.agree {P : Steps β} (hG : Tolerates fun s t : Machine β => G s → G t)
    (hP : ∀ α m, P α m → m.Keeps fun s t => G s → G t) (hl : l.Keeps fun s t => G s → G t)
    (h : Linkage.Agree G l l') {m : Linkage β → Run (Machine β) α} (hm : Composed P m) :
    Run.AgreeOn G (m l) (m l') := by
  induction hm with
  | done a => exact Run.agreeOn_refl _
  | sequence first _ ihfirst ihnext =>
    exact Run.agreeOn_bind ihfirst (Composed.keeps hG.survives hP hl first) ihnext
  | step m own => exact Run.agreeOn_refl _
  | call id param => exact h.call id param
  | callStub addr param => exact h.callStub addr param
  | dispatch id param => exact h.dispatch hl id param
  | poll => exact h.poll
  | wait w sample count =>
    exact BusyWait.agreeOn_run hl h (Composed.keeps hG.survives hP hl sample)
      fun n => Composed.keeps hG.survives hP hl (count n)
  | critical body ih => exact Machine.agreeOn_critical hG (Composed.keeps hG.survives hP hl body) ih
  | @configured _ f next ih =>
    change Run.AgreeOn G (f l.config l) (f l'.config l')
    rw [h.config]
    exact ih l'.config

end Agreement

end BankedController
