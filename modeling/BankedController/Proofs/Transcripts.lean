import BankedController.Linkage
import BankedController.Proofs.Composed

/-! What a piece of code does where others see it is written down on the bus as it does it: its
accesses, the slots that it calls, and its preemption points. The code cannot read the record. -/

namespace BankedController

variable {β α γ : Type}

/-- Something that is done where others see it. -/
inductive Deed where
  | read (addr : UInt16) (value : UInt8)
  | write (addr : UInt16) (value : UInt8)
  | called (id : SlotId) (param : Option UInt8)
  | polled
  deriving DecidableEq

/-- A bus and the record of what was done, the newest last. -/
structure Recorded (β : Type) where
  bus : β
  deeds : List Deed

namespace Recorded

/-- An access to the bus, which is entered in the record when it is over. -/
def access (m : Run β α) (deed : α → Deed) : Run (Recorded β) α := fun r =>
  match m r.bus with
  | .done a bus => .done a ⟨bus, r.deeds ++ [deed a]⟩
  | .fault cause bus => .fault cause ⟨bus, r.deeds⟩
  | .exhausted => .exhausted

instance [RegisterBus β] : RegisterBus (Recorded β) where
  read addr := access (RegisterBus.read addr) (.read addr)
  write addr value := access (RegisterBus.write addr value) fun _ => .write addr value

end Recorded

/-- The machine with a record. -/
def Machine.recorded (deeds : List Deed) (s : Machine β) : Machine (Recorded β) :=
  ⟨⟨s.bus, deeds⟩, s.window, s.stack, s.irq, s.stats, s.log⟩

/-- The machine without its record. -/
def Machine.unrecorded (r : Machine (Recorded β)) : Machine β :=
  ⟨r.bus.bus, r.window, r.stack, r.irq, r.stats, r.log⟩

/-- Something that is done behind a call or a preemption point. -/
def Recorded.behind (m : Run (Machine β) α) (deed : Deed) : Run (Machine (Recorded β)) α := fun r =>
  match m r.unrecorded with
  | .done a s => .done a (s.recorded (r.bus.deeds ++ [deed]))
  | .fault cause s => .fault cause (s.recorded (r.bus.deeds ++ [deed]))
  | .exhausted => .exhausted

/-- The linkage that keeps a record. -/
def Linkage.recorded (l : Linkage β) : Linkage (Recorded β) where
  config := l.config
  table := l.table
  patience := l.patience
  call id param := Recorded.behind (l.call id param) (.called id param)
  poll := Recorded.behind l.poll .polled

/-- The second outcome is the first, and a record besides; where there is a value, the value, the
record and the machine are in `P`. -/
def Transcribed (P : α → List Deed → Machine β → Prop) :
    Outcome (Machine β) α → Outcome (Machine (Recorded β)) α → Prop
  | .done a s, out => ∃ deeds, out = .done a (s.recorded deeds) ∧ P a deeds s
  | .fault cause s, out => ∃ deeds, out = .fault cause (s.recorded deeds)
  | .exhausted, out => out = .exhausted

namespace Transcribed

variable {P : α → List Deed → Machine β → Prop} {s : Machine β} {deeds : List Deed}

theorem of_done {m : Run (Machine β) α} {out : Outcome (Machine (Recorded β)) α} {a : α}
    {t : Machine β} (h : Transcribed P (m s) out) (hrun : m s = .done a t) :
    ∃ deeds, out = .done a (t.recorded deeds) ∧ P a deeds t := by
  rw [hrun] at h
  exact h

theorem pure {a : α} (h : P a deeds s) :
    Transcribed P ((Pure.pure a : Run (Machine β) α) s)
      ((Pure.pure a : Run (Machine (Recorded β)) α) (s.recorded deeds)) :=
  ⟨deeds, rfl, h⟩

/-- What the first parts end in is where the second parts start. -/
theorem bind {Q : γ → List Deed → Machine β → Prop} {m : Run (Machine β) α}
    {m' : Run (Machine (Recorded β)) α} {f : α → Run (Machine β) γ}
    {f' : α → Run (Machine (Recorded β)) γ} {r : Machine (Recorded β)}
    (hm : Transcribed P (m s) (m' r))
    (hf : ∀ a deeds t, m s = .done a t → P a deeds t →
      Transcribed Q (f a t) (f' a (t.recorded deeds))) :
    Transcribed Q ((m >>= f) s) ((m' >>= f') r) := by
  rw [Run.bind_apply, Run.bind_apply]
  cases hrun : m s with
  | done a t =>
    obtain ⟨deeds, hout, hP⟩ := hm.of_done hrun
    rw [hout]
    exact hf a deeds t hrun hP
  | fault cause t =>
    rw [hrun] at hm
    obtain ⟨deeds, hout⟩ := hm
    rw [hout]
    exact ⟨deeds, rfl⟩
  | exhausted =>
    rw [hrun] at hm
    have hout : m' r = .exhausted := hm
    rw [hout]
    rfl

theorem imp {Q : α → List Deed → Machine β → Prop} {out : Outcome (Machine β) α}
    {out' : Outcome (Machine (Recorded β)) α} (h : Transcribed P out out')
    (hPQ : ∀ a deeds t, out = .done a t → P a deeds t → Q a deeds t) : Transcribed Q out out' := by
  cases out with
  | done a t =>
    obtain ⟨deeds, hout, hP⟩ := h
    exact ⟨deeds, hout, hPQ a deeds t rfl hP⟩
  | fault cause t => exact h
  | exhausted => exact h

/-- The record after something that was done adds it to the record before. -/
theorem behind (m : Run (Machine β) α) (deed : Deed) (s : Machine β) (deeds : List Deed) :
    Transcribed (fun _ all _ => all = deeds ++ [deed]) (m s)
      (Recorded.behind m deed (s.recorded deeds)) := by
  have hrun : Recorded.behind m deed (s.recorded deeds) = match m s with
      | .done a t => .done a (t.recorded (deeds ++ [deed]))
      | .fault cause t => .fault cause (t.recorded (deeds ++ [deed]))
      | .exhausted => .exhausted := rfl
  rw [hrun]
  cases m s with
  | done a t => exact ⟨_, rfl, rfl⟩
  | fault cause t => exact ⟨_, rfl⟩
  | exhausted => rfl

theorem poll (l : Linkage β) (s : Machine β) (deeds : List Deed) :
    Transcribed (fun _ all _ => all = deeds ++ [.polled]) (l.poll s)
      (l.recorded.poll (s.recorded deeds)) :=
  behind l.poll .polled s deeds

/-- Reports are not written down. -/
theorem note (event : Event) (s : Machine β) (deeds : List Deed) :
    Transcribed (fun _ all _ => all = deeds) (Machine.note event s)
      (Machine.note event (s.recorded deeds)) :=
  ⟨deeds, rfl, rfl⟩

theorem dispatch (l : Linkage β) (id : SlotId) (param : Option UInt8) (s : Machine β)
    (deeds : List Deed) :
    Transcribed (fun _ all _ => all = deeds ++ [.called id param]) (l.dispatch id param s)
      (l.recorded.dispatch id param (s.recorded deeds)) := by
  refine (behind (l.call id param) (.called id param) s deeds).bind fun result all t _ hall => ?_
  cases result with
  | ok => exact .pure hall
  | error e =>
    refine bind (P := fun _ later _ => later = all) ⟨all, rfl, rfl⟩ fun _ later u _ hlater => ?_
    refine (note _ u later).imp fun _ _ _ _ hsame => ?_
    rw [hsame, hlater, hall]

theorem access (m : Run β α) (deed : α → Deed) (s : Machine β) (deeds : List Deed) :
    Transcribed (fun a all _ => all = deeds ++ [deed a]) (Machine.onBus m s)
      (Machine.onBus (Recorded.access m deed) (s.recorded deeds)) := by
  obtain ⟨bus, window, stack, irq, stats, log⟩ := s
  unfold Machine.onBus Machine.recorded Recorded.access
  dsimp only
  cases m bus with
  | done a bus' => exact ⟨_, rfl, rfl⟩
  | fault cause bus' => exact ⟨_, rfl⟩
  | exhausted => rfl

variable [RegisterBus β]

theorem read (addr : UInt16) (s : Machine β) (deeds : List Deed) :
    Transcribed (fun value all _ => all = deeds ++ [.read addr value]) (Machine.read addr s)
      (Machine.read addr (s.recorded deeds)) :=
  access (RegisterBus.read addr) (.read addr) s deeds

theorem write (addr : UInt16) (value : UInt8) (s : Machine β) (deeds : List Deed) :
    Transcribed (fun _ all _ => all = deeds ++ [.write addr value]) (Machine.write addr value s)
      (Machine.write addr value (s.recorded deeds)) :=
  access (RegisterBus.write addr value) (fun _ => .write addr value) s deeds

theorem read32 (addr : UInt16) (s : Machine β) (deeds : List Deed) :
    Transcribed (fun _ all _ => ∃ b3 b2 b1 b0, all = deeds ++
        [.read addr b3, .read (addr + 1) b2, .read (addr + 2) b1, .read (addr + 3) b0])
      (Machine.read32 addr s) (Machine.read32 addr (s.recorded deeds)) := by
  simp only [Machine.read32, RegisterBus.read32, Machine.onBus_bind]
  refine (read addr s deeds).bind fun b3 _ s3 _ h3 => ?_
  refine (read (addr + 1) s3 _).bind fun b2 _ s2 _ h2 => ?_
  refine (read (addr + 2) s2 _).bind fun b1 _ s1 _ h1 => ?_
  refine (read (addr + 3) s1 _).bind fun b0 _ s0 _ h0 => ?_
  refine .pure ⟨b3, b2, b1, b0, ?_⟩
  simp only [h0, h1, h2, h3, List.append_assoc, List.cons_append, List.nil_append]

theorem write32 (addr : UInt16) (value : UInt32) (s : Machine β) (deeds : List Deed) :
    Transcribed (fun _ all _ => all = deeds ++
        [.write addr (value >>> 24).toUInt8, .write (addr + 1) (value >>> 16).toUInt8,
          .write (addr + 2) (value >>> 8).toUInt8, .write (addr + 3) value.toUInt8])
      (Machine.write32 addr value s) (Machine.write32 addr value (s.recorded deeds)) := by
  simp only [Machine.write32, RegisterBus.write32, Machine.onBus_bind]
  refine (write addr _ s deeds).bind fun _ _ s3 _ h3 => ?_
  refine (write (addr + 1) _ s3 _).bind fun _ _ s2 _ h2 => ?_
  refine (write (addr + 2) _ s2 _).bind fun _ _ s1 _ h1 => ?_
  refine (write (addr + 3) _ s1 _).imp fun _ _ _ _ h0 => ?_
  simp only [h0, h1, h2, h3, List.append_assoc, List.cons_append, List.nil_append]

end Transcribed

end BankedController
