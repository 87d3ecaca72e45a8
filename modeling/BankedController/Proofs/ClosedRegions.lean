import BankedController.Proofs.Arbitration
import BankedController.Proofs.Bytes
import BankedController.Proofs.FollowedRuns

namespace BankedController

variable {β α : Type}

namespace InterruptController

variable (c : InterruptController)

/-- Nothing is taken while the global enable is clear. -/
theorem next?_of_closed {c : InterruptController} (h : c.globallyEnabled = false) :
    c.next? = none := by
  rw [next?_eq_none_iff]
  intro line
  unfold deliverable
  rw [h]
  rfl

theorem next?_setGlobal_false : (c.setGlobal false).next? = none := by
  apply next?_of_closed
  have hclear : (c.enable &&& ~~~globalBit) &&& globalBit = 0 := Bits.clear_and_self _ _
  have hne : (0 : UInt8) ≠ globalBit := by decide
  unfold globallyEnabled setGlobal
  simp [hclear, hne]

/-- The global bit is one bit. -/
theorem and_globalBit (e : UInt8) : e &&& globalBit = globalBit ∨ e &&& globalBit = 0 := by
  have hbit : e.toBitVec &&& BitVec.twoPow 8 7 = _ := BitVec.and_twoPow e.toBitVec 7
  cases hset : e.toBitVec.getLsbD 7 with
  | true =>
    rw [hset, if_pos rfl] at hbit
    exact .inl (UInt8.toBitVec_inj.1 hbit)
  | false =>
    rw [hset, if_neg (by decide)] at hbit
    exact .inr (UInt8.toBitVec_inj.1 hbit)

/-- The global enable is put back as it was. -/
theorem setGlobal_setGlobal : (c.setGlobal false).setGlobal c.globallyEnabled = c := by
  have henable : ((c.setGlobal false).setGlobal c.globallyEnabled).enable = c.enable := by
    unfold setGlobal globallyEnabled
    dsimp only
    by_cases hset : c.enable &&& globalBit = globalBit
    · have hback := Bits.clear_or_seen c.enable globalBit
      rw [hset] at hback
      simpa only [decide_eq_true hset, if_true, Bool.false_eq_true, if_false] using hback
    · have hclear : c.enable &&& globalBit = 0 := (and_globalBit _).resolve_left hset
      have hsame : c.enable &&& ~~~globalBit = c.enable := by
        simpa only [hclear, UInt8.or_zero] using Bits.clear_or_seen c.enable globalBit
      simp only [decide_eq_false hset, Bool.false_eq_true, if_false, hsame]
  exact congrArg (fun e => { c with enable := e }) henable

/-- Closing once more changes nothing. -/
theorem setGlobal_of_closed {c : InterruptController} (h : c.globallyEnabled = false) :
    c.setGlobal false = c := by
  have hback := c.setGlobal_setGlobal
  rw [h] at hback
  have htwice : (c.setGlobal false).setGlobal false = c.setGlobal false := by
    simp [setGlobal, UInt8.and_assoc]
  rw [← htwice, hback]

/-- The enable register is put back as it was, if it alone was left as it was. -/
theorem enable_setGlobal {c d : InterruptController} (h : d.enable = (c.setGlobal false).enable) :
    (d.setGlobal c.globallyEnabled).enable = c.enable := by
  have hback := congrArg enable c.setGlobal_setGlobal
  unfold setGlobal at hback h ⊢
  dsimp only at hback h ⊢
  rw [h]
  exact hback

end InterruptController

/-- The global enable is clear. -/
def Machine.Closed (s : Machine β) : Prop := s.irq.globallyEnabled = false

/-- A critical section begins with the global enable clear. -/
theorem Machine.closed_setGlobal (s : Machine β) :
    Closed { s with irq := s.irq.setGlobal false } := by
  have hclear : (s.irq.enable &&& ~~~InterruptController.globalBit) &&&
      InterruptController.globalBit = 0 := Bits.clear_and_self _ _
  have hne : (0 : UInt8) ≠ InterruptController.globalBit := by decide
  unfold Closed InterruptController.globallyEnabled InterruptController.setGlobal
  simp [hclear, hne]

/-- A critical section in a closed region is what it encloses. -/
theorem Machine.critical_of_closed {body : Run (Machine β) α} {s : Machine β} (hs : s.Closed)
    (hend : ∀ a t, body s = .done a t → t.Closed) : critical body s = body s := by
  have hstart : ({ s with irq := s.irq.setGlobal false } : Machine β) = s := by
    rw [InterruptController.setGlobal_of_closed hs]
  unfold critical
  rw [Run.bind_of_done (Run.gets_apply _ s)]
  refine (Run.bind_of_done (Run.modify_apply _ s)).trans ?_
  rw [hstart, Run.bind_apply]
  cases hbody : body s with
  | done a t =>
    refine (Run.bind_of_done (Run.modify_apply _ t)).trans ?_
    dsimp only
    rw [hs, InterruptController.setGlobal_of_closed (hend a t hbody)]
    rfl
  | fault cause t => rfl
  | exhausted => rfl

/-- A critical section depends on what it encloses where the global enable is clear. -/
theorem Machine.critical_congr {body body' : Run (Machine β) α} {s : Machine β}
    (h : body { s with irq := s.irq.setGlobal false } =
      body' { s with irq := s.irq.setGlobal false }) : critical body s = critical body' s := by
  unfold critical
  rw [Run.bind_of_done (Run.gets_apply _ s), Run.bind_of_done (Run.gets_apply _ s)]
  refine (Run.bind_of_done (Run.modify_apply _ s)).trans ?_
  refine Eq.trans ?_ (Run.bind_of_done (Run.modify_apply _ s)).symm
  rw [Run.bind_apply, Run.bind_apply, h]

/-- A preemption point that stops the run for good where a line would be taken. -/
def Linkage.alarm : Run (Machine β) Unit := fun s =>
  match s.irq.next? with
  | none => .done () s
  | some _ => .fault .halted s

/-- The linkage of a firmware without the service of interrupts: where a line would be taken, the
run stops for good. -/
def Firmware.alarmed (fw : Firmware β) : Nat → Linkage β
  | 0 => .exhausted fw.config fw.table
  | n + 1 =>
    { config := fw.config
      table := fw.table
      patience := n
      call := fun id param s => fw.callWith (fw.alarmed n) id param s
      poll := Linkage.alarm }

theorem Linkage.keeps_alarm {R : Machine β → Machine β → Prop} (hR : Extends R) :
    (Linkage.alarm : Run (Machine β) Unit).Keeps R := by
  intro s a t h
  unfold alarm at h
  split at h
  · cases h
    exact hR.refl s
  · cases h

/-- Without the service of interrupts, what the own steps of the routines keep is kept by every call
and every preemption point. -/
theorem Firmware.keeps_alarmed [RegisterBus β] {fw : Firmware β} {R : Machine β → Machine β → Prop}
    (hR : CallKeeping (Keeping R)) (hextends : Extends R)
    (hcritical : ∀ {α : Type} (body : Run (Machine β) α), body.Keeps R →
      (Machine.critical body).Keeps R) (himage : fw.image.ComposedOf (Keeping R)) (n : Nat) :
    (fw.alarmed n).Keeps R := by
  induction n with
  | zero => exact ⟨fun _ _ => Run.keeps_giveUp, Run.keeps_giveUp⟩
  | succ n ih =>
    exact ⟨fun id param => hR.callWith (fun _ _ hm => hm) hcritical himage ih id param,
      Linkage.keeps_alarm hextends⟩

/-- The enable register is left as it is. -/
def EnableKept (s t : Machine β) : Prop := t.irq.enable = s.irq.enable

theorem extends_enableKept : Extends (EnableKept : Machine β → Machine β → Prop) :=
  ⟨fun _ => rfl, fun hst htu => Eq.trans htu hst⟩

theorem EnableKept.closed {s t : Machine β} (h : EnableKept s t) (hs : s.Closed) : t.Closed := by
  unfold EnableKept at h
  unfold Machine.Closed InterruptController.globallyEnabled at hs ⊢
  rw [h]
  exact hs

theorem callKeeping_closed : CallKeeping (Keeping fun s t : Machine β => s.Closed → t.Closed) :=
  .of_still ⟨fun _ => id, fun hst htu => htu ∘ hst⟩ fun _ hirq => EnableKept.closed (by
    unfold EnableKept
    rw [hirq])

theorem Machine.follows_critical_of_closed {lax : Prop} {body body' : Run (Machine β) α}
    (h : Run.FollowsIn lax Machine.Closed body body') :
    Run.FollowsIn lax Machine.Closed (Machine.critical body) (Machine.critical body') := by
  intro s hs
  rcases h s hs with ⟨hlax, hexhausted⟩ | ⟨hsame, hend⟩
  · refine .inl ⟨hlax, ?_⟩
    rw [critical_of_closed hs fun a t hrun => by rw [hexhausted] at hrun; cases hrun]
    exact hexhausted
  · rw [critical_of_closed hs hend,
      critical_of_closed hs fun a t hrun => hend a t (hsame.trans hrun)]
    exact .inr ⟨hsame, hend⟩

variable [RegisterBus β] {fw : Firmware β} {P : Steps β}
  (hP : ∀ α m, P α m → m.Keeps EnableKept)

include hP

/-- What is composed of steps that keep the enable register stays in a closed region. -/
theorem Composed.follows_of_closed {l l' : Linkage β}
    (h : Linkage.Follows False Machine.Closed l l') {m : Linkage β → Run (Machine β) α}
    (hm : Composed P m) :
    Run.FollowsIn False Machine.Closed (m l) (m l') :=
  hm.follows_of_critical callKeeping_closed
    (fun _ _ hown s a t hrun => (hP _ _ hown s a t hrun).closed)
    Machine.follows_critical_of_closed h

/-- In a closed region the service of interrupts is not missed. -/
theorem Firmware.alarmed_follows (himage : fw.image.ComposedOf P) (n : Nat) :
    Linkage.Follows False Machine.Closed (fw.linkage n) (fw.alarmed n) := by
  induction n with
  | zero => exact ⟨rfl, rfl, rfl, fun _ _ => Run.follows_giveUp, Run.follows_giveUp⟩
  | succ n ih =>
    -- the values are named, as two linkages are not to be compared as wholes
    refine ⟨(rfl : fw.config = _), (rfl : fw.table = _), (rfl : n = _), fun id param => ?_,
      fun s hs => ?_⟩
    · refine callWith_follows callKeeping_closed rfl (fun logical active => ?_) id param
      unfold resolver
      cases hfound : fw.image.resolve logical active with
      | none => exact .none
      | some placed =>
        have hplaced := himage placed (CodeImage.mem_of_resolve hfound)
        exact .some fun param => (hplaced param).follows_of_closed hP ih
    · have hnone : s.irq.next? = none := InterruptController.next?_of_closed hs
      rw [poll_linkage, hnone]
      have halarm : (fw.alarmed (n + 1)).poll s = .done () s := by
        change Linkage.alarm s = _
        unfold Linkage.alarm
        rw [hnone]
      refine .inr ⟨halarm.symm, ?_⟩
      rintro _ t ⟨⟩
      exact hs

/-- What is composed of steps that keep the enable register does in a closed region what it would do
if the first line to be taken stopped it. -/
theorem Firmware.follows_alarmed (himage : fw.image.ComposedOf P) (n : Nat)
    {m : Linkage β → Run (Machine β) α} (hm : Composed P m) :
    Run.FollowsIn False Machine.Closed (m (fw.linkage n)) (m (fw.alarmed n)) :=
  hm.follows_of_closed hP (alarmed_follows hP himage n)

end BankedController
