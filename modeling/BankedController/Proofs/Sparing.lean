import BankedController.Proofs.CoreRoutines

namespace BankedController

variable {β α γ : Type}

/-- The linkage in which no call of the given slots returns. -/
def Linkage.without (l : Linkage β) (ids : List SlotId) : Linkage β :=
  { l with call := fun id param => if id ∈ ids then Run.giveUp else l.call id param }

/-- A program that calls none of the given slots. -/
def Spares (ids : List SlotId) (m : Linkage β → Run (Machine β) α) : Prop :=
  ∀ l, m (l.without ids) = m l

namespace Spares

variable {ids : List SlotId}

theorem bind {m : Linkage β → Run (Machine β) α} {f : α → Linkage β → Run (Machine β) γ}
    (first : Spares ids m) (next : ∀ a, Spares ids (f a)) :
    Spares ids fun l => m l >>= fun a => f a l := by
  intro l
  have hnext : (fun a => f a (l.without ids)) = fun a => f a l := funext fun a => next a l
  dsimp only
  rw [first l, hnext]

theorem call {id : SlotId} (h : id ∉ ids) (param : Option UInt8) :
    Spares ids fun l : Linkage β => l.call id param :=
  fun _ => if_neg h

theorem dispatch {id : SlotId} (h : id ∉ ids) (param : Option UInt8) :
    Spares ids fun l : Linkage β => l.dispatch id param :=
  bind (call h param) fun _ _ => rfl

theorem branch {c : Prop} [Decidable c] {m m' : Linkage β → Run (Machine β) α}
    (yes : Spares ids m) (no : Spares ids m') : Spares ids fun l => if c then m l else m' l := by
  by_cases h : c
  · simpa only [if_pos h] using yes
  · simpa only [if_neg h] using no

/-- What a linkage keeps in the calls that are not spared, the program keeps. -/
theorem keeps [RegisterBus β] {P : Steps β} {R : Machine β → Machine β → Prop} {l : Linkage β}
    {m : Linkage β → Run (Machine β) α} (h : Spares ids m) (hm : Composed P m) (hR : Survives R)
    (hP : ∀ α m, P α m → m.Keeps R) (hcall : ∀ id ∉ ids, ∀ param, (l.call id param).Keeps R)
    (hpoll : l.poll.Keeps R) : (m l).Keeps R := by
  rw [← h l]
  have hbarred : (l.without ids).Keeps R := by
    refine ⟨fun id param => ?_, hpoll⟩
    change (if id ∈ ids then Run.giveUp else l.call id param).Keeps R
    by_cases hid : id ∈ ids
    · rw [if_pos hid]
      exact Run.keeps_giveUp
    · rw [if_neg hid]
      exact hcall id hid param
  exact Composed.keeps hR hP hbarred hm

section Core

variable [RegisterBus β]

theorem runTests (snapshot : UInt8) {tests : List StatusTest} (h : ∀ test ∈ tests, test.slot ∉ ids) :
    Spares ids fun l : Linkage β => l.runTests snapshot tests := by
  induction tests with
  | nil => exact fun _ => rfl
  | cons test rest ih =>
    have htest := h test List.mem_cons_self
    have hfire (value : UInt8) : Spares ids fun l : Linkage β => (do
        if value &&& test.mask = 0 then
          pure ()
        else
          l.dispatch test.slot none
          Linkage.acknowledge test : Run (Machine β) Unit) :=
      branch (fun _ => rfl) (bind (dispatch htest none) fun _ _ => rfl)
    have hfirst : Spares ids fun l : Linkage β => l.runTest snapshot test := by
      obtain ⟨source, mask, slot, ack⟩ := test
      cases source with
      | snapshot => exact bind (fun _ => rfl) hfire
      | reread register => exact bind (fun _ => rfl) hfire
    exact bind hfirst fun _ => ih fun t ht => h t (List.mem_cons_of_mem _ ht)

/-- A route calls the slots of its tests and no others. -/
theorem route {line : IrqLine} (h : ∀ test ∈ (LineRoute.ofLine line).tests, test.slot ∉ ids) :
    Spares ids fun l : Linkage β => l.route line :=
  bind (fun _ => rfl) fun snapshot => bind (fun _ => rfl) fun _ => runTests snapshot h

end Core

end Spares

/-- The linkage in which no call returns. -/
def Linkage.deaf (l : Linkage β) : Linkage β := { l with call := fun _ _ => Run.giveUp }

/-- A program that calls no slot at all. -/
def Solitary (m : Linkage β → Run (Machine β) α) : Prop := ∀ l, m l.deaf = m l

namespace Solitary

theorem bind {m : Linkage β → Run (Machine β) α} {f : α → Linkage β → Run (Machine β) γ}
    (first : Solitary m) (next : ∀ a, Solitary (f a)) :
    Solitary fun l => m l >>= fun a => f a l := by
  intro l
  have hnext : (fun a => f a l.deaf) = fun a => f a l := funext fun a => next a l
  dsimp only
  rw [first l, hnext]

theorem spares {m : Linkage β → Run (Machine β) α} (h : Solitary m) (ids : List SlotId) :
    Spares ids m :=
  fun l => (h (l.without ids)).symm.trans (h l)

variable [RegisterBus β]

/-- Against a linkage in which no call returns, only the own steps, the preemption points and the
critical sections matter. -/
theorem keeps_deaf {P : Steps β} {R : Machine β → Machine β → Prop} {l : Linkage β}
    {m : Linkage β → Run (Machine β) α} (hm : Composed P m) (hR : Extends R)
    (hcritical : ∀ {γ : Type} (body : Run (Machine β) γ), body.Keeps R →
      (Machine.critical body).Keeps R)
    (hP : ∀ α m, P α m → m.Keeps R) (hpoll : l.poll.Keeps R) : (m l.deaf).Keeps R := by
  have hdeaf : l.deaf.Keeps R := ⟨fun _ _ => Run.keeps_giveUp, hpoll⟩
  induction hm with
  | done a => exact Run.keeps_pure hR a
  | sequence _ _ first next => exact Run.keeps_bind hR first next
  | step m own => exact hP _ m own
  | call id param => exact Run.keeps_giveUp
  | callStub addr param => exact hdeaf.callStub hR.sequential addr param
  | dispatch id param => exact Run.keeps_giveUp
  | poll => exact hpoll
  | wait w _ _ sample count => exact BusyWait.within_run hR.sequential hdeaf sample count
  | critical _ body => exact hcritical _ body
  | configured _ next => exact next l.config

/-- What its own steps and the preemption points keep, the program keeps. -/
theorem keeps {P : Steps β} {R : Machine β → Machine β → Prop} {l : Linkage β}
    {m : Linkage β → Run (Machine β) α} (h : Solitary m) (hm : Composed P m) (hR : Extends R)
    (hcritical : ∀ {γ : Type} (body : Run (Machine β) γ), body.Keeps R →
      (Machine.critical body).Keeps R)
    (hP : ∀ α m, P α m → m.Keeps R) (hpoll : l.poll.Keeps R) : (m l).Keeps R := by
  rw [← h l]
  exact keeps_deaf hm hR hcritical hP hpoll

theorem wait (w : BusyWait) : Solitary fun l : Linkage β => w.run l := by
  have hpoll (l : Linkage β) (patience : Nat) : w.poll l.deaf patience = w.poll l patience := by
    induction patience with
    | zero => rfl
    | succ patience ih =>
      unfold BusyWait.poll
      rw [ih]
      rfl
  intro l
  change (Machine.write32 w.counter 0 >>= fun _ => w.poll l.deaf l.patience) = _
  rw [hpoll]
  rfl

theorem awaitAll (kind : CommandKind) (waits : List WaitKind) :
    Solitary fun l : Linkage β => l.awaitAll kind waits := by
  induction waits with
  | nil => exact fun _ => rfl
  | cons wait rest ih =>
    have hawait : Solitary fun l : Linkage β => l.await kind wait :=
      fun l => Solitary.wait (wait.busyWait kind l.config.timeouts) l
    refine bind hawait fun outcome => ?_
    cases outcome with
    | ready iterations => exact bind ih fun _ _ => rfl
    | error iterations => exact fun _ => rfl
    | timedOut iterations => exact fun _ => rfl

theorem execute (r : CommandRequest) : Solitary fun l : Linkage β => l.execute r :=
  bind (fun _ => rfl) fun _ => bind (fun _ => rfl) fun _ => bind (awaitAll _ _) fun _ _ => rfl

theorem commandServiceRoutine (param : Option UInt8) :
    Solitary fun l : Linkage β => commandServiceRoutine l param := by
  refine bind (fun _ => rfl) fun found => ?_
  cases found with
  | none => exact fun _ => rfl
  | some request => exact bind (execute request) fun _ _ => rfl

end Solitary

end BankedController
