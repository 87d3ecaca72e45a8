import BankedController.Board.Basic
import BankedController.Proofs.Bookkeeping

namespace BankedController

variable {σ β α γ : Type}

/-- The same end, with the state seen through `f`. -/
def Outcome.through (f : σ → σ) : Outcome σ α → Outcome σ α
  | done a s => .done a (f s)
  | fault cause s => .fault cause (f s)
  | exhausted => .exhausted

/-- A run with a value is seen as a run with that value. -/
theorem Outcome.done_of_through {f : σ → σ} {out : Outcome σ α} {a : α} {s : σ}
    (h : out.through f = .done a s) : ∃ t, out = .done a t ∧ f t = s := by
  cases out with
  | done a' t =>
    obtain ⟨rfl, ht⟩ := Outcome.done.inj h
    exact ⟨t, rfl, ht⟩
  | fault cause t => cases h
  | exhausted => cases h

namespace Run

/-- Whether the state is seen through `f` before the run or after it makes no difference. -/
def Commutes (f : σ → σ) (m : Run σ α) : Prop := ∀ s, m (f s) = (m s).through f

variable {f : σ → σ}

theorem commutes_pure (a : α) : (Pure.pure a : Run σ α).Commutes f := fun _ => rfl

theorem commutes_giveUp : (giveUp : Run σ α).Commutes f := fun _ => rfl

theorem commutes_bind {m : Run σ α} {k : α → Run σ γ} (hm : m.Commutes f)
    (hk : ∀ a, (k a).Commutes f) : (m >>= k).Commutes f := by
  intro s
  rw [bind_apply, bind_apply, hm s]
  cases m s with
  | done a t => exact hk a t
  | fault cause t => rfl
  | exhausted => rfl

/-- From two states that look the same through `f`, the run does what looks the same. -/
theorem Commutes.done {m : Run σ α} (hm : m.Commutes f) {s s' t : σ} {a : α} (h : f s' = f s)
    (hrun : m s = .done a t) : ∃ t', m s' = .done a t' ∧ f t' = f t := by
  apply Outcome.done_of_through
  rw [← hm s', h, hm s, hrun]
  rfl

end Run

/-- The machine without a log. -/
def Machine.silent (s : Machine β) : Machine β := { s with log := ⟨none, []⟩ }

/-- Machines that are the same without a log differ in their logs alone. -/
theorem Machine.eq_of_silent {s s' : Machine β} (h : s'.silent = s.silent) :
    { s' with log := s.log } = s :=
  congrArg (fun m : Machine β => { m with log := s.log }) h

/-- The runs that the log does not matter to. -/
abbrev Unread : Steps β := fun _ m => m.Commutes Machine.silent

theorem unread_onBus (m : Run β α) : Unread α (Machine.onBus m) := by
  intro s
  unfold Machine.onBus Machine.silent
  dsimp only
  cases m s.bus <;> rfl

theorem unread_selectBank (bank : Bank) : Unread Unit (Machine.selectBank (β := β) bank) := by
  intro s
  unfold Machine.selectBank
  by_cases hactive : s.window.active = bank
  · have hsilent : s.silent.window.active = bank := hactive
    rw [if_pos hactive, if_pos hsilent]
    rfl
  · have hsilent : ¬s.silent.window.active = bank := hactive
    rw [if_neg hactive, if_neg hsilent]
    rfl

/-- The bookkeeping looks at everything but the log. -/
theorem bookkeeping_unread : Bookkeeping (Unread : Steps β) where
  done := Run.commutes_pure
  sequence := Run.commutes_bind
  giveUp := Run.commutes_giveUp
  stack _ _ := rfl
  irq _ _ := rfl
  select := unread_selectBank
  count _ _ := rfl
  note _ _ := rfl
  look _ _ := rfl

variable [RegisterBus β]

theorem admits_unread (A : UInt16 → UInt8 → Prop) : Admits (Unread : Steps β) A where
  note := bookkeeping_unread.note
  read addr := unread_onBus (RegisterBus.read addr)
  write addr value _ := unread_onBus (RegisterBus.write addr value)

namespace Board

theorem composed_behaviour (behaviour : Behaviour) :
    Composed Unread fun _ : Linkage (Rig Record) => behaviour.run := by
  have hP : Admits (Unread : Steps (Rig Record)) fun _ _ => True := admits_unread _
  cases behaviour with
  | nothing => exact .done ()
  | acknowledge register mask => exact .write hP trivial
  | clearMasterReady => exact .clearBits hP _ fun _ => trivial
  | linkUp => exact .setBits hP _ fun _ => trivial
  | relayCommand =>
    have htag : Unread UInt8 takeTag :=
      Run.commutes_bind (fun _ => rfl) fun tag =>
        Run.commutes_bind (unread_onBus _) fun _ => Run.commutes_pure tag
    refine .followed (.write hP trivial) (.sequence (.step _ htag) fun tag => ?_)
    exact .followed (.post _ (admits_unread _)) (.setBits hP _ fun _ => trivial)

theorem composedOf_standIn (slot : SlotId) : Routine.ComposedOf Unread (standIn slot) := by
  intro param
  refine .sequence (.step _ (bookkeeping_unread.look fun bank _ _ => bank)) fun bank => ?_
  exact .followed (.step _ (unread_onBus _)) (composed_behaviour _)

theorem composedOf_standIns :
    CodeImage.ComposedOf Unread (CodeImage.ofList standIns : CodeImage (Routine (Rig Record))) := by
  intro placed hplaced
  rw [CodeImage.mem_ofList] at hplaced
  obtain ⟨e, -, rfl⟩ := List.mem_map.1 hplaced
  exact composedOf_standIn e.slot

/-- A pass of a board is the same whatever the log holds. -/
theorem unread_runPass {config : FirmwareConfig} {fw : BoardFirmware} (h : link config = .ok fw)
    (n : Nat) : Unread PassSummary (runPass (fw.linkage n)) := by
  have hfw := Firmware.composedOf_of_link (admits_unread _) h composedOf_standIns
  have hl : (fw.linkage n).Within Unread :=
    bookkeeping_unread.linkage (fun _ _ h => h) (admits_unread _) hfw n
  have hpass : Unread PassSummary (fw.linkage n).runPass :=
    Composed.within bookkeeping_unread.carries (fun _ _ h => h) hl (.mainLoop (admits_unread _))
  exact Run.commutes_bind (unread_onBus _) fun _ => hpass

theorem unread_report : Unread RunReport report :=
  Run.commutes_bind (unread_onBus _) fun _ _ => rfl

end Board

end BankedController
