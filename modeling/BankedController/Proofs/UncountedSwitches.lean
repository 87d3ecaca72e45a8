import BankedController.Proofs.FollowedRuns
import BankedController.Proofs.Lockstep

namespace BankedController

variable {σ β α γ : Type}

namespace Run

/-- From states that look the same through `f`, the run ends in ways that look the same. -/
def Blind (f : σ → σ) (m : Run σ α) : Prop :=
  ∀ s s', f s = f s' → (m s).through f = (m s').through f

variable {f : σ → σ} {m : Run σ α}

theorem Commutes.blind (h : m.Commutes f) : m.Blind f := by
  intro s s' hs
  rw [← h s, hs, h s']

theorem blind_bind {k : α → Run σ γ} (hm : m.Blind f) (hk : ∀ a, (k a).Blind f) :
    (m >>= k).Blind f := by
  intro s s' hs
  have hfirst := hm s s' hs
  rw [bind_apply, bind_apply]
  generalize m s = out at hfirst
  generalize m s' = out' at hfirst
  cases out with
  | done a t => cases out' with
    | done a' t' =>
      obtain ⟨rfl, ht⟩ := Outcome.done.inj hfirst
      exact hk a t t' ht
    | fault cause' t' => cases hfirst
    | exhausted => cases hfirst
  | fault cause t => cases out' with
    | done a' t' => cases hfirst
    | fault cause' t' =>
      obtain ⟨rfl, ht⟩ := Outcome.fault.inj hfirst
      exact congrArg (Outcome.fault cause) ht
    | exhausted => cases hfirst
  | exhausted => cases out' with
    | done a' t' => cases hfirst
    | fault cause' t' => cases hfirst
    | exhausted => rfl

end Run

/-- The machine with no count of its bank switches, and without a log. -/
def Machine.uncounted (s : Machine β) : Machine β :=
  { s with
    window := ⟨s.window.active, 0⟩
    log := ⟨none, []⟩ }

/-- The runs that neither the number of bank switches nor the log matters to. -/
abbrev Uncounting : Steps β := fun _ m => m.Blind Machine.uncounted

theorem Machine.uncounted_mapped (s : Machine β) (bank : Bank) :
    (s.mapped bank).uncounted = { s.uncounted with window := ⟨bank, 0⟩ } := by
  unfold mapped uncounted
  split
  next h => rw [h]
  next => rw [BankWindow.active_select]

theorem uncounting_onBus (m : Run β α) : Uncounting α (Machine.onBus m) := by
  refine Run.Commutes.blind fun s => ?_
  unfold Machine.onBus Machine.uncounted
  dsimp only
  cases m s.bus <;> rfl

/-- The bookkeeping looks at the bank that is mapped, and at no count of switches. -/
theorem bookkeeping_uncounting : Bookkeeping (Uncounting : Steps β) where
  done a := (Run.commutes_pure a).blind
  sequence := Run.blind_bind
  giveUp := Run.commutes_giveUp.blind
  stack f := Run.Commutes.blind fun _ => rfl
  irq f := Run.Commutes.blind fun _ => rfl
  select bank := by
    intro s s' hs
    rw [Machine.selectBank_apply, Machine.selectBank_apply]
    refine congrArg (Outcome.done ()) ?_
    rw [Machine.uncounted_mapped, Machine.uncounted_mapped, hs]
  count f := Run.Commutes.blind fun _ => rfl
  note event := Run.Commutes.blind fun _ => rfl
  look f := Run.Commutes.blind fun _ => rfl

namespace Firmware

/-- An observer that is told what a class may look at leaves the routines in the class. -/
theorem others_observed [RegisterBus β] {fw : Firmware β} {P : Steps β}
    (see : Sighting → Run β Unit)
    (hlook : ∀ placed param, P Sighting (Run.gets fun s => Sighting.on s placed param))
    (hbus : ∀ m : Run β Unit, P Unit (Machine.onBus m)) {addrs : List CodeAddr}
    (himage : ∀ placed ∈ fw.image.routines, placed.addr ∉ addrs → placed.body.ComposedOf P) :
    ∀ placed ∈ (fw.observed see).image.routines, placed.addr ∉ addrs →
      placed.body.ComposedOf P := by
  intro observed hobserved haddr param
  obtain ⟨placed, hplaced, rfl⟩ := List.mem_map.1 hobserved
  refine .sequence (.step _ (hlook placed param)) fun sighting => ?_
  exact .followed (.step _ (hbus (see sighting))) (himage placed hplaced haddr param)

end Firmware

end BankedController
