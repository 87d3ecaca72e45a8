/-! Runs over a state. A run ends with a value, or with a fault, and in both cases with the state it
reached; or the bound on its length is exhausted, and then there is nothing to look at. -/

namespace BankedController

/-- What stops a run for good. -/
inductive Fault where
  /-- A register block was reached at an address that it has no register for. -/
  | indexOutOfRange
  /-- An address calculation left its range. -/
  | overflow
  /-- The program asked to be stopped. -/
  | halted
  deriving DecidableEq

/-- How a run from a state of type `σ` ends. -/
inductive Outcome (σ α : Type) where
  | done (value : α) (state : σ)
  | fault (cause : Fault) (state : σ)
  | exhausted

/-- A computation over a state that may fault and may exhaust its bound. -/
def Run (σ α : Type) : Type := σ → Outcome σ α

namespace Run

variable {σ τ α β : Type}

@[inline] def pure (a : α) : Run σ α := fun s => .done a s

@[inline] def bind (m : Run σ α) (f : α → Run σ β) : Run σ β := fun s =>
  match m s with
  | .done a s' => f a s'
  | .fault cause s' => .fault cause s'
  | .exhausted => .exhausted

@[inline] instance : Monad (Run σ) where
  pure := Run.pure
  bind := Run.bind

/-- The state. -/
@[inline] def get : Run σ σ := fun s => .done s s

/-- A value read off the state. -/
@[inline] def gets (f : σ → α) : Run σ α := fun s => .done (f s) s

/-- Changes the state. -/
@[inline] def modify (f : σ → σ) : Run σ Unit := fun s => .done () (f s)

/-- Stops for good. -/
@[inline] def throw (cause : Fault) : Run σ α := fun s => .fault cause s

/-- Gives up: the bound is exhausted. -/
@[inline] def giveUp : Run σ α := fun _ => .exhausted

@[simp] theorem pure_apply (a : α) (s : σ) : (Pure.pure a : Run σ α) s = .done a s := rfl

theorem bind_apply (m : Run σ α) (f : α → Run σ β) (s : σ) :
    (m >>= f) s = match m s with
      | .done a s' => f a s'
      | .fault cause s' => .fault cause s'
      | .exhausted => .exhausted := rfl

instance : LawfulMonad (Run σ) := LawfulMonad.mk' _
  (fun m => by
    funext s
    change (match m s with
      | .done a s' => Outcome.done (id a) s'
      | .fault cause s' => .fault cause s'
      | .exhausted => .exhausted) = m s
    cases m s <;> rfl)
  (fun _ _ => rfl)
  (fun m f g => by
    funext s
    simp only [bind_apply]
    cases m s <;> rfl)

end Run

end BankedController
