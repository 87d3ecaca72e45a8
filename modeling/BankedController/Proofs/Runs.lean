import BankedController.Run

namespace BankedController

/-- A relation between an earlier and a later state that any number of steps may extend. -/
structure Extends {σ : Type} (R : σ → σ → Prop) : Prop where
  refl : ∀ s, R s s
  trans : ∀ {s t u}, R s t → R t u → R s u

namespace Outcome

variable {σ α : Type}

/-- The value, if there is one. -/
def value? : Outcome σ α → Option α
  | done a _ => some a
  | fault .. => none
  | exhausted => none

theorem done_of_value? {out : Outcome σ α} {a : α} (h : out.value? = some a) :
    ∃ s, out = .done a s := by
  cases out with
  | done a' s =>
    cases h
    exact ⟨s, rfl⟩
  | fault cause s => cases h
  | exhausted => cases h

/-- The answer of the last state to a question, if there is a value. -/
def ask? {γ : Type} (f : σ → γ) : Outcome σ α → Option γ
  | done _ s => some (f s)
  | fault .. => none
  | exhausted => none

theorem done_of_ask? {γ : Type} {f : σ → γ} {out : Outcome σ α} {c : γ} (h : out.ask? f = some c) :
    ∃ a s, out = .done a s ∧ f s = c := by
  cases out with
  | done a s => exact ⟨a, s, rfl, Option.some.inj h⟩
  | fault cause s => cases h
  | exhausted => cases h

/-- The last state is in `D` after a value and in `F` after a fault. -/
def Meets (D F : σ → Prop) : Outcome σ α → Prop
  | done _ s => D s
  | fault _ s => F s
  | exhausted => True

theorem Meets.imp {D D' F F' : σ → Prop} {out : Outcome σ α} (h : out.Meets D F)
    (hD : ∀ s, D s → D' s) (hF : ∀ s, F s → F' s) : out.Meets D' F' := by
  cases out with
  | done a s => exact hD s h
  | fault cause s => exact hF s h
  | exhausted => trivial

end Outcome

namespace Run

variable {σ α γ : Type}

/-- Whenever the run ends with a value, `R` holds between the states before and after. -/
def Keeps (R : σ → σ → Prop) (m : Run σ α) : Prop :=
  ∀ s a s', m s = .done a s' → R s s'

/-- From every state in `G` the run ends with a value, and in `G`. -/
def Ends (G : σ → Prop) (m : Run σ α) : Prop :=
  ∀ s, G s → ∃ a t, m s = .done a t ∧ G t

/-- From a state in `G` the two runs do the same. -/
def AgreeOn (G : σ → Prop) (m m' : Run σ α) : Prop :=
  ∀ s, G s → m s = m' s

/-- A sequence ends with a value exactly if both of its parts do. -/
theorem bind_eq_done {m : Run σ α} {f : α → Run σ γ} {s t : σ} {c : γ} :
    (m >>= f) s = .done c t ↔ ∃ a u, m s = .done a u ∧ f a u = .done c t := by
  rw [bind_apply]
  constructor
  · intro h
    cases hm : m s with
    | done a u => exact ⟨a, u, rfl, by simpa only [hm] using h⟩
    | fault cause u => simp [hm] at h
    | exhausted => simp [hm] at h
  · rintro ⟨a, u, hm, hf⟩
    rw [hm]
    exact hf

theorem bind_of_done {m : Run σ α} {f : α → Run σ γ} {s u : σ} {a : α} (h : m s = .done a u) :
    (m >>= f) s = f a u := by
  rw [bind_apply, h]

/-- What the second part meets from where the first part ends, the sequence meets. -/
theorem meets_bind {D D' F F' : σ → Prop} {m : Run σ α} {f : α → Run σ γ} {s : σ}
    (hm : (m s).Meets D F) (hf : ∀ a t, D t → (f a t).Meets D' F') (hF : ∀ t, F t → F' t) :
    ((m >>= f) s).Meets D' F' := by
  rw [bind_apply]
  cases hms : m s with
  | done a t =>
    rw [hms] at hm
    exact hf a t hm
  | fault cause t =>
    rw [hms] at hm
    exact hF t hm
  | exhausted => trivial

theorem modify_apply (f : σ → σ) (s : σ) : (modify f : Run σ Unit) s = .done () (f s) := rfl

theorem gets_apply (f : σ → α) (s : σ) : (gets f : Run σ α) s = .done (f s) s := rfl

/-- A bound for a run that ends with a value in `Q`, put together along a sequence. -/
theorem keeps_bind {R : σ → σ → Prop} (hR : Extends R) {m : Run σ α} {f : α → Run σ γ}
    (hm : m.Keeps R) (hf : ∀ a, (f a).Keeps R) : (m >>= f).Keeps R := by
  intro s c t h
  obtain ⟨a, u, hma, hfa⟩ := bind_eq_done.1 h
  exact hR.trans (hm s a u hma) (hf a u c t hfa)

theorem keeps_pure {R : σ → σ → Prop} (hR : Extends R) (a : α) :
    (Pure.pure a : Run σ α).Keeps R := by
  intro s b t h
  cases h
  exact hR.refl s

theorem keeps_gets {R : σ → σ → Prop} (hR : Extends R) (f : σ → α) :
    (gets f : Run σ α).Keeps R := by
  intro s b t h
  cases h
  exact hR.refl s

theorem keeps_modify {R : σ → σ → Prop} {f : σ → σ} (h : ∀ s, R s (f s)) :
    (modify f : Run σ Unit).Keeps R := by
  intro s b t ht
  cases ht
  exact h s

theorem keeps_branch {R : σ → σ → Prop} {c : Prop} [Decidable c] {m m' : Run σ α} (yes : m.Keeps R)
    (no : m'.Keeps R) : (if c then m else m').Keeps R := by
  split
  · exact yes
  · exact no

theorem keeps_giveUp {R : σ → σ → Prop} : (giveUp : Run σ α).Keeps R := by
  intro s a t h
  cases h

theorem ends_pure {G : σ → Prop} (a : α) : (Pure.pure a : Run σ α).Ends G :=
  fun s hs => ⟨a, s, rfl, hs⟩

theorem ends_bind {G : σ → Prop} {m : Run σ α} {f : α → Run σ γ} (hm : m.Ends G)
    (hf : ∀ a, (f a).Ends G) : (m >>= f).Ends G := by
  intro s hs
  obtain ⟨a, t, hrun, ht⟩ := hm s hs
  obtain ⟨c, u, hrest, hu⟩ := hf a t ht
  exact ⟨c, u, (bind_of_done hrun).trans hrest, hu⟩

theorem agreeOn_refl {G : σ → Prop} (m : Run σ α) : AgreeOn G m m :=
  fun _ _ => rfl

/-- The first parts agree on `G` and stay in `G`, so that the second parts start from there. -/
theorem agreeOn_bind {G : σ → Prop} {m m' : Run σ α} {f f' : α → Run σ γ}
    (hm : AgreeOn G m m') (hG : m.Keeps fun s t => G s → G t)
    (hf : ∀ a, AgreeOn G (f a) (f' a)) : AgreeOn G (m >>= f) (m' >>= f') := by
  intro s hs
  rw [bind_apply, bind_apply, ← hm s hs]
  cases hms : m s with
  | done a u => exact hf a u (hG s a u hms hs)
  | fault cause u => rfl
  | exhausted => rfl

end Run

end BankedController
