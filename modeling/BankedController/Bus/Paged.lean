namespace BankedController

/-- One value for each of the 65536 addresses, by page and by place in the page. -/
structure Paged (α : Type) where
  pages : Vector (Vector α 256) 256
  deriving DecidableEq

namespace Paged

variable {α : Type}

def fill (value : α) : Paged α := ⟨Vector.replicate 256 (Vector.replicate 256 value)⟩

def page (addr : UInt16) : Fin 256 :=
  ⟨addr.toNat / 256, by have := addr.toNat_lt; omega⟩

def place (addr : UInt16) : Fin 256 :=
  ⟨addr.toNat % 256, by omega⟩

def get (p : Paged α) (addr : UInt16) : α :=
  p.pages[page addr][place addr]

def set (p : Paged α) (addr : UInt16) (value : α) : Paged α :=
  ⟨⟨p.pages.toArray.modify (page addr) fun values => values.set (place addr) value, by simp⟩⟩

/-- Replaces the values at `count` addresses from `start` on, as far as there are addresses. -/
def setFrom (p : Paged α) (value : α) (start : Nat) : Nat → Paged α
  | 0 => p
  | count + 1 =>
    if start < 65536 then
      (p.set (UInt16.ofNat start) value).setFrom value (start + 1) count
    else p

@[simp] theorem get_fill (value : α) (addr : UInt16) : (fill value).get addr = value := by
  simp [fill, get]

theorem eq_of_page_of_place {a b : UInt16} (hpage : page a = page b) (hplace : place a = place b) :
    a = b := by
  simp only [page, place, Fin.mk.injEq] at hpage hplace
  exact UInt16.toNat_inj.1 (by omega)

theorem get_set (p : Paged α) (a b : UInt16) (value : α) :
    (p.set a value).get b = if a = b then value else p.get b := by
  simp only [get, set, Fin.getElem_fin, Vector.getElem_mk, Array.getElem_modify, Fin.val_inj]
  by_cases hpage : page a = page b
  · by_cases hplace : place a = place b
    · simp [eq_of_page_of_place hpage hplace]
    · have : a ≠ b := fun h => hplace (by rw [h])
      simp [hpage, Fin.val_inj, hplace, this, Vector.getElem_toArray]
  · have : a ≠ b := fun h => hpage (by rw [h])
    simp [hpage, this, Vector.getElem_toArray]

theorem get_setFrom (p : Paged α) (value : α) (start count : Nat) (addr : UInt16) :
    (p.setFrom value start count).get addr =
      if start ≤ addr.toNat ∧ addr.toNat < start + count then value else p.get addr := by
  induction count generalizing p start with
  | zero =>
    have : ¬(start ≤ addr.toNat ∧ addr.toNat < start + 0) := by omega
    simp only [setFrom, if_neg this]
  | succ count ih =>
    have hlt := addr.toNat_lt
    unfold setFrom
    split
    next hstart =>
      have hnat : (UInt16.ofNat start).toNat = start := by
        simpa using Nat.mod_eq_of_lt hstart
      rw [ih, get_set]
      by_cases heq : UInt16.ofNat start = addr
      · subst heq
        rw [hnat, if_pos rfl, if_neg (by omega), if_pos (by omega)]
      · have hne : start ≠ addr.toNat := fun h => heq (UInt16.toNat_inj.1 (hnat.trans h))
        by_cases hin : start + 1 ≤ addr.toNat ∧ addr.toNat < start + 1 + count
        · rw [if_pos hin, if_pos (by omega)]
        · rw [if_neg hin, if_neg heq, if_neg (by omega)]
    next hstart =>
      rw [if_neg (by omega)]

theorem ext_get {p q : Paged α} (h : ∀ addr, p.get addr = q.get addr) : p = q := by
  obtain ⟨p⟩ := p
  obtain ⟨q⟩ := q
  congr 1
  apply Vector.ext
  intro i hi
  apply Vector.ext
  intro j hj
  have hlt : i * 256 + j < 65536 := by omega
  have := h (UInt16.ofNat (i * 256 + j))
  have hn : (UInt16.ofNat (i * 256 + j)).toNat = i * 256 + j := by
    simpa using Nat.mod_eq_of_lt hlt
  have hd : (i * 256 + j) / 256 = i := by omega
  have hm : (i * 256 + j) % 256 = j := by omega
  simpa only [get, page, place, Fin.getElem_fin, hn, hd, hm] using this

end Paged

/-- Plain memory: a byte at every address. -/
abbrev Ram : Type := Paged UInt8

def Ram.zero : Ram := Paged.fill 0

@[simp] theorem Ram.get_zero (addr : UInt16) : Ram.zero.get addr = 0 :=
  Paged.get_fill ..

end BankedController
