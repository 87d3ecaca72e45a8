import BankedController.Command.Engine
import BankedController.Proofs.Transcripts
import Mathlib.Data.List.Nodup
import Mathlib.Data.Nat.ModEq

namespace BankedController

open RegisterMap

variable {β α : Type}

/-- The bytes that the engine counts in. -/
def Rolling (addr : UInt16) : Prop := addr = commandState ∨ addr = queueTail

instance (addr : UInt16) : Decidable (Rolling addr) := inferInstanceAs (Decidable (_ ∨ _))

/-- A write of the engine to one of them, or to the place of the command in flight. -/
inductive EngineDeed where
  | state (value : UInt8)
  | slot (value : UInt8)
  | tail (value : UInt8)
  deriving DecidableEq

def Deed.engine? : Deed → Option EngineDeed
  | .write addr value =>
    if addr = commandState then some (.state value)
    else if addr = commandSlot then some (.slot value)
    else if addr = queueTail then some (.tail value)
    else none
  | _ => none

/-- What the record says of the engine. -/
def Recorded.engineDeeds (r : Recorded β) : List EngineDeed := r.deeds.filterMap Deed.engine?

/-- Consecutive numbers from `start` on, modulo `modulus`. -/
def roll (modulus start count : Nat) : List Nat :=
  (List.range count).map fun i => (start + i) % modulus

section Roll

variable {modulus : Nat} (start count : Nat)

theorem roll_succ :
    roll modulus start (count + 1) = start % modulus :: roll modulus (start + 1) count := by
  unfold roll
  rw [List.range_succ_eq_map, List.map_cons, List.map_map, Nat.add_zero]
  congr 1
  refine List.map_congr_left fun i _ => ?_
  rw [Function.comp_apply, Nat.succ_eq_add_one, Nat.add_assoc, Nat.add_comm 1 i]

theorem roll_mod : roll modulus (start % modulus) count = roll modulus start count := by
  unfold roll
  exact List.map_congr_left fun i _ => Nat.mod_add_mod start modulus i

theorem take_drop_roll (i k : Nat) :
    ((roll modulus start count).drop i).take k = roll modulus (start + i) (min k (count - i)) := by
  unfold roll
  refine List.ext_getElem (by simp) fun j hj hj' => ?_
  simp [Nat.add_assoc]

variable {count} in
/-- Fewer numbers than there are in all are distinct. -/
theorem nodup_roll (h : count ≤ modulus) : (roll modulus start count).Nodup := by
  refine List.Nodup.map_on (fun i hi j hj hij => ?_) List.nodup_range
  have hsame : i ≡ j [MOD modulus] := Nat.ModEq.add_left_cancel' start hij
  have hlt := (List.mem_range.1 hi).trans_le h
  have hlt' := (List.mem_range.1 hj).trans_le h
  exact hsame.eq_of_lt_of_lt hlt hlt'

end Roll

/-- A byte that takes consecutive values modulo `modulus`, from what it was to what it is. -/
structure Counts (modulus start : Nat) (values : List UInt8) (stop : Nat) : Prop where
  taken : values.map UInt8.toNat = roll modulus (start + 1) values.length
  last : stop = if values.length = 0 then start else (start + values.length) % modulus

namespace Counts

variable {modulus start stop : Nat} {values : List UInt8} {value : UInt8}

theorem nil (modulus start : Nat) : Counts modulus start [] start := ⟨rfl, rfl⟩

theorem cons (hvalue : value.toNat = (start + 1) % modulus)
    (h : Counts modulus value.toNat values stop) : Counts modulus start (value :: values) stop := by
  obtain ⟨htaken, hlast⟩ := h
  refine ⟨?_, ?_⟩
  · rw [List.map_cons, List.length_cons, roll_succ, htaken, hvalue, ← roll_mod (_ + 1),
      Nat.mod_add_mod, roll_mod]
  · rw [hlast, List.length_cons, if_neg (Nat.succ_ne_zero _), hvalue]
    split
    next hnone => rw [hnone]
    next => rw [Nat.mod_add_mod, Nat.add_assoc, Nat.add_comm 1]

end Counts

namespace EngineDeed

/-- The values that the count of completions took. -/
def states (deeds : List EngineDeed) : List UInt8 :=
  deeds.filterMap fun
    | state value => some value
    | _ => none

/-- The values that the end of the queue took. -/
def tails (deeds : List EngineDeed) : List UInt8 :=
  deeds.filterMap fun
    | tail value => some value
    | _ => none

/-- The places that were claimed: each is stored right before the end of the queue moves past it. -/
def claims : List EngineDeed → List UInt8
  | slot place :: tail _ :: rest => place :: claims rest
  | _ :: rest => claims rest
  | [] => []

/-- What a submission does when it claims a place, and any other command does not. -/
def claimed : Option UInt8 → List EngineDeed
  | some place => [slot place, tail ((place + 1) &&& queueMask)]
  | none => []

/-- What the end of a command does. -/
def ended (value : UInt8) : List EngineDeed := [state value, slot 0]

end EngineDeed

/-- The engine counts on, from the state and the end of the queue as they were to what they are. In
between, the place of the command in flight may be stored by anybody. -/
inductive Rolled : UInt8 → UInt8 → List EngineDeed → UInt8 → UInt8 → Prop
  | nil (state tail : UInt8) : Rolled state tail [] state tail
  | stored {state tail state' tail' : UInt8} {deeds : List EngineDeed} (place : UInt8)
    (later : Rolled state tail deeds state' tail') :
    Rolled state tail (.slot place :: deeds) state' tail'
  | claimed {state tail state' tail' : UInt8} {deeds : List EngineDeed}
    (later : Rolled state ((tail &&& queueMask) + 1 &&& queueMask) deeds state' tail') :
    Rolled state tail (EngineDeed.claimed (some (tail &&& queueMask)) ++ deeds) state' tail'
  | counted {state tail state' tail' : UInt8} {deeds : List EngineDeed}
    (later : Rolled (state + 1 &&& commandStateMask) tail deeds state' tail') :
    Rolled state tail (.state (state + 1 &&& commandStateMask) :: deeds) state' tail'

namespace Rolled

variable {state tail state' tail' state'' tail'' : UInt8} {deeds deeds' : List EngineDeed}

theorem trans (h : Rolled state tail deeds state' tail')
    (h' : Rolled state' tail' deeds' state'' tail'') :
    Rolled state tail (deeds ++ deeds') state'' tail'' := by
  induction h with
  | nil state tail => exact h'
  | stored place later ih => exact .stored place (ih h')
  | claimed later ih => exact .claimed (ih h')
  | counted later ih => exact .counted (ih h')

theorem toNat_mask (value : UInt8) : (value &&& queueMask).toNat = value.toNat % 32 := by
  rw [UInt8.toNat_and]
  exact Nat.and_two_pow_sub_one_eq_mod value.toNat 5

theorem toNat_next (value : UInt8) :
    ((value &&& queueMask) + 1 &&& queueMask).toNat = (value.toNat + 1) % 32 := by
  rw [toNat_mask, UInt8.toNat_add, toNat_mask]
  have hone : (1 : UInt8).toNat = 1 := rfl
  rw [hone]
  omega

theorem toNat_state (value : UInt8) :
    (value + 1 &&& commandStateMask).toNat = (value.toNat + 1) % 8 := by
  have hmask : (value + 1 &&& commandStateMask).toNat = (value + 1).toNat % 8 := by
    rw [UInt8.toNat_and]
    exact Nat.and_two_pow_sub_one_eq_mod (value + 1).toNat 3
  have hone : (1 : UInt8).toNat = 1 := rfl
  rw [hmask, UInt8.toNat_add, hone]
  omega

/-- The end of the queue moves only past a place that has just been stored. -/
theorem claims_stored (h : Rolled state tail deeds state' tail') (place : UInt8) :
    EngineDeed.claims (.slot place :: deeds) = EngineDeed.claims deeds := by
  cases h <;> rfl

theorem counts (h : Rolled state tail deeds state' tail') :
    Counts 8 state.toNat (EngineDeed.states deeds) state'.toNat ∧
      Counts 32 tail.toNat (EngineDeed.tails deeds) tail'.toNat ∧
      (EngineDeed.claims deeds).map UInt8.toNat =
        roll 32 tail.toNat (EngineDeed.tails deeds).length := by
  induction h with
  | nil state tail => exact ⟨.nil _ _, .nil _ _, rfl⟩
  | stored place later ih =>
    rw [later.claims_stored]
    exact ih
  | @claimed state tail state' tail' deeds later ih =>
    obtain ⟨hstates, htails, hclaims⟩ := ih
    refine ⟨hstates, htails.cons (toNat_next tail), ?_⟩
    change (tail &&& queueMask).toNat :: (EngineDeed.claims deeds).map UInt8.toNat =
      roll 32 tail.toNat ((EngineDeed.tails deeds).length + 1)
    rw [roll_succ, hclaims, toNat_mask, toNat_next, roll_mod]
  | @counted state tail state' tail' deeds later ih =>
    obtain ⟨hstates, htails, hclaims⟩ := ih
    exact ⟨hstates.cons (toNat_state state), htails, hclaims⟩

end Rolled

end BankedController
