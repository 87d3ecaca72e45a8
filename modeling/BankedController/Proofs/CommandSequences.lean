import BankedController.Proofs.Commands
import BankedController.Proofs.Linked
import BankedController.Proofs.RigUnits

namespace BankedController

open RegisterMap

/-- A command, and what the surroundings set on the units before it. -/
structure Order where
  tuning : CommandKind → Tuning
  request : CommandRequest

/-- No unit shows an error. -/
def Bench.NoErrors (v : Bench) : Prop :=
  ∀ kind, (v.unit kind).status &&& errorBit = 0

/-- Orders that were carried out one after the other. -/
inductive AllCarriedOut (t : Timeouts) :
    Bench → List Order → List CommandOutcome → Bench → Prop
  | nil (v : Bench) : AllCarriedOut t v [] [] v
  | cons {v v' v'' : Bench} {order : Order} {orders : List Order} {out : CommandOutcome}
      {outs : List CommandOutcome}
      (first : CarriedOut t order.request (v.tuned order.tuning) out v')
      (others : AllCarriedOut t v' orders outs v'') :
      AllCarriedOut t v (order :: orders) (out :: outs) v''

namespace CommandBus

variable {β : Type} [RegisterBus β]

/-- Carries out orders. -/
def carryOut (b : CommandBus β) (l : Linkage β) : List Order → Run (Machine β) (List CommandOutcome)
  | [] => pure []
  | order :: orders => do
    Machine.onBus (Run.modify (b.tune order.tuning))
    let out ← l.execute order.request
    let outs ← b.carryOut l orders
    pure (out :: outs)

variable {b : CommandBus β} {v v' : Bench} {l : Linkage β}

/-- After a command no unit shows an error, its own because it was cleaned up and the others because
they were left alone. -/
theorem noErrors_of_carriedOut {t : Timeouts} {r : CommandRequest} {out : CommandOutcome}
    (hv : v.NoErrors) (h : CarriedOut t r v out v') : v'.NoErrors := by
  intro kind
  by_cases hkind : kind = r.kind
  · rw [hkind]
    exact h.clean.error
  · rw [h.others kind hkind]
    exact hv kind

/-- One order, on units none of which shows an error. -/
theorem leads_execute_tuned (hl : CanWait l) (order : Order) (hv : v.NoErrors) :
    ∀ s, b.At v s → ∃ out v' t,
      (do
        Machine.onBus (Run.modify (b.tune order.tuning))
        l.execute order.request : Run (Machine β) CommandOutcome) s = .done out t ∧
      b.At v' t ∧ CarriedOut l.config.timeouts order.request (v.tuned order.tuning) out v' := by
  intro s hs
  obtain ⟨tuned, htune, hat⟩ := leads_tune (b := b) (v := v) order.tuning s hs
  have hbase :
      ((v.tuned order.tuning).unit order.request.kind).base = order.request.kind.block := by
    rw [← hat.view]
    exact b.base hat.wired order.request.kind
  have herror : ((v.tuned order.tuning).unit order.request.kind).status &&& errorBit = 0 :=
    hv order.request.kind
  obtain ⟨out, v', hexecute, hcarried⟩ := leads_execute (b := b) hl order.request hbase herror
  obtain ⟨t, ht, hat'⟩ := hexecute tuned hat
  refine ⟨out, v', t, ?_, hat', hcarried⟩
  rw [Run.bind_of_done htune, ht]

theorem carryOut_done (hl : CanWait l) (orders : List Order) {s : Machine β} (hs : b.At v s)
    (hv : v.NoErrors) :
    ∃ outs t v', b.carryOut l orders s = .done outs t ∧ b.At v' t ∧
      AllCarriedOut l.config.timeouts v orders outs v' ∧ v'.NoErrors := by
  induction orders generalizing v s with
  | nil => exact ⟨[], s, v, rfl, hs, .nil v, hv⟩
  | cons order orders ih =>
    obtain ⟨out, v', t, hfirst, hat, hcarried⟩ := leads_execute_tuned hl order hv s hs
    have hv' : v'.NoErrors := by
      refine noErrors_of_carriedOut (v := v.tuned order.tuning) ?_ hcarried
      exact hv
    obtain ⟨outs, u, v'', hrest, hat', hall, hv''⟩ := ih hat hv'
    refine ⟨out :: outs, u, v'', ?_, hat', .cons hcarried hall, hv''⟩
    unfold carryOut
    rw [← bind_assoc, Run.bind_of_done hfirst, Run.bind_of_done hrest]
    rfl

end CommandBus

namespace Firmware

variable {β : Type} [RegisterBus β]

theorem quiet_linkage (fw : Firmware β) (n : Nat) : (fw.linkage (n + 1)).Quiet := by
  intro s hs
  rw [poll_linkage, hs]

/-- A submission that is never accepted, and after it one that is accepted and fails. -/
def submissions : List Order :=
  [⟨fun _ => ⟨.never, .reads 0, false⟩, ⟨.nvme, 0x01, 0x10, 0x20, 0x12345678⟩⟩,
    ⟨fun _ => ⟨.reads 2, .reads 3, true⟩, ⟨.nvme, 0x02, 0x11, 0x21, 0x9ABCDEF0⟩⟩]

/-- A firmware without slots on the bus of a rig. -/
def bare : Firmware (Rig Unit) := ⟨.standard, ⟨[]⟩, .empty⟩

end Firmware

end BankedController
