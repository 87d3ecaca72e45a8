import BankedController.Proofs.Postings
import BankedController.Proofs.RigBuses

namespace BankedController

open RegisterMap

namespace Rig

/-- No device claims either of the two bytes. -/
def Plain (rig : Rig (List LedgerEntry)) : Prop :=
  ∀ byte : SharedByte, rig.bus.claim? byte.addr = none

/-- The two bytes of a rig, and what the surroundings remember. -/
def account (rig : Rig (List LedgerEntry)) : Account :=
  ⟨fun byte => rig.bus.ram.get byte.addr, rig.record⟩

def ledgerBus : LedgerBus (Rig (List LedgerEntry)) where
  wired := Plain
  view := account
  enter entry rig := { rig with record := entry :: rig.record }
  read_shared := by
    intro rig h byte
    exact ⟨rig, onBus_of_done (XdataBus.read_of_free (h byte)), h, rfl⟩
  write_shared := by
    intro rig h byte value
    refine ⟨_, onBus_of_done (XdataBus.write_of_free (h byte) value), h, ?_⟩
    unfold account Account.store
    congr 1
    funext other
    rw [Paged.get_set]
    by_cases heq : other = byte
    · rw [if_pos heq, if_pos (by rw [heq])]
    · rw [if_neg heq, if_neg fun haddr => heq (SharedByte.addr_injective haddr).symm]
  read_other := by
    intro rig rig' h addr value _ hread
    obtain ⟨hbus, hrecord⟩ := onBus_eq_done hread
    obtain ⟨hram, hclaim⟩ := XdataBus.read_eq_done hbus
    constructor
    · intro byte
      rw [hclaim]
      exact h byte
    · unfold account
      rw [hram, hrecord]
  write_other := by
    intro rig rig' h addr value hother hwrite
    obtain ⟨hbus, hrecord⟩ := onBus_eq_done hwrite
    obtain ⟨hram, hclaim⟩ := XdataBus.write_eq_done hbus
    constructor
    · intro byte
      rw [hclaim]
      exact h byte
    · unfold account
      rw [hrecord]
      congr 1
      funext byte
      exact hram byte.addr (Ne.symm (hother byte))
  view_enter := by
    intro rig h entry
    exact ⟨h, rfl⟩

/-- What the hardware does to the blocks leaves the two bytes alone. -/
theorem aside_onBlocks (f : Blocks → Except Fault Blocks) :
    (onBlocks f).Keeps (OnBus ledgerBus.Aside) := by
  intro s _ t h hs
  obtain ⟨rig, hrig, rfl⟩ := Machine.onBus_eq_done h
  split at hrig
  · cases hrig
    exact ⟨hs, rfl⟩
  · cases hrig

/-- The two bytes are in plain memory from the start. -/
theorem plain_initial (ledger : List LedgerEntry) : (Rig.mk RigBus.initial ledger).Plain := by
  have hclaim : ∀ byte : SharedByte, MappedRange.claimIn byte.addr RigBus.ranges = none := by
    intro byte
    cases byte <;> decide
  intro byte
  rw [XdataBus.claim?_eq]
  exact hclaim byte

end Rig

end BankedController
