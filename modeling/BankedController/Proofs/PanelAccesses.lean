import BankedController.Proofs.BoardSteps
import BankedController.Proofs.Panels

namespace BankedController

open RegisterMap

/-- Writing a byte of a latch clears the bits that are written and no others. -/
theorem Latch.Spans.cleared {l : Latch} {base size addr : UInt16} (h : l.Spans base size)
    (haddr : addr - base < size) (value : UInt8) :
    ∃ l', Latch.write addr value l = .ok l' ∧ ∀ other, (l'.value? other).getD 0 =
      if other = addr then (l.value? other).getD 0 &&& ~~~value else (l.value? other).getD 0 := by
  obtain ⟨found, hfound, -⟩ := h.read haddr
  obtain ⟨l', hwrite, -, hvalue⟩ := h.update (f := fun byte => byte &&& ~~~value) haddr
  refine ⟨l', hwrite, fun other => ?_⟩
  rw [hvalue]
  by_cases heq : other = addr
  · rw [if_pos heq, if_pos heq, heq, hfound]
    rfl
  · rw [if_neg heq, if_neg heq]

namespace Board

namespace Cell

/-- The block behind a cell, if it is not memory. -/
def claim : Cell → Option Block
  | usb | system | pcie => some .interruptStatus
  | timer => some .timerStatus
  | peripheral | state | events => none

theorem claim?_addr (c : Cell) : RigBus.initial.claim? c.addr = c.claim := by
  rw [XdataBus.claim?_eq]
  cases c <;> decide

theorem at?_addr (c : Cell) : at? c.addr = some c := by
  cases c <;> decide

theorem addr_of_at? {addr : UInt16} {c : Cell} (h : at? addr = some c) : c.addr = addr := by
  simpa using List.find?_some h

theorem addr_injective {c d : Cell} (h : c.addr = d.addr) : c = d := by
  have hboth := c.at?_addr.symm.trans ((congrArg at? h).trans d.at?_addr)
  exact Option.some.inj hboth

theorem not_secondary_addr (c : Cell) : ¬Secondary c.addr := by
  cases c <;> decide

end Cell

/-- What a rig shows at a cell. -/
def shown (rig : Rig Record) (c : Cell) : UInt8 :=
  match c with
  | .usb | .system | .pcie => (rig.blocks.interruptStatus.value? c.addr).getD 0
  | .timer => (rig.blocks.timerStatus.value? c.addr).getD 0
  | .peripheral | .state | .events => rig.bus.ram.get c.addr

/-- The panel of a rig, on a board that counted so many failures. -/
def rigPanel (failures : Nat) (rig : Rig Record) : Panel where
  byte := shown rig
  conditions := rig.blocks.endpoints.secondary
  forced := rig.blocks.endpoints.forced
  clears := rig.blocks.endpoints.clears
  calls := rig.record.activity.map fun call => (call.slot, call.param)
  failures := failures

/-- The panel of a board. -/
def panel (s : State) : Panel := rigPanel s.stats.failures s.bus

section Rigs

variable {rig rig' : Rig Record} {addr : UInt16} {value : UInt8}

/-- The primary register and every secondary register belong to the endpoint block. -/
theorem claim?_primary : RigBus.initial.claim? endpointStatus = some .endpoints := by
  rw [XdataBus.claim?_eq]
  decide

theorem claim?_register (e : Fin 8) :
    RigBus.initial.claim? (Condition.register e) = some .endpoints := by
  rw [XdataBus.claim?_eq]
  revert e
  decide

/-- A rig that differs from another in nothing that its panel shows. -/
structure Unseen (rig rig' : Rig Record) : Prop where
  interruptStatus : rig'.blocks.interruptStatus = rig.blocks.interruptStatus
  timerStatus : rig'.blocks.timerStatus = rig.blocks.timerStatus
  ram : ∀ c : Cell, rig'.bus.ram.get c.addr = rig.bus.ram.get c.addr
  conditions : rig'.blocks.endpoints.secondary = rig.blocks.endpoints.secondary
  forced : rig'.blocks.endpoints.forced = rig.blocks.endpoints.forced
  clears : rig'.blocks.endpoints.clears = rig.blocks.endpoints.clears
  record : rig'.record = rig.record

theorem Unseen.shown (h : Unseen rig rig') : Board.shown rig' = Board.shown rig := by
  funext c
  cases c <;> simp only [Board.shown, h.interruptStatus, h.timerStatus, h.ram]

theorem Unseen.rigPanel (h : Unseen rig rig') (failures : Nat) :
    rigPanel failures rig' = rigPanel failures rig := by
  unfold Board.rigPanel
  rw [h.shown, h.conditions, h.forced, h.clears, h.record]

theorem Unseen.refl (rig : Rig Record) : Unseen rig rig :=
  ⟨rfl, rfl, fun _ => rfl, rfl, rfl, rfl, rfl⟩

theorem unseen_setUnit (rig : Rig Record) (kind : CommandKind) (u : CommandUnit) :
    Unseen rig (rig.withBlocks (rig.blocks.setUnit kind u)) := by
  cases kind <;> exact ⟨rfl, rfl, fun _ => rfl, rfl, rfl, rfl, rfl⟩

/-- Every read of an intact rig ends and leaves the panel as it was. -/
theorem read_unseen (h : rig.Intact) (addr : UInt16) :
    ∃ value rig', RegisterBus.read addr rig = .done value rig' ∧ rig'.Intact ∧
      Unseen rig rig' := by
  cases hclaim : RigBus.initial.claim? addr with
  | none =>
    have hfree : rig.bus.claim? addr = none := by rw [h.claims, hclaim]
    exact ⟨_, rig, Rig.onBus_of_done (XdataBus.read_of_free hfree), h, .refl rig⟩
  | some key =>
    have hkey : rig.bus.claim? addr = some key := by rw [h.claims, hclaim]
    obtain ⟨value, b, hread, hwhole, hstatus, -⟩ := h.whole.read hclaim
    refine ⟨value, rig.withBlocks b, Rig.onBus_of_done (XdataBus.read_of_claim hkey hread),
      ⟨h.claims, hwhole⟩, ?_⟩
    cases key with
    | control =>
      cases hread
      exact ⟨rfl, rfl, fun _ => rfl, rfl, rfl, rfl, rfl⟩
    | endpoints =>
      obtain ⟨⟨v, e⟩, hblock, heq⟩ := Blocks.ok_of_map hread
      cases heq
      have hmoved : e.secondary = rig.blocks.endpoints.secondary ∧
          e.forced = rig.blocks.endpoints.forced ∧ e.clears = rig.blocks.endpoints.clears := by
        have hcases : EndpointBlock.read addr rig.blocks.endpoints = .ok (v, e) := hblock
        unfold EndpointBlock.read at hcases
        split at hcases
        · cases hcases
          exact ⟨rfl, rfl, rfl⟩
        · split at hcases <;> cases hcases
          exact ⟨rfl, rfl, rfl⟩
      exact ⟨rfl, rfl, fun _ => rfl, hmoved.1, hmoved.2.1, hmoved.2.2, rfl⟩
    | interruptStatus =>
      obtain ⟨⟨v, l⟩, hblock, heq⟩ := Blocks.ok_of_map hread
      cases heq
      exact ⟨hstatus, rfl, fun _ => rfl, rfl, rfl, rfl, rfl⟩
    | timerStatus =>
      obtain ⟨found, -, hlatch⟩ := h.whole.timerStatus.read (RigBus.timerStatus_of_claim hclaim)
      have hsame : Blocks.read .timerStatus addr rig.blocks = .ok (found, rig.blocks) :=
        congrArg (Except.map _) hlatch
      cases hsame.symm.trans hread
      exact .refl rig
    | unit kind =>
      obtain ⟨⟨v, u⟩, hblock, heq⟩ := Blocks.ok_of_map hread
      cases heq
      exact unseen_setUnit rig kind u
    | stuck v => exact absurd hclaim RigBus.not_stuck

theorem read_cell (h : rig.Intact) (c : Cell) :
    RegisterBus.read c.addr rig = .done (shown rig c) rig := by
  have hclaim : rig.bus.claim? c.addr = c.claim := by rw [h.claims, c.claim?_addr]
  have hmemory (hnone : c.claim = none) :
      RegisterBus.read c.addr rig = .done (rig.bus.ram.get c.addr) rig :=
    Rig.onBus_of_done (XdataBus.read_of_free (hclaim.trans hnone))
  have hstatus (hsome : c.claim = some .interruptStatus)
      (hspan : c.addr - interruptStatusBase < interruptStatusSize) :
      RegisterBus.read c.addr rig =
        .done ((rig.blocks.interruptStatus.value? c.addr).getD 0) rig := by
    obtain ⟨value, hvalue, hread⟩ := h.whole.interruptStatus.read hspan
    rw [hvalue]
    exact Rig.onBus_of_done
      (XdataBus.read_of_claim (hclaim.trans hsome) (congrArg (Except.map _) hread))
  cases c with
  | usb => exact hstatus rfl (by decide)
  | system => exact hstatus rfl (by decide)
  | pcie => exact hstatus rfl (by decide)
  | timer =>
    obtain ⟨value, hvalue, hread⟩ := h.whole.timerStatus.read
      (show Cell.timer.addr - RegisterMap.timerStatus < 1 by decide)
    have hshown : shown rig .timer = value := by
      unfold shown
      rw [hvalue]
      rfl
    rw [hshown]
    exact Rig.onBus_of_done (XdataBus.read_of_claim hclaim (congrArg (Except.map _) hread))
  | peripheral => exact hmemory rfl
  | state => exact hmemory rfl
  | events => exact hmemory rfl

theorem read_primary (h : rig.Intact) :
    ∃ rig', RegisterBus.read endpointStatus rig = .done rig.blocks.endpoints.primary rig' := by
  have hclaim : rig.bus.claim? endpointStatus = some .endpoints := by
    rw [h.claims, claim?_primary]
  exact ⟨_, Rig.onBus_of_done (XdataBus.read_of_claim hclaim rfl)⟩

theorem read_register (h : rig.Intact) (e : Fin 8) :
    ∃ rig', RegisterBus.read (Condition.register e) rig =
      .done (rig.blocks.endpoints.secondary.get e) rig' := by
  have hclaim : rig.bus.claim? (Condition.register e) = some .endpoints := by
    rw [h.claims, claim?_register]
  have hread : EndpointBlock.read (Condition.register e) rig.blocks.endpoints =
      .ok (rig.blocks.endpoints.secondary.get e, rig.blocks.endpoints) := by
    unfold EndpointBlock.read
    rw [if_neg (EndpointBlock.register_ne_status e), EndpointBlock.endpointAt_register]
    rfl
  exact ⟨_, Rig.onBus_of_done (XdataBus.read_of_claim hclaim (congrArg (Except.map _) hread))⟩

/-- An address of the panel. -/
def Readable (addr : UInt16) : Prop :=
  addr = endpointStatus ∨ (∃ c : Cell, c.addr = addr) ∨ ∃ e, Condition.register e = addr

theorem readable_cell (c : Cell) : Readable c.addr := .inr (.inl ⟨c, rfl⟩)

theorem readable_register (e : Fin 8) : Readable (Condition.register e) := .inr (.inr ⟨e, rfl⟩)

theorem Panel.load_cell (p : Panel) (c : Cell) : p.load c.addr = p.byte c := by
  have hne : c.addr ≠ endpointStatus := by cases c <;> decide
  unfold Panel.load
  rw [if_neg hne, Cell.at?_addr]

theorem Cell.at?_of_secondary {addr : UInt16} (h : Secondary addr) : Cell.at? addr = none := by
  cases hat : Cell.at? addr with
  | none => rfl
  | some c => exact absurd (Cell.addr_of_at? hat ▸ h) c.not_secondary_addr

theorem Panel.load_register (p : Panel) (e : Fin 8) :
    p.load (Condition.register e) = p.conditions.get e := by
  have hsecondary : Secondary (Condition.register e) := Condition.secondary_iff.2 ⟨e, rfl⟩
  unfold Panel.load
  rw [if_neg (EndpointBlock.register_ne_status e), Cell.at?_of_secondary hsecondary,
    Journaled.endpointAt?_register]

/-- What is read at an address of the panel is what the panel has there. -/
theorem read_rigPanel (h : rig.Intact) (addr : UInt16) (failures : Nat) :
    ∃ value rig', RegisterBus.read addr rig = .done value rig' ∧ rig'.Intact ∧
      rigPanel failures rig' = rigPanel failures rig ∧
      (Readable addr → value = (rigPanel failures rig).load addr) := by
  obtain ⟨value, rig', hread, hintact, hunseen⟩ := read_unseen h addr
  refine ⟨value, rig', hread, hintact, hunseen.rigPanel failures, ?_⟩
  rintro (rfl | ⟨c, rfl⟩ | ⟨e, rfl⟩)
  · obtain ⟨_, hvalue⟩ := read_primary h
    cases hread.symm.trans hvalue
    rfl
  · cases hread.symm.trans (read_cell h c)
    exact ((rigPanel failures rig).load_cell c).symm
  · obtain ⟨_, hvalue⟩ := read_register h e
    cases hread.symm.trans hvalue
    exact ((rigPanel failures rig).load_register e).symm

/-- The block after a write to a secondary register. -/
def clearedBlock (block : EndpointBlock) (e : Fin 8) (value : UInt8) : EndpointBlock :=
  { block with
    secondary :=
      block.secondary.set e (block.secondary.get e &&& ~~~value) (Condition.endpoint_lt e)
    clears := (e.val, value) :: block.clears }

/-- What a write changes of what a rig shows. -/
structure Wrote (addr : UInt16) (value : UInt8) (rig rig' : Rig Record) : Prop where
  byte : ∀ c : Cell, shown rig' c =
    if c.addr = addr then c.written (shown rig c) value else shown rig c
  cleared : ∀ e, addr = Condition.register e →
    rig'.blocks.endpoints = clearedBlock rig.blocks.endpoints e value
  spared : ¬Secondary addr → rig'.blocks.endpoints = rig.blocks.endpoints
  record : rig'.record = rig.record

theorem Wrote.rigPanel (h : Wrote addr value rig rig') (failures : Nat) :
    rigPanel failures rig' = (rigPanel failures rig).store addr value := by
  unfold Panel.store
  cases hat : Cell.at? addr with
  | some c =>
    obtain rfl := Cell.addr_of_at? hat
    have hupdated : shown rig' =
        Function.update (shown rig) c (c.written (shown rig c) value) := by
      funext d
      rw [h.byte, Function.update_apply]
      by_cases heq : d = c
      · subst heq
        rw [if_pos rfl, if_pos rfl]
      · rw [if_neg heq, if_neg fun haddr => heq (Cell.addr_injective haddr)]
    unfold Board.rigPanel
    rw [hupdated, h.spared c.not_secondary_addr, h.record]
  | none =>
    have hsame : shown rig' = shown rig := by
      funext c
      have hne : c.addr ≠ addr := by
        rintro rfl
        rw [c.at?_addr] at hat
        cases hat
      rw [h.byte, if_neg hne]
    by_cases hsecondary : Secondary addr
    · obtain ⟨e, rfl⟩ := Condition.secondary_iff.1 hsecondary
      rw [Journaled.endpointAt?_register]
      unfold Board.rigPanel
      rw [hsame, h.cleared e rfl, h.record]
      rfl
    · rw [Journaled.endpointAt?_of_not_secondary hsecondary]
      unfold Board.rigPanel
      rw [hsame, h.spared hsecondary, h.record]

/-- A cell behind another block than the one that claims the address is left alone. -/
theorem byte_of_claim_ne {c : Cell} (hne : c.claim ≠ RigBus.initial.claim? addr)
    (hsame : shown rig' c = shown rig c) :
    shown rig' c = if c.addr = addr then c.written (shown rig c) value else shown rig c := by
  have haddr : c.addr ≠ addr := by
    rintro rfl
    exact hne c.claim?_addr.symm
  rw [if_neg haddr, hsame]

/-- A write that the endpoint block does not get. -/
theorem Wrote.of_elsewhere (hne : RigBus.initial.claim? addr ≠ some .endpoints)
    (hbyte : ∀ c : Cell, shown rig' c =
      if c.addr = addr then c.written (shown rig c) value else shown rig c)
    (hendpoints : rig'.blocks.endpoints = rig.blocks.endpoints) (hrecord : rig'.record = rig.record) :
    Wrote addr value rig rig' := by
  refine ⟨hbyte, fun e he => ?_, fun _ => hendpoints, hrecord⟩
  rw [he] at hne
  exact absurd (claim?_register e) hne

theorem wrote_stored (hclaim : RigBus.initial.claim? addr = none) :
    Wrote addr value rig (rig.stored addr value) := by
  have hmemory (c : Cell) (hbyte : ∀ rig : Rig Record, shown rig c = rig.bus.ram.get c.addr)
      (hwritten : c.written (shown rig c) value = value) : shown (rig.stored addr value) c =
        if c.addr = addr then c.written (shown rig c) value else shown rig c := by
    rw [hwritten, hbyte, hbyte, Rig.ram_stored]
    simp only [eq_comm]
  have hother (c : Cell) (hc : c.claim ≠ none) (hsame : shown (rig.stored addr value) c = shown rig c) :=
    @byte_of_claim_ne rig _ addr value c (by rwa [hclaim]) hsame
  refine .of_elsewhere (by rw [hclaim]; nofun) (fun c => ?_) rfl rfl
  cases c with
  | usb => exact hother .usb nofun rfl
  | system => exact hother .system nofun rfl
  | pcie => exact hother .pcie nofun rfl
  | timer => exact hother .timer nofun rfl
  | peripheral => exact hmemory .peripheral (fun _ => rfl) rfl
  | state => exact hmemory .state (fun _ => rfl) rfl
  | events => exact hmemory .events (fun _ => rfl) rfl

/-- The block ignores a write to the primary register, and clears by the secondary ones. -/
theorem wrote_endpoints (hclaim : RigBus.initial.claim? addr = some .endpoints) :
    ∃ block, EndpointBlock.write addr value rig.blocks.endpoints = .ok block ∧
      Wrote addr value rig (rig.withBlocks { rig.blocks with endpoints := block }) := by
  have hbyte (block : EndpointBlock) (c : Cell) := @byte_of_claim_ne rig
    (rig.withBlocks { rig.blocks with endpoints := block }) addr value c
    (by rw [hclaim]; cases c <;> nofun) (by cases c <;> rfl)
  rcases RigBus.endpoints_of_claim hclaim with hstatus | ⟨i, hi⟩
  · have hne (e : Fin 8) : addr ≠ Condition.register e :=
      fun he => EndpointBlock.register_ne_status e (he.symm.trans hstatus)
    exact ⟨rig.blocks.endpoints, if_pos hstatus,
      hbyte _, fun e he => absurd he (hne e), fun _ => rfl, rfl⟩
  · obtain rfl := EndpointBlock.register_of_endpointAt hi
    have hwrite : EndpointBlock.write (Condition.register i) value rig.blocks.endpoints =
        .ok (clearedBlock rig.blocks.endpoints i value) := by
      unfold EndpointBlock.write
      rw [if_neg (EndpointBlock.register_ne_status i), hi]
      rfl
    refine ⟨_, hwrite, hbyte _, fun e he => ?_, fun hnot => ?_, rfl⟩
    · rw [Condition.register_injective he]
      rfl
    · exact absurd (Condition.secondary_iff.2 ⟨i, rfl⟩) hnot

theorem wrote_interruptStatus (h : rig.Intact)
    (hclaim : RigBus.initial.claim? addr = some .interruptStatus) :
    ∃ l, Latch.write addr value rig.blocks.interruptStatus = .ok l ∧
      Wrote addr value rig (rig.withBlocks { rig.blocks with interruptStatus := l }) := by
  obtain ⟨l, hwrite, hvalue⟩ :=
    h.whole.interruptStatus.cleared (RigBus.interruptStatus_of_claim hclaim) value
  have hother (c : Cell) (hc : c.claim ≠ some .interruptStatus)
      (hsame : shown (rig.withBlocks { rig.blocks with interruptStatus := l }) c = shown rig c) :=
    @byte_of_claim_ne rig _ addr value c (by rwa [hclaim]) hsame
  refine ⟨l, hwrite, .of_elsewhere (by rw [hclaim]; nofun) (fun c => ?_) rfl rfl⟩
  cases c with
  | usb => exact hvalue Cell.usb.addr
  | system => exact hvalue Cell.system.addr
  | pcie => exact hvalue Cell.pcie.addr
  | timer => exact hother .timer nofun rfl
  | peripheral => exact hother .peripheral nofun rfl
  | state => exact hother .state nofun rfl
  | events => exact hother .events nofun rfl

theorem wrote_timerStatus (h : rig.Intact)
    (hclaim : RigBus.initial.claim? addr = some .timerStatus) :
    ∃ l, Latch.write addr value rig.blocks.timerStatus = .ok l ∧
      Wrote addr value rig (rig.withBlocks { rig.blocks with timerStatus := l }) := by
  obtain ⟨l, hwrite, hvalue⟩ := h.whole.timerStatus.cleared (RigBus.timerStatus_of_claim hclaim) value
  have hother (c : Cell) (hc : c.claim ≠ some .timerStatus)
      (hsame : shown (rig.withBlocks { rig.blocks with timerStatus := l }) c = shown rig c) :=
    @byte_of_claim_ne rig _ addr value c (by rwa [hclaim]) hsame
  refine ⟨l, hwrite, .of_elsewhere (by rw [hclaim]; nofun) (fun c => ?_) rfl rfl⟩
  cases c with
  | timer => exact hvalue Cell.timer.addr
  | usb => exact hother .usb nofun rfl
  | system => exact hother .system nofun rfl
  | pcie => exact hother .pcie nofun rfl
  | peripheral => exact hother .peripheral nofun rfl
  | state => exact hother .state nofun rfl
  | events => exact hother .events nofun rfl

theorem wrote_unit {kind : CommandKind} (hclaim : RigBus.initial.claim? addr = some (.unit kind))
    (u : CommandUnit) : Wrote addr value rig (rig.withBlocks (rig.blocks.setUnit kind u)) := by
  have hunseen := unseen_setUnit rig kind u
  have hne (c : Cell) : c.claim ≠ RigBus.initial.claim? addr := by
    rw [hclaim]
    cases c <;> nofun
  refine .of_elsewhere (by rw [hclaim]; nofun) (fun c => ?_) (by cases kind <;> rfl) rfl
  exact byte_of_claim_ne (hne c) (congrFun hunseen.shown c)

/-- Every write to an intact rig ends, and shows as the panel says. -/
theorem write_wrote (h : rig.Intact) (addr : UInt16) (value : UInt8) :
    ∃ rig', RegisterBus.write addr value rig = .done () rig' ∧ rig'.Intact ∧
      Wrote addr value rig rig' := by
  cases hclaim : RigBus.initial.claim? addr with
  | none =>
    have hfree : rig.bus.claim? addr = none := by rw [h.claims, hclaim]
    exact ⟨rig.stored addr value, Rig.onBus_of_done (XdataBus.write_of_free hfree value),
      h.stored addr value, wrote_stored hclaim⟩
  | some key =>
    have hkey : rig.bus.claim? addr = some key := by rw [h.claims, hclaim]
    have hblocks {b : Blocks} (hwrite : Blocks.write key addr value rig.blocks = .ok b)
        (hwrote : Wrote addr value rig (rig.withBlocks b)) :
        ∃ rig', RegisterBus.write addr value rig = .done () rig' ∧ rig'.Intact ∧
          Wrote addr value rig rig' := by
      obtain ⟨b', hwrite', hwhole, -⟩ := h.whole.write hclaim value
      cases hwrite.symm.trans hwrite'
      exact ⟨rig.withBlocks b, Rig.onBus_of_done (XdataBus.write_of_claim hkey hwrite),
        ⟨h.claims, hwhole⟩, hwrote⟩
    cases key with
    | control =>
      have hne (c : Cell) : c.claim ≠ RigBus.initial.claim? addr := by
        rw [hclaim]
        cases c <;> nofun
      refine hblocks rfl (.of_elsewhere (by rw [hclaim]; nofun) (fun c => ?_) rfl rfl)
      exact byte_of_claim_ne (hne c) (by cases c <;> rfl)
    | endpoints =>
      obtain ⟨block, hwrite, hwrote⟩ := wrote_endpoints hclaim
      exact hblocks (congrArg (Except.map _) hwrite) hwrote
    | interruptStatus =>
      obtain ⟨l, hwrite, hwrote⟩ := wrote_interruptStatus h hclaim
      exact hblocks (congrArg (Except.map _) hwrite) hwrote
    | timerStatus =>
      obtain ⟨l, hwrite, hwrote⟩ := wrote_timerStatus h hclaim
      exact hblocks (congrArg (Except.map _) hwrite) hwrote
    | unit kind =>
      obtain ⟨u, hwrite, -⟩ :=
        CommandUnit.write_ok (h.whole.base kind) (RigBus.unit_of_claim hclaim) value
      exact hblocks (congrArg (Except.map _) hwrite) (wrote_unit hclaim u)
    | stuck v => exact absurd hclaim RigBus.not_stuck

end Rigs

end Board

end BankedController
