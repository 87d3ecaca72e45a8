import BankedController.Proofs.Conditions
import BankedController.Proofs.RigUnits

namespace BankedController

open RegisterMap

namespace EndpointBlock

variable {addr : UInt16} {value : UInt8} {block block' : EndpointBlock}

theorem endpointAt_eq (addr : UInt16) : endpointAt addr =
    if addr.toNat < 0x9096 then .error .overflow
    else if h : addr.toNat - 0x9096 < 8 then .ok ⟨addr.toNat - 0x9096, h⟩
    else .error .indexOutOfRange :=
  rfl

theorem endpointAt_register (e : Fin 8) : endpointAt (Condition.register e) = .ok e := by
  have he := e.isLt
  have hnat := Condition.toNat_register e
  have hval : (Condition.register e).toNat - 0x9096 = e.val := by omega
  rw [endpointAt_eq, if_neg (by omega), dif_pos (by omega)]
  exact congrArg Except.ok (Fin.ext hval)

theorem register_of_endpointAt {e : Fin 8} (h : endpointAt addr = .ok e) :
    addr = Condition.register e := by
  rw [endpointAt_eq] at h
  by_cases hlow : addr.toNat < 0x9096
  · rw [if_pos hlow] at h
    exact absurd h nofun
  rw [if_neg hlow] at h
  by_cases hhigh : addr.toNat - 0x9096 < 8
  · rw [dif_pos hhigh] at h
    rw [← Except.ok.inj h]
    refine UInt16.toNat_inj.1 ?_
    rw [Condition.toNat_register]
    dsimp only
    omega
  · rw [dif_neg hhigh] at h
    exact absurd h nofun

theorem register_ne_status (e : Fin 8) : Condition.register e ≠ endpointStatus := by
  revert e
  decide

theorem get_set (secondary : Vector UInt8 8) (e e' : Fin 8) (value : UInt8) :
    (secondary.set e value (Condition.endpoint_lt e)).get e' =
      if e' = e then value else secondary.get e' := by
  have hplace : (secondary.set e value (Condition.endpoint_lt e)).get e' = _ :=
    Vector.getElem_set e.isLt e'.isLt
  rw [hplace]
  by_cases h : e' = e
  · rw [if_pos h, if_pos (by rw [h])]
  · rw [if_neg h, if_neg fun hval => h (Fin.ext hval.symm)]
    rfl

theorem get_ofFn (f : Fin 8 → UInt8) (e : Fin 8) : (Vector.ofFn f).get e = f e :=
  Vector.getElem_ofFn e.isLt

/-- Registers are what they show for each endpoint. -/
theorem ext_get {secondary others : Vector UInt8 8} (h : ∀ e, secondary.get e = others.get e) :
    secondary = others :=
  Vector.ext fun e he => h ⟨e, he⟩

/-- The block with more conditions of an endpoint pending. -/
def withRaised (block : EndpointBlock) (e : Fin 8) (mask : UInt8) : EndpointBlock :=
  { block with
    secondary := block.secondary.set e (block.secondary.get e ||| mask) (Condition.endpoint_lt e) }

theorem raise_eq (block : EndpointBlock) (e : Fin 8) (mask : UInt8) :
    block.raise e mask = .ok (block.withRaised e mask) :=
  dif_pos e.isLt

theorem secondary_withRaised (block : EndpointBlock) (e e' : Fin 8) (mask : UInt8) :
    (block.withRaised e mask).secondary.get e' =
      if e' = e then block.secondary.get e ||| mask else block.secondary.get e' :=
  get_set block.secondary e e' _

/-- A read moves no condition, and a secondary register shows those of its endpoint. -/
theorem read_eq_ok (h : block.read addr = .ok (value, block')) :
    block'.secondary = block.secondary ∧
      ∀ e, addr = Condition.register e → value = block.secondary.get e := by
  unfold read at h
  by_cases hstatus : addr = endpointStatus
  · rw [if_pos hstatus] at h
    cases h
    exact ⟨rfl, fun e he => absurd (he.symm.trans hstatus) (register_ne_status e)⟩
  rw [if_neg hstatus] at h
  split at h
  next i hi =>
    cases h
    refine ⟨rfl, fun e he => ?_⟩
    rw [Condition.register_injective (he.symm.trans (register_of_endpointAt hi))]
    rfl
  next => cases h

/-- A write to a secondary register clears the conditions that it names. -/
theorem write_register {e : Fin 8} (h : block.write (Condition.register e) value = .ok block') :
    ∀ e', block'.secondary.get e' =
      if e' = e then block.secondary.get e &&& ~~~value else block.secondary.get e' := by
  unfold write at h
  rw [if_neg (register_ne_status e), endpointAt_register] at h
  cases h
  exact fun e' => get_set block.secondary e e' _

/-- Every other write moves no condition. -/
theorem write_other (haddr : ¬Secondary addr) (h : block.write addr value = .ok block') :
    block'.secondary = block.secondary := by
  unfold write at h
  by_cases hstatus : addr = endpointStatus
  · rw [if_pos hstatus] at h
    cases h
    rfl
  rw [if_neg hstatus] at h
  split at h
  next i hi => exact absurd (Condition.secondary_iff.2 ⟨i, register_of_endpointAt hi⟩) haddr
  next => cases h

end EndpointBlock

namespace Blocks

theorem ok_of_map {α γ : Type} {f : α → γ} {x : Except Fault α} {c : γ} (h : x.map f = .ok c) :
    ∃ a, x = .ok a ∧ f a = c := by
  cases x with
  | error cause => exact absurd h nofun
  | ok a => exact ⟨a, rfl, Except.ok.inj h⟩

/-- An access to one of the blocks is one to the endpoint block, or leaves that alone. -/
theorem endpoints_read {block : Block} {addr : UInt16} {value : UInt8} {b b' : Blocks}
    (h : Blocks.read block addr b = .ok (value, b')) :
    block = .endpoints ∧ b.endpoints.read addr = .ok (value, b'.endpoints) ∨
      block ≠ .endpoints ∧ b'.endpoints = b.endpoints := by
  cases block with
  | endpoints =>
    refine .inl ⟨rfl, ?_⟩
    obtain ⟨found, hread, hfound⟩ := ok_of_map h
    cases hfound
    exact hread
  | unit kind =>
    obtain ⟨found, -, hfound⟩ := ok_of_map h
    cases hfound
    cases kind <;> exact .inr ⟨nofun, rfl⟩
  | stuck value =>
    cases h
    exact .inr ⟨nofun, rfl⟩
  | control | interruptStatus | timerStatus =>
    unfold read at h
    obtain ⟨found, -, hfound⟩ := ok_of_map h
    cases hfound
    exact .inr ⟨nofun, rfl⟩

theorem endpoints_write {block : Block} {addr : UInt16} {value : UInt8} {b b' : Blocks}
    (h : Blocks.write block addr value b = .ok b') :
    block = .endpoints ∧ b.endpoints.write addr value = .ok b'.endpoints ∨
      block ≠ .endpoints ∧ b'.endpoints = b.endpoints := by
  cases block with
  | endpoints =>
    refine .inl ⟨rfl, ?_⟩
    obtain ⟨found, hwrite, hfound⟩ := ok_of_map h
    cases hfound
    exact hwrite
  | unit kind =>
    obtain ⟨found, -, hfound⟩ := ok_of_map h
    cases hfound
    cases kind <;> exact .inr ⟨nofun, rfl⟩
  | stuck =>
    cases h
    exact .inr ⟨nofun, rfl⟩
  | control | interruptStatus | timerStatus =>
    unfold write at h
    obtain ⟨found, -, hfound⟩ := ok_of_map h
    cases hfound
    exact .inr ⟨nofun, rfl⟩

end Blocks

namespace Rig

variable {ω : Type}

/-- The endpoint block has the secondary registers. -/
def HasEndpoints (rig : Rig ω) : Prop :=
  ∀ e, rig.bus.claim? (Condition.register e) = some .endpoints

/-- The rig with another endpoint block. -/
def withEndpoints (rig : Rig ω) (block : EndpointBlock) : Rig ω :=
  rig.withBlocks { rig.bus.devices with endpoints := block }

def conditionBus : ConditionBus (Rig ω) where
  wired := HasEndpoints
  conditions rig e := rig.bus.devices.endpoints.secondary.get e
  raise e mask rig := rig.withEndpoints (rig.bus.devices.endpoints.withRaised e mask)
  read := by
    intro rig rig' h addr value hread
    obtain ⟨hbus, -⟩ := onBus_eq_done hread
    obtain ⟨-, hclaim⟩ := XdataBus.read_eq_done hbus
    have hwired : rig'.HasEndpoints := fun e => by rw [hclaim, h e]
    rcases XdataBus.read_cases hbus with ⟨hnone, hdevices⟩ | ⟨key, hkey, hblocks⟩
    · refine ⟨hwired, by rw [hdevices], fun e he => ?_⟩
      rw [he, h e] at hnone
      cases hnone
    rcases Blocks.endpoints_read hblocks with ⟨-, hblock⟩ | ⟨hother, hsame⟩
    · obtain ⟨hsecondary, hvalue⟩ := EndpointBlock.read_eq_ok hblock
      exact ⟨hwired, by rw [hsecondary], hvalue⟩
    · refine ⟨hwired, by rw [hsame], fun e he => ?_⟩
      rw [he, h e] at hkey
      exact absurd (Option.some.inj hkey).symm hother
  clear := by
    intro rig rig' h e value hwrite
    obtain ⟨hbus, -⟩ := onBus_eq_done hwrite
    obtain ⟨-, hclaim⟩ := XdataBus.write_eq_done hbus
    refine ⟨fun e => by rw [hclaim, h e], ?_⟩
    rcases XdataBus.write_cases hbus with ⟨hnone, -⟩ | ⟨key, hkey, hblocks⟩
    · rw [h e] at hnone
      cases hnone
    rw [h e] at hkey
    rcases Blocks.endpoints_write hblocks with ⟨-, hblock⟩ | ⟨hother, -⟩
    · exact EndpointBlock.write_register hblock
    · exact absurd (Option.some.inj hkey).symm hother
  write := by
    intro rig rig' h addr value haddr hwrite
    obtain ⟨hbus, -⟩ := onBus_eq_done hwrite
    obtain ⟨-, hclaim⟩ := XdataBus.write_eq_done hbus
    refine ⟨fun e => by rw [hclaim, h e], ?_⟩
    rcases XdataBus.write_cases hbus with ⟨-, hdevices⟩ | ⟨key, -, hblocks⟩
    · rw [hdevices]
    rcases Blocks.endpoints_write hblocks with ⟨-, hblock⟩ | ⟨-, hsame⟩
    · rw [EndpointBlock.write_other haddr hblock]
    · rw [hsame]
  raised := by
    intro rig h e mask
    exact ⟨h, fun e' => EndpointBlock.secondary_withRaised _ e e' mask⟩

/-- The conditions that a rig's hardware raises. -/
theorem raiseEndpoint_eq (e : Fin 8) (mask : UInt8) :
    raiseEndpoint (ω := ω) e mask = Machine.onBus (Run.modify (conditionBus.raise e mask)) := by
  unfold raiseEndpoint onBlocks
  congr 1
  funext rig
  simp only [EndpointBlock.raise_eq]
  rfl

end Rig

/-- An endpoint block at its addresses and plain memory at the others. Memory holds what was written
last in front and zeros elsewhere. -/
structure EndpointPort where
  block : EndpointBlock
  memory : List (UInt16 × UInt8)

namespace EndpointPort

/-- The addresses of the block. -/
def Owns (addr : UInt16) : Prop := addr = endpointStatus ∨ Secondary addr

instance (addr : UInt16) : Decidable (Owns addr) := inferInstanceAs (Decidable (_ ∨ _))

def read (addr : UInt16) : Run EndpointPort UInt8 := fun port =>
  if Owns addr then
    match port.block.read addr with
    | .ok (value, block) => .done value { port with block := block }
    | .error cause => .fault cause port
  else
    .done ((port.memory.lookup addr).getD 0) port

def write (addr : UInt16) (value : UInt8) : Run EndpointPort Unit := fun port =>
  if Owns addr then
    match port.block.write addr value with
    | .ok block => .done () { port with block := block }
    | .error cause => .fault cause port
  else
    .done () { port with memory := (addr, value) :: port.memory }

instance : RegisterBus EndpointPort := ⟨read, write⟩

def initial : EndpointPort := ⟨.initial, []⟩

def conditionBus : ConditionBus EndpointPort where
  wired _ := True
  conditions port e := port.block.secondary.get e
  raise e mask port := { port with block := port.block.withRaised e mask }
  read := by
    intro port port' _ addr value hread
    change EndpointPort.read addr port = _ at hread
    unfold EndpointPort.read at hread
    by_cases howns : Owns addr
    · rw [if_pos howns] at hread
      split at hread
      next hblock =>
        cases hread
        obtain ⟨hsecondary, hvalue⟩ := EndpointBlock.read_eq_ok hblock
        exact ⟨trivial, by rw [hsecondary], hvalue⟩
      next => cases hread
    · rw [if_neg howns] at hread
      cases hread
      exact ⟨trivial, rfl, fun e he => absurd (.inr (Condition.secondary_iff.2 ⟨e, he⟩)) howns⟩
  clear := by
    intro port port' _ e value hwrite
    change EndpointPort.write _ value port = _ at hwrite
    unfold EndpointPort.write at hwrite
    rw [if_pos (.inr (Condition.secondary_iff.2 ⟨e, rfl⟩))] at hwrite
    split at hwrite
    next hblock =>
      cases hwrite
      exact ⟨trivial, EndpointBlock.write_register hblock⟩
    next => cases hwrite
  write := by
    intro port port' _ addr value haddr hwrite
    change EndpointPort.write addr value port = _ at hwrite
    unfold EndpointPort.write at hwrite
    by_cases howns : Owns addr
    · rw [if_pos howns] at hwrite
      split at hwrite
      next hblock =>
        cases hwrite
        exact ⟨trivial, by rw [EndpointBlock.write_other haddr hblock]⟩
      next => cases hwrite
    · rw [if_neg howns] at hwrite
      cases hwrite
      exact ⟨trivial, rfl⟩
  raised := by
    intro port _ e mask
    exact ⟨trivial, fun e' => EndpointBlock.secondary_withRaised _ e e' mask⟩

end EndpointPort

end BankedController
