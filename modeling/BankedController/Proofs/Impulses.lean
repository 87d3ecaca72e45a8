import BankedController.Proofs.PanelPasses

namespace BankedController

open RegisterMap

/-- What events come to. -/
@[ext] structure Impulse where
  bits : Board.Cell → UInt8
  conditions : Fin 8 → UInt8
  edges : IrqLine → Bool
  latency : CommandKind → Option Latency

namespace Impulse

open Board (Cell)

/-- No event. -/
def nothing : Impulse := ⟨fun _ => 0, fun _ => 0, fun _ => false, fun _ => none⟩

/-- Earlier events and later ones. -/
def followed (i j : Impulse) : Impulse where
  bits c := i.bits c ||| j.bits c
  conditions e := i.conditions e ||| j.conditions e
  edges line := i.edges line || j.edges line
  latency kind := (j.latency kind).or (i.latency kind)

/-- Bits of a cell. -/
def ofBits (c : Cell) (mask : UInt8) : Impulse :=
  { nothing with bits := fun d => if d = c then mask else 0 }

/-- Conditions of an endpoint. -/
def ofConditions (e : Fin 8) (mask : UInt8) : Impulse :=
  { nothing with conditions := fun f => if f = e then mask else 0 }

/-- An edge on a line. -/
def ofEdge (line : IrqLine) : Impulse :=
  { nothing with edges := fun other => other = line }

/-- How long a unit takes to complete its commands. -/
def ofLatency (kind : CommandKind) (latency : Latency) : Impulse :=
  { nothing with latency := fun other => if other = kind then some latency else none }

/-- Bits of an interrupt status register, with the edge that announces them. -/
def signal (c : Cell) (mask : UInt8) (line : IrqLine) : Impulse :=
  (ofBits c mask).followed (ofEdge line)

end Impulse

/-- What an event comes to. -/
def Stimulus.impulse : Stimulus → Impulse
  | endpointReady endpoint mask =>
    (Impulse.ofConditions ⟨endpoint.toNat % 8, Nat.mod_lt _ (by decide)⟩ mask).followed
      (.signal .usb usbMasterBit .endpoint)
  | cbw => .signal .usb usbCommandBit .endpoint
  | usbLink => .signal .usb usbLinkBit .endpoint
  | systemEvent => .signal .system systemEventBit .endpoint
  | nvmeQueue => .signal .pcie nvmeQueueBit .system
  | pcieEvent => .signal .pcie pcieEventBit .system
  | pcieLink => .signal .pcie pcieLinkBit .system
  | power => .signal .system systemPowerBit .system
  | timerTick => .signal .timer timerTickBit .system
  | masterReady => .ofBits .peripheral masterReadyBit
  | deferEndpoint => .ofBits .state deferredEndpoint
  | stall unit => .ofLatency unit .never
  | release unit reads => .ofLatency unit (.reads reads)

/-- What events come to, in order. -/
def impulse (steps : List ScriptStep) : Impulse :=
  steps.foldr (fun step i => step.stimulus.impulse.followed i) .nothing

namespace Latch

variable {l : Latch} {base size addr : UInt16} {mask mask' : UInt16 → UInt8}

/-- Every byte with the bits set that a mask has for its address. -/
def raised (l : Latch) (mask : UInt16 → UInt8) : Latch :=
  { l with bytes := l.bytes.mapIdx fun i byte => byte ||| mask (l.base + UInt16.ofNat i) }

theorem Spans.raised (h : l.Spans base size) (mask : UInt16 → UInt8) :
    (l.raised mask).Spans base size :=
  ⟨h.base, Array.size_mapIdx.trans h.size⟩

theorem value?_raised (addr : UInt16) :
    (l.raised mask).value? addr = (l.value? addr).map fun byte => byte ||| mask addr := by
  have hplace : l.base + UInt16.ofNat (l.index addr) = addr := by
    unfold index
    rw [UInt16.ofNat_toNat, UInt16.add_comm, UInt16.sub_add_cancel]
  have hindex : (l.raised mask).index addr = l.index addr := rfl
  unfold value?
  rw [hindex]
  simp only [raised, Array.getElem?_mapIdx, hplace]

theorem raised_zero : l.raised (fun _ => 0) = l := by
  have hbytes : (l.raised fun _ => 0).bytes = l.bytes :=
    Array.ext (by simp [raised]) fun i _ _ => by simp [raised]
  exact congrArg (Latch.mk l.base) hbytes

theorem Spans.raised_congr (h : l.Spans base size)
    (heq : ∀ addr, addr - base < size → mask addr = mask' addr) : l.raised mask = l.raised mask' := by
  have hbytes : (l.raised mask).bytes = (l.raised mask').bytes := by
    refine Array.ext (by simp [Latch.raised]) fun i hi _ => ?_
    have hlt : i < size.toNat := by simpa [Latch.raised, h.size] using hi
    have hnat : (UInt16.ofNat i).toNat = i := by
      have := size.toNat_lt
      simpa using Nat.mod_eq_of_lt (show i < 65536 by omega)
    have hspan : l.base + UInt16.ofNat i - base < size := by
      rw [h.base, UInt16.add_comm, UInt16.add_sub_cancel, UInt16.lt_iff_toNat_lt, hnat]
      exact hlt
    simp only [Latch.raised, Array.getElem_mapIdx, heq _ hspan]
  exact congrArg (Latch.mk l.base) hbytes

theorem raised_raised :
    (l.raised mask).raised mask' = l.raised fun addr => mask addr ||| mask' addr := by
  have hbytes : ((l.raised mask).raised mask').bytes =
      (l.raised fun addr => mask addr ||| mask' addr).bytes :=
    Array.ext (by simp [raised]) fun i _ _ => by simp [raised, UInt8.or_assoc]
  exact congrArg (Latch.mk l.base) hbytes

/-- No byte of the latch is at the address. -/
theorem Spans.raised_elsewhere (h : l.Spans base size) (haddr : ¬addr - base < size)
    (value : UInt8) : l.raised (fun other => if other = addr then value else 0) = l := by
  have hzero : l.raised (fun other => if other = addr then value else 0) = l.raised fun _ => 0 := by
    refine h.raised_congr fun other hother => if_neg ?_
    rintro rfl
    exact haddr hother
  exact hzero.trans raised_zero

/-- Setting bits of one byte. -/
theorem Spans.assertBits (h : l.Spans base size) (haddr : addr - base < size) (value : UInt8) :
    l.assertBits addr value = .ok (l.raised fun other => if other = addr then value else 0) := by
  have hlt := h.index_lt haddr
  have hplace (i : Nat) (hi : i < l.bytes.size) :
      l.base + UInt16.ofNat i = addr ↔ l.index addr = i := by
    have hsize : i < 65536 := by
      have := size.toNat_lt
      rw [h.size] at hi
      omega
    have hnat : (UInt16.ofNat i).toNat = i := by simpa using Nat.mod_eq_of_lt hsize
    constructor
    · rintro rfl
      unfold index
      rw [UInt16.add_comm, UInt16.add_sub_cancel, hnat]
    · intro hindex
      have : UInt16.ofNat i = addr - l.base := UInt16.toNat_inj.1 (hnat.trans hindex.symm)
      rw [this, UInt16.add_comm, UInt16.sub_add_cancel]
  have hbytes : l.bytes.set (l.index addr) (l.bytes[l.index addr] ||| value) hlt =
      (l.raised fun other => if other = addr then value else 0).bytes := by
    refine Array.ext (by simp [Latch.raised]) fun i hi _ => ?_
    have hi : i < l.bytes.size := by simpa using hi
    simp only [Latch.raised, Array.getElem_mapIdx, Array.getElem_set, hplace i hi]
    by_cases heq : l.index addr = i
    · simp [heq]
    · simp [heq]
  unfold Latch.assertBits Latch.update
  rw [dif_pos hlt]
  exact congrArg (fun bytes => Except.ok (Latch.mk l.base bytes)) hbytes

end Latch

/-- The unit as it is told to take its time. -/
def CommandUnit.told (u : CommandUnit) : Option Latency → CommandUnit
  | none => u
  | some latency => u.setLatency (.reads 0) latency

namespace Impulse

open Board (Cell)

variable (i : Impulse)

/-- The bits that are set at an address. -/
def mask (addr : UInt16) : UInt8 :=
  match Cell.at? addr with
  | some c => i.bits c
  | none => 0

/-- The bits that are set in memory. -/
def memoryMask (addr : UInt16) : UInt8 :=
  match Cell.at? addr with
  | some c => if c.claim = none then i.bits c else 0
  | none => 0

/-- Memory with the bits set. Three of the cells are memory. -/
def onRam (ram : Ram) : Ram :=
  [Cell.peripheral, Cell.state, Cell.events].foldl
    (fun ram c => ram.set c.addr (ram.get c.addr ||| i.bits c)) ram

def onEndpoints (b : EndpointBlock) : EndpointBlock :=
  { b with secondary := Vector.ofFn fun e => b.secondary.get e ||| i.conditions e }

def onBlocks (b : Blocks) : Blocks where
  control := b.control
  endpoints := i.onEndpoints b.endpoints
  interruptStatus := b.interruptStatus.raised i.mask
  timerStatus := b.timerStatus.raised i.mask
  nvme := b.nvme.told (i.latency .nvme)
  flash := b.flash.told (i.latency .flash)
  phy := b.phy.told (i.latency .phy)

def onIrq (c : InterruptController) : InterruptController :=
  { c with
    pending := ⟨c.pending.endpoint || i.edges .endpoint, c.pending.system || i.edges .system⟩ }

/-- The board that an impulse strikes. -/
def onBoard (s : Board.State) : Board.State :=
  { s with
    bus.bus.ram := i.onRam s.bus.bus.ram
    bus.bus.devices := i.onBlocks s.bus.blocks
    irq := i.onIrq s.irq }

end Impulse

namespace Impulse

open Board (Cell State)

section Sums

variable (i j : Impulse)

theorem get_onRam (ram : Ram) (addr : UInt16) :
    (i.onRam ram).get addr = ram.get addr ||| i.memoryMask addr := by
  have hinj (c d : Cell) : c.addr = d.addr ↔ c = d := ⟨Cell.addr_injective, congrArg Cell.addr⟩
  unfold memoryMask onRam
  simp only [List.foldl_cons, List.foldl_nil, Paged.get_set]
  cases hat : Cell.at? addr with
  | some c =>
    obtain rfl := Cell.addr_of_at? hat
    simp only [hinj]
    cases c <;> simp [Cell.claim]
  | none =>
    have hne (c : Cell) : c.addr ≠ addr := by
      rintro rfl
      rw [c.at?_addr] at hat
      cases hat
    simp [hne]

theorem mask_followed (addr : UInt16) : (i.followed j).mask addr = i.mask addr ||| j.mask addr := by
  unfold mask
  cases Cell.at? addr with
  | some c => rfl
  | none => exact UInt8.or_zero.symm

theorem memoryMask_followed (addr : UInt16) :
    (i.followed j).memoryMask addr = i.memoryMask addr ||| j.memoryMask addr := by
  unfold memoryMask
  cases Cell.at? addr with
  | some c => cases c <;> first | rfl | exact UInt8.or_zero.symm
  | none => exact UInt8.or_zero.symm

theorem onRam_followed (ram : Ram) : j.onRam (i.onRam ram) = (i.followed j).onRam ram := by
  apply Paged.ext_get
  intro addr
  rw [get_onRam, get_onRam, get_onRam, memoryMask_followed, UInt8.or_assoc]

theorem get_onEndpoints (b : EndpointBlock) (e : Fin 8) :
    (i.onEndpoints b).secondary.get e = b.secondary.get e ||| i.conditions e :=
  EndpointBlock.get_ofFn _ e

theorem onEndpoints_followed (b : EndpointBlock) :
    j.onEndpoints (i.onEndpoints b) = (i.followed j).onEndpoints b := by
  have hconditions : (j.onEndpoints (i.onEndpoints b)).secondary =
      ((i.followed j).onEndpoints b).secondary := by
    apply EndpointBlock.ext_get
    intro e
    rw [get_onEndpoints, get_onEndpoints, get_onEndpoints, UInt8.or_assoc]
    rfl
  exact congrArg (fun secondary => { b with secondary := secondary }) hconditions

theorem onLatch_followed (l : Latch) :
    (l.raised i.mask).raised j.mask = l.raised (i.followed j).mask := by
  rw [Latch.raised_raised]
  exact congrArg l.raised (funext fun addr => (i.mask_followed j addr).symm)

theorem told_told (u : CommandUnit) (first later : Option Latency) :
    (u.told first).told later = u.told (later.or first) := by
  cases later with
  | none => rfl
  | some latency => cases first <;> rfl

theorem onBlocks_followed (b : Blocks) : j.onBlocks (i.onBlocks b) = (i.followed j).onBlocks b := by
  unfold onBlocks
  dsimp only
  rw [onEndpoints_followed, onLatch_followed, onLatch_followed, told_told, told_told, told_told]
  rfl

theorem onIrq_followed (c : InterruptController) :
    j.onIrq (i.onIrq c) = (i.followed j).onIrq c := by
  unfold onIrq followed
  simp only [Bool.or_assoc]

/-- Two impulses in a row are one. -/
theorem onBoard_followed (s : State) : j.onBoard (i.onBoard s) = (i.followed j).onBoard s := by
  unfold onBoard Rig.blocks
  dsimp only
  rw [onRam_followed, onBlocks_followed, onIrq_followed]

theorem onEndpoints_nothing (b : EndpointBlock) : nothing.onEndpoints b = b := by
  have hconditions : (nothing.onEndpoints b).secondary = b.secondary := by
    apply EndpointBlock.ext_get
    intro e
    rw [get_onEndpoints]
    exact UInt8.or_zero
  exact congrArg (fun secondary => { b with secondary := secondary }) hconditions

theorem onIrq_nothing (c : InterruptController) : nothing.onIrq c = c := by
  unfold onIrq nothing
  simp only [Bool.or_false]

theorem mask_nothing : nothing.mask = fun _ => 0 := by
  funext addr
  unfold mask
  cases Cell.at? addr <;> rfl

theorem onRam_of_zero {i : Impulse} (h : ∀ addr, i.memoryMask addr = 0) (ram : Ram) :
    i.onRam ram = ram := by
  apply Paged.ext_get
  intro addr
  rw [get_onRam, h, UInt8.or_zero]

theorem onRam_nothing (ram : Ram) : nothing.onRam ram = ram := by
  refine onRam_of_zero (fun addr => ?_) ram
  unfold memoryMask
  cases Cell.at? addr with
  | some c => exact ite_self 0
  | none => rfl

theorem onBlocks_nothing (b : Blocks) : nothing.onBlocks b = b := by
  unfold onBlocks
  rw [onEndpoints_nothing, mask_nothing, Latch.raised_zero, Latch.raised_zero]
  rfl

theorem onBoard_nothing (s : State) : nothing.onBoard s = s := by
  unfold onBoard
  rw [onRam_nothing, onBlocks_nothing, onIrq_nothing]
  rfl

end Sums

section Parts

variable {c : Cell} {m : UInt8}

theorem mask_ofBits (addr : UInt16) :
    (ofBits c m).mask addr = if addr = c.addr then m else 0 := by
  unfold mask
  cases hat : Cell.at? addr with
  | some d =>
    obtain rfl := Cell.addr_of_at? hat
    by_cases heq : d = c
    · subst heq
      rw [if_pos rfl]
      exact if_pos rfl
    · rw [if_neg fun haddr => heq (Cell.addr_injective haddr)]
      exact if_neg heq
  | none =>
    have hne : addr ≠ c.addr := by
      rintro rfl
      rw [c.at?_addr] at hat
      cases hat
    rw [if_neg hne]

theorem memoryMask_ofBits (addr : UInt16) : (ofBits c m).memoryMask addr =
    if c.claim = none then (if addr = c.addr then m else 0) else 0 := by
  have hmask := @mask_ofBits c m addr
  unfold memoryMask
  unfold mask at hmask
  cases hat : Cell.at? addr with
  | some d =>
    obtain rfl := Cell.addr_of_at? hat
    rw [hat] at hmask
    dsimp only at hmask ⊢
    rw [hmask]
    by_cases heq : d = c
    · rw [heq]
    · rw [if_neg fun haddr => heq (Cell.addr_injective haddr), ite_self, ite_self]
  | none =>
    rw [hat] at hmask
    dsimp only at hmask ⊢
    rw [← hmask, ite_self]

theorem onBlocks_ofBits (b : Blocks) : (ofBits c m).onBlocks b = { b with
    interruptStatus := b.interruptStatus.raised fun addr => if addr = c.addr then m else 0
    timerStatus := b.timerStatus.raised fun addr => if addr = c.addr then m else 0 } := by
  have hmask : (ofBits c m).mask = fun addr => if addr = c.addr then m else 0 :=
    funext mask_ofBits
  have hendpoints : (ofBits c m).onEndpoints b.endpoints = b.endpoints := onEndpoints_nothing _
  unfold onBlocks
  rw [hmask, hendpoints]
  rfl

variable {s : State}

theorem onBoard_of_onBlocks {i : Impulse} {f : Blocks → Except Fault Blocks}
    (hf : f s.bus.blocks = .ok (i.onBlocks s.bus.blocks)) (hram : i.onRam s.bus.bus.ram = s.bus.bus.ram)
    (hirq : i.onIrq s.irq = s.irq) : Rig.onBlocks f s = .done () (i.onBoard s) := by
  have hblocks : f s.bus.bus.devices = .ok (i.onBlocks s.bus.blocks) := hf
  have hrun : Rig.onBlocks f s =
      .done () { s with bus := s.bus.withBlocks (i.onBlocks s.bus.blocks) } := by
    refine Machine.onBus_of_done ?_
    simp only [hblocks]
    rfl
  rw [hrun]
  unfold onBoard Rig.withBlocks
  rw [hram, hirq]

theorem assertInterrupt_apply (hs : s.bus.Intact) (hc : c.claim = some .interruptStatus) :
    Rig.assertInterrupt c.addr m s = .done () ((ofBits c m).onBoard s) := by
  have hspan : c.addr - interruptStatusBase < interruptStatusSize ∧
      ¬c.addr - RegisterMap.timerStatus < 1 := by
    cases c <;> first | decide | cases hc
  refine onBoard_of_onBlocks ?_ (onRam_of_zero (fun addr => ?_) _) (onIrq_nothing _)
  · rw [onBlocks_ofBits, hs.whole.timerStatus.raised_elsewhere hspan.2,
      hs.whole.interruptStatus.assertBits hspan.1]
    rfl
  · rw [memoryMask_ofBits, hc]
    rfl

theorem assertTimer_apply (hs : s.bus.Intact) :
    Rig.assertTimer m s = .done () ((ofBits .timer m).onBoard s) := by
  have hspan : ¬Cell.timer.addr - interruptStatusBase < interruptStatusSize := by decide
  have htimer : Cell.timer.addr - RegisterMap.timerStatus < 1 := by decide
  refine onBoard_of_onBlocks ?_ (onRam_of_zero (fun addr => ?_) _) (onIrq_nothing _)
  · rw [onBlocks_ofBits, hs.whole.interruptStatus.raised_elsewhere hspan]
    have hassert := hs.whole.timerStatus.assertBits htimer m
    exact congrArg (Except.map _) hassert
  · rw [memoryMask_ofBits]
    rfl

theorem setBits_apply (hs : s.bus.Intact) (c : Cell) (hc : c.claim = none) (m : UInt8) :
    Machine.setBits c.addr m s = .done () ((ofBits c m).onBoard s) := by
  have hfree : s.bus.bus.claim? c.addr = none := by rw [hs.claims, c.claim?_addr, hc]
  have hread : RegisterBus.read c.addr s.bus = .done (s.bus.bus.ram.get c.addr) s.bus :=
    Rig.onBus_of_done (XdataBus.read_of_free hfree)
  let value := s.bus.bus.ram.get c.addr ||| m
  have hwrite : RegisterBus.write c.addr value s.bus = .done () (s.bus.stored c.addr value) :=
    Rig.onBus_of_done (XdataBus.write_of_free hfree value)
  have hram : (ofBits c m).onRam s.bus.bus.ram = s.bus.bus.ram.set c.addr value := by
    apply Paged.ext_get
    intro addr
    rw [get_onRam, memoryMask_ofBits, if_pos hc, Paged.get_set]
    by_cases heq : addr = c.addr
    · rw [if_pos heq, if_pos heq.symm, heq]
    · rw [if_neg heq, if_neg (Ne.symm heq), UInt8.or_zero]
  have hspan : ¬c.addr - interruptStatusBase < interruptStatusSize ∧
      ¬c.addr - RegisterMap.timerStatus < 1 := by
    cases c <;> first | decide | cases hc
  have hblocks : (ofBits c m).onBlocks s.bus.blocks = s.bus.blocks := by
    rw [onBlocks_ofBits, hs.whole.interruptStatus.raised_elsewhere hspan.1,
      hs.whole.timerStatus.raised_elsewhere hspan.2]
  have hirq : (ofBits c m).onIrq s.irq = s.irq := onIrq_nothing _
  refine (Machine.onBus_of_done ((Run.bind_of_done hread).trans hwrite)).trans ?_
  unfold onBoard
  rw [hram, hblocks, hirq]
  rfl

theorem raiseIrq_apply (line : IrqLine) :
    Machine.raiseIrq line s = .done () ((ofEdge line).onBoard s) := by
  have hirq : (ofEdge line).onIrq s.irq = s.irq.raise line := by
    unfold onIrq ofEdge InterruptController.raise
    cases line <;> simp [PerLine.set]
  have hram : (ofEdge line).onRam s.bus.bus.ram = s.bus.bus.ram := onRam_nothing _
  have hblocks : (ofEdge line).onBlocks s.bus.blocks = s.bus.blocks := onBlocks_nothing _
  unfold onBoard
  rw [hirq, hram, hblocks]
  rfl

theorem raiseEndpoint_apply (e : Fin 8) :
    Rig.raiseEndpoint e.val m s = .done () ((ofConditions e m).onBoard s) := by
  refine onBoard_of_onBlocks ?_ (onRam_nothing _) (onIrq_nothing _)
  have hendpoints (b : EndpointBlock) :
      b.raise e.val m = .ok ((ofConditions e m).onEndpoints b) := by
    have hconditions : (b.withRaised e m).secondary =
        ((ofConditions e m).onEndpoints b).secondary := by
      apply EndpointBlock.ext_get
      intro f
      rw [EndpointBlock.secondary_withRaised, get_onEndpoints]
      by_cases heq : f = e
      · subst heq
        simp [ofConditions]
      · simp [ofConditions, heq]
    rw [EndpointBlock.raise_eq]
    exact congrArg (fun secondary => Except.ok { b with secondary := secondary }) hconditions
  have hblocks : (ofConditions e m).onBlocks s.bus.blocks =
      { s.bus.blocks with endpoints := (ofConditions e m).onEndpoints s.bus.blocks.endpoints } := by
    have hmask : (ofConditions e m).mask = fun _ => 0 := mask_nothing
    unfold onBlocks
    rw [hmask, Latch.raised_zero, Latch.raised_zero]
    rfl
  rw [hendpoints, hblocks]
  rfl

theorem setLatency_apply (kind : CommandKind) (latency : Latency) :
    Rig.setLatency kind (.reads 0) latency s = .done () ((ofLatency kind latency).onBoard s) := by
  refine onBoard_of_onBlocks ?_ (onRam_nothing _) (onIrq_nothing _)
  have hmask : (ofLatency kind latency).mask = fun _ => 0 := mask_nothing
  have hendpoints (b : EndpointBlock) : (ofLatency kind latency).onEndpoints b = b :=
    onEndpoints_nothing b
  unfold onBlocks
  rw [hmask, Latch.raised_zero, Latch.raised_zero, hendpoints]
  cases kind <;> rfl

end Parts

theorem intact_onBoard {s : State} (hs : s.bus.Intact) (i : Impulse) :
    (i.onBoard s).bus.Intact := by
  have htold (u : CommandUnit) (latency : Option Latency) : (u.told latency).base = u.base := by
    cases latency <;> rfl
  refine ⟨hs.claims, hs.whole.interruptStatus.raised _, hs.whole.timerStatus.raised _, ?_⟩
  intro kind
  have hbase := hs.whole.base kind
  cases kind <;> exact (htold _ _).trans hbase

theorem signal_apply {s : State} (hs : s.bus.Intact) (c : Cell)
    (hc : c.claim = some .interruptStatus) (m : UInt8) (line : IrqLine) :
    (Rig.assertInterrupt c.addr m >>= fun _ => Machine.raiseIrq line) s =
      .done () ((signal c m line).onBoard s) := by
  rw [Run.bind_of_done (assertInterrupt_apply hs hc), raiseIrq_apply, onBoard_followed]
  rfl

end Impulse

namespace Board

variable {s : State}

/-- A board is struck by an event as the event comes to. -/
theorem apply_stimulus (hs : s.bus.Intact) (stimulus : Stimulus) :
    stimulus.apply s = .done () (stimulus.impulse.onBoard s) := by
  cases stimulus with
  | endpointReady endpoint mask =>
    let e : Fin 8 := ⟨endpoint.toNat % 8, Nat.mod_lt _ (by decide)⟩
    have hfirst : Rig.raiseEndpoint (endpoint.toNat % 8) mask s = _ :=
      Impulse.raiseEndpoint_apply e
    have hraised := Impulse.intact_onBoard hs (Impulse.ofConditions e mask)
    refine (Run.bind_of_done hfirst).trans ((Impulse.signal_apply hraised .usb rfl _ _).trans ?_)
    rw [Impulse.onBoard_followed]
    rfl
  | cbw => exact Impulse.signal_apply hs .usb rfl _ _
  | usbLink => exact Impulse.signal_apply hs .usb rfl _ _
  | systemEvent => exact Impulse.signal_apply hs .system rfl _ _
  | nvmeQueue => exact Impulse.signal_apply hs .pcie rfl _ _
  | pcieEvent => exact Impulse.signal_apply hs .pcie rfl _ _
  | pcieLink => exact Impulse.signal_apply hs .pcie rfl _ _
  | power => exact Impulse.signal_apply hs .system rfl _ _
  | timerTick =>
    refine (Run.bind_of_done (Impulse.assertTimer_apply hs)).trans ?_
    rw [Impulse.raiseIrq_apply, Impulse.onBoard_followed]
    rfl
  | masterReady => exact Impulse.setBits_apply hs .peripheral rfl masterReadyBit
  | deferEndpoint => exact Impulse.setBits_apply hs .state rfl deferredEndpoint
  | stall unit => exact Impulse.setLatency_apply unit .never
  | release unit reads => exact Impulse.setLatency_apply unit (.reads reads)

/-- The log after events were injected. -/
def injected (log : Log) (steps : List ScriptStep) : Log :=
  steps.foldl (fun log step => log.record (.inject step.stimulus)) log

/-- Events in a row strike a board as one impulse. -/
theorem injectAll_apply (hs : s.bus.Intact) (steps : List ScriptStep) :
    injectAll steps s =
      .done () ((impulse steps).onBoard { s with log := injected s.log steps }) := by
  -- on the events: a note changes the log alone, so that it can be moved in front of the impulse
  induction steps generalizing s with
  | nil =>
    have hnothing := Impulse.onBoard_nothing s
    exact congrArg (Outcome.done ()) hnothing.symm
  | cons step rest ih =>
    let first := step.stimulus.impulse
    have hinject : inject step.stimulus s = .done () (first.onBoard (s.noted (.inject step.stimulus))) :=
      (Run.bind_of_done (Machine.note_apply _ s)).trans
        (@apply_stimulus (s.noted (.inject step.stimulus)) hs step.stimulus)
    have hstruck : (first.onBoard (s.noted (.inject step.stimulus))).bus.Intact :=
      @Impulse.intact_onBoard (s.noted (.inject step.stimulus)) hs first
    have hrest := ih hstruck
    have hboth := first.onBoard_followed (impulse rest)
      { s with log := injected s.log (step :: rest) }
    exact ((Run.bind_of_done hinject).trans hrest).trans (congrArg (Outcome.done ()) hboth)

/-- A panel that an impulse strikes. -/
def Panel.struck (p : Panel) (i : Impulse) : Panel :=
  { p with
    byte := fun c => p.byte c ||| i.bits c
    conditions := Vector.ofFn fun e => p.conditions.get e ||| i.conditions e }

/-- A console that an impulse strikes. -/
def Console.struck (c : Console) (i : Impulse) : Console := ⟨i.onIrq c.irq, c.panel.struck i⟩

theorem console_onBoard (hs : s.bus.Intact) (i : Impulse) :
    console (i.onBoard s) = (console s).struck i := by
  have hmask (c : Cell) : i.mask c.addr = i.bits c := by
    unfold Impulse.mask
    rw [c.at?_addr]
  have hlatch {l : Latch} {base size : UInt16} (hl : l.Spans base size) (c : Cell)
      (haddr : c.addr - base < size) :
      ((l.raised i.mask).value? c.addr).getD 0 = (l.value? c.addr).getD 0 ||| i.bits c := by
    obtain ⟨value, hvalue, -⟩ := hl.read haddr
    rw [Latch.value?_raised, hvalue, hmask]
    rfl
  have hstatus := hs.whole.interruptStatus
  have hshown (c : Cell) : shown (i.onBoard s).bus c = shown s.bus c ||| i.bits c := by
    have hmemory (hc : c.claim = none) :
        (i.onRam s.bus.bus.ram).get c.addr = s.bus.bus.ram.get c.addr ||| i.bits c := by
      rw [Impulse.get_onRam]
      unfold Impulse.memoryMask
      rw [c.at?_addr]
      dsimp only
      rw [if_pos hc]
    cases c with
    | usb => exact hlatch hstatus .usb (by decide)
    | system => exact hlatch hstatus .system (by decide)
    | pcie => exact hlatch hstatus .pcie (by decide)
    | timer => exact hlatch hs.whole.timerStatus .timer (by decide)
    | peripheral => exact hmemory rfl
    | state => exact hmemory rfl
    | events => exact hmemory rfl
  have hbyte : shown (i.onBoard s).bus = fun c => shown s.bus c ||| i.bits c := funext hshown
  unfold console Console.struck panel rigPanel
  rw [hbyte]
  rfl

end Board

end BankedController
