import BankedController.Proofs.RequestBlock

namespace BankedController

open RegisterMap

variable {β α γ : Type}

/-- From a record on, the block was used as told, and every use told the truth. -/
structure Recorded.Told (start : List Deed) (uses : List BlockUse) (r : Recorded β) : Prop where
  deeds : r.blockDeeds = start ++ uses.flatMap BlockUse.deeds
  faithful : BlockUse.Faithful uses

namespace PlainMemory

variable [RegisterBus β] {A : UInt16 → Prop} (b : PlainMemory β A)

/-- The block was used as told, and what waits by that account stands in memory. -/
structure Traded (start : List Deed) (uses : List BlockUse) (r : Recorded β) : Prop
    extends r.Told start uses where
  wired : b.wired r.bus
  waits : b.Waits (BlockUse.waiting uses) r.bus

/-- The block was not written to. -/
structure Untouched (bus bus' : β) : Prop where
  wired : b.wired bus'
  block : ∀ a, RequestByte a → b.ram bus' a = b.ram bus a

/-- Bytes of the block were looked at, as they stand there, and nothing else was done to it. -/
def Glanced (r r' : Recorded β) : Prop :=
  ∃ looks : List UInt16, r'.blockDeeds =
    r.blockDeeds ++ looks.map fun a => .read a (b.ram r.bus a)

/-- A run that does not write to the block, whatever becomes of it. -/
def LeavesBlock (m : Run (Machine (Recorded β)) α) : Prop :=
  ∀ s, b.wired s.bus.bus → (m s).Meets
    (fun t => b.Untouched s.bus.bus t.bus.bus ∧ b.Glanced s.bus t.bus)
    fun t => b.Glanced s.bus t.bus

/-- What a routine may do by itself: post a request, take one, and anything that does not write to
the block. -/
inductive BlockStep : Steps (Recorded β)
  | aside {α : Type} (m : Run (Machine (Recorded β)) α) (h : b.LeavesBlock m) : BlockStep α m
  | post (r : CommandRequest) : BlockStep Unit r.post
  | take : BlockStep (Option CommandRequest) CommandRequest.take

/-- Whatever was told of the block before a run, more can be told after it. -/
def Trades (start : List Deed) : Steps (Recorded β) := fun _ m =>
  ∀ uses s, b.Traded start uses s.bus → (m s).Meets
    (fun t => ∃ later, b.Traded start (uses ++ later) t.bus)
    fun t => ∃ later, t.bus.Told start (uses ++ later)

variable {b} {start : List Deed} {uses : List BlockUse} {addr : UInt16}

/-- Nothing was done to a block that holds no request. -/
theorem traded_start {r : Recorded β} (hwired : b.wired r.bus)
    (hkind : b.ram r.bus requestKind = 0) : b.Traded r.blockDeeds [] r :=
  ⟨⟨(List.append_nil _).symm, BlockUse.faithful_nil⟩, hwired, hkind⟩

theorem Waits.untouched {bus bus' : β} {found : Option CommandRequest} (hwaits : b.Waits found bus)
    (h : b.Untouched bus bus') : b.Waits found bus' := by
  cases found with
  | none => exact (h.block _ (by decide)).trans hwaits
  | some r =>
    intro p hp
    exact (h.block _ (r.requestByte_of_mem hp)).trans (hwaits p hp)

/-- What is seen of the kind is the code of the request that waits. -/
theorem Waits.code {bus : β} {found : Option CommandRequest} (hwaits : b.Waits found bus) :
    b.ram bus requestKind = waitingCode found := by
  cases found with
  | none => exact hwaits
  | some r => exact hwaits _ r.mem_kind

/-- Looks are uses that tell the truth, and after which the same waits. -/
theorem told_glanced {r r' : Recorded β} (h : b.Traded start uses r) (hseen : b.Glanced r r') :
    ∃ later, r'.Told start (uses ++ later) ∧ BlockUse.waiting (uses ++ later) =
      BlockUse.waiting uses := by
  obtain ⟨looks, hdeeds⟩ := hseen
  obtain ⟨hfaithful, hwaiting⟩ := h.faithful.look h.waits.code looks
  refine ⟨_, ⟨?_, hfaithful⟩, hwaiting⟩
  rw [hdeeds, h.deeds, List.flatMap_append, List.flatMap_map, List.append_assoc,
    List.map_eq_flatMap]
  rfl

/-- A use that tells the truth, and leaves in memory what waits after it, is one more to tell. -/
theorem Traded.concat {r r' : Recorded β} (h : b.Traded start uses r) {use : BlockUse}
    (hhere : ∀ addr value, use ≠ .seen addr value) (hdeeds : r'.deeds = r.deeds ++ use.deeds)
    (htruth : BlockUse.Holds uses use) (hwired : b.wired r'.bus)
    (hwaits : b.Waits (BlockUse.waiting (uses ++ [use])) r'.bus) :
    b.Traded start (uses ++ [use]) r' := by
  refine ⟨⟨?_, h.faithful.concat htruth⟩, hwired, hwaits⟩
  have hat := use.filter_deeds fun addr value heq => absurd heq (hhere addr value)
  unfold Recorded.blockDeeds
  rw [hdeeds, List.filter_append, hat, List.flatMap_append, List.flatMap_singleton,
    ← List.append_assoc, ← h.deeds]
  rfl

theorem glanced_refl (r : Recorded β) : b.Glanced r r := ⟨[], (List.append_nil _).symm⟩

section Trades

theorem sequential_trades : Sequential (b.Trades start) where
  done a uses s h := ⟨[], (List.append_nil uses).symm ▸ h⟩
  giveUp _ _ _ := trivial
  sequence {α γ m f} hm hf uses s h := by
    refine Run.meets_bind (hm uses s h) ?_ fun t ht => ht
    rintro a t ⟨later, ht⟩
    refine (hf a (uses ++ later) t ht).imp ?_ ?_
    · rintro u ⟨more, hu⟩
      exact ⟨later ++ more, List.append_assoc uses later more ▸ hu⟩
    · rintro u ⟨more, hu⟩
      exact ⟨later ++ more, List.append_assoc uses later more ▸ hu⟩

/-- What does nothing on the bus leaves the block. -/
theorem leavesBlock_of_bus {m : Run (Machine (Recorded β)) α}
    (h : ∀ s, ∃ a t, m s = .done a t ∧ t.bus = s.bus) : b.LeavesBlock m := by
  intro s hwired
  obtain ⟨a, t, hrun, hbus⟩ := h s
  rw [hrun]
  refine ⟨?_, ?_⟩ <;> rw [hbus]
  · exact ⟨hwired, fun _ _ => rfl⟩
  · exact glanced_refl s.bus

theorem trades_aside {m : Run (Machine (Recorded β)) α} (h : b.LeavesBlock m) :
    b.Trades start α m := by
  intro uses s hs
  refine (h s hs.wired).imp ?_ ?_
  · rintro t ⟨hblock, hseen⟩
    obtain ⟨later, htold, hwaiting⟩ := told_glanced hs hseen
    refine ⟨later, htold, hblock.wired, ?_⟩
    rw [hwaiting]
    exact hs.waits.untouched hblock
  · intro t hseen
    obtain ⟨later, htold, -⟩ := told_glanced hs hseen
    exact ⟨later, htold⟩

theorem bookkeeping_trades : Bookkeeping (b.Trades start) where
  toSequential := sequential_trades
  stack f := trades_aside (leavesBlock_of_bus fun s => ⟨_, _, rfl, rfl⟩)
  irq f := trades_aside (leavesBlock_of_bus fun s => ⟨_, _, rfl, rfl⟩)
  select bank := by
    refine trades_aside (leavesBlock_of_bus fun s => ?_)
    unfold Machine.selectBank
    split <;> exact ⟨_, _, rfl, rfl⟩
  count f := trades_aside (leavesBlock_of_bus fun s => ⟨_, _, rfl, rfl⟩)
  note event := trades_aside (leavesBlock_of_bus fun s => ⟨_, _, rfl, rfl⟩)
  look f := trades_aside (leavesBlock_of_bus fun s => ⟨_, _, rfl, rfl⟩)

end Trades

section Block

variable (hA : ∀ a, RequestByte a → A a)

include hA

theorem traded_post {s : Machine (Recorded β)} (h : b.Traded start uses s.bus)
    (r : CommandRequest) :
    ∃ bus, r.post s = .done () { s with bus := bus } ∧
      b.Traded start (uses ++ [.posted r]) bus ∧
      bus.deeds = s.bus.deeds ++ (BlockUse.posted r).deeds ∧
      ∀ a, A a → ¬RequestByte a → b.ram bus.bus a = b.ram s.bus.bus a := by
  obtain ⟨bus, hrun, hwired, hwaits, hdeeds, hout⟩ := post_done hA r h.wired
  refine ⟨bus, hrun, h.concat (by simp) hdeeds trivial hwired ?_, hdeeds, hout⟩
  rw [BlockUse.waiting_posted]
  exact hwaits

theorem traded_take {s : Machine (Recorded β)} (h : b.Traded start uses s.bus) :
    ∃ bus, CommandRequest.take s = .done (BlockUse.waiting uses) { s with bus := bus } ∧
      b.Traded start (uses ++ [.taken (BlockUse.waiting uses)]) bus ∧
      bus.deeds = s.bus.deeds ++ (BlockUse.taken (BlockUse.waiting uses)).deeds ∧
      ∀ a, A a → ¬RequestByte a → b.ram bus.bus a = b.ram s.bus.bus a := by
  obtain ⟨bus, hrun, hwired, hwaits, hdeeds, hout⟩ := take_done hA h.wired h.waits
  refine ⟨bus, hrun, h.concat (by simp) hdeeds rfl hwired ?_, hdeeds, hout⟩
  rw [BlockUse.waiting_taken]
  exact hwaits

theorem BlockStep.trades {m : Run (Machine (Recorded β)) α} (h : b.BlockStep α m) :
    b.Trades start α m := by
  cases h with
  | aside m h => exact trades_aside h
  | post r =>
    intro uses s hs
    obtain ⟨bus, hrun, htraded, -⟩ := traded_post hA hs r
    rw [hrun]
    exact ⟨_, htraded⟩
  | take =>
    intro uses s hs
    obtain ⟨bus, hrun, htraded, -⟩ := traded_take hA hs
    rw [hrun]
    exact ⟨_, htraded⟩

end Block

section Accesses

/-- An access that enters one deed in the record if it returns and none if it fails. -/
theorem leavesBlock_access {m : Run β α} {deed : α → Deed}
    (h : ∀ bus a bus', b.wired bus → m bus = .done a bus' → b.Untouched bus bus' ∧
      ∃ looks : List UInt16, [deed a].filter Deed.atBlock =
        looks.map fun a => Deed.read a (b.ram bus a)) :
    b.LeavesBlock (Machine.onBus (Recorded.access m deed)) := by
  rintro ⟨⟨bus, deeds⟩, window, stack, irq, stats, log⟩ hwired
  unfold Machine.onBus Recorded.access
  dsimp only
  cases hrun : m bus with
  | done a bus' =>
    obtain ⟨hblock, looks, hlooks⟩ := h bus a bus' hwired hrun
    exact ⟨hblock, looks, by simp only [Recorded.blockDeeds, List.filter_append, hlooks]⟩
  | fault cause bus' => exact ⟨[], by simp [Recorded.blockDeeds]⟩
  | exhausted => trivial

/-- Everybody may look at the block, and write anywhere else. -/
theorem admits_blockStep (hA : ∀ a, RequestByte a → A a) :
    Admits b.BlockStep fun addr _ => ¬RequestByte addr where
  note event := .aside _ (leavesBlock_of_bus fun s => ⟨_, _, rfl, rfl⟩)
  read addr := by
    refine .aside _ (leavesBlock_access fun bus value bus' hwired hread => ?_)
    have hstill := still_read hwired hread
    refine ⟨⟨hstill.wired, fun a ha => hstill.ram a (hA a ha)⟩, ?_⟩
    by_cases hblock : RequestByte addr
    · obtain ⟨bus'', hfetch⟩ := b.fetch hwired (hA addr hblock)
      rw [hread] at hfetch
      cases hfetch
      exact ⟨[addr], List.filter_cons_of_pos (decide_eq_true hblock)⟩
    · exact ⟨[], List.filter_cons_of_neg (by simpa [Deed.atBlock] using hblock)⟩
  write addr value hout := by
    refine .aside _ (leavesBlock_access fun bus _ bus' hwired hwrite => ?_)
    obtain ⟨hwired', hram⟩ := b.write hwired hwrite
    refine ⟨⟨hwired', fun a ha => ?_⟩, [], ?_⟩
    · rw [hram a (hA a ha), if_neg]
      rintro rfl
      exact hout ha
    · exact List.filter_cons_of_neg (by simpa [Deed.atBlock] using hout)

/-- The engine writes nowhere near the block. -/
theorem not_requestByte_of_engineWrite {value : UInt8} (h : EngineWrite addr value) :
    ¬RequestByte addr := by
  have hfirst : requestKind.toNat = 0x0A80 := rfl
  have hlast : (requestKind + 8).toNat = 0x0A88 := rfl
  rintro ⟨habove, hbelow⟩
  rw [UInt16.le_iff_toNat_le] at habove
  rw [UInt16.lt_iff_toNat_lt] at hbelow
  cases h with
  | ram h =>
    have hengine := UInt16.le_iff_toNat_le.1 h.2
    have hram : recoveryCount.toNat = 0x0A74 := rfl
    omega
  | recovery h =>
    simp only [recoveryControls, List.mem_cons, List.not_mem_nil, or_false] at h
    rcases h with rfl | rfl | rfl | rfl <;> exact absurd hbelow (by decide)
  | @unit kind offset _ h =>
    have hlt : offset.toNat < 16 := by simpa [blockSize, UInt16.lt_iff_toNat_lt] using h
    have hblock : 0xC420 ≤ kind.block.toNat ∧ kind.block.toNat ≤ 0xE710 := by
      cases kind <;> decide
    have hsum : (kind.block + offset).toNat = kind.block.toNat + offset.toNat := by
      rw [UInt16.toNat_add]
      exact Nat.mod_eq_of_lt (by omega)
    omega

end Accesses

section Firmware

variable (hA : ∀ a, RequestByte a → A a)

include hA

theorem admits_blockStep_scan : Admits b.BlockStep ScanWrite := by
  refine (admits_blockStep hA).mono fun addr value h => ?_
  rcases h with rfl | rfl | hsecondary
  · decide
  · decide
  · intro hblock
    have habove := UInt16.le_iff_toNat_le.1 hsecondary.1
    have hbelow := UInt16.lt_iff_toNat_lt.1 hblock.2
    have hbase : endpointSecondaryBase.toNat = 0x9096 := rfl
    have hlast : (requestKind + 8).toNat = 0x0A88 := rfl
    omega

theorem admits_blockStep_route : Admits b.BlockStep RouteWrite := by
  refine (admits_blockStep hA).mono fun addr value h => ?_
  rcases h with rfl | rfl | rfl <;> decide

theorem admits_blockStep_pass : Admits b.BlockStep PassWrite := by
  refine (admits_blockStep hA).mono fun addr value h => ?_
  rcases h with rfl | rfl <;> decide

theorem composed_blockStep_execute (r : CommandRequest) :
    Composed b.BlockStep fun l => l.execute r := by
  have hengine : Admits b.BlockStep EngineWrite :=
    (admits_blockStep hA).mono fun _ _ h => not_requestByte_of_engineWrite h
  exact .execute r (hengine.command r.kind)

theorem composed_blockStep_service :
    Routine.ComposedOf b.BlockStep (commandServiceRoutine (β := Recorded β)) :=
  Composed.serviceOf (.step _ .take) (composed_blockStep_execute hA)

/-- Calls and preemption points of a firmware leave a block of which more can be told, if its
routines do. -/
theorem trades_linkage {image : CodeImage (Routine (Recorded β))} {entries : List DispatchEntry}
    {config : FirmwareConfig} {fw : Firmware (Recorded β)}
    (h : Firmware.link image entries config = .ok fw) (himage : image.ComposedOf b.BlockStep)
    (n : Nat) : (fw.linkage n).Within (b.Trades start) := by
  obtain ⟨-, -, hfw, -⟩ := Firmware.link_eq_ok h
  have hcomposed : fw.image.ComposedOf b.BlockStep := by
    rw [hfw]
    exact CodeImage.forall_of_installCore
      (fun _ _ => Composed.scanRoutine (admits_blockStep_scan hA))
      (fun _ _ => composed_blockStep_service hA) entries himage
  exact bookkeeping_trades.linkage (fun _ _ hstep => hstep.trades hA) (admits_blockStep_route hA)
    hcomposed n

end Firmware

end PlainMemory

/-- The block of posted requests, where it is plain memory and nobody writes to it but by posting
and by taking. The main loop, routines and interrupt handlers may do both in any order, at any
preemption point, and while a command is waited for. Whatever a run does and however it ends, what
happened at the block is a list of whole posts, whole takes and looks. A take finds a request exactly
if a post came after the take before, and then the last such post with all its fields. Posts and
takes return, and do nothing but what they do at the block. -/
theorem PlainMemory.requests_delivered [RegisterBus β] {A : UInt16 → Prop} (b : PlainMemory β A)
    (hA : ∀ a, RequestByte a → A a) {image : CodeImage (Routine (Recorded β))}
    {entries : List DispatchEntry} {config : FirmwareConfig} {fw : Firmware (Recorded β)}
    (h : Firmware.link image entries config = .ok fw) (himage : image.ComposedOf b.BlockStep)
    (n : Nat) :
    (∀ r : Recorded β, b.wired r.bus → b.ram r.bus requestKind = 0 →
      b.Traded r.blockDeeds [] r) ∧
    (∀ {α : Type} {m : Linkage (Recorded β) → Run (Machine (Recorded β)) α},
      Composed b.BlockStep m → ∀ start uses s, b.Traded start uses s.bus →
        (∀ a t, m (fw.linkage n) s = .done a t → ∃ later, b.Traded start (uses ++ later) t.bus) ∧
          ∀ cause t, m (fw.linkage n) s = .fault cause t →
            ∃ later, t.bus.Told start (uses ++ later)) ∧
    (∀ start uses (r : Recorded β), r.Told start uses → ∀ before found after,
      uses = before ++ .taken found :: after → ∀ request, found = some request ↔
        ∃ front back, before = front ++ .posted request :: back ∧
          ∀ use ∈ back, ∃ addr value, use = .seen addr value) ∧
    (∀ start uses (s : Machine (Recorded β)), b.Traded start uses s.bus → ∀ request,
      ∃ bus, request.post s = .done () { s with bus := bus } ∧
        b.Traded start (uses ++ [.posted request]) bus ∧
        bus.deeds = s.bus.deeds ++ (BlockUse.posted request).deeds ∧
        ∀ a, A a → ¬RequestByte a → b.ram bus.bus a = b.ram s.bus.bus a) ∧
    (∀ start uses (s : Machine (Recorded β)), b.Traded start uses s.bus →
      ∃ found bus, CommandRequest.take s = .done found { s with bus := bus } ∧
        b.Traded start (uses ++ [.taken found]) bus ∧
        bus.deeds = s.bus.deeds ++ (BlockUse.taken found).deeds ∧
        ∀ a, A a → ¬RequestByte a → b.ram bus.bus a = b.ram s.bus.bus a) ∧
    Routine.ComposedOf b.BlockStep (commandServiceRoutine (β := Recorded β)) ∧
    (∀ r, Composed b.BlockStep fun l => l.execute r) ∧
    Composed b.BlockStep fun l => l.runPass := by
  refine ⟨fun r => traded_start, fun hm start uses s hs => ?_, ?_,
    fun start uses s hs request => traded_post hA hs request,
    fun start uses s hs => ⟨_, traded_take hA hs⟩,
    composed_blockStep_service hA, composed_blockStep_execute hA,
    .mainLoop (admits_blockStep_pass hA)⟩
  · have hmeets := hm.within bookkeeping_trades.carries (fun _ _ hstep => hstep.trades hA)
      (trades_linkage hA h himage n) uses s hs
    constructor <;> intro _ t hrun <;> rw [hrun] at hmeets <;> exact hmeets
  · rintro start uses r htold before found after huses request
    have htruth : found = BlockUse.waiting before :=
      htold.faithful before (.taken found) after huses
    rw [htruth]
    exact BlockUse.waiting_eq_some_iff

namespace ReplacedRequests

def memory : PlainMemory Cells fun _ => True := Cells.memory _

def first : CommandRequest := ⟨.flash, 1, 2, 3, 0x01020304⟩

def second : CommandRequest := ⟨.nvme, 4, 5, 6, 0x05060708⟩

def third : CommandRequest := ⟨.phy, 7, 8, 9, 0x090A0B0C⟩

def master : Routine (Recorded Cells) := fun _ _ => do
  second.post
  third.post

def image : CodeImage (Routine (Recorded Cells)) := ⟨[⟨"master", .ofLogical .bank0 0x5100, master⟩]⟩

def entries : List DispatchEntry :=
  [⟨.commandService, .bank0, 0x5200, .callReturn⟩, ⟨.usbMaster, .bank0, 0x5100, .callReturn⟩]

/-- The wait of the first request may find its unit busy twice. -/
def config : FirmwareConfig := { FirmwareConfig.standard with timeouts := ⟨2, 2, 2, 2⟩ }

/-- While a command is waited for the master asks for service, and posts two requests. -/
def firmware : Firmware (Recorded Cells) where
  config := config
  table := ⟨entries.map DispatchTable.slotOf⟩
  image := image.installCore scanRoutine commandServiceRoutine entries

theorem link_image : Firmware.link image entries config = .ok firmware := rfl

/-- Posts the first request, has it served, and takes twice. -/
def session (l : Linkage (Recorded Cells)) :
    Run (Machine (Recorded Cells)) (Option CommandRequest × Option CommandRequest) := do
  first.post
  l.dispatch .commandService none
  let found ← CommandRequest.take
  let again ← CommandRequest.take
  pure (found, again)

/-- The unit of the first request is busy, and the master asks for service, which is served at the
first preemption point. -/
def machine : Machine (Recorded Cells) where
  bus := ⟨⟨fun addr =>
    if addr = usbStatus then usbMasterBit
    else if addr = flashBlock + statusOffset then busyBit
    else 0⟩, []⟩
  window := .initial
  stack := .ofBase config.stackBase
  irq := { InterruptController.initial with
    enable := InterruptController.globalBit ||| IrqLine.endpoint.bit
    pending := ⟨true, false⟩ }
  stats := .initial
  log := ⟨none, []⟩

/-- What happens at the block. -/
def uses : List BlockUse :=
  [.posted first, .taken (some first), .posted second, .posted third, .taken (some third),
    .taken none]

theorem composedOf_image : image.ComposedOf memory.BlockStep := by
  intro placed hplaced param
  obtain rfl := List.mem_singleton.1 hplaced
  exact .followed (.step _ (.post second)) (.step _ (.post third))

theorem composed_session : Composed memory.BlockStep session :=
  .followed (.step _ (.post first)) (.followed (.dispatch _ _)
    (.sequence (.step _ .take) fun _ => .sequence (.step _ .take) fun _ => .done _))

end ReplacedRequests

/-- Two requests are posted while another is carried out. The second replaces the first, and is
found by the next take; the take after that finds nothing. -/
theorem PlainMemory.requests_delivered_replaced :
    ∃ t, ReplacedRequests.session (ReplacedRequests.firmware.linkage 9) ReplacedRequests.machine =
        .done (some ReplacedRequests.third, none) t ∧
      t.bus.blockDeeds = ReplacedRequests.uses.flatMap BlockUse.deeds ∧
      ∃ later, ReplacedRequests.memory.Traded [] later t.bus := by
  obtain ⟨hstart, hruns, -⟩ := requests_delivered ReplacedRequests.memory (fun _ _ => trivial)
    ReplacedRequests.link_image ReplacedRequests.composedOf_image 9
  have hasked : (ReplacedRequests.session (ReplacedRequests.firmware.linkage 9)
      ReplacedRequests.machine).ask? (fun t => t.bus.blockDeeds) =
        some (ReplacedRequests.uses.flatMap BlockUse.deeds) := by
    decide +kernel
  have hvalue : (ReplacedRequests.session (ReplacedRequests.firmware.linkage 9)
      ReplacedRequests.machine).value? = some (some ReplacedRequests.third, none) := by
    decide +kernel
  obtain ⟨found, t, hrun, hdeeds⟩ := Outcome.done_of_ask? hasked
  have hclear : ReplacedRequests.memory.Traded [] [] ReplacedRequests.machine.bus :=
    hstart ReplacedRequests.machine.bus trivial rfl
  have htraded := (hruns ReplacedRequests.composed_session [] [] _ hclear).1 found t hrun
  rw [hrun] at hvalue
  obtain rfl := Option.some.inj hvalue
  exact ⟨t, hrun, hdeeds, htraded⟩

end BankedController
