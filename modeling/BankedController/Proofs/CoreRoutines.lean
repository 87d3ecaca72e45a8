import BankedController.Command.Engine
import BankedController.Endpoint.Scan
import BankedController.InterruptRoute
import BankedController.Pass
import BankedController.Proofs.CommandBus

namespace BankedController

open RegisterMap

variable {β α : Type} [RegisterBus β] {P : Steps β} {A : UInt16 → UInt8 → Prop}

/-- The writes of the endpoint scan. -/
def ScanWrite (addr : UInt16) (_ : UInt8) : Prop :=
  addr = endpointIndex ∨ addr = endpointOffset ∨ Secondary addr

/-- The writes of the routes of the interrupt lines, which acknowledge at three registers. -/
def RouteWrite (addr : UInt16) (_ : UInt8) : Prop :=
  addr = usbStatus ∨ addr = peripheralStatus ∨ addr = timerStatus

/-- The writes of a pass of the main loop, to the two bytes that it shares with everybody. -/
def PassWrite (addr : UInt16) (_ : UInt8) : Prop := addr = eventFlags ∨ addr = systemState

/-- The writes of the command engine: its memory, the registers that recovery toggles, and the
registers of the units. -/
inductive EngineWrite : UInt16 → UInt8 → Prop
  | ram {addr : UInt16} {value : UInt8} (h : EngineRam addr) : EngineWrite addr value
  | recovery {addr : UInt16} {value : UInt8} (h : addr ∈ recoveryControls) : EngineWrite addr value
  | unit (kind : CommandKind) {offset : UInt16} {value : UInt8} (h : offset < blockSize) :
    EngineWrite (kind.block + offset) value

/-- The writes to a unit: its registers, the registers that recovery toggles, and the number of
recoveries. -/
inductive UnitWrite (kind : CommandKind) : UInt16 → UInt8 → Prop
  | register {offset : UInt16} {value : UInt8} (h : offset < blockSize) :
    UnitWrite kind (kind.block + offset) value
  | recovery {addr : UInt16} {value : UInt8} (h : addr ∈ recoveryControls) :
    UnitWrite kind addr value
  | recoveries {value : UInt8} : UnitWrite kind recoveryCount value

/-- Where the waits of a kind of command count. -/
def CommandKind.CountsAt (kind : CommandKind) (addr : UInt16) : Prop :=
  match kind with
  | nvme => queueCounter ≤ addr ∧ addr < flashCounter
  | flash => flashCounter ≤ addr ∧ addr < phyCounter
  | phy => phyCounter ≤ addr ∧ addr < recoveryCount

instance (kind : CommandKind) (addr : UInt16) : Decidable (kind.CountsAt addr) :=
  match kind with
  | .nvme | .flash | .phy => inferInstanceAs (Decidable (_ ∧ _))

/-- The writes of waiting for a unit, recovery from a wait that runs out included. -/
inductive WaitWrite (kind : CommandKind) : UInt16 → UInt8 → Prop
  | unit {addr : UInt16} {value : UInt8} (h : UnitWrite kind addr value) : WaitWrite kind addr value
  | counter {addr : UInt16} {value : UInt8} (h : kind.CountsAt addr) : WaitWrite kind addr value

/-- The writes of the command engine for commands of one kind. The place in the queue is claimed by
submissions and given back by every command. -/
inductive CommandWrite (kind : CommandKind) : UInt16 → UInt8 → Prop
  | unit {addr : UInt16} {value : UInt8} (h : UnitWrite kind addr value) :
    CommandWrite kind addr value
  | counter {addr : UInt16} {value : UInt8} (h : kind.CountsAt addr) : CommandWrite kind addr value
  | state {value : UInt8} : CommandWrite kind commandState value
  | claim {addr : UInt16} {value : UInt8} (hkind : kind = .nvme)
    (h : addr = commandSlot ∨ addr = queueTail) : CommandWrite kind addr value
  | release : CommandWrite kind commandSlot 0

/-- The bytes of a posted request that follow its kind. -/
def RequestField (addr : UInt16) : Prop := requestKind < addr ∧ addr < requestKind + 8

instance (addr : UInt16) : Decidable (RequestField addr) :=
  inferInstanceAs (Decidable (_ ∧ _))

/-- The writes of posting a request for a kind of command. -/
inductive RequestWrite (kind : CommandKind) : UInt16 → UInt8 → Prop
  | field {addr : UInt16} {value : UInt8} (h : RequestField addr) : RequestWrite kind addr value
  | kind : RequestWrite kind requestKind kind.requestCode

/-- The counters are the engine's own. -/
theorem engineRam_of_countsAt {kind : CommandKind} {addr : UInt16} (h : kind.CountsAt addr) :
    EngineRam addr := by
  have hfirst : commandState.toNat = 0x0A60 := rfl
  have hqueue : queueCounter.toNat = 0x0A64 := rfl
  have hflash : flashCounter.toNat = 0x0A6C := rfl
  have hphy : phyCounter.toNat = 0x0A70 := rfl
  have hlast : recoveryCount.toNat = 0x0A74 := rfl
  simp only [EngineRam, UInt16.le_iff_toNat_le]
  cases kind <;>
    simp only [CommandKind.CountsAt, UInt16.le_iff_toNat_le, UInt16.lt_iff_toNat_lt] at h <;>
    omega

/-- A wait counts where its kind of command counts. -/
theorem countsAt_counter {kind : CommandKind} {wait : WaitKind} (h : wait ∈ kind.waits) :
    kind.CountsAt wait.counter ∧ kind.CountsAt (wait.counter + 1) ∧
      kind.CountsAt (wait.counter + 2) ∧ kind.CountsAt (wait.counter + 3) := by
  cases kind <;> cases wait <;> first | decide | exact absurd h (by decide)

theorem writable32_counter {kind : CommandKind} {wait : WaitKind} (h : wait ∈ kind.waits) :
    Composed.Writable32 (WaitWrite kind) wait.counter := by
  obtain ⟨h0, h1, h2, h3⟩ := countsAt_counter h
  exact ⟨fun _ => .counter h0, fun _ => .counter h1, fun _ => .counter h2, fun _ => .counter h3⟩

theorem Admits.wait {kind : CommandKind} (hP : Admits P (CommandWrite kind)) :
    Admits P (WaitWrite kind) := by
  refine hP.mono fun addr value h => ?_
  cases h with
  | unit h => exact .unit h
  | counter h => exact .counter h

theorem Admits.unit {kind : CommandKind} (hP : Admits P (WaitWrite kind)) :
    Admits P (UnitWrite kind) :=
  hP.mono fun _ _ h => .unit h

theorem CommandWrite.engine {kind : CommandKind} {addr : UInt16} {value : UInt8}
    (h : CommandWrite kind addr value) : EngineWrite addr value := by
  cases h with
  | unit h =>
    cases h with
    | register h => exact .unit kind h
    | recovery h => exact .recovery h
    | recoveries => exact .ram (by decide)
  | counter h => exact .ram (engineRam_of_countsAt h)
  | state => exact .ram (by decide)
  | claim hkind h =>
    rcases h with rfl | rfl
    · exact .ram (by decide)
    · exact .ram (by decide)
  | release => exact .ram (by decide)

/-- An engine that may write for all kinds may write for one. -/
theorem Admits.command (hP : Admits P EngineWrite) (kind : CommandKind) :
    Admits P (CommandWrite kind) :=
  hP.mono fun _ _ h => h.engine

namespace Composed

theorem masterReady (hP : Admits P A) : Composed P fun _ => Linkage.masterReady :=
  sequence (read hP peripheralStatus) fun _ => done _

/-- The secondary register of an endpoint. -/
theorem secondary_of_index {index : UInt8} (h : ¬index ≥ Endpoint.count) :
    Secondary (endpointSecondaryBase + index.toUInt16) := by
  have hlt : index.toNat < 8 := by simpa [Endpoint.count, UInt8.lt_iff_toNat_lt] using h
  have hbase : endpointSecondaryBase.toNat = 0x9096 := rfl
  have hlast : (endpointSecondaryBase + 8).toNat = 0x909E := rfl
  have hsum : (endpointSecondaryBase + index.toUInt16).toNat = 0x9096 + index.toNat := by
    rw [UInt16.toNat_add, UInt8.toNat_toUInt16, hbase]
    exact Nat.mod_eq_of_lt (by omega)
  constructor
  · rw [UInt16.le_iff_toNat_le, hsum, hbase]
    omega
  · rw [UInt16.lt_iff_toNat_lt, hsum, hlast]
    omega

theorem scanStep (hP : Admits P ScanWrite) : Composed P fun l => l.scanStep := by
  unfold Linkage.scanStep
  refine sequence (read hP endpointStatus) fun primary => ?_
  refine followed (write hP (.inl rfl)) ?_
  refine branch _ (done none) ?_
  refine sequence (read hP endpointIndex) fun index => ?_
  by_cases hindex : index ≥ Endpoint.count
  · simpa only [if_pos hindex] using done none
  simp only [if_neg hindex]
  refine sequence (read hP _) fun secondary => ?_
  refine branch _ (done none) ?_
  refine followed (write hP (.inr (.inl rfl))) ?_
  refine followed (note hP _) ?_
  refine followed (dispatch _ _) ?_
  exact followed (write hP (.inr (.inr (secondary_of_index hindex)))) (done _)

theorem scanSteps (hP : Admits P ScanWrite) (limit : Nat) :
    Composed P fun l => l.scanSteps limit := by
  induction limit with
  | zero => exact done _
  | succ limit ih =>
    refine sequence (scanStep hP) fun found => ?_
    cases found with
    | none => exact done _
    | some offset => exact sequence ih fun _ => done _

theorem scanFrom (hP : Admits P ScanWrite) (forced : Bool) (limit : UInt8) :
    Composed P fun l => l.scanFrom forced limit := by
  unfold Linkage.scanFrom
  refine sequence (scanSteps hP _) fun result => ?_
  refine sequence (masterReady hP) fun master => ?_
  refine branch _ (followed (dispatch _ _) ?_) ?_
  all_goals exact branch _ (followed (note hP _) (done _)) (done _)

theorem scan (hP : Admits P ScanWrite) : Composed P fun l => l.scan := by
  unfold Linkage.scan
  refine sequence (masterReady hP) fun forced => ?_
  have steps : Composed P fun l =>
      l.scanFrom forced (min l.config.scanLimit FirmwareConfig.maxScanSteps) :=
    configured fun config => scanFrom hP forced (min config.scanLimit FirmwareConfig.maxScanSteps)
  exact branch _ (followed (note hP _) (followed (dispatch _ _) steps)) steps

theorem scanRoutine (hP : Admits P ScanWrite) : Routine.ComposedOf P (scanRoutine (β := β)) :=
  fun _ => sequence (scan hP) fun _ => note hP _

section Unit

variable {kind : CommandKind} (hP : Admits P (UnitWrite kind))

include hP

theorem pulse {register : UInt16} (mask : UInt8) (h : register ∈ recoveryControls) :
    Composed P fun _ => (Toggle.pulse register mask).run :=
  followed (setBits hP mask fun _ => .recovery h) (clearBits hP mask fun _ => .recovery h)

theorem cycle {register : UInt16} (mask : UInt8) (h : register ∈ recoveryControls) :
    Composed P fun _ => (Toggle.cycle register mask).run :=
  followed (clearBits hP mask fun _ => .recovery h) (setBits hP mask fun _ => .recovery h)

theorem toggles (other : CommandKind) : Composed P fun _ => Toggle.runAll other.toggles := by
  cases other with
  | nvme =>
    refine followed (cycle hP _ (by decide)) ?_
    refine followed (pulse hP _ (by decide)) ?_
    exact followed (pulse hP _ (by decide)) (done _)
  | flash => exact followed (pulse hP _ (by decide)) (done _)
  | phy =>
    refine followed (pulse hP _ (by decide)) ?_
    exact followed (cycle hP _ (by decide)) (done _)

theorem recover : Composed P fun _ => kind.recover := by
  refine followed (toggles hP kind) ?_
  refine followed (write hP (.register (by decide))) ?_
  refine followed (write hP (.register (by decide))) ?_
  refine sequence (read hP recoveryCount) fun before => ?_
  exact followed (write hP .recoveries) (note hP _)

theorem settle (entry : CompletionEntry) : Composed P fun _ => kind.settle entry := by
  cases entry with
  | normal =>
    exact followed (write hP (.register (by decide))) (write hP (.register (by decide)))
  | afterTimeout => exact done _

omit hP

theorem send (r : CommandRequest) (hP : Admits P (UnitWrite r.kind)) :
    Composed P fun _ => r.send := by
  have haddress : Writable32 (UnitWrite r.kind) (r.kind.block + addressOffset) := by
    refine ⟨fun _ => .register (by decide), fun _ => ?_, fun _ => ?_, fun _ => ?_⟩
    all_goals
      rw [UInt16.add_assoc]
      exact .register (by decide)
  refine followed (write hP (.register (by decide))) ?_
  refine followed (write hP (.register (by decide))) ?_
  refine followed (write hP (.register (by decide))) ?_
  exact followed (write32 hP _ haddress) (write hP (.register (by decide)))

end Unit

section Command

variable {kind : CommandKind} (hP : Admits P (WaitWrite kind))

include hP

theorem await {wait : WaitKind} (h : wait ∈ kind.waits) :
    Composed P fun l => l.await kind wait := by
  refine configured (f := fun config l => (wait.busyWait kind config.timeouts).run l) ?_
  intro config
  exact busyWait hP (writable32_counter h)

theorem awaitAll {waits : List WaitKind} (h : ∀ wait ∈ waits, wait ∈ kind.waits) :
    Composed P fun l => l.awaitAll kind waits := by
  induction waits with
  | nil => exact done _
  | cons wait rest ih =>
    have hrest := ih fun w hw => h w (List.mem_cons_of_mem _ hw)
    refine sequence (await hP (h wait List.mem_cons_self)) fun outcome => ?_
    cases outcome with
    | ready iterations => exact sequence hrest fun _ => done _
    | error iterations => exact followed (note hP _) (done _)
    | timedOut iterations => exact followed (note hP _) (followed (recover hP.unit) (done _))

omit hP

theorem complete (hP : Admits P (CommandWrite kind)) (entry : CompletionEntry) :
    Composed P fun _ => kind.complete entry := by
  refine followed (settle hP.wait.unit entry) ?_
  refine sequence (read hP commandState) fun before => ?_
  refine followed (write hP .state) ?_
  exact followed (write hP .release) (note hP _)

theorem claimSlot (hP : Admits P (CommandWrite .nvme)) :
    Composed P fun _ => CommandRequest.claimSlot := by
  refine sequence (read hP queueTail) fun tail => ?_
  refine followed (write hP (.claim rfl (.inl rfl))) ?_
  exact followed (write hP (.claim rfl (.inr rfl))) (done _)

variable (r : CommandRequest) (hr : Admits P (CommandWrite r.kind))

include hr

theorem place : Composed P fun _ => r.place := by
  obtain ⟨kind, opcode, param, tag, address⟩ := r
  cases kind with
  | nvme => exact sequence (claimSlot hr) fun _ => done _
  | flash => exact done _
  | phy => exact done _

theorem issue : Composed P fun _ => r.issue :=
  sequence (place r hr) fun _ => followed (send r hr.wait.unit) (done _)

theorem execute : Composed P fun l => l.execute r := by
  refine sequence (issue r hr) fun slot => ?_
  refine followed (note hr _) ?_
  refine sequence (awaitAll hr.wait fun _ hwait => hwait) fun result => ?_
  exact followed (complete hr result.2) (done _)

end Command

end Composed

/-- The registers of a unit stand apart. -/
theorem apart_block (kind : CommandKind) {offset : UInt16} (h : offset < blockSize) :
    Apart (kind.block + offset) := by
  have hlt : offset.toNat < 16 := by simpa [blockSize, UInt16.lt_iff_toNat_lt] using h
  have hblock : 0xC420 ≤ kind.block.toNat ∧ kind.block.toNat ≤ 0xE710 := by
    cases kind <;> decide
  have hsum : (kind.block + offset).toNat = kind.block.toNat + offset.toNat := by
    rw [UInt16.toNat_add]
    exact Nat.mod_eq_of_lt (by omega)
  have hevents : eventFlags.toNat = 0x09F9 := rfl
  have hstate : systemState.toNat = 0x0AE2 := rfl
  have hlast : (endpointSecondaryBase + 8).toNat = 0x909E := rfl
  refine ⟨?_, ?_, ?_⟩
  · intro he
    rw [he, hevents] at hsum
    omega
  · intro hs
    rw [hs, hstate] at hsum
    omega
  · intro hsecondary
    have hbelow := UInt16.lt_iff_toNat_lt.1 hsecondary.2
    rw [hsum, hlast] at hbelow
    omega

/-- The registers that recovery toggles stand apart. -/
theorem apart_recovery {addr : UInt16} (h : addr ∈ recoveryControls) : Apart addr := by
  simp only [recoveryControls, List.mem_cons, List.not_mem_nil, or_false] at h
  rcases h with rfl | rfl | rfl | rfl <;> decide

theorem apart_engineRam {addr : UInt16} (h : EngineRam addr) : Apart addr := by
  constructor
  · rintro rfl
    exact absurd h (by decide)
  · rintro rfl
    exact absurd h (by decide)
  · intro hsecondary
    have habove := UInt16.le_iff_toNat_le.1 hsecondary.1
    have hbelow := UInt16.le_iff_toNat_le.1 h.2
    have hbase : endpointSecondaryBase.toNat = 0x9096 := rfl
    have hlast : recoveryCount.toNat = 0x0A74 := rfl
    omega

theorem EngineWrite.apart {addr : UInt16} {value : UInt8} (h : EngineWrite addr value) :
    Apart addr := by
  cases h with
  | ram h => exact apart_engineRam h
  | recovery h => exact apart_recovery h
  | unit kind h => exact apart_block kind h

theorem Admits.engine (hP : Admits P ServiceWrite) : Admits P EngineWrite :=
  hP.mono fun _ _ h => h.apart

theorem Admits.route (hP : Admits P ServiceWrite) : Admits P RouteWrite := by
  refine hP.mono fun addr value h => ?_
  change Apart addr
  rcases h with rfl | rfl | rfl <;> decide

/-- Neither of the two shared bytes is a register of conditions. -/
theorem Admits.scan (hP : Admits P CoreWrite) : Admits P ScanWrite := by
  refine hP.mono fun addr value h => ?_
  rcases h with rfl | rfl | hsecondary
  · exact ⟨by decide, by decide⟩
  · exact ⟨by decide, by decide⟩
  · constructor
    · rintro rfl
      exact absurd hsecondary (by decide)
    · rintro rfl
      exact absurd hsecondary (by decide)

namespace Composed

/-- The service takes a request by clearing its kind. -/
theorem take (hP : Admits P A) (hclear : A requestKind 0) :
    Composed P fun _ => CommandRequest.take := by
  refine sequence (read hP requestKind) fun code => ?_
  refine branch _ (done none) ?_
  refine followed (write hP hclear) ?_
  cases CommandKind.ofRequest? code with
  | none => exact followed (note hP _) (done none)
  | some kind =>
    refine sequence (read hP requestOpcode) fun opcode => ?_
    refine sequence (read hP requestParam) fun param => ?_
    refine sequence (read hP requestTag) fun tag => ?_
    exact sequence (read32 hP requestAddress) fun address => done _

theorem post (r : CommandRequest) (hP : Admits P (RequestWrite r.kind)) :
    Composed P fun _ => r.post := by
  have haddress : Writable32 (RequestWrite r.kind) requestAddress :=
    ⟨fun _ => .field (by decide), fun _ => .field (by decide), fun _ => .field (by decide),
      fun _ => .field (by decide)⟩
  refine followed (write hP (.field (by decide))) ?_
  refine followed (write hP (.field (by decide))) ?_
  refine followed (write hP (.field (by decide))) ?_
  refine followed (write32 hP _ haddress) ?_
  exact write hP .kind

/-- The service carries out what it takes. -/
theorem serviceOf (htake : Composed P fun _ => CommandRequest.take)
    (hexecute : ∀ r, Composed P fun l => l.execute r) :
    Routine.ComposedOf P (BankedController.commandServiceRoutine (β := β)) := by
  intro param
  refine sequence htake fun found => ?_
  cases found with
  | none => exact done _
  | some request => exact sequence (hexecute request) fun _ => done _

theorem commandServiceRoutine (hP : Admits P ServiceWrite) :
    Routine.ComposedOf P (commandServiceRoutine (β := β)) :=
  serviceOf (take hP (show Apart requestKind by decide)) fun r =>
    execute r (hP.engine.command r.kind)

/-- The write of an acknowledgement, if it writes, is in a class. -/
def Acknowledges (A : UInt16 → UInt8 → Prop) (test : StatusTest) : Prop :=
  match test.ack with
  | .handler => True
  | .writeMask register => A register test.mask
  | .clearMask register => ∀ value, A register value

theorem acknowledge (hP : Admits P A) (test : StatusTest) (h : Acknowledges A test) :
    Composed P fun _ => Linkage.acknowledge test := by
  obtain ⟨source, mask, slot, ack⟩ := test
  cases ack with
  | handler => exact done _
  | writeMask register => exact write hP h
  | clearMask register => exact clearBits hP _ h

theorem runTest (hP : Admits P A) (snapshot : UInt8) (test : StatusTest) (h : Acknowledges A test) :
    Composed P fun l => l.runTest snapshot test := by
  have fire (value : UInt8) : Composed P fun l => (do
      if value &&& test.mask = 0 then
        pure ()
      else
        l.dispatch test.slot none
        Linkage.acknowledge test : Run (Machine β) Unit) :=
    branch _ (done _) (followed (dispatch _ _) (acknowledge hP test h))
  obtain ⟨source, mask, slot, ack⟩ := test
  cases source with
  | snapshot => exact sequence (done snapshot) fire
  | reread register => exact sequence (read hP register) fire

theorem runTests (hP : Admits P A) (snapshot : UInt8) (tests : List StatusTest)
    (h : ∀ test ∈ tests, Acknowledges A test) : Composed P fun l => l.runTests snapshot tests := by
  induction tests with
  | nil => exact done _
  | cons test rest ih =>
    have htest := h test List.mem_cons_self
    have hrest := ih fun t ht => h t (List.mem_cons_of_mem _ ht)
    exact followed (runTest hP snapshot test htest) hrest

theorem route (hP : Admits P RouteWrite) (line : IrqLine) : Composed P fun l => l.route line := by
  have htests : ∀ test ∈ (LineRoute.ofLine line).tests, Acknowledges RouteWrite test := by
    cases line <;> simp [LineRoute.ofLine, LineRoute.endpoint, LineRoute.system, Acknowledges,
      RouteWrite]
  refine sequence (read hP _) fun snapshot => ?_
  exact followed (note hP _) (runTests hP snapshot _ htests)

/-- A pass of the main loop reads and writes the bytes that it shares with everybody, and for the
rest dispatches. -/
theorem mainLoop (hP : Admits P PassWrite) : Composed P fun l => l.runPass := by
  have pollers (slots : List SlotId) : Composed P fun l => l.runPollers slots := by
    induction slots with
    | nil => exact done _
    | cons slot rest ih => exact followed (dispatch _ _) (followed poll ih)
  have serve : Composed P fun l => l.serveEvents := by
    refine sequence (read hP eventFlags) fun raw => ?_
    refine branch _ ?_ (done _)
    refine followed (note hP _) ?_
    refine followed (clearBits hP _ fun _ => .inl rfl) ?_
    refine followed (dispatch _ _) ?_
    refine branch _ (followed (dispatch _ _) ?_) ?_
    all_goals exact followed (dispatch _ _) (done _)
  have promote : Composed P fun _ => promoteDeferred := by
    refine sequence (read hP systemState) fun state => ?_
    refine branch _ (done _) ?_
    refine followed (write hP (.inr rfl)) ?_
    exact followed (setBits hP _ fun _ => .inl rfl) (done _)
  refine followed (pollers _) ?_
  refine sequence serve fun events => ?_
  refine sequence (critical promote) fun promoted => ?_
  exact followed poll (done _)

end Composed

end BankedController
