import BankedController.Proofs.CriticalSections
import BankedController.Proofs.RigBuses
import BankedController.Proofs.Transcripts
import BankedController.Proofs.UncountedSwitches

namespace BankedController

variable {β κ σ α : Type}

/-- An address of the memory that is cleared. -/
def WorkRam.Contains (w : WorkRam) (addr : UInt16) : Prop :=
  w.start.toNat ≤ addr.toNat ∧ addr.toNat < w.start.toNat + w.size.toNat

instance (w : WorkRam) (addr : UInt16) : Decidable (w.Contains addr) :=
  inferInstanceAs (Decidable (_ ∧ _))

/-- The memory is cleared by a write to each address in turn. -/
def WorkRam.clearing (w : WorkRam) : List Deed :=
  (List.range w.size.toNat).map fun i => .write (w.start + UInt16.ofNat i) 0

theorem Transcribed.fill [RegisterBus β] (start : UInt16) (count : Nat) (value : UInt8)
    (s : Machine β) (deeds : List Deed) :
    Transcribed (fun _ all _ => all = deeds ++
        (List.range count).map fun i => .write (start + UInt16.ofNat i) value)
      (Machine.onBus (RegisterBus.fill start count value) s)
      (Machine.onBus (RegisterBus.fill start count value) (s.recorded deeds)) := by
  induction count generalizing start s deeds with
  | zero => exact ⟨deeds, rfl, (List.append_nil _).symm⟩
  | succ count ih =>
    simp only [RegisterBus.fill, Machine.onBus_bind]
    refine (Transcribed.write start value s deeds).bind fun _ all t _ hall => ?_
    refine (ih (start + 1) t all).imp fun _ later _ _ hlater => ?_
    have hnext (i : Nat) : start + 1 + UInt16.ofNat i = start + UInt16.ofNat (i + 1) := by
      rw [UInt16.ofNat_add, UInt16.add_assoc, UInt16.add_comm 1]
      rfl
    rw [hlater, hall, List.range_succ_eq_map, List.append_assoc]
    simp [hnext, Function.comp_def]

/-- Clearing memory that no device claims leaves everything else. -/
theorem XdataBus.fill_of_free [DeviceStore κ σ] {bus : XdataBus κ σ} {start : UInt16} {count : Nat}
    (value : UInt8) (hend : start.toNat + count ≤ 65536)
    (hfree : ∀ addr : UInt16, start.toNat ≤ addr.toNat ∧ addr.toNat < start.toNat + count →
      bus.claim? addr = none) :
    RegisterBus.fill start count value bus =
      .done () { bus with ram := bus.ram.setFrom value start.toNat count } := by
  induction count generalizing start bus with
  | zero => rfl
  | succ count ih =>
    have hlt : start.toNat < 65536 := start.toNat_lt
    have hwrite := XdataBus.write_of_free (hfree start ⟨Nat.le_refl _, by omega⟩) value
    refine (Run.bind_of_done hwrite).trans ?_
    have hstart : UInt16.ofNat start.toNat = start := UInt16.ofNat_toNat
    rw [Paged.setFrom, if_pos hlt, hstart]
    by_cases hlast : count = 0
    · subst hlast
      rfl
    have hnext : (start + 1).toNat = start.toNat + 1 := by
      rw [UInt16.toNat_add]
      exact Nat.mod_eq_of_lt (show start.toNat + 1 < 65536 by omega)
    have hrest : RegisterBus.fill (start + 1) count value
        ({ bus with ram := bus.ram.set start value } : XdataBus κ σ) = _ :=
      ih (by omega) fun addr haddr => hfree addr (by omega)
    rwa [hnext] at hrest

theorem EdgeRecord.raised_fill [RegisterBus β] (record : EdgeRecord β) {start : UInt16}
    {count : Nat} {value : UInt8} {bus bus' : β}
    (h : RegisterBus.fill start count value bus = .done () bus') :
    record.raised bus' = record.raised bus := by
  induction count generalizing start bus with
  | zero =>
    cases h
    rfl
  | succ count ih =>
    obtain ⟨_, next, hwrite, hrest⟩ := Run.bind_eq_done.1 h
    rw [ih hrest, record.write hwrite]

/-- What power-on does before the first routine. -/
def FirmwareConfig.prepare [RegisterBus β] (config : FirmwareConfig) : Run (Machine β) Unit := do
  Machine.onBus (RegisterBus.fill config.workRam.start config.workRam.size.toNat 0)
  Run.modify fun s => { s with stack := s.stack.reset }
  Machine.selectBank .bank0
  Machine.onIrq fun _ => { InterruptController.initial with priority := config.highLine.bit }

/-- Machines that agree in what power-on does not reset. -/
structure WorkRam.AgreeOutside (w : WorkRam) (s s' : Machine (XdataBus κ σ)) : Prop where
  ram : ∀ addr, ¬w.Contains addr → s.bus.ram.get addr = s'.bus.ram.get addr
  devices : s.bus.devices = s'.bus.devices
  ranges : s.bus.ranges = s'.bus.ranges
  capacity : s.stack.capacity = s'.stack.capacity
  stats : s.stats = s'.stats

/-- The bus with the memory cleared. -/
def XdataBus.cleared (w : WorkRam) (bus : XdataBus κ σ) : XdataBus κ σ :=
  { bus with ram := bus.ram.setFrom 0 w.start.toNat w.size.toNat }

/-- The machine as the first routine finds it, but for the report. -/
def Machine.prepared (config : FirmwareConfig) (s : Machine (XdataBus κ σ)) :
    Machine (XdataBus κ σ) :=
  let cleared := { s with bus := s.bus.cleared config.workRam, stack := s.stack.reset }
  { cleared.mapped .bank0 with
    irq := { InterruptController.initial with priority := config.highLine.bit } }

section Preparing

variable {config : FirmwareConfig} {s s' : Machine (XdataBus κ σ)}

theorem XdataBus.ram_cleared (w : WorkRam) (bus : XdataBus κ σ) (addr : UInt16) :
    (bus.cleared w).ram.get addr = if w.Contains addr then 0 else bus.ram.get addr :=
  Paged.get_setFrom ..

/-- The claims on addresses go by the ranges. -/
theorem XdataBus.eq_of_ranges {bus bus' : XdataBus κ σ} (hram : bus.ram = bus'.ram)
    (hdevices : bus.devices = bus'.devices) (hranges : bus.ranges = bus'.ranges) : bus = bus' := by
  obtain ⟨ram, devices, ranges, claims, hclaims⟩ := bus
  obtain ⟨ram', devices', ranges', claims', hclaims'⟩ := bus'
  dsimp only at hram hdevices hranges
  subst hram hdevices hranges
  obtain rfl : claims = claims' :=
    Paged.ext_get fun addr => (hclaims addr).trans (hclaims' addr).symm
  rfl

theorem Machine.uncounted_prepared (config : FirmwareConfig) (s : Machine (XdataBus κ σ)) :
    (s.prepared config).uncounted =
      { bus := s.bus.cleared config.workRam
        window := .initial
        stack := s.stack.reset
        irq := { InterruptController.initial with priority := config.highLine.bit }
        stats := s.stats
        log := ⟨none, []⟩ } :=
  congrArg (fun m : Machine (XdataBus κ σ) =>
      { m with irq := { InterruptController.initial with priority := config.highLine.bit } })
    (Machine.uncounted_mapped
      { s with bus := s.bus.cleared config.workRam, stack := s.stack.reset } .bank0)

/-- Nothing is left of what two machines differ in. -/
theorem WorkRam.AgreeOutside.prepared (h : config.workRam.AgreeOutside s s') :
    (s.prepared config).uncounted = (s'.prepared config).uncounted := by
  have hram : (s.bus.cleared config.workRam).ram = (s'.bus.cleared config.workRam).ram := by
    refine Paged.ext_get fun addr => ?_
    rw [XdataBus.ram_cleared, XdataBus.ram_cleared]
    by_cases hin : config.workRam.Contains addr
    · rw [if_pos hin, if_pos hin]
    · rw [if_neg hin, if_neg hin]
      exact h.ram addr hin
  have hbus : s.bus.cleared config.workRam = s'.bus.cleared config.workRam :=
    XdataBus.eq_of_ranges hram h.devices h.ranges
  have hstack : s.stack.reset = s'.stack.reset :=
    congrArg (fun capacity => CallStack.mk [] 0 capacity 0) h.capacity
  rw [Machine.uncounted_prepared, Machine.uncounted_prepared, hbus, hstack, h.stats]

theorem Machine.bus_prepared (config : FirmwareConfig) (s : Machine (XdataBus κ σ)) :
    (s.prepared config).bus = s.bus.cleared config.workRam :=
  Machine.bus_mapped { s with bus := s.bus.cleared config.workRam, stack := s.stack.reset } _

variable [DeviceStore κ σ] (hchecked : config.Checked)
  (hfree : ∀ addr, config.workRam.Contains addr → s.bus.claim? addr = none)

include hchecked hfree

theorem FirmwareConfig.fill_workRam :
    RegisterBus.fill config.workRam.start config.workRam.size.toNat 0 s.bus =
      .done () (s.bus.cleared config.workRam) := by
  have hend := hchecked.workRam
  exact XdataBus.fill_of_free 0 (by omega) hfree

theorem FirmwareConfig.prepare_apply : config.prepare s = .done () (s.prepared config) := by
  unfold prepare
  rw [Run.bind_of_done (Machine.onBus_of_done (fill_workRam hchecked hfree))]
  refine (Run.bind_of_done (Run.modify_apply _ _)).trans ?_
  exact (Run.bind_of_done (Machine.selectBank_apply _ _)).trans rfl

omit hchecked hfree [DeviceStore κ σ] in
theorem Machine.mapped_recorded (s : Machine β) (deeds : List Deed) (bank : Bank) :
    (s.recorded deeds).mapped bank = (s.mapped bank).recorded deeds := by
  have hwindow : (s.recorded deeds).window = s.window := rfl
  unfold mapped
  rw [hwindow]
  split
  · rfl
  · rfl

/-- Each address is written once, and nothing else is accessed. -/
theorem FirmwareConfig.prepare_recorded (deeds : List Deed) :
    config.prepare (s.recorded deeds) =
      .done () ((s.prepared config).recorded (deeds ++ config.workRam.clearing)) := by
  have hfill := fill_workRam hchecked hfree
  obtain ⟨all, hrecorded, rfl⟩ := (Transcribed.fill config.workRam.start config.workRam.size.toNat 0
    s deeds).of_done (Machine.onBus_of_done hfill)
  unfold prepare
  rw [Run.bind_of_done hrecorded]
  refine (Run.bind_of_done (Run.modify_apply _ _)).trans ?_
  refine (Run.bind_of_done (Machine.selectBank_apply _ _)).trans ?_
  exact congrArg (fun m : Machine (Recorded (XdataBus κ σ)) => Outcome.done ()
      { m with irq := { InterruptController.initial with priority := config.highLine.bit } })
    (Machine.mapped_recorded
      { s with bus := s.bus.cleared config.workRam, stack := s.stack.reset }
      (deeds ++ config.workRam.clearing) .bank0)

end Preparing

namespace Linkage

/-- Power-on from the first routine on. -/
def start (l : Linkage β) : Run (Machine β) Unit := do
  let capacity ← Run.gets fun s => s.stack.capacity
  Machine.note (.powerOn l.config.workRam.size capacity)
  l.dispatchAll startup
  Machine.onIrq fun irq =>
    { irq with
      enable := InterruptController.globalBit ||| IrqLine.endpoint.bit ||| IrqLine.system.bit }
  Machine.note .startupComplete

section Runs

variable [RegisterBus β]

theorem powerOn_eq (l : Linkage β) : l.powerOn = l.config.prepare >>= fun _ => l.start := by
  unfold powerOn FirmwareConfig.prepare start
  simp only [bind_assoc]

theorem composed_dispatchAll {P : Steps β} (slots : List SlotId) :
    Composed P fun l => l.dispatchAll slots := by
  induction slots with
  | nil => exact .done ()
  | cons slot rest ih => exact .followed (.dispatch slot none) ih

theorem composed_start {P : Steps β} (hP : Bookkeeping P) : Composed P fun l => l.start := by
  refine .sequence (.step _ (hP.look fun _ stack _ => stack.capacity)) fun capacity => ?_
  have hreport : Composed P fun l =>
      Machine.note (.powerOn l.config.workRam.size capacity) :=
    .configured (f := fun config _ => Machine.note (.powerOn config.workRam.size capacity))
      fun config => .step _ (hP.note _)
  refine .followed hreport (.followed (composed_dispatchAll startup) ?_)
  exact .followed (.step _ (hP.irq _)) (.step _ (hP.note _))

theorem composed_powerOn : Composed (fun _ _ => True : Steps β) fun l => l.powerOn := by
  have heq : (fun l : Linkage β => l.powerOn) = fun l => l.config.prepare >>= fun _ => l.start :=
    funext powerOn_eq
  have hprepare : Composed (fun _ _ => True : Steps β) fun l => l.config.prepare :=
    .configured (f := fun config _ => config.prepare) fun config => .step _ trivial
  rw [heq]
  exact .followed hprepare (composed_start bookkeeping_all)

end Runs

variable {l l' : Linkage β} {s t : Machine β}

theorem start_eq_done (h : l.start s = .done () t) :
    ∃ r u, r.bus = s.bus ∧ r.irq = s.irq ∧ l.dispatchAll startup r = .done () u ∧
      t.bus = u.bus ∧ t.irq = { u.irq with
        enable :=
          InterruptController.globalBit ||| IrqLine.endpoint.bit ||| IrqLine.system.bit } := by
  obtain ⟨capacity, _, hlook, h⟩ := Run.bind_eq_done.1 h
  cases hlook
  obtain ⟨_, r, hnote, h⟩ := Run.bind_eq_done.1 h
  cases hnote
  obtain ⟨_, u, hslots, h⟩ := Run.bind_eq_done.1 h
  cases h
  refine ⟨_, u, ?_, ?_, hslots, ?_, ?_⟩
  all_goals rfl

/-- What is run at power-on depends on what the linkage does where the global enable is clear. -/
theorem start_follows (hconfig : l.config = l'.config)
    (hslots : Run.FollowsIn False Machine.Closed (l.dispatchAll startup) (l'.dispatchAll startup)) :
    Run.Follows False Machine.Closed (fun _ _ => True) l.start l'.start := by
  unfold start
  rw [← hconfig]
  have hkeeps := callKeeping_closed (β := β)
  refine Run.follows_bind (Run.followsIn_self (hkeeps.look fun _ stack _ => stack.capacity)) ?_
  intro capacity
  refine Run.follows_bind (Run.followsIn_self (hkeeps.note _)) fun _ => ?_
  refine Run.follows_bind hslots fun _ => ?_
  exact Run.follows_self fun _ _ _ _ _ => trivial

end Linkage

/-- A step that neither looks at the number of bank switches or at the log nor writes the enable
register. -/
abbrev StartupStep : Steps β := fun α m =>
  Uncounting α m ∧ m.Keeps EnableKept

theorem startupStep_onBus (m : Run β α) : StartupStep α (Machine.onBus m) := by
  refine ⟨uncounting_onBus m, fun s a t hrun => ?_⟩
  obtain ⟨bus, -, rfl⟩ := Machine.onBus_eq_done hrun
  rfl

theorem startupStep_giveUp : StartupStep α (Run.giveUp : Run (Machine β) α) :=
  ⟨bookkeeping_uncounting.giveUp, Run.keeps_giveUp⟩

/-- What an observer is told shows no count of switches. -/
theorem startupStep_sighting (placed : Placed (Routine β)) (param : Option UInt8) :
    StartupStep Sighting (Run.gets fun s : Machine β => Sighting.on s placed param) :=
  ⟨Run.Commutes.blind fun _ => rfl,
    Run.keeps_gets extends_enableKept _⟩

theorem admits_startupStep [RegisterBus β] {A : UInt16 → UInt8 → Prop} :
    Admits (StartupStep : Steps β) A :=
  ⟨fun event => ⟨bookkeeping_uncounting.note event, Run.keeps_modify fun _ => rfl⟩,
    fun _ => startupStep_onBus _, fun _ _ _ => startupStep_onBus _⟩

theorem Linkage.uncounting_start [RegisterBus β] {l : Linkage β} (hl : l.Within Uncounting) :
    Uncounting Unit l.start :=
  Composed.within (P := Uncounting) bookkeeping_uncounting.carries (fun _ _ hm => hm) hl
    (composed_start bookkeeping_uncounting)

namespace Firmware

variable [DeviceStore κ σ] (fw : Firmware (XdataBus κ σ)) {s s' : Machine (XdataBus κ σ)}

theorem powerOn_prepared (hchecked : fw.config.Checked) (n : Nat)
    (hfree : ∀ addr, fw.config.workRam.Contains addr → s.bus.claim? addr = none) :
    (fw.linkage n).powerOn s = (fw.linkage n).start (s.prepared fw.config) := by
  have hconfig : (fw.linkage n).config = fw.config := by cases n <;> rfl
  rw [Linkage.powerOn_eq, hconfig, Run.bind_of_done (FirmwareConfig.prepare_apply hchecked hfree)]

/-- Power-on ends in ways that look the same but for the number of bank switches. -/
theorem powerOn_uncounted (hchecked : fw.config.Checked) (himage : fw.image.ComposedOf StartupStep)
    (n : Nat) (hfree : ∀ addr, fw.config.workRam.Contains addr → s.bus.claim? addr = none)
    (hagree : fw.config.workRam.AgreeOutside s s') :
    ((fw.linkage n).powerOn s).through Machine.uncounted =
      ((fw.linkage n).powerOn s').through Machine.uncounted := by
  have hfree' : ∀ addr, fw.config.workRam.Contains addr → s'.bus.claim? addr = none := by
    intro addr haddr
    rw [XdataBus.claim?_eq, ← hagree.ranges, ← XdataBus.claim?_eq]
    exact hfree addr haddr
  have hl : (fw.linkage n).Within Uncounting :=
    bookkeeping_uncounting.linkage (fun _ _ hm => hm.1) admits_startupStep himage n
  rw [fw.powerOn_prepared hchecked n hfree, fw.powerOn_prepared hchecked n hfree']
  exact Linkage.uncounting_start hl _ _ hagree.prepared

omit [DeviceStore κ σ] in
theorem closed_prepared (config : FirmwareConfig) (s : Machine (XdataBus κ σ)) :
    (s.prepared config).Closed := by
  change InterruptController.initial.globallyEnabled = false
  decide

theorem start_alarmed {P : Steps (XdataBus κ σ)} (hP : ∀ α m, P α m → m.Keeps EnableKept)
    (himage : fw.image.ComposedOf P) (n : Nat) :
    (fw.linkage n).start (s.prepared fw.config) = (fw.alarmed n).start (s.prepared fw.config) := by
  have hslots := follows_alarmed hP himage n (Linkage.composed_dispatchAll Linkage.startup)
  exact (Linkage.start_follows (alarmed_follows hP himage n).config hslots).eq
    (closed_prepared fw.config s)

/-- Nothing is taken at power-on. -/
theorem powerOn_alarmed (hchecked : fw.config.Checked) {P : Steps (XdataBus κ σ)}
    (hP : ∀ α m, P α m → m.Keeps EnableKept) (himage : fw.image.ComposedOf P) (n : Nat)
    (hfree : ∀ addr, fw.config.workRam.Contains addr → s.bus.claim? addr = none) :
    (fw.linkage n).powerOn s = (fw.alarmed n).powerOn s := by
  have hconfig : (fw.alarmed n).config = fw.config := by cases n <;> rfl
  rw [fw.powerOn_prepared hchecked n hfree, fw.start_alarmed hP himage n, Linkage.powerOn_eq,
    hconfig, Run.bind_of_done (FirmwareConfig.prepare_apply hchecked hfree)]

/-- What is raised at power-on is pending when it ends, if no line is taken by a routine. -/
theorem latched_of_powerOn (hchecked : fw.config.Checked) {record : EdgeRecord (XdataBus κ σ)}
    (himage : fw.image.ComposedOf (Keeping (Latched record IrqLine.all))) (n : Nat)
    (hfree : ∀ addr, fw.config.workRam.Contains addr → s.bus.claim? addr = none)
    {t : Machine (XdataBus κ σ)} (hrun : (fw.linkage n).powerOn s = .done () t) :
    t.irq.delivered = ⟨0, 0⟩ ∧
      ∀ line, record.raised s.bus line < record.raised t.bus line →
        t.irq.pending.get line = true := by
  rw [fw.powerOn_prepared hchecked n hfree, fw.start_alarmed
    (fun _ _ hm s a t hrun => (hm s a t hrun).enable) himage n] at hrun
  obtain ⟨r, u, hbus, hirq, hstartup, htbus, htirq⟩ := Linkage.start_eq_done hrun
  have hru := latched_alarmed himage n (Linkage.composed_dispatchAll Linkage.startup) r () u
    hstartup
  have hcleared : record.raised r.bus = record.raised s.bus := by
    rw [hbus, Machine.bus_prepared]
    exact record.raised_fill (FirmwareConfig.fill_workRam hchecked hfree)
  rw [htirq]
  refine ⟨?_, fun line hline => hru.raised line ?_⟩
  · rw [hru.delivered, hirq]
    rfl
  · rwa [hcleared, ← htbus]

variable {fw} {image : CodeImage (Routine (XdataBus κ σ))} {entries : List DispatchEntry}
  {config : FirmwareConfig}

end Firmware

namespace Restarted

/-- The lines that were raised, in the place of devices. -/
structure Edges where
  lines : List IrqLine

instance : DeviceStore Unit Edges where
  read _ _ edges := .ok (0, edges)
  write _ _ _ edges := .ok edges
  reset _ edges := edges

abbrev Bus : Type := XdataBus Unit Edges

def record : EdgeRecord Bus where
  raised bus line := bus.devices.lines.count line
  read {bus bus' addr value} h := by
    obtain ⟨-, hsame⟩ | ⟨key, -, hread⟩ := XdataBus.read_cases h
    · rw [hsame]
    · rw [← (Prod.mk.inj (Except.ok.inj hread)).2]
  write {bus bus' addr value} h := by
    obtain ⟨-, hsame⟩ | ⟨key, -, hwrite⟩ := XdataBus.write_cases h
    · rw [hsame]
    · rw [← Except.ok.inj hwrite]

def raise (line : IrqLine) : Run (Machine Bus) Unit := do
  Machine.onBus (Run.modify fun bus => { bus with devices := ⟨line :: bus.devices.lines⟩ })
  Machine.raiseIrq line

def hardware : Routine Bus := fun l _ => do
  raise .endpoint
  l.poll
  l.dispatch .usbInit none

def usb : Routine Bus := fun _ _ => do
  let count ← Machine.read 0x0A61
  Machine.write 0x0A61 (count + 1)

def task : Routine Bus := fun _ _ => Machine.onIrq fun irq => { irq with enable := 0xFF }

/-- Where the task stands. -/
def taskAddr : CodeAddr := .ofLogical .bank0 0x5200

/-- The image with the first routine. -/
def image (first : Routine Bus) : CodeImage (Routine Bus) :=
  ⟨[⟨"hardware", .ofLogical .bank1 0x9000, first⟩, ⟨"usb", .ofLogical .bank0 0x5100, usb⟩,
    ⟨"task", taskAddr, task⟩]⟩

def entries : List DispatchEntry :=
  [⟨.hwInit, .bank1, 0x9000, .callReturn⟩, ⟨.usbInit, .bank0, 0x5100, .tailJump⟩,
    ⟨.timerPoll, .bank0, 0x5200, .callReturn⟩]

def config : FirmwareConfig :=
  { FirmwareConfig.standard with stackBase := 0xF8, workRam := ⟨0x0A60, 4⟩ }

/-- The first routine at power-on raises the endpoint line and calls the second, for which there is
no room; the second counts in the work memory. A task that is not run opens everything. -/
def firmware (first : Routine Bus) : Firmware Bus where
  config := config
  table := ⟨entries.map DispatchTable.slotOf⟩
  image := image first

theorem link_image (first : Routine Bus) :
    Firmware.link (image first) entries config = .ok (firmware first) := rfl

/-- A machine before anything ran. -/
def clean : Machine Bus where
  bus := .ofDevices ⟨[]⟩
  window := .initial
  stack := .ofBase config.stackBase
  irq := .initial
  stats := .initial
  log := ⟨none, []⟩

/-- A machine in the middle of something: a byte of the work memory is set, an entry and a mark are
left on the stack, both lines are pending, one of them is in service, and the other bank is
mapped. -/
def dirty : Machine Bus :=
  { clean with
    bus := { clean.bus with ram := clean.bus.ram.set 0x0A61 0x77 }
    window := ⟨.bank1, 7⟩
    stack := ⟨[.savedBank .bank1], 5, 8, 8⟩
    irq := ⟨0xFF, 0x01, ⟨true, true⟩, [(.system, .low)], ⟨3, 4⟩⟩ }

theorem startupStep_raise (line : IrqLine) : StartupStep Unit (raise line) := by
  refine ⟨Run.blind_bind (uncounting_onBus _) fun _ => bookkeeping_uncounting.irq _, ?_⟩
  rintro s a t ⟨⟩
  rfl

theorem latched_raise (line : IrqLine) : (raise line).Keeps (Latched record IrqLine.all) := by
  rintro s a t ⟨⟩
  exact latched_of_raise rfl fun other hother => List.count_cons_of_ne (Ne.symm hother)

theorem composedOf_hardware {P : Steps Bus} (hraise : P Unit (raise .endpoint)) :
    hardware.ComposedOf P :=
  fun _ => .followed (.step _ hraise) (.followed .poll (.dispatch _ _))

theorem composedOf_usb {P : Steps Bus} (hP : Admits P fun _ _ => True) : usb.ComposedOf P :=
  fun _ => .sequence (.read hP _) fun _ => .write hP trivial

theorem free (addr : UInt16) : clean.bus.claim? addr = none := by
  rw [XdataBus.claim?_eq]
  rfl

theorem agreeOutside : config.workRam.AgreeOutside clean dirty where
  ram addr haddr := by
    have hne : (0x0A61 : UInt16) ≠ addr := by
      rintro rfl
      exact haddr (by decide)
    change _ = (clean.bus.ram.set 0x0A61 0x77).get addr
    rw [Paged.get_set, if_neg hne]
  devices := rfl
  ranges := rfl
  capacity := rfl
  stats := rfl

end Restarted

namespace Restarted

/-- A first routine that takes the line that it raises. -/
def greedy : Routine Bus := fun _ _ => do
  raise .endpoint
  Machine.onIrq fun irq => irq.acknowledge .endpoint

end Restarted

end BankedController
