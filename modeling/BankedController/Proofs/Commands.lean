import BankedController.Proofs.Waits

namespace BankedController

open RegisterMap

/-- The wait for the end of a command. -/
def CommandKind.statusWait : CommandKind → WaitKind
  | nvme => .nvmeQueue
  | flash => .flash
  | phy => .phySettle

/-- How the wait for the acceptance of a command ends, if the command has one. -/
def CommandKind.doorbellOutcome? (kind : CommandKind) (t : Timeouts) (u : CommandUnit) :
    Option WaitOutcome :=
  match kind with
  | nvme => some (u.accept.waitOutcome t.nvmeDoorbell false)
  | _ => none

/-- Whether a command gives up before it waits for its end. -/
def CommandKind.refused (kind : CommandKind) (t : Timeouts) (u : CommandUnit) : Bool :=
  (kind.doorbellOutcome? t u).any WaitOutcome.isTimedOut

/-- How the waits of a command end. -/
def CommandKind.waitOutcomes (kind : CommandKind) (t : Timeouts) (u : CommandUnit) :
    List WaitOutcome :=
  (kind.doorbellOutcome? t u).toList ++
    if kind.refused t u then []
    else [u.complete.waitOutcome (t.get kind.statusWait) u.failNext]

/-- Whether a wait of a command runs out. -/
def CommandKind.runsOut (kind : CommandKind) (t : Timeouts) (u : CommandUnit) : Bool :=
  (kind.waitOutcomes t u).any WaitOutcome.isTimedOut

/-- What a command does to the units and to the count of recoveries, and what it reports. -/
structure CarriedOut (t : Timeouts) (r : CommandRequest) (v : Bench) (out : CommandOutcome)
    (v' : Bench) : Prop where
  kind : out.kind = r.kind
  waits : out.waits = r.kind.waitOutcomes t (v.unit r.kind)
  states : out.states = [.idle, .issued, .polling] ++
    (if r.kind.runsOut t (v.unit r.kind) then [.timedOut] else []) ++ [.complete]
  issued : (v'.unit r.kind).issued =
    ⟨r.opcode, r.param, r.tag, r.address⟩ :: (v.unit r.kind).issued
  others : ∀ other ≠ r.kind, v'.unit other = v.unit other
  triggerReads : (v'.unit r.kind).triggerReads.toNat =
    if r.kind = .nvme then (v.unit r.kind).accept.readsWithin t.nvmeDoorbell else 0
  statusReads : (v'.unit r.kind).statusReads.toNat =
    if r.kind.refused t (v.unit r.kind) then 0
    else (v.unit r.kind).complete.readsWithin (t.get r.kind.statusWait)
  recoveries : v'.ram recoveryCount =
    v.ram recoveryCount + if r.kind.runsOut t (v.unit r.kind) then 1 else 0
  aborts : (v'.unit r.kind).aborts =
    (v.unit r.kind).aborts + if r.kind.runsOut t (v.unit r.kind) then 1 else 0
  enables : (v'.unit r.kind).enables =
    (v.unit r.kind).enables + if r.kind.runsOut t (v.unit r.kind) then 1 else 0
  failNext : (v'.unit r.kind).failNext =
    ((v.unit r.kind).failNext && r.kind.runsOut t (v.unit r.kind))
  clean : (v'.unit r.kind).Clean

namespace CommandUnit

/-- The unit after the waits of a command. -/
def afterWaits (kind : CommandKind) (t : Timeouts) (u : CommandUnit) : CommandUnit :=
  match kind with
  | .nvme =>
    if kind.refused t u then u.waited .nvmeDoorbell t.nvmeDoorbell
    else (u.waited .nvmeDoorbell t.nvmeDoorbell).waited .nvmeQueue t.nvmeQueue
  | .flash => u.waited .flash t.flash
  | .phy => u.waited .phySettle t.phySettle

section Facts

variable (kind : CommandKind) (t : Timeouts) (u : CommandUnit)

theorem isTimedOut_waitOutcome (latency : Latency) (threshold : UInt32) (fails : Bool) :
    (latency.waitOutcome threshold fails).isTimedOut = (latency.within threshold).isNone := by
  unfold Latency.waitOutcome
  cases latency.within threshold with
  | none => rfl
  | some n => cases fails <;> rfl

theorem refused_nvme :
    CommandKind.nvme.refused t u = (u.accept.within t.nvmeDoorbell).isNone :=
  isTimedOut_waitOutcome ..

/-- A wait runs out if the command is refused or does not end. -/
theorem runsOut_eq : kind.runsOut t u =
    (kind.refused t u || (u.complete.within (t.get kind.statusWait)).isNone) := by
  have hstatus := isTimedOut_waitOutcome u.complete (t.get kind.statusWait) u.failNext
  have hdoorbell : (kind.doorbellOutcome? t u).toList.any WaitOutcome.isTimedOut =
      kind.refused t u := by
    unfold CommandKind.refused
    cases kind.doorbellOutcome? t u with
    | none => rfl
    | some outcome => exact Bool.or_false _
  unfold CommandKind.runsOut CommandKind.waitOutcomes
  rw [List.any_append, hdoorbell]
  cases kind.refused t u with
  | true => rfl
  | false =>
    rw [← hstatus]
    exact Bool.or_false _

/-- A command that is not refused goes through its status wait. -/
theorem afterWaits_of_not_refused (h : kind.refused t u = false) :
    ∃ w, Unchanged u w ∧ w.status = u.status ∧ w.statusReads = u.statusReads ∧
      w.failNext = u.failNext ∧
      w.triggerReads.toNat =
        (if kind = .nvme then u.accept.readsWithin t.nvmeDoorbell else u.triggerReads.toNat) ∧
      u.afterWaits kind t = w.waited kind.statusWait (t.get kind.statusWait) := by
  have hwhole : Unchanged u u := ⟨rfl, rfl, rfl, rfl, rfl, rfl⟩
  cases kind with
  | nvme =>
    obtain ⟨htrigger, hreads, hstatus, hfail⟩ := waited_doorbell (u := u) t.nvmeDoorbell
    refine ⟨u.waited .nvmeDoorbell t.nvmeDoorbell, unchanged_waited _ _, hstatus, hreads, hfail,
      htrigger, ?_⟩
    unfold afterWaits
    dsimp only
    rw [h]
    rfl
  | flash => exact ⟨u, hwhole, rfl, rfl, rfl, rfl, rfl⟩
  | phy => exact ⟨u, hwhole, rfl, rfl, rfl, rfl, rfl⟩

/-- A command that is refused has been through its doorbell wait only. -/
theorem afterWaits_of_refused (h : kind.refused t u = true) :
    kind = .nvme ∧ u.afterWaits kind t = u.waited .nvmeDoorbell t.nvmeDoorbell := by
  cases kind with
  | nvme =>
    refine ⟨rfl, ?_⟩
    unfold afterWaits
    dsimp only
    rw [h]
    rfl
  | flash => cases h
  | phy => cases h

theorem statusWait_ne_doorbell : kind.statusWait ≠ .nvmeDoorbell := by
  cases kind <;> decide

theorem unchanged_afterWaits : Unchanged u (u.afterWaits kind t) := by
  cases h : kind.refused t u with
  | true =>
    rw [(afterWaits_of_refused kind t u h).2]
    exact unchanged_waited _ _
  | false =>
    obtain ⟨w, hw, -, -, -, -, hafter⟩ := afterWaits_of_not_refused kind t u h
    rw [hafter]
    exact hw.trans (unchanged_waited _ _)

theorem triggerReads_afterWaits : (u.afterWaits kind t).triggerReads.toNat =
    if kind = .nvme then u.accept.readsWithin t.nvmeDoorbell else u.triggerReads.toNat := by
  cases h : kind.refused t u with
  | true =>
    obtain ⟨hkind, hafter⟩ := afterWaits_of_refused kind t u h
    rw [hafter, if_pos hkind]
    exact (waited_doorbell _).1
  | false =>
    obtain ⟨w, -, -, -, -, htrigger, hafter⟩ := afterWaits_of_not_refused kind t u h
    rw [hafter, (waited_status (statusWait_ne_doorbell kind) _).1, htrigger]

theorem statusReads_afterWaits : (u.afterWaits kind t).statusReads.toNat =
    if kind.refused t u then u.statusReads.toNat
    else u.complete.readsWithin (t.get kind.statusWait) := by
  cases h : kind.refused t u with
  | true =>
    rw [(afterWaits_of_refused kind t u h).2]
    exact congrArg UInt32.toNat (waited_doorbell _).2.1
  | false =>
    obtain ⟨w, hw, -, -, -, -, hafter⟩ := afterWaits_of_not_refused kind t u h
    rw [hafter, (waited_status (statusWait_ne_doorbell kind) _).2.1, hw.complete]
    rfl

/-- A failure that was asked for stays asked for if the command runs out. -/
theorem failNext_afterWaits :
    (u.afterWaits kind t).failNext = (u.failNext && kind.runsOut t u) := by
  rw [runsOut_eq]
  cases h : kind.refused t u with
  | true =>
    rw [(afterWaits_of_refused kind t u h).2, Bool.true_or, Bool.and_true]
    exact (waited_doorbell _).2.2.2
  | false =>
    obtain ⟨w, hw, -, -, hfail, -, hafter⟩ := afterWaits_of_not_refused kind t u h
    rw [hafter, (waited_status (statusWait_ne_doorbell kind) _).2.2, hfail, hw.complete,
      Bool.false_or]

/-- A command that runs out has not shown an error. -/
theorem status_afterWaits (h : kind.runsOut t u = true) :
    (u.afterWaits kind t).status = u.status := by
  rw [runsOut_eq] at h
  cases hrefused : kind.refused t u with
  | true =>
    rw [(afterWaits_of_refused kind t u hrefused).2]
    exact (waited_doorbell _).2.2.1
  | false =>
    rw [hrefused, Bool.false_or] at h
    obtain ⟨w, hw, hstatus, -, -, -, hafter⟩ := afterWaits_of_not_refused kind t u hrefused
    have hnone : (w.latency kind.statusWait).within (t.get kind.statusWait) = none := by
      have hlatency : w.latency kind.statusWait = w.complete := by cases kind <;> rfl
      rw [hlatency, hw.complete]
      exact Option.isNone_iff_eq_none.1 h
    rw [hafter, status_waited_of_none hnone, hstatus]

end Facts

/-- The unit after a command that was sent to it. -/
def afterCommand (kind : CommandKind) (t : Timeouts) (u : CommandUnit) : CommandUnit :=
  if kind.runsOut t u then (u.afterWaits kind t).rearmed else (u.afterWaits kind t).settled

/-- The end of a command moves neither the commands issued, nor the reads, nor the failure. -/
theorem kept_afterCommand (kind : CommandKind) (t : Timeouts) (u : CommandUnit) :
    (u.afterCommand kind t).issued = u.issued ∧
    (u.afterCommand kind t).triggerReads = (u.afterWaits kind t).triggerReads ∧
    (u.afterCommand kind t).statusReads = (u.afterWaits kind t).statusReads ∧
    (u.afterCommand kind t).failNext = (u.afterWaits kind t).failNext := by
  have hissued := (unchanged_afterWaits kind t u).issued
  unfold afterCommand
  split
  · exact ⟨hissued, rfl, rfl, rfl⟩
  · exact ⟨hissued, rfl, rfl, rfl⟩

/-- A unit is aborted once, and enabled once, exactly if its command ran out. -/
theorem rearmed_afterCommand (kind : CommandKind) (t : Timeouts) (u : CommandUnit) :
    (u.afterCommand kind t).aborts = u.aborts + (if kind.runsOut t u then 1 else 0) ∧
      (u.afterCommand kind t).enables = u.enables + if kind.runsOut t u then 1 else 0 := by
  have hunchanged := unchanged_afterWaits kind t u
  unfold afterCommand
  split
  · exact ⟨congrArg (· + 1) hunchanged.aborts, congrArg (· + 1) hunchanged.enables⟩
  · rw [UInt32.add_zero, UInt32.add_zero]
    exact ⟨hunchanged.aborts, hunchanged.enables⟩

/-- Every way out of a command leaves the bits clear that the next command sets. -/
theorem clean_afterCommand {kind : CommandKind} {t : Timeouts} {u : CommandUnit}
    (herror : u.status &&& errorBit = 0) :
    (u.afterCommand kind t).Clean := by
  unfold afterCommand
  split
  next h =>
    apply clean_rearmed
    rw [status_afterWaits kind t u h, herror]
  next => exact clean_settled _

end CommandUnit

namespace CommandBus

variable {β : Type} [RegisterBus β] {b : CommandBus β} {v v' : Bench} {l : Linkage β}
  {kind : CommandKind}

/-- A view shows a unit at its kind, the other units as they were, and so many recoveries. -/
structure Shows (v : Bench) (kind : CommandKind) (u : CommandUnit) (recoveries : UInt8)
    (v' : Bench) : Prop where
  unit : v'.unit = (v.setUnit kind u).unit
  recoveries : v'.ram recoveryCount = recoveries

namespace Shows

variable {u u' : CommandUnit} {recoveries recoveries' : UInt8} {v'' : Bench}

theorem unit_eq (h : Shows v kind u recoveries v') : v'.unit kind = u := by
  rw [h.unit, Bench.unit_setUnit]

theorem unit_of_ne (h : Shows v kind u recoveries v') {other : CommandKind}
    (hother : other ≠ kind) : v'.unit other = v.unit other := by
  rw [h.unit, Bench.unit_setUnit_of_ne _ hother]

theorem trans (h : Shows v kind u recoveries v') (h' : Shows v' kind u' recoveries' v'') :
    Shows v kind u' recoveries' v'' := by
  refine ⟨funext fun other => ?_, h'.recoveries⟩
  by_cases hother : other = kind
  · subst hother
    rw [h'.unit_eq, Bench.unit_setUnit]
  · rw [h'.unit_of_ne hother, h.unit_of_ne hother, Bench.unit_setUnit_of_ne _ hother]

end Shows

theorem leads_write_field {u : CommandUnit} (hbase : u.base = kind.block) (off : UInt16)
    (value : UInt8) (hoff : off.toNat < 8) {regs : Vector UInt8 16} :
    b.Leads (Machine.write (kind.block + off) value) (v.setUnit kind { u with regs := regs }) ()
      (v.setUnit kind { u with regs := CommandUnit.filling regs off value hoff }) := by
  have hlt : off < blockSize := by
    rw [UInt16.lt_iff_toNat_lt]
    exact Nat.lt_trans hoff (by decide)
  have hwrite := leads_write_unit (b := b) (v := v.setUnit kind { u with regs := regs }) hlt
    (by
      rw [Bench.unit_setUnit]
      exact CommandUnit.write_field (u := { u with regs := regs }) hbase value hoff)
  rwa [Bench.setUnit_setUnit] at hwrite

/-- The fields of a command are written and the command is started. -/
theorem leads_send (r : CommandRequest) (hbase : (v.unit r.kind).base = r.kind.block) :
    b.Leads r.send v () (v.setUnit r.kind ((v.unit r.kind).sent r)) := by
  have hstart (u : CommandUnit) (hu : u.base = r.kind.block) :
      b.Leads (Machine.write (r.kind.block + triggerOffset) startBit) (v.setUnit r.kind u) ()
        (v.setUnit r.kind u.start) := by
    have hwrite := leads_write_unit (b := b) (v := v.setUnit r.kind u)
      (show triggerOffset < blockSize by decide)
      (by rw [Bench.unit_setUnit]; exact CommandUnit.write_trigger hu startBit)
    rwa [Bench.setUnit_setUnit] at hwrite
  have haddress (i : UInt16) :
      r.kind.block + addressOffset + i = r.kind.block + (addressOffset + i) := UInt16.add_assoc ..
  have hself : v.setUnit r.kind (v.unit r.kind) = v := Bench.setUnit_self v r.kind
  suffices h : b.Leads r.send (v.setUnit r.kind (v.unit r.kind)) ()
      (v.setUnit r.kind ((v.unit r.kind).sent r)) by rwa [hself] at h
  simp only [CommandRequest.send, Machine.write32, RegisterBus.write32, Machine.onBus_bind,
    haddress, bind_assoc]
  refine leads_bind (leads_write_field hbase opcodeOffset r.opcode (by decide)) ?_
  refine leads_bind (leads_write_field hbase paramOffset r.param (by decide)) ?_
  refine leads_bind (leads_write_field hbase tagOffset r.tag (by decide)) ?_
  refine leads_bind (leads_write_field hbase addressOffset _ (by decide)) ?_
  refine leads_bind (leads_write_field hbase (addressOffset + 1) _ (by decide)) ?_
  refine leads_bind (leads_write_field hbase (addressOffset + 2) _ (by decide)) ?_
  refine leads_bind (leads_write_field hbase (addressOffset + 3) _ (by decide)) ?_
  exact hstart _ hbase

/-- Claiming a queue place is all in memory. -/
theorem leads_place (r : CommandRequest) :
    ∃ slot v', b.Leads r.place v slot v' ∧ v'.unit = v.unit ∧
      v'.ram recoveryCount = v.ram recoveryCount := by
  obtain ⟨kind, opcode, param, tag, address⟩ := r
  cases kind with
  | nvme =>
    have htail := leads_read_ram (b := b) (v := v) (show EngineRam queueTail by decide)
    have hslot (v : Bench) (value : UInt8) :=
      leads_write_ram (b := b) (v := v) (show EngineRam commandSlot by decide) value
    have hnext (v : Bench) (value : UInt8) :=
      leads_write_ram (b := b) (v := v) (show EngineRam queueTail by decide) value
    refine ⟨_, _, leads_bind (leads_bind htail (leads_bind (hslot _ _)
      (leads_bind (hnext _ _) (leads_pure _)))) (leads_pure _), rfl, ?_⟩
    rw [Bench.ram_store_of_ne _ (by decide), Bench.ram_store_of_ne _ (by decide)]
  | flash => exact ⟨none, v, leads_pure none, rfl, rfl⟩
  | phy => exact ⟨none, v, leads_pure none, rfl, rfl⟩

theorem leads_issue (r : CommandRequest) (hbase : (v.unit r.kind).base = r.kind.block) :
    ∃ slot v', b.Leads r.issue v slot v' ∧
      Shows v r.kind ((v.unit r.kind).sent r) (v.ram recoveryCount) v' := by
  obtain ⟨slot, placed, hplace, hplaced, hcount⟩ := leads_place (b := b) (v := v) r
  have hsend := leads_send (b := b) (v := placed) r (by rw [hplaced]; exact hbase)
  rw [hplaced] at hsend
  refine ⟨slot, _, leads_bind hplace (leads_bind hsend (leads_pure slot)), ?_, ?_⟩
  · unfold Bench.setUnit
    rw [hplaced]
  · rw [Bench.ram_setUnit, hcount]

theorem leads_toggle (toggle : Toggle)
    (h : match toggle with
      | .pulse register _ | .cycle register _ => register ∈ recoveryControls) :
    b.Leads toggle.run v () v := by
  cases toggle with
  | pulse register mask => exact leads_bind (leads_setBits h mask) (leads_clearBits h mask)
  | cycle register mask => exact leads_bind (leads_clearBits h mask) (leads_setBits h mask)

theorem leads_toggles (kind : CommandKind) : b.Leads (Toggle.runAll kind.toggles) v () v := by
  cases kind with
  | nvme =>
    refine leads_bind (leads_toggle _ (by decide)) ?_
    refine leads_bind (leads_toggle _ (by decide)) ?_
    exact leads_bind (leads_toggle _ (by decide)) (leads_pure _)
  | flash => exact leads_bind (leads_toggle _ (by decide)) (leads_pure _)
  | phy =>
    refine leads_bind (leads_toggle _ (by decide)) ?_
    exact leads_bind (leads_toggle _ (by decide)) (leads_pure _)

/-- Recovery aborts the unit, enables it again and counts itself. -/
theorem leads_recover (hbase : (v.unit kind).base = kind.block) :
    ∃ v', b.Leads kind.recover v () v' ∧
      Shows v kind (v.unit kind).rearmed (v.ram recoveryCount + 1) v' := by
  have habort := leads_write_unit (b := b) (v := v) (show controlOffset < blockSize by decide)
    (CommandUnit.write_control hbase abortBit)
  have henable := leads_write_unit (b := b) (v := v.setUnit kind ((v.unit kind).control abortBit))
    (show controlOffset < blockSize by decide)
    (by
      rw [Bench.unit_setUnit]
      exact CommandUnit.write_control (u := (v.unit kind).control abortBit) hbase enableBit)
  rw [Bench.setUnit_setUnit] at henable
  have hram : EngineRam recoveryCount := by decide
  refine ⟨_, leads_bind (leads_toggles kind) (leads_bind habort (leads_bind henable
    (leads_bind (leads_read_ram hram) (leads_bind (leads_write_ram hram _) (leads_note _))))), ?_, ?_⟩
  · rw [Bench.unit_store]
    rfl
  · rw [Bench.ram_store, Bench.ram_setUnit]

/-- The unit that the epilogue leaves. -/
def epilogue (entry : CompletionEntry) (u : CommandUnit) : CommandUnit :=
  match entry with
  | .normal => u.settled
  | .afterTimeout => u

theorem leads_settle (hbase : (v.unit kind).base = kind.block) (entry : CompletionEntry) :
    b.Leads (kind.settle entry) v () (v.setUnit kind (epilogue entry (v.unit kind))) := by
  cases entry with
  | afterTimeout =>
    have hself : v.setUnit kind (epilogue .afterTimeout (v.unit kind)) = v :=
      Bench.setUnit_self v kind
    rw [hself]
    exact leads_pure ()
  | normal =>
    have hstatus := leads_write_unit (b := b) (v := v) (show statusOffset < blockSize by decide)
      (CommandUnit.write_status hbase (busyBit ||| errorBit))
    let u := (v.unit kind).setStatus ((v.unit kind).status &&& ~~~(busyBit ||| errorBit))
    have htrigger := leads_write_unit (b := b) (v := v.setUnit kind u)
      (show triggerOffset < blockSize by decide)
      (by rw [Bench.unit_setUnit]; exact CommandUnit.write_trigger (u := u) hbase 0)
    rw [Bench.setUnit_setUnit, if_pos UInt8.zero_and] at htrigger
    exact leads_bind hstatus htrigger

theorem leads_complete (hbase : (v.unit kind).base = kind.block) (entry : CompletionEntry) :
    ∃ v', b.Leads (kind.complete entry) v () v' ∧
      Shows v kind (epilogue entry (v.unit kind)) (v.ram recoveryCount) v' := by
  have hstate (v : Bench) :=
    leads_read_ram (b := b) (v := v) (show EngineRam commandState by decide)
  have hcount (v : Bench) (value : UInt8) :=
    leads_write_ram (b := b) (v := v) (show EngineRam commandState by decide) value
  have hslot (v : Bench) (value : UInt8) :=
    leads_write_ram (b := b) (v := v) (show EngineRam commandSlot by decide) value
  refine ⟨_, leads_bind (leads_settle hbase entry) (leads_bind (hstate _) (leads_bind (hcount _ _)
    (leads_bind (hslot _ _) (leads_note _)))), rfl, ?_⟩
  rw [Bench.ram_store_of_ne _ (by decide), Bench.ram_store_of_ne _ (by decide), Bench.ram_setUnit]

/-- What the waits of a command need: preemption points that do nothing, patience for any
threshold, and thresholds that are not zero. -/
structure CanWait (l : Linkage β) : Prop where
  quiet : l.Quiet
  patience : 2 ^ 32 ≤ l.patience
  thresholds : ∀ wait, l.config.timeouts.get wait ≠ 0

variable {wait : WaitKind} {rest : List WaitKind}

theorem shows_awaited (threshold : UInt32) :
    Shows v kind ((v.unit kind).waited wait threshold) (v.ram recoveryCount)
      (awaited v kind wait threshold) := by
  refine ⟨rfl, ?_⟩
  unfold awaited
  cases wait <;>
    exact Bench.ram_store32_of_ne _ (by decide) (by decide) (by decide) (by decide) _

/-- A wait that ends ready is followed by the next. -/
theorem leads_awaitAll_ready (hl : CanWait l) (hbase : (v.unit kind).base = kind.block)
    (hpending : (v.unit kind).Pending wait) {n : UInt32}
    (hready : ((v.unit kind).latency wait).waitOutcome (l.config.timeouts.get wait)
      ((v.unit kind).fails wait) = .ready n) {outcomes : List WaitOutcome} {entry : CompletionEntry}
    (hrest : b.Leads (l.awaitAll kind rest) (awaited v kind wait (l.config.timeouts.get wait))
      (outcomes, entry) v') :
    b.Leads (l.awaitAll kind (wait :: rest)) v (.ready n :: outcomes, entry) v' := by
  have hawait := leads_await (b := b) hl.quiet hl.patience hbase hpending (hl.thresholds wait)
  rw [hready] at hawait
  exact leads_bind hawait (leads_bind hrest (leads_pure _))

theorem leads_awaitAll_error (hl : CanWait l) (hbase : (v.unit kind).base = kind.block)
    (hpending : (v.unit kind).Pending wait) {n : UInt32}
    (herror : ((v.unit kind).latency wait).waitOutcome (l.config.timeouts.get wait)
      ((v.unit kind).fails wait) = .error n) :
    b.Leads (l.awaitAll kind (wait :: rest)) v ([.error n], .normal)
      (awaited v kind wait (l.config.timeouts.get wait)) := by
  have hawait := leads_await (b := b) hl.quiet hl.patience hbase hpending (hl.thresholds wait)
  rw [herror] at hawait
  exact leads_bind hawait (leads_bind (leads_note _) (leads_pure _))

/-- A wait that runs out is recovered from, and no other is begun. -/
theorem leads_awaitAll_timedOut (hl : CanWait l) (hbase : (v.unit kind).base = kind.block)
    (hpending : (v.unit kind).Pending wait) {n : UInt32}
    (htimedOut : ((v.unit kind).latency wait).waitOutcome (l.config.timeouts.get wait)
      ((v.unit kind).fails wait) = .timedOut n) :
    ∃ v', b.Leads (l.awaitAll kind (wait :: rest)) v ([.timedOut n], .afterTimeout) v' ∧
      Shows v kind ((v.unit kind).waited wait (l.config.timeouts.get wait)).rearmed
        (v.ram recoveryCount + 1) v' := by
  have hawait := leads_await (b := b) hl.quiet hl.patience hbase hpending (hl.thresholds wait)
  rw [htimedOut] at hawait
  have hwaited : Shows v kind ((v.unit kind).waited wait (l.config.timeouts.get wait))
      (v.ram recoveryCount) (awaited v kind wait (l.config.timeouts.get wait)) := shows_awaited _
  have hbase' :
      ((awaited v kind wait (l.config.timeouts.get wait)).unit kind).base = kind.block := by
    rw [hwaited.unit_eq]
    exact (CommandUnit.unchanged_waited wait _).base.trans hbase
  obtain ⟨v', hrecover, hrecovered⟩ := leads_recover (b := b) hbase'
  rw [hwaited.unit_eq, hwaited.recoveries] at hrecovered
  exact ⟨v', leads_bind hawait (leads_bind (leads_note _) (leads_bind hrecover (leads_pure _))),
    hwaited.trans hrecovered⟩

/-- How the last wait of a command ends, and what it leaves. -/
theorem leads_awaitAll_last (hl : CanWait l) (hbase : (v.unit kind).base = kind.block)
    (hpending : (v.unit kind).Pending wait) :
    let outcome := ((v.unit kind).latency wait).waitOutcome (l.config.timeouts.get wait)
      ((v.unit kind).fails wait)
    let after := (v.unit kind).waited wait (l.config.timeouts.get wait)
    ∃ v', b.Leads (l.awaitAll kind [wait]) v
        ([outcome], if outcome.isTimedOut then .afterTimeout else .normal) v' ∧
      Shows v kind (if outcome.isTimedOut then after.rearmed else after)
        (v.ram recoveryCount + if outcome.isTimedOut then 1 else 0) v' := by
  dsimp only
  cases houtcome : ((v.unit kind).latency wait).waitOutcome (l.config.timeouts.get wait)
      ((v.unit kind).fails wait) with
  | ready n =>
    refine ⟨_, leads_awaitAll_ready hl hbase hpending houtcome (leads_pure _),
      (shows_awaited _).unit, ?_⟩
    rw [(shows_awaited _).recoveries]
    exact (UInt8.add_zero _).symm
  | error n =>
    refine ⟨_, leads_awaitAll_error hl hbase hpending houtcome, (shows_awaited _).unit, ?_⟩
    rw [(shows_awaited _).recoveries]
    exact (UInt8.add_zero _).symm
  | timedOut n => exact leads_awaitAll_timedOut hl hbase hpending houtcome

/-- All phases of a command have begun, and none has been looked at. -/
def Started (u : CommandUnit) : Prop := ∀ wait, u.Pending wait

theorem started_sent {u : CommandUnit} (r : CommandRequest) (h : u.status &&& errorBit = 0) :
    Started (u.sent r) := by
  have herror : (u.sent r).status &&& errorBit = 0 := by
    rw [CommandUnit.error_sent, h]
  intro wait
  cases wait with
  | nvmeDoorbell => exact ⟨u.start_sent r, u.triggerReads_sent r⟩
  | nvmeQueue | flash | phySettle => exact ⟨u.busy_sent r, herror, u.statusReads_sent r⟩

/-- The entry into the epilogue. -/
def entryOf (runsOut : Bool) : CompletionEntry :=
  if runsOut then .afterTimeout else .normal

/-- A command that is accepted goes on to the wait for its end. -/
theorem leads_waits_accepted (hl : CanWait l) (hbase : (v.unit .nvme).base = nvmeBlock)
    (hstarted : Started (v.unit .nvme)) {n : UInt32}
    (hdoorbell :
      (v.unit .nvme).accept.waitOutcome l.config.timeouts.nvmeDoorbell false = .ready n) :
    let outcome := (v.unit .nvme).complete.waitOutcome l.config.timeouts.nvmeQueue
      (v.unit .nvme).failNext
    let after := ((v.unit .nvme).waited .nvmeDoorbell l.config.timeouts.nvmeDoorbell).waited
      .nvmeQueue l.config.timeouts.nvmeQueue
    ∃ v', b.Leads (l.awaitAll .nvme [.nvmeDoorbell, .nvmeQueue]) v
        ([.ready n, outcome], entryOf outcome.isTimedOut) v' ∧
      Shows v .nvme (if outcome.isTimedOut then after.rearmed else after)
        (v.ram recoveryCount + if outcome.isTimedOut then 1 else 0) v' := by
  dsimp only
  obtain ⟨-, hreads, hstatus, hfail⟩ :=
    CommandUnit.waited_doorbell (u := v.unit .nvme) l.config.timeouts.nvmeDoorbell
  have hunchanged := CommandUnit.unchanged_waited (u := v.unit .nvme) .nvmeDoorbell
    l.config.timeouts.nvmeDoorbell
  let accepted := (v.unit .nvme).waited .nvmeDoorbell l.config.timeouts.nvmeDoorbell
  let v₁ := awaited v .nvme .nvmeDoorbell l.config.timeouts.nvmeDoorbell
  have hwaited : Shows v .nvme accepted (v.ram recoveryCount) v₁ := shows_awaited _
  have hunit : v₁.unit .nvme = accepted := hwaited.unit_eq
  have hpending : (v₁.unit .nvme).Pending .nvmeQueue := by
    obtain ⟨hbusy, herror, hzero⟩ := hstarted .nvmeQueue
    rw [hunit]
    exact ⟨hstatus ▸ hbusy, hstatus ▸ herror, hreads.trans hzero⟩
  have hbase₁ : (v₁.unit .nvme).base = CommandKind.nvme.block := by
    rw [hunit]
    exact hunchanged.base.trans hbase
  have houtcome : ((v₁.unit .nvme).latency .nvmeQueue).waitOutcome
      (l.config.timeouts.get .nvmeQueue) ((v₁.unit .nvme).fails .nvmeQueue) =
      (v.unit .nvme).complete.waitOutcome l.config.timeouts.nvmeQueue (v.unit .nvme).failNext := by
    rw [hunit]
    change accepted.complete.waitOutcome _ accepted.failNext = _
    rw [hunchanged.complete, hfail]
    rfl
  obtain ⟨v', hlast, hshows⟩ := leads_awaitAll_last (b := b) hl hbase₁ hpending
  rw [houtcome] at hlast
  rw [houtcome, hunit, hwaited.recoveries] at hshows
  exact ⟨v', leads_awaitAll_ready hl hbase (hstarted .nvmeDoorbell) hdoorbell hlast,
    hwaited.trans hshows⟩

/-- The waits of a command. -/
theorem leads_waits (hl : CanWait l) (hbase : (v.unit kind).base = kind.block)
    (hstarted : Started (v.unit kind)) :
    let t := l.config.timeouts
    let u := v.unit kind
    ∃ v', b.Leads (l.awaitAll kind kind.waits) v
        (kind.waitOutcomes t u, entryOf (kind.runsOut t u)) v' ∧
      Shows v kind
        (if kind.runsOut t u then (u.afterWaits kind t).rearmed else u.afterWaits kind t)
        (v.ram recoveryCount + if kind.runsOut t u then 1 else 0) v' := by
  dsimp only
  have hruns := CommandUnit.runsOut_eq kind l.config.timeouts (v.unit kind)
  rw [← CommandUnit.isTimedOut_waitOutcome _ _ (v.unit kind).failNext] at hruns
  cases kind with
  | flash | phy =>
    rw [hruns]
    exact leads_awaitAll_last hl hbase (hstarted _)
  | nvme =>
    have hrefused := CommandUnit.refused_nvme l.config.timeouts (v.unit .nvme)
    rw [← CommandUnit.isTimedOut_waitOutcome _ _ false] at hrefused
    cases hdoorbell : (v.unit .nvme).accept.waitOutcome l.config.timeouts.nvmeDoorbell false with
    | error n =>
      unfold Latency.waitOutcome at hdoorbell
      split at hdoorbell
      · cases hdoorbell
      · cases hdoorbell
    | timedOut n =>
      rw [hdoorbell] at hrefused
      have hout : CommandKind.nvme.runsOut l.config.timeouts (v.unit .nvme) = true := by
        rw [hruns, hrefused]
        rfl
      have houtcomes : CommandKind.nvme.waitOutcomes l.config.timeouts (v.unit .nvme) =
          [.timedOut n] := by
        unfold CommandKind.waitOutcomes CommandKind.doorbellOutcome?
        rw [hrefused, hdoorbell]
        rfl
      rw [hout, houtcomes, (CommandUnit.afterWaits_of_refused _ _ _ hrefused).2]
      exact leads_awaitAll_timedOut hl hbase (hstarted .nvmeDoorbell) hdoorbell
    | ready n =>
      rw [hdoorbell] at hrefused
      have houtcomes : CommandKind.nvme.waitOutcomes l.config.timeouts (v.unit .nvme) =
          [.ready n, (v.unit .nvme).complete.waitOutcome l.config.timeouts.nvmeQueue
            (v.unit .nvme).failNext] := by
        unfold CommandKind.waitOutcomes CommandKind.doorbellOutcome?
        rw [hrefused, hdoorbell]
        rfl
      have hafter : (v.unit .nvme).afterWaits .nvme l.config.timeouts =
          ((v.unit .nvme).waited .nvmeDoorbell l.config.timeouts.nvmeDoorbell).waited .nvmeQueue
            l.config.timeouts.nvmeQueue := by
        unfold CommandUnit.afterWaits
        dsimp only
        rw [hrefused]
        rfl
      rw [hrefused] at hruns
      rw [houtcomes, hafter, hruns]
      exact leads_waits_accepted hl hbase hstarted hdoorbell

section Sent

variable (t : Timeouts) (u : CommandUnit) (r : CommandRequest)

theorem doorbellOutcome?_sent : kind.doorbellOutcome? t (u.sent r) = kind.doorbellOutcome? t u := by
  unfold CommandKind.doorbellOutcome?
  rw [CommandUnit.accept_sent]

theorem refused_sent : kind.refused t (u.sent r) = kind.refused t u := by
  unfold CommandKind.refused
  rw [doorbellOutcome?_sent]

/-- How a command goes is settled before it is sent. -/
theorem waitOutcomes_sent : kind.waitOutcomes t (u.sent r) = kind.waitOutcomes t u := by
  unfold CommandKind.waitOutcomes
  rw [doorbellOutcome?_sent, refused_sent, CommandUnit.complete_sent, CommandUnit.failNext_sent]

theorem runsOut_sent : kind.runsOut t (u.sent r) = kind.runsOut t u := by
  unfold CommandKind.runsOut
  rw [waitOutcomes_sent]

end Sent

theorem epilogue_afterWaits (t : Timeouts) (u : CommandUnit) :
    epilogue (entryOf (kind.runsOut t u))
      (if kind.runsOut t u then (u.afterWaits kind t).rearmed else u.afterWaits kind t) =
        u.afterCommand kind t := by
  unfold CommandUnit.afterCommand entryOf
  cases kind.runsOut t u <;> rfl

/-- What the last view of a command shows is that it was carried out. -/
theorem carriedOut_of_shows {t : Timeouts} {r : CommandRequest} {slot : Option UInt8}
    (herror : (v.unit r.kind).status &&& errorBit = 0)
    (h : Shows v r.kind (((v.unit r.kind).sent r).afterCommand r.kind t)
      (v.ram recoveryCount + if r.kind.runsOut t (v.unit r.kind) then 1 else 0) v') :
    CarriedOut t r v
      ⟨r.kind, slot,
        [.idle, .issued, .polling] ++
          (match entryOf (r.kind.runsOut t (v.unit r.kind)) with
          | .normal => []
          | .afterTimeout => [CommandState.timedOut]) ++ [.complete],
        r.kind.waitOutcomes t (v.unit r.kind)⟩ v' := by
  let sent := (v.unit r.kind).sent r
  have hruns : r.kind.runsOut t sent = r.kind.runsOut t (v.unit r.kind) := runsOut_sent t _ r
  have herror' : sent.status &&& errorBit = 0 := by
    rw [CommandUnit.error_sent, herror]
  obtain ⟨hissued, htrigger, hstatus, hfail⟩ := CommandUnit.kept_afterCommand r.kind t sent
  obtain ⟨haborts, henables⟩ := CommandUnit.rearmed_afterCommand r.kind t sent
  constructor
  · rfl
  · rfl
  · unfold entryOf
    cases r.kind.runsOut t (v.unit r.kind) <;> rfl
  · rw [h.unit_eq, hissued, CommandUnit.issued_sent]
  · exact fun other hother => h.unit_of_ne hother
  · rw [h.unit_eq, htrigger, CommandUnit.triggerReads_afterWaits, CommandUnit.accept_sent,
      CommandUnit.triggerReads_sent]
    rfl
  · rw [h.unit_eq, hstatus, CommandUnit.statusReads_afterWaits, refused_sent,
      CommandUnit.complete_sent, CommandUnit.statusReads_sent]
    rfl
  · exact h.recoveries
  · rw [h.unit_eq, haborts, hruns, CommandUnit.aborts_sent]
  · rw [h.unit_eq, henables, hruns, CommandUnit.enables_sent]
  · rw [h.unit_eq, hfail, CommandUnit.failNext_afterWaits, hruns, CommandUnit.failNext_sent]
  · rw [h.unit_eq]
    exact CommandUnit.clean_afterCommand herror'

/-- A command on a unit that shows no error is carried out. -/
theorem leads_execute (hl : CanWait l) (r : CommandRequest)
    (hbase : (v.unit r.kind).base = r.kind.block)
    (herror : (v.unit r.kind).status &&& errorBit = 0) :
    ∃ out v', b.Leads (l.execute r) v out v' ∧ CarriedOut l.config.timeouts r v out v' := by
  let t := l.config.timeouts
  let sent := (v.unit r.kind).sent r
  obtain ⟨slot, issued, hissue, hsent⟩ := leads_issue (b := b) r hbase
  obtain ⟨waited, hwaits, hwaited⟩ := leads_waits (b := b) (v := issued) hl
    (by rw [hsent.unit_eq, CommandUnit.base_sent, hbase])
    (by rw [hsent.unit_eq]; exact started_sent r herror)
  rw [hsent.unit_eq] at hwaits hwaited
  have hbase' : (waited.unit r.kind).base = r.kind.block := by
    have hafter : (sent.afterWaits r.kind t).base = r.kind.block :=
      (CommandUnit.unchanged_afterWaits r.kind t sent).base.trans
        ((CommandUnit.base_sent _ r).trans hbase)
    rw [hwaited.unit_eq]
    split
    · exact hafter
    · exact hafter
  obtain ⟨v', hcomplete, hended⟩ :=
    leads_complete (b := b) hbase' (entryOf (r.kind.runsOut t sent))
  rw [hwaited.unit_eq, epilogue_afterWaits, hwaited.recoveries, hsent.recoveries, runsOut_sent]
    at hended
  rw [waitOutcomes_sent, runsOut_sent] at hwaits
  rw [runsOut_sent] at hcomplete
  exact ⟨_, v', leads_bind hissue (leads_bind (leads_note _) (leads_bind hwaits
    (leads_bind hcomplete (leads_pure _)))), carriedOut_of_shows herror
      ((hsent.trans hwaited).trans hended)⟩

end CommandBus

end BankedController
