import BankedController.Command.Kind
import BankedController.Command.Report
import BankedController.Device.CommandUnit
import BankedController.Proofs.Bytes

namespace BankedController

open RegisterMap

namespace CommandUnit

variable {u : CommandUnit} {kind : CommandKind}

theorem offset_add (hbase : u.base = kind.block) (off : UInt16) :
    u.offset (kind.block + off) = off.toNat := by
  rw [offset, hbase, UInt16.add_comm, UInt16.add_sub_cancel]

theorem field_lt {off : UInt16} (h : off.toNat < 8) : off.toNat < 16 := Nat.lt_trans h (by decide)

/-- The registers with a byte in one that the engine fills in before the start. -/
def filling (regs : Vector UInt8 16) (off : UInt16) (value : UInt8) (h : off.toNat < 8) :
    Vector UInt8 16 :=
  regs.set off.toNat value (field_lt h)

theorem write_field (hbase : u.base = kind.block) {off : UInt16} (value : UInt8)
    (hoff : off.toNat < 8) :
    u.write (kind.block + off) value =
      .ok { u with regs := filling u.regs off value hoff } := by
  have htrigger : off.toNat ≠ triggerOffset.toNat := by
    simp [triggerOffset]
    omega
  have hstatus : off.toNat ≠ statusOffset.toNat := by
    simp [statusOffset]
    omega
  have hcontrol : off.toNat ≠ controlOffset.toNat := by
    simp [controlOffset]
    omega
  simp only [write, offset_add hbase, dif_pos (field_lt hoff), if_neg htrigger, if_neg hstatus,
    if_neg hcontrol]
  rfl

theorem write_trigger (hbase : u.base = kind.block) (value : UInt8) :
    u.write (kind.block + triggerOffset) value =
      .ok (if value &&& startBit = 0 then u.setTrigger value else u.start) := by
  have hlt : triggerOffset.toNat < 16 := by decide
  simp only [write, offset_add hbase, dif_pos hlt, if_true]

theorem write_status (hbase : u.base = kind.block) (value : UInt8) :
    u.write (kind.block + statusOffset) value = .ok (u.setStatus (u.status &&& ~~~value)) := by
  have hlt : statusOffset.toNat < 16 := by decide
  have htrigger : statusOffset.toNat ≠ triggerOffset.toNat := by decide
  simp only [write, offset_add hbase, dif_pos hlt, if_neg htrigger, if_true]

theorem write_control (hbase : u.base = kind.block) (value : UInt8) :
    u.write (kind.block + controlOffset) value = .ok (u.control value) := by
  have hlt : controlOffset.toNat < 16 := by decide
  have htrigger : controlOffset.toNat ≠ triggerOffset.toNat := by decide
  have hstatus : controlOffset.toNat ≠ statusOffset.toNat := by decide
  simp only [write, offset_add hbase, dif_pos hlt, if_neg htrigger, if_neg hstatus, if_true]

theorem read_trigger (hbase : u.base = kind.block) :
    u.read (kind.block + triggerOffset) = .ok (u.pollTrigger.trigger, u.pollTrigger) := by
  have hoff : u.offset (kind.block + triggerOffset) = 8 := offset_add hbase _
  unfold read
  simp only [hoff]
  rfl

theorem read_status (hbase : u.base = kind.block) :
    u.read (kind.block + statusOffset) = .ok (u.pollStatus.status, u.pollStatus) := by
  have hoff : u.offset (kind.block + statusOffset) = 9 := offset_add hbase _
  unfold read
  simp only [hoff]
  rfl

/-- The unit with the fields of a command written into its registers. -/
def filled (u : CommandUnit) (r : CommandRequest) : CommandUnit :=
  let regs := filling u.regs opcodeOffset r.opcode (by decide)
  let regs := filling regs paramOffset r.param (by decide)
  let regs := filling regs tagOffset r.tag (by decide)
  let regs := filling regs addressOffset (r.address >>> 24).toUInt8 (by decide)
  let regs := filling regs (addressOffset + 1) (r.address >>> 16).toUInt8 (by decide)
  let regs := filling regs (addressOffset + 2) (r.address >>> 8).toUInt8 (by decide)
  { u with regs := filling regs (addressOffset + 3) r.address.toUInt8 (by decide) }

/-- The unit with a command started. -/
def sent (u : CommandUnit) (r : CommandRequest) : CommandUnit := (u.filled r).start

/-- The unit after so many reads of its trigger register. -/
def triggered (u : CommandUnit) (reads : UInt32) : CommandUnit := { u with triggerReads := reads }

/-- The unit after so many reads of its status register. -/
def observed (u : CommandUnit) (reads : UInt32) : CommandUnit := { u with statusReads := reads }

/-- The unit that has accepted its command. -/
def accepted (u : CommandUnit) : CommandUnit := u.setTrigger (u.trigger &&& ~~~startBit)

/-- The unit that has completed its command. -/
def completed (u : CommandUnit) : CommandUnit :=
  if u.failNext then
    { u.setStatus ((u.status &&& ~~~busyBit) ||| errorBit) with failNext := false }
  else
    u.setStatus (u.status &&& ~~~busyBit)

/-- The unit that was aborted and enabled again. -/
def rearmed (u : CommandUnit) : CommandUnit := (u.control abortBit).control enableBit

/-- The unit of which the bits of the last command were cleared. -/
def settled (u : CommandUnit) : CommandUnit :=
  (u.setStatus (u.status &&& ~~~(busyBit ||| errorBit))).setTrigger 0

/-- What a wait leaves as it was: all but the bits, the reads and the failure that it sees. -/
structure Unchanged (u w : CommandUnit) : Prop where
  base : w.base = u.base
  accept : w.accept = u.accept
  complete : w.complete = u.complete
  issued : w.issued = u.issued
  aborts : w.aborts = u.aborts
  enables : w.enables = u.enables

theorem Unchanged.trans {u v w : CommandUnit} (h : Unchanged u v) (h' : Unchanged v w) :
    Unchanged u w :=
  ⟨h'.base.trans h.base, h'.accept.trans h.accept, h'.complete.trans h.complete,
    h'.issued.trans h.issued, h'.aborts.trans h.aborts, h'.enables.trans h.enables⟩

/-- The bits are clear that a command sets. -/
structure Clean (u : CommandUnit) : Prop where
  start : u.trigger &&& startBit = 0
  busy : u.status &&& busyBit = 0
  error : u.status &&& errorBit = 0

theorem pollTrigger_waiting (hstart : u.trigger &&& startBit ≠ 0) {reads : UInt32}
    (h : u.accept.elapsed (reads + 1) = false) :
    (u.triggered reads).pollTrigger = u.triggered (reads + 1) := by
  have hstart' : (u.triggered reads).trigger &&& startBit ≠ 0 := hstart
  have h' : (u.triggered reads).accept.elapsed ((u.triggered reads).triggerReads + 1) = false := h
  unfold pollTrigger
  simp only [if_neg hstart', h']
  rfl

theorem pollTrigger_elapsed (hstart : u.trigger &&& startBit ≠ 0) {reads : UInt32}
    (h : u.accept.elapsed (reads + 1) = true) :
    (u.triggered reads).pollTrigger = (u.triggered (reads + 1)).accepted := by
  have hstart' : (u.triggered reads).trigger &&& startBit ≠ 0 := hstart
  have h' : (u.triggered reads).accept.elapsed ((u.triggered reads).triggerReads + 1) = true := h
  unfold pollTrigger
  simp only [if_neg hstart', h']
  rfl

theorem pollStatus_waiting (hbusy : u.status &&& busyBit ≠ 0) {reads : UInt32}
    (h : u.complete.elapsed (reads + 1) = false) :
    (u.observed reads).pollStatus = u.observed (reads + 1) := by
  have hbusy' : (u.observed reads).status &&& busyBit ≠ 0 := hbusy
  have h' : (u.observed reads).complete.elapsed ((u.observed reads).statusReads + 1) = false := h
  unfold pollStatus
  simp only [if_neg hbusy', h']
  rfl

theorem pollStatus_elapsed (hbusy : u.status &&& busyBit ≠ 0) {reads : UInt32}
    (h : u.complete.elapsed (reads + 1) = true) :
    (u.observed reads).pollStatus = (u.observed (reads + 1)).completed := by
  have hbusy' : (u.observed reads).status &&& busyBit ≠ 0 := hbusy
  have h' : (u.observed reads).complete.elapsed ((u.observed reads).statusReads + 1) = true := h
  unfold pollStatus
  simp only [if_neg hbusy', h']
  rfl

section Sent

variable (u : CommandUnit) (r : CommandRequest)

@[simp] theorem base_sent : (u.sent r).base = u.base := by
  simp only [sent, start, filled, setStatus, setTrigger]

@[simp] theorem accept_sent : (u.sent r).accept = u.accept := by
  simp only [sent, start, filled, setStatus, setTrigger]

@[simp] theorem complete_sent : (u.sent r).complete = u.complete := by
  simp only [sent, start, filled, setStatus, setTrigger]

@[simp] theorem failNext_sent : (u.sent r).failNext = u.failNext := by
  simp only [sent, start, filled, setStatus, setTrigger]

@[simp] theorem triggerReads_sent : (u.sent r).triggerReads = 0 := by
  simp only [sent, start, filled, setStatus, setTrigger]

@[simp] theorem statusReads_sent : (u.sent r).statusReads = 0 := by
  simp only [sent, start, filled, setStatus, setTrigger]

@[simp] theorem aborts_sent : (u.sent r).aborts = u.aborts := by
  simp only [sent, start, filled, setStatus, setTrigger]

@[simp] theorem enables_sent : (u.sent r).enables = u.enables := by
  simp only [sent, start, filled, setStatus, setTrigger]

theorem issued_sent :
    (u.sent r).issued = ⟨r.opcode, r.param, r.tag, r.address⟩ :: u.issued := by
  simp [sent, start, filled, filling, opcodeOffset, paramOffset, tagOffset, addressOffset,
    setStatus, setTrigger, RegisterBus.joinBytes_split]

theorem start_sent : (u.sent r).trigger &&& startBit ≠ 0 := by
  have htrigger : (u.sent r).trigger = (u.filled r).trigger ||| startBit := by
    simp [sent, start, setStatus, setTrigger, trigger]
  rw [htrigger]
  exact Bits.or_and_ne_zero _ (by decide)

theorem status_sent : (u.sent r).status = u.status ||| busyBit := by
  simp [sent, start, filled, filling, opcodeOffset, paramOffset, tagOffset, addressOffset,
    setStatus, setTrigger, status]

theorem busy_sent : (u.sent r).status &&& busyBit ≠ 0 := by
  rw [status_sent]
  exact Bits.or_and_ne_zero _ (by decide)

theorem error_sent : (u.sent r).status &&& errorBit = u.status &&& errorBit := by
  have hdisjoint : busyBit &&& errorBit = 0 := by decide
  rw [status_sent, Bits.or_and, hdisjoint, UInt8.or_zero]

end Sent

section Ends

variable (u : CommandUnit)

theorem trigger_accepted : u.accepted.trigger = u.trigger &&& ~~~startBit := by
  simp [accepted, setTrigger, trigger]

theorem status_accepted : u.accepted.status = u.status := by
  simp [accepted, setTrigger, status]

theorem status_completed : u.completed.status =
    if u.failNext then (u.status &&& ~~~busyBit) ||| errorBit else u.status &&& ~~~busyBit := by
  unfold completed
  split <;> simp [setStatus, status]

theorem busy_completed : u.completed.status &&& busyBit = 0 := by
  have hdisjoint : errorBit &&& busyBit = 0 := by decide
  rw [status_completed]
  split
  · rw [Bits.or_and, Bits.clear_and_self, hdisjoint, UInt8.or_zero]
  · exact Bits.clear_and_self _ _

/-- The error bit shows exactly if the unit was to fail. -/
theorem error_completed (h : u.status &&& errorBit = 0) :
    u.completed.status &&& errorBit ≠ 0 ↔ u.failNext = true := by
  rw [status_completed]
  split
  next hfail =>
    simp only [hfail, iff_true]
    exact Bits.or_and_ne_zero _ (by decide)
  next hfail =>
    have hclear : u.status &&& ~~~busyBit &&& errorBit = 0 := by
      rw [Bits.clear_and_of_disjoint _ (by decide), h]
    simp [hclear, hfail]

theorem failNext_completed : u.completed.failNext = false := by
  unfold completed
  split
  · rfl
  next h => simpa [setStatus] using h

theorem unchanged_completed : Unchanged u u.completed := by
  unfold completed
  split <;> exact ⟨rfl, rfl, rfl, rfl, rfl, rfl⟩

theorem triggerReads_completed : u.completed.triggerReads = u.triggerReads := by
  unfold completed
  split <;> rfl

theorem statusReads_completed : u.completed.statusReads = u.statusReads := by
  unfold completed
  split <;> rfl

theorem trigger_control (value : UInt8) : (u.control value).trigger =
    if value &&& abortBit = 0 then u.trigger else u.trigger &&& ~~~startBit := by
  unfold control
  by_cases habort : value &&& abortBit = 0 <;> by_cases henable : value &&& enableBit = 0 <;>
    simp [habort, henable, abort, setStatus, setTrigger, trigger]

theorem status_control (value : UInt8) : (u.control value).status =
    if value &&& abortBit = 0 then u.status else u.status &&& ~~~busyBit := by
  unfold control
  by_cases habort : value &&& abortBit = 0 <;> by_cases henable : value &&& enableBit = 0 <;>
    simp [habort, henable, abort, setStatus, setTrigger, status]

theorem trigger_rearmed : u.rearmed.trigger = u.trigger &&& ~~~startBit := by
  unfold rearmed
  rw [trigger_control, trigger_control, if_pos (by decide), if_neg (by decide)]

theorem status_rearmed : u.rearmed.status = u.status &&& ~~~busyBit := by
  unfold rearmed
  rw [status_control, status_control, if_pos (by decide), if_neg (by decide)]

theorem clean_rearmed (h : u.status &&& errorBit = 0) : u.rearmed.Clean := by
  refine ⟨?_, ?_, ?_⟩
  · rw [trigger_rearmed]
    exact Bits.clear_and_self _ _
  · rw [status_rearmed]
    exact Bits.clear_and_self _ _
  · rw [status_rearmed, Bits.clear_and_of_disjoint _ (by decide), h]

theorem trigger_settled : u.settled.trigger = 0 := by
  simp [settled, setStatus, setTrigger, trigger]

theorem status_settled : u.settled.status = u.status &&& ~~~(busyBit ||| errorBit) := by
  simp [settled, setStatus, setTrigger, status]

theorem clean_settled : u.settled.Clean := by
  have hbusy : ~~~(busyBit ||| errorBit) &&& busyBit = 0 := by decide
  have herror : ~~~(busyBit ||| errorBit) &&& errorBit = 0 := by decide
  refine ⟨?_, ?_, ?_⟩
  · rw [trigger_settled, UInt8.zero_and]
  · rw [status_settled, UInt8.and_assoc, hbusy, UInt8.and_zero]
  · rw [status_settled, UInt8.and_assoc, herror, UInt8.and_zero]

end Ends

end CommandUnit

end BankedController
