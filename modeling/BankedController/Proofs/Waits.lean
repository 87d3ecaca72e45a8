import BankedController.Command.Engine
import BankedController.Proofs.CommandBus

namespace BankedController

open RegisterMap

/-- The read at which a phase is seen to be over, if the wait for it gets that far. -/
def Latency.within (latency : Latency) (threshold : UInt32) : Option UInt32 :=
  match latency with
  | .reads n => if n < threshold then some n else none
  | .never => none

/-- How many reads a wait takes. -/
def Latency.readsWithin (latency : Latency) (threshold : UInt32) : Nat :=
  match latency.within threshold with
  | some n => n.toNat + 1
  | none => threshold.toNat

namespace Latency

variable {latency : Latency} {threshold n : UInt32}

theorem eq_of_within (h : latency.within threshold = some n) :
    latency = .reads n ∧ n < threshold := by
  cases latency with
  | never => cases h
  | reads m =>
    unfold within at h
    dsimp only at h
    split at h
    next hm =>
      cases h
      exact ⟨rfl, hm⟩
    next => cases h

theorem ofNat_readsWithin_of_none (h : latency.within threshold = none) :
    UInt32.ofNat (latency.readsWithin threshold) = threshold := by
  rw [readsWithin, h]
  exact UInt32.ofNat_toNat

theorem ofNat_readsWithin_of_some (h : latency.within threshold = some n) :
    UInt32.ofNat (latency.readsWithin threshold) = n + 1 := by
  rw [readsWithin, h]
  dsimp only
  rw [UInt32.ofNat_add, UInt32.ofNat_toNat]
  rfl

/-- A wait takes no more reads than a counter holds. -/
theorem toNat_ofNat_readsWithin (latency : Latency) (threshold : UInt32) :
    (UInt32.ofNat (latency.readsWithin threshold)).toNat = latency.readsWithin threshold := by
  cases h : latency.within threshold with
  | none => rw [ofNat_readsWithin_of_none h, readsWithin, h]
  | some n =>
    rw [ofNat_readsWithin_of_some h, toNat_add_one_of_lt (eq_of_within h).2, readsWithin, h]

end Latency

/-- How a wait for a phase ends. -/
def Latency.waitOutcome (latency : Latency) (threshold : UInt32) (fails : Bool) : WaitOutcome :=
  match latency.within threshold with
  | some n => if fails then .error n else .ready n
  | none => .timedOut threshold

namespace CommandUnit

/-- The phase that a wait is for. -/
def latency (wait : WaitKind) (u : CommandUnit) : Latency :=
  match wait with
  | .nvmeDoorbell => u.accept
  | _ => u.complete

/-- Whether the phase that a wait is for ends with an error. -/
def fails (wait : WaitKind) (u : CommandUnit) : Bool :=
  match wait with
  | .nvmeDoorbell => false
  | _ => u.failNext

/-- The phase that a wait is for has begun, and has not been looked at. -/
def Pending (wait : WaitKind) (u : CommandUnit) : Prop :=
  match wait with
  | .nvmeDoorbell => u.trigger &&& startBit ≠ 0 ∧ u.triggerReads = 0
  | _ => u.status &&& busyBit ≠ 0 ∧ u.status &&& errorBit = 0 ∧ u.statusReads = 0

/-- The unit after so many reads of the register that a wait polls. -/
def seen (wait : WaitKind) (u : CommandUnit) (reads : UInt32) : CommandUnit :=
  match wait with
  | .nvmeDoorbell => u.triggered reads
  | _ => u.observed reads

/-- The unit of which the phase that a wait is for is over. -/
def ended (wait : WaitKind) (u : CommandUnit) : CommandUnit :=
  match wait with
  | .nvmeDoorbell => u.accepted
  | _ => u.completed

/-- The unit after a wait. -/
def waited (wait : WaitKind) (threshold : UInt32) (u : CommandUnit) : CommandUnit :=
  let seen := u.seen wait (UInt32.ofNat ((u.latency wait).readsWithin threshold))
  if ((u.latency wait).within threshold).isSome then seen.ended wait else seen

variable {u : CommandUnit} {kind : CommandKind} {wait : WaitKind}

theorem seen_zero (h : u.Pending wait) : u.seen wait 0 = u := by
  cases wait with
  | nvmeDoorbell =>
    have hreads : u.triggerReads = 0 := h.2
    rw [← hreads]
    rfl
  | nvmeQueue | flash | phySettle =>
    have hreads : u.statusReads = 0 := h.2.2
    rw [← hreads]
    rfl

/-- A read while the phase lasts shows neither an error nor an end. -/
theorem read_waiting (hbase : u.base = kind.block) (h : u.Pending wait) (timeouts : Timeouts)
    {reads : UInt32} (hlast : (u.latency wait).elapsed (reads + 1) = false) :
    ∃ value, (u.seen wait reads).read (wait.register kind) = .ok (value, u.seen wait (reads + 1)) ∧
      value &&& (wait.busyWait kind timeouts).error = 0 ∧
      value &&& (wait.busyWait kind timeouts).busy ≠ 0 := by
  cases wait with
  | nvmeDoorbell =>
    refine ⟨u.trigger, ?_, UInt8.and_zero, h.1⟩
    have hread := read_trigger (u := u.triggered reads) hbase
    rwa [pollTrigger_waiting h.1 hlast] at hread
  | nvmeQueue | flash | phySettle =>
    refine ⟨u.status, ?_, h.2.1, h.1⟩
    have hread := read_status (u := u.observed reads) hbase
    rwa [pollStatus_waiting h.1 hlast] at hread

/-- The read that sees the end of the phase shows an error exactly if there is one. -/
theorem read_elapsed (hbase : u.base = kind.block) (h : u.Pending wait) (timeouts : Timeouts)
    {reads : UInt32} (hlast : (u.latency wait).elapsed (reads + 1) = true) :
    ∃ value, (u.seen wait reads).read (wait.register kind) =
        .ok (value, (u.seen wait (reads + 1)).ended wait) ∧
      (value &&& (wait.busyWait kind timeouts).error ≠ 0 ↔ u.fails wait = true) ∧
      value &&& (wait.busyWait kind timeouts).busy = 0 := by
  cases wait with
  | nvmeDoorbell =>
    refine ⟨u.trigger &&& ~~~startBit, ?_, ?_, Bits.clear_and_self _ _⟩
    · have hread := read_trigger (u := u.triggered reads) hbase
      rw [pollTrigger_elapsed h.1 hlast, trigger_accepted] at hread
      exact hread
    · have hfails : u.fails .nvmeDoorbell = false := rfl
      simp [WaitKind.busyWait, hfails]
  | nvmeQueue | flash | phySettle =>
    refine ⟨(u.observed (reads + 1)).completed.status, ?_, ?_, busy_completed _⟩
    · have hread := read_status (u := u.observed reads) hbase
      rw [pollStatus_elapsed h.1 hlast] at hread
      exact hread
    · exact error_completed (u.observed (reads + 1)) h.2.1

theorem waited_of_none {threshold : UInt32} (h : (u.latency wait).within threshold = none) :
    u.waited wait threshold = u.seen wait threshold := by
  unfold waited
  rw [h, Latency.ofNat_readsWithin_of_none h]
  rfl

theorem waited_of_some {threshold n : UInt32} (h : (u.latency wait).within threshold = some n) :
    u.waited wait threshold = (u.seen wait (n + 1)).ended wait := by
  unfold waited
  rw [h, Latency.ofNat_readsWithin_of_some h]
  rfl

theorem unchanged_seen (wait : WaitKind) (reads : UInt32) : Unchanged u (u.seen wait reads) := by
  cases wait <;> exact ⟨rfl, rfl, rfl, rfl, rfl, rfl⟩

theorem unchanged_ended (wait : WaitKind) : Unchanged u (u.ended wait) := by
  cases wait with
  | nvmeDoorbell => exact ⟨rfl, rfl, rfl, rfl, rfl, rfl⟩
  | nvmeQueue | flash | phySettle => exact unchanged_completed u

theorem unchanged_waited (wait : WaitKind) (threshold : UInt32) :
    Unchanged u (u.waited wait threshold) := by
  unfold waited
  dsimp only
  split
  · exact (unchanged_seen wait _).trans (unchanged_ended wait)
  · exact unchanged_seen wait _

/-- The doorbell wait looks at the trigger register only. -/
theorem waited_doorbell (threshold : UInt32) :
    (u.waited .nvmeDoorbell threshold).triggerReads.toNat = u.accept.readsWithin threshold ∧
      (u.waited .nvmeDoorbell threshold).statusReads = u.statusReads ∧
      (u.waited .nvmeDoorbell threshold).status = u.status ∧
      (u.waited .nvmeDoorbell threshold).failNext = u.failNext := by
  unfold waited
  dsimp only
  split
  · exact ⟨Latency.toNat_ofNat_readsWithin _ _, rfl, status_accepted _, rfl⟩
  · exact ⟨Latency.toNat_ofNat_readsWithin _ _, rfl, rfl, rfl⟩

/-- The status wait of a command. -/
theorem waited_status (hwait : wait ≠ .nvmeDoorbell) (threshold : UInt32) :
    (u.waited wait threshold).triggerReads = u.triggerReads ∧
      (u.waited wait threshold).statusReads.toNat = u.complete.readsWithin threshold ∧
      (u.waited wait threshold).failNext =
        (u.failNext && (u.complete.within threshold).isNone) := by
  let seen := u.observed (UInt32.ofNat (u.complete.readsWithin threshold))
  have hreads : seen.statusReads.toNat = u.complete.readsWithin threshold :=
    Latency.toNat_ofNat_readsWithin _ _
  have hstatus : u.waited wait threshold =
      if (u.complete.within threshold).isSome then seen.completed else seen := by
    cases wait with
    | nvmeDoorbell => exact absurd rfl hwait
    | nvmeQueue | flash | phySettle => rfl
  rw [hstatus]
  cases hwithin : u.complete.within threshold with
  | none => exact ⟨rfl, hreads, (Bool.and_true _).symm⟩
  | some n =>
    refine ⟨triggerReads_completed _, (congrArg _ (statusReads_completed _)).trans hreads, ?_⟩
    exact (failNext_completed _).trans (Bool.and_false _).symm

/-- A wait that runs out has seen the status register only as it was. -/
theorem status_waited_of_none {threshold : UInt32}
    (h : (u.latency wait).within threshold = none) :
    (u.waited wait threshold).status = u.status := by
  rw [waited_of_none h]
  cases wait <;> rfl

end CommandUnit

/-- A linkage whose preemption points do nothing while there is no interrupt to take. -/
def Linkage.Quiet {β : Type} (l : Linkage β) : Prop :=
  ∀ s, s.irq.next? = none → l.poll s = .done () s

namespace CommandBus

variable {β : Type} [RegisterBus β] {b : CommandBus β} {v : Bench} {l : Linkage β}

theorem leads_poll (hl : l.Quiet) : b.Leads l.poll v () v :=
  fun s hs => ⟨s, hl s hs.quiet, hs⟩

theorem elapsed_of_within_none {latency : Latency} {threshold i : UInt32}
    (h : latency.within threshold = none) (hi : i < threshold) :
    latency.elapsed (i + 1) = false := by
  cases latency with
  | never => rfl
  | reads n =>
    have hsucc : (i + 1).toNat = i.toNat + 1 := toNat_add_one_of_lt hi
    have hn : ¬n < threshold := by
      intro hn
      simp [Latency.within, hn] at h
    rw [UInt32.lt_iff_toNat_lt] at hn hi
    simp only [Latency.elapsed, decide_eq_false_iff_not, UInt32.lt_iff_toNat_lt]
    omega

theorem elapsed_of_within_some {latency : Latency} {threshold i n : UInt32}
    (h : latency.within threshold = some n) (hi : i < threshold) :
    latency.elapsed (i + 1) = decide (n ≤ i) := by
  obtain ⟨rfl, -⟩ := Latency.eq_of_within h
  simp only [Latency.elapsed, UInt32.lt_iff_toNat_lt, UInt32.le_iff_toNat_le,
    toNat_add_one_of_lt hi]
  exact decide_eq_decide.2 Nat.lt_succ_iff

/-- The view at the read with a number, while the phase lasts. -/
def waiting (v : Bench) (kind : CommandKind) (wait : WaitKind) (i : UInt32) : Bench :=
  (v.setUnit kind ((v.unit kind).seen wait i)).store32 wait.counter i

/-- The view after the read that saw the end of the phase. -/
def afterPhase (v : Bench) (kind : CommandKind) (wait : WaitKind) (i : UInt32) : Bench :=
  (v.setUnit kind (((v.unit kind).seen wait (i + 1)).ended wait)).store32 wait.counter i

/-- The view after a wait. -/
def awaited (v : Bench) (kind : CommandKind) (wait : WaitKind) (threshold : UInt32) : Bench :=
  (v.setUnit kind ((v.unit kind).waited wait threshold)).store32 wait.counter
    ((((v.unit kind).latency wait).within threshold).getD threshold)

theorem counter_engineRam (wait : WaitKind) : EngineRam32 wait.counter := by
  cases wait <;> constructor <;> decide

theorem register_offset (kind : CommandKind) (wait : WaitKind) :
    ∃ off, wait.register kind = kind.block + off ∧ off < blockSize := by
  cases wait with
  | nvmeDoorbell => exact ⟨triggerOffset, rfl, by decide⟩
  | nvmeQueue | flash | phySettle => exact ⟨statusOffset, rfl, by decide⟩

/-- One look at the register and the counter. -/
theorem leads_sample {kind : CommandKind} {wait : WaitKind} (timeouts : Timeouts) {i : UInt32}
    {u u' : CommandUnit} {value : UInt8} (h : u.read (wait.register kind) = .ok (value, u')) :
    b.Leads (Machine.onBus (wait.busyWait kind timeouts).sample)
      ((v.setUnit kind u).store32 wait.counter i) (value, i)
      ((v.setUnit kind u').store32 wait.counter i) := by
  obtain ⟨off, hregister, hoff⟩ := register_offset kind wait
  have hread : (((v.setUnit kind u).store32 wait.counter i).unit kind).read (kind.block + off) =
      .ok (value, u') := by
    rw [Bench.unit_store32, Bench.unit_setUnit, ← hregister]
    exact h
  have hset : ((v.setUnit kind u).store32 wait.counter i).setUnit kind u' =
      (v.setUnit kind u').store32 wait.counter i :=
    congrArg (fun w : Bench => w.store32 wait.counter i) (Bench.setUnit_setUnit v kind u u')
  have hregister' : (wait.busyWait kind timeouts).register = kind.block + off := hregister
  simp only [BusyWait.sample, Machine.onBus_bind, hregister']
  refine leads_bind (leads_read_unit hoff hread) ?_
  rw [hset]
  exact leads_bind (leads_read32_ram (counter_engineRam wait) i) (leads_pure _)

variable {kind : CommandKind} {wait : WaitKind} {timeouts : Timeouts}

/-- One iteration of a phase that lasts: the loop goes on with the next number, or has come to the
threshold. -/
theorem leads_iteration (hl : l.Quiet) (hbase : (v.unit kind).base = kind.block)
    (hpending : (v.unit kind).Pending wait) {i : UInt32} (hi : i < timeouts.get wait)
    (hlasts : ((v.unit kind).latency wait).elapsed (i + 1) = false) {patience : Nat}
    {outcome : WaitOutcome} {v' : Bench}
    (hnext : i + 1 < timeouts.get wait →
      b.Leads ((wait.busyWait kind timeouts).poll l patience) (waiting v kind wait (i + 1)) outcome
        v')
    (hlast : i + 1 = timeouts.get wait →
      outcome = .timedOut (i + 1) ∧ v' = waiting v kind wait (i + 1)) :
    b.Leads ((wait.busyWait kind timeouts).poll l (patience + 1)) (waiting v kind wait i) outcome
      v' := by
  obtain ⟨value, hread, herror, hbusy⟩ := CommandUnit.read_waiting hbase hpending timeouts hlasts
  have hsucc : (i + 1).toNat = i.toNat + 1 := toNat_add_one_of_lt hi
  have hcount : b.Leads (Machine.write32 (wait.busyWait kind timeouts).counter (i + 1))
      ((v.setUnit kind ((v.unit kind).seen wait (i + 1))).store32 wait.counter i) ()
      (waiting v kind wait (i + 1)) := by
    have hwrite := leads_write32_ram (b := b)
      (v := (v.setUnit kind ((v.unit kind).seen wait (i + 1))).store32 wait.counter i)
      (counter_engineRam wait) (i + 1)
    rwa [Bench.store32_store32] at hwrite
  unfold BusyWait.poll
  refine leads_bind (leads_sample timeouts hread) ?_
  dsimp only
  rw [if_neg (not_not_intro herror), if_neg hbusy]
  refine leads_bind hcount ?_
  by_cases hout : timeouts.get wait ≤ i + 1
  · have heq : i + 1 = timeouts.get wait := by
      apply UInt32.toNat_inj.1
      rw [UInt32.le_iff_toNat_le] at hout
      rw [UInt32.lt_iff_toNat_lt] at hi
      omega
    obtain ⟨rfl, rfl⟩ := hlast heq
    have hthreshold : (wait.busyWait kind timeouts).threshold ≤ i + 1 := hout
    rw [if_pos hthreshold]
    exact leads_pure _
  · have hthreshold : ¬(wait.busyWait kind timeouts).threshold ≤ i + 1 := hout
    rw [if_neg hthreshold]
    exact leads_bind (leads_poll hl) (hnext (UInt32.not_le.1 hout))

/-- The iteration that sees the end of the phase. -/
theorem leads_end (timeouts : Timeouts) (hbase : (v.unit kind).base = kind.block)
    (hpending : (v.unit kind).Pending wait) {i : UInt32}
    (hover : ((v.unit kind).latency wait).elapsed (i + 1) = true)
    (patience : Nat) :
    b.Leads ((wait.busyWait kind timeouts).poll l (patience + 1)) (waiting v kind wait i)
      (if (v.unit kind).fails wait then .error i else .ready i) (afterPhase v kind wait i) := by
  obtain ⟨value, hread, herror, hbusy⟩ := CommandUnit.read_elapsed hbase hpending timeouts hover
  unfold BusyWait.poll
  refine leads_bind (leads_sample timeouts hread) ?_
  dsimp only
  by_cases hfails : (v.unit kind).fails wait = true
  · rw [if_pos (herror.2 hfails), if_pos hfails]
    exact leads_pure _
  · rw [if_neg (mt herror.1 hfails), if_pos hbusy, if_neg hfails]
    exact leads_pure _

/-- The loop from any read on that comes before the end of the phase and before the threshold. -/
theorem leads_loop (hl : l.Quiet) (hbase : (v.unit kind).base = kind.block)
    (hpending : (v.unit kind).Pending wait) (patience : Nat) {i : UInt32}
    (hi : i < timeouts.get wait)
    (hbefore : ∀ n, ((v.unit kind).latency wait).within (timeouts.get wait) = some n → i ≤ n)
    (hpatience : (timeouts.get wait).toNat ≤ i.toNat + patience) :
    b.Leads ((wait.busyWait kind timeouts).poll l patience) (waiting v kind wait i)
      (((v.unit kind).latency wait).waitOutcome (timeouts.get wait) ((v.unit kind).fails wait))
      (awaited v kind wait (timeouts.get wait)) := by
  -- on the patience, since the number of the read grows towards the threshold
  induction patience generalizing i with
  | zero =>
    rw [UInt32.lt_iff_toNat_lt] at hi
    omega
  | succ patience ih =>
    have hnext (hlt : i + 1 < timeouts.get wait)
        (hbefore' : ∀ n, ((v.unit kind).latency wait).within (timeouts.get wait) = some n →
          i + 1 ≤ n) :
        b.Leads ((wait.busyWait kind timeouts).poll l patience) (waiting v kind wait (i + 1))
          (((v.unit kind).latency wait).waitOutcome (timeouts.get wait) ((v.unit kind).fails wait))
          (awaited v kind wait (timeouts.get wait)) := by
      have hsucc : (i + 1).toNat = i.toNat + 1 := toNat_add_one_of_lt hi
      exact ih hlt hbefore' (by omega)
    cases hwithin : ((v.unit kind).latency wait).within (timeouts.get wait) with
    | none =>
      have hlasts := elapsed_of_within_none hwithin hi
      refine leads_iteration hl hbase hpending hi hlasts ?_ ?_
      · intro hlt
        exact hnext hlt fun n hn => by rw [hwithin] at hn; cases hn
      · intro heq
        unfold Latency.waitOutcome awaited waiting
        rw [CommandUnit.waited_of_none hwithin, hwithin, heq]
        exact ⟨rfl, rfl⟩
    | some n =>
      have hn : n < timeouts.get wait := (Latency.eq_of_within hwithin).2
      have helapsed := elapsed_of_within_some hwithin hi
      have hle : i ≤ n := hbefore n hwithin
      by_cases heq : i = n
      · -- this is the read that sees the end
        subst heq
        have hover : ((v.unit kind).latency wait).elapsed (i + 1) = true := by
          rw [helapsed]
          exact decide_eq_true (UInt32.le_refl i)
        have hend := leads_end (b := b) (l := l) timeouts hbase hpending hover patience
        unfold Latency.waitOutcome awaited
        rw [CommandUnit.waited_of_some hwithin, hwithin]
        exact hend
      · have hlt : i < n := UInt32.lt_of_le_of_ne hle heq
        have hlasts : ((v.unit kind).latency wait).elapsed (i + 1) = false := by
          rw [helapsed]
          exact decide_eq_false (UInt32.not_le.2 hlt)
        have hstep : i + 1 ≤ n := by
          rw [UInt32.le_iff_toNat_le, toNat_add_one_of_lt hlt]
          exact UInt32.lt_iff_toNat_lt.1 hlt
        refine leads_iteration hl hbase hpending hi hlasts ?_ ?_
        · intro hlt'
          exact hnext hlt' fun m hm => by
            rw [hwithin] at hm
            cases hm
            exact hstep
        · -- the end comes before the threshold
          intro hlast
          exact absurd (hlast ▸ hstep) (UInt32.not_le.2 hn)

/-- A wait for a phase that has just begun. -/
theorem leads_await (hl : l.Quiet) (hpatience : 2 ^ 32 ≤ l.patience)
    (hbase : (v.unit kind).base = kind.block) (hpending : (v.unit kind).Pending wait)
    (hthreshold : l.config.timeouts.get wait ≠ 0) :
    b.Leads (l.await kind wait) v
      (((v.unit kind).latency wait).waitOutcome (l.config.timeouts.get wait)
        ((v.unit kind).fails wait))
      (awaited v kind wait (l.config.timeouts.get wait)) := by
  have hstart : waiting v kind wait 0 = v.store32 wait.counter 0 := by
    unfold waiting
    rw [CommandUnit.seen_zero hpending, Bench.setUnit_self]
  have hcount : b.Leads (Machine.write32 wait.counter 0) v () (waiting v kind wait 0) := by
    rw [hstart]
    exact leads_write32_ram (counter_engineRam wait) 0
  have hpositive : 0 < l.config.timeouts.get wait := UInt32.pos_iff_ne_zero.2 hthreshold
  have hbound := (l.config.timeouts.get wait).toNat_lt
  refine leads_bind hcount ?_
  exact leads_loop hl hbase hpending l.patience hpositive (fun n _ => UInt32.zero_le) (by omega)

end CommandBus

end BankedController
