import BankedController.Proofs.BoardService
import BankedController.Proofs.PanelRuns

namespace BankedController

open RegisterMap

namespace CommandBus

variable {β α : Type} [RegisterBus β] {b : CommandBus β} {l : Linkage β} {kind : CommandKind}

/-- A machine that is wired for the engine, with no interrupt to take. -/
def Undisturbed (b : CommandBus β) (s : Machine β) : Prop := b.wired s.bus ∧ s.irq.next? = none

theorem Undisturbed.at {s : Machine β} (hs : b.Undisturbed s) : b.At (b.view s.bus) s :=
  ⟨hs.1, rfl, hs.2⟩

theorem At.undisturbed {v : Bench} {s : Machine β} (hs : b.At v s) : b.Undisturbed s :=
  ⟨hs.wired, hs.quiet⟩

theorem At.base {v : Bench} {s : Machine β} (hs : b.At v s) (kind : CommandKind) :
    (v.unit kind).base = kind.block := by
  rw [← hs.view]
  exact b.base hs.wired kind

theorem ends_of_leads {m : Run (Machine β) α}
    (h : ∀ v, (∀ kind, (v.unit kind).base = kind.block) → ∃ a v', b.Leads m v a v') :
    m.Ends b.Undisturbed := by
  intro s hs
  obtain ⟨a, v', hleads⟩ := h (b.view s.bus) hs.at.base
  obtain ⟨t, hrun, ht⟩ := hleads s hs.at
  exact ⟨a, t, hrun, ht.undisturbed⟩

/-- The loop of a wait ends, whatever the register shows. -/
theorem ends_poll (hl : l.Quiet) (wait : WaitKind) (timeouts : Timeouts) (patience : Nat)
    {i : UInt32} {v : Bench} {s : Machine β} (hs : b.At (v.store32 wait.counter i) s)
    (hi : i < timeouts.get wait) (hpatience : (timeouts.get wait).toNat ≤ i.toNat + patience) :
    ∃ a t, (wait.busyWait kind timeouts).poll l patience s = .done a t ∧ b.Undisturbed t := by
  -- on the patience, since every iteration brings the counter closer to the threshold
  induction patience generalizing i v s with
  | zero =>
    have hlt := UInt32.lt_iff_toNat_lt.1 hi
    omega
  | succ patience ih =>
    obtain ⟨off, hregister, hoff⟩ := register_offset kind wait
    have hclose : wait.register kind - kind.block < blockSize := by
      rw [hregister, UInt16.add_comm, UInt16.add_sub_cancel]
      exact hoff
    obtain ⟨value, u, hread, -⟩ := CommandUnit.read_ok (hs.base kind) hclose
    have hsample := leads_sample (b := b) (v := v) timeouts (i := i) hread
    rw [Bench.unit_store32, Bench.setUnit_self] at hsample
    obtain ⟨t, hsampled, ht⟩ := hsample s hs
    have hcount := leads_write32_ram (b := b) (v := (v.setUnit kind u).store32 wait.counter i)
      (counter_engineRam wait) (i + 1)
    obtain ⟨t', hcounted, ht'⟩ := hcount t ht
    have hcounted : Machine.write32 (wait.busyWait kind timeouts).counter (i + 1) t = .done () t' :=
      hcounted
    rw [Bench.store32_store32] at ht'
    unfold BusyWait.poll
    rw [Run.bind_of_done hsampled]
    dsimp only
    split
    · exact ⟨_, t, rfl, ht.undisturbed⟩
    split
    · exact ⟨_, t, rfl, ht.undisturbed⟩
    rw [Run.bind_of_done hcounted]
    split
    · exact ⟨_, t', rfl, ht'.undisturbed⟩
    next hshort =>
      have hlt : i + 1 < timeouts.get wait := UInt32.not_le.1 hshort
      have hsucc : (i + 1).toNat = i.toNat + 1 := toNat_add_one_of_lt hi
      obtain ⟨a, w, hrest, hw⟩ := ih ht' hlt (by omega)
      exact ⟨a, w, (Run.bind_of_done (hl t' ht'.quiet)).trans hrest, hw⟩

theorem ends_await (hl : CanWait l) (wait : WaitKind) :
    (l.await kind wait).Ends b.Undisturbed := by
  intro s hs
  have hbound := (l.config.timeouts.get wait).toNat_lt
  have hpatience := hl.patience
  have hpositive : 0 < l.config.timeouts.get wait := UInt32.pos_iff_ne_zero.2 (hl.thresholds wait)
  obtain ⟨t, hcounted, ht⟩ := leads_write32_ram (counter_engineRam wait) 0 s hs.at
  obtain ⟨a, u, hpoll, hu⟩ := @ends_poll _ _ b l kind hl.quiet wait l.config.timeouts l.patience
    0 _ t ht hpositive (by omega)
  exact ⟨a, u, (Run.bind_of_done hcounted).trans hpoll, hu⟩

theorem ends_note (event : Event) : (Machine.note event : Run (Machine β) Unit).Ends b.Undisturbed :=
  ends_of_leads fun _ _ => ⟨_, _, leads_note event⟩

theorem ends_awaitAll (hl : CanWait l) (waits : List WaitKind) :
    (l.awaitAll kind waits).Ends b.Undisturbed := by
  induction waits with
  | nil => exact Run.ends_pure _
  | cons wait rest ih =>
    refine Run.ends_bind (ends_await hl wait) fun outcome => ?_
    cases outcome with
    | ready iterations => exact Run.ends_bind ih fun _ => Run.ends_pure _
    | error iterations => exact Run.ends_bind (ends_note _) fun _ => Run.ends_pure _
    | timedOut iterations =>
      have hrecover : (kind.recover : Run (Machine β) Unit).Ends b.Undisturbed := by
        refine ends_of_leads fun v hbase => ?_
        obtain ⟨v', hleads, -⟩ := leads_recover (b := b) (v := v) (hbase kind)
        exact ⟨(), v', hleads⟩
      refine Run.ends_bind (ends_note _) fun _ => ?_
      exact Run.ends_bind hrecover fun _ => Run.ends_pure _

/-- A command ends, whatever its unit makes of it. -/
theorem ends_execute (hl : CanWait l) (r : CommandRequest) :
    (l.execute r).Ends b.Undisturbed := by
  have hissue : (r.issue : Run (Machine β) (Option UInt8)).Ends b.Undisturbed := by
    refine ends_of_leads fun v hbase => ?_
    obtain ⟨slot, v', hleads, -⟩ := leads_issue (b := b) (v := v) r (hbase r.kind)
    exact ⟨slot, v', hleads⟩
  have hcomplete (entry : CompletionEntry) :
      (r.kind.complete entry : Run (Machine β) Unit).Ends b.Undisturbed := by
    refine ends_of_leads fun v hbase => ?_
    obtain ⟨v', hleads, -⟩ := leads_complete (b := b) (v := v) (hbase r.kind) entry
    exact ⟨(), v', hleads⟩
  refine Run.ends_bind hissue fun slot => Run.ends_bind (ends_note _) fun _ => ?_
  refine Run.ends_bind (ends_awaitAll hl r.kind.waits) fun result => ?_
  exact Run.ends_bind (hcomplete result.2) fun _ => Run.ends_pure _

end CommandBus

namespace Board

variable {α γ : Type} {c : InterruptController} {m : Run State α} {addr : UInt16}

/-- The run ends, and nothing of it is seen on the panel. -/
abbrev Unnoticed (c : InterruptController) (m : Run State α) : Prop := Shows c 0 (fun _ p => p) m

theorem Unnoticed.then {k : α → Run State γ} (hm : Unnoticed c m) (hk : ∀ a, Unnoticed c (k a)) :
    Unnoticed c (m >>= k) :=
  Shows.bind hm hk

theorem unnoticed_read (addr : UInt16) : Unnoticed c (Machine.read addr : Run State UInt8) := by
  refine shows_onBus fun rig failures hrig => ?_
  obtain ⟨value, rig', hread, hintact, hunseen⟩ := read_unseen hrig addr
  exact ⟨value, rig', hread, hintact, fun _ => hunseen.rigPanel failures⟩

theorem unnoticed_take : Unnoticed c (CommandRequest.take : Run State (Option CommandRequest)) := by
  have hkind : Hidden requestKind := by decide
  have haddress : Unnoticed c (Machine.read32 requestAddress : Run State UInt32) := by
    simp only [Machine.read32, RegisterBus.read32, Machine.onBus_bind]
    refine (unnoticed_read _).then fun b3 => (unnoticed_read _).then fun b2 => ?_
    exact (unnoticed_read _).then fun b1 => (unnoticed_read _).then fun b0 => shows_pure _
  refine (unnoticed_read _).then fun code => ?_
  split
  · exact shows_pure _
  refine (shows_write_hidden hkind 0).bind fun _ => ?_
  cases CommandKind.ofRequest? code with
  | none => exact (shows_note _).bind fun _ => shows_pure _
  | some kind =>
    refine (unnoticed_read _).then fun opcode => (unnoticed_read _).then fun param => ?_
    exact (unnoticed_read _).then fun tag => haddress.then fun address => shows_pure _

/-- With no interrupt to take, the panel stays as it was. -/
def Still (s t : State) : Prop :=
  s.bus.Intact → s.irq.next? = none → Stays 0 s t ∧ panel t = panel s

theorem extends_still : Extends Still := by
  refine ⟨fun s hs _ => ⟨.refl hs, rfl⟩, ?_⟩
  intro s t u hst htu hs hquiet
  obtain ⟨ht, hpanel⟩ := hst hs hquiet
  obtain ⟨hu, hpanel'⟩ := htu ht.intact (by rw [ht.irq, hquiet])
  exact ⟨ht.trans hu, hpanel'.trans hpanel⟩

theorem Unnoticed.keeps (h : ∀ c, Unnoticed c m) : m.Keeps Still := by
  intro s a t hrun hs _
  obtain ⟨a', t', hrun', hstays, hpanel⟩ := h s.irq s hs rfl
  cases hrun.symm.trans hrun'
  exact ⟨hstays, hpanel⟩

/-- Whatever the engine writes to is hidden. -/
theorem hidden_of_engineWrite {value : UInt8} (h : EngineWrite addr value) : Hidden addr := by
  refine ⟨?_, h.apart.secondary⟩
  suffices hoff : ∀ cell ∈ Cell.all, cell.addr ≠ addr by
    exact List.find?_eq_none.2 fun cell hcell => by simpa using hoff cell hcell
  cases h with
  | ram h =>
    rintro cell hcell rfl
    have hoff : ∀ cell ∈ Cell.all, ¬EngineRam cell.addr := by decide
    exact hoff cell hcell h
  | recovery h =>
    rintro cell hcell rfl
    have hoff : ∀ cell ∈ Cell.all, cell.addr ∉ recoveryControls := by decide
    exact hoff cell hcell h
  | @unit kind offset _ h =>
    have hoff : ∀ n : Fin 16, ∀ cell ∈ Cell.all, cell.addr ≠ kind.block + UInt16.ofNat n := by
      cases kind <;> decide
    have hlt : offset.toNat < 16 := UInt16.lt_iff_toNat_lt.1 h
    have hall := hoff ⟨offset.toNat, hlt⟩
    rwa [UInt16.ofNat_toNat] at hall

theorem admits_still :
    Admits (fun α (m : Run State α) => m.Keeps Still : Steps (Rig Record)) EngineWrite :=
  ⟨fun event => Unnoticed.keeps fun _ => shows_note event,
    fun addr => Unnoticed.keeps fun _ => unnoticed_read addr,
    fun _ value h => Unnoticed.keeps fun _ => shows_write_hidden (hidden_of_engineWrite h) value⟩

/-- What stays while the global enable is clear stays once it is put back. -/
theorem Stays.reopened {depth : Nat} {s u : State}
    (h : Stays depth { s with irq := s.irq.setGlobal false } u) :
    Stays depth s { u with irq := u.irq.setGlobal s.irq.globallyEnabled } := by
  have hirq : u.irq.setGlobal s.irq.globallyEnabled = s.irq := by
    rw [h.irq]
    exact s.irq.setGlobal_setGlobal
  have hservice : u.irq.inService = s.irq.inService := h.restored.inService
  exact ⟨⟨h.intact, ⟨⟨h.restored.entries, h.restored.used, h.restored.capacity, hservice⟩,
    h.restored.active⟩, h.highWater⟩, hirq⟩

theorem still_critical {body : Run State α} (h : body.Keeps Still) :
    (Machine.critical body).Keeps Still := by
  intro s a t hrun hs _
  obtain ⟨u, hinner, rfl⟩ := Machine.critical_eq_done hrun
  obtain ⟨hu, hpanel⟩ := h _ _ u hinner hs s.irq.next?_setGlobal_false
  exact ⟨hu.reopened, hpanel⟩

section Service

variable {l : Linkage (Rig Record)} (hl : CommandBus.CanWait l) (hc : c.next? = none)

include hl hc

theorem unnoticed_execute (r : CommandRequest) : Unnoticed c (l.execute r) := by
  intro s hs hirq
  have hquiet : s.irq.next? = none := by rw [hirq, hc]
  have hpoll : l.poll.Keeps Still := by
    intro s a t hrun hs hquiet
    cases (hl.quiet s hquiet).symm.trans hrun
    exact ⟨.refl hs, rfl⟩
  obtain ⟨out, t, hrun, -⟩ :=
    CommandBus.ends_execute (b := Rig.commandBus) hl r s ⟨hs.wired, hquiet⟩
  have hkeeps : (l.execute r).Keeps Still :=
    (Solitary.execute r).keeps (Composed.execute r (admits_still.command _)) extends_still
      (fun _ hbody => still_critical hbody) (fun _ _ h => h) hpoll
  obtain ⟨hstays, hpanel⟩ := hkeeps s out t hrun hs hquiet
  exact ⟨out, t, hrun, hstays, hpanel⟩

theorem unnoticed_commandServiceRoutine (param : Option UInt8) :
    Unnoticed c (commandServiceRoutine l param) := by
  refine unnoticed_take.then fun found => ?_
  cases found with
  | none => exact shows_pure ()
  | some r => exact (unnoticed_execute hl hc r).then fun _ => shows_pure ()

end Service

/-- With a patience above every threshold, the linkage of a board can wait. -/
theorem canWait_linkage {config : FirmwareConfig} {fw : BoardFirmware} (h : link config = .ok fw)
    {n : Nat} (hn : 2 ^ 32 ≤ n) : CommandBus.CanWait (fw.linkage (n + 1)) := by
  obtain ⟨hdefect, hconfig, -, -⟩ := Firmware.link_eq_ok h
  have hchecked := FirmwareConfig.checked_of_defect? hdefect
  refine ⟨fw.quiet_linkage n, hn, fun wait => ?_⟩
  change fw.config.timeouts.get wait ≠ 0
  rw [hconfig]
  exact hchecked.thresholds wait

/-- A dispatch of the command service is not seen on the panel, unless it has no room. -/
theorem shows_dispatch_service {config : FirmwareConfig} {fw : BoardFirmware}
    (h : link config = .ok fw) {n : Nat} (hn : 2 ^ 32 ≤ n) (hc : c.next? = none) :
    Shows c 5 (fun r p => p.framed r fun _ p => p)
      ((fw.linkage (n + 2)).dispatch .commandService none) := by
  have hroutine : Shows c 0 (fun _ p => p)
      (routineOf .commandService (fw.linkage (n + 1)) none) :=
    unnoticed_commandServiceRoutine (canWait_linkage h hn) hc none
  exact shows_dispatch h rfl (by decide) hroutine

end Board

end BankedController
