import BankedController.Proofs.EngineMemory
import BankedController.Proofs.PlainMemory
import BankedController.Proofs.RollingCounters
import BankedController.Proofs.Sparing

namespace BankedController

open RegisterMap

variable {β α : Type}

theorem Recorded.access_eq_done {m : Run β α} {deed : α → Deed} {r r' : Recorded β} {a : α}
    (h : Recorded.access m deed r = .done a r') :
    m r.bus = .done a r'.bus ∧ r'.deeds = r.deeds ++ [deed a] := by
  unfold Recorded.access at h
  split at h
  next hm =>
    cases h
    exact ⟨hm, rfl⟩
  next => cases h
  next => cases h

namespace Recorded

variable [RegisterBus β] {r r' : Recorded β} {addr : UInt16} {value : UInt8}

/-- A read is not among the deeds of the engine. -/
theorem read_eq_done (h : RegisterBus.read addr r = .done value r') :
    RegisterBus.read addr r.bus = .done value r'.bus ∧ r'.engineDeeds = r.engineDeeds := by
  obtain ⟨hbus, hdeeds⟩ := access_eq_done h
  refine ⟨hbus, ?_⟩
  unfold engineDeeds
  rw [hdeeds, List.filterMap_append]
  exact List.append_nil _

theorem write_eq_done (h : RegisterBus.write addr value r = .done () r') :
    RegisterBus.write addr value r.bus = .done () r'.bus ∧
      r'.engineDeeds = r.engineDeeds ++ (Deed.engine? (.write addr value)).toList := by
  obtain ⟨hbus, hdeeds⟩ := access_eq_done h
  refine ⟨hbus, ?_⟩
  unfold engineDeeds
  rw [hdeeds, List.filterMap_append, List.filterMap_cons]
  cases Deed.engine? (.write addr value) <;> rfl

end Recorded

/-- An address that the engine neither counts nor stores a place at. -/
structure Foreign (addr : UInt16) : Prop where
  state : addr ≠ commandState
  slot : addr ≠ commandSlot
  tail : addr ≠ queueTail

theorem Foreign.engine? {addr : UInt16} (h : Foreign addr) (value : UInt8) :
    Deed.engine? (.write addr value) = none :=
  (if_neg h.state).trans ((if_neg h.slot).trans (if_neg h.tail))

theorem Foreign.not_rolling {addr : UInt16} (h : Foreign addr) : ¬Rolling addr := by
  rintro (rfl | rfl)
  · exact h.state rfl
  · exact h.tail rfl

namespace PlainMemory

variable [RegisterBus β] (b : PlainMemory β Rolling)

/-- Nothing is done that concerns the engine. -/
def Quiet (r r' : Recorded β) : Prop :=
  b.wired r.bus → b.Still r.bus r'.bus ∧ r'.engineDeeds = r.engineDeeds

/-- The two bytes are not written, though maybe the place of the command in flight. -/
def Leaves (r r' : Recorded β) : Prop :=
  b.wired r.bus → b.Still r.bus r'.bus ∧
    ∃ places : List UInt8, r'.engineDeeds = r.engineDeeds ++ places.map .slot

/-- What the engine does is one of the given. -/
def Adds (K : List EngineDeed → Prop) (r r' : Recorded β) : Prop :=
  b.wired r.bus → b.wired r'.bus ∧ ∃ deeds, K deeds ∧ r'.engineDeeds = r.engineDeeds ++ deeds

/-- The engine does something and counts on. -/
def Rolls (r r' : Recorded β) : Prop :=
  b.wired r.bus → b.wired r'.bus ∧ ∃ deeds, r'.engineDeeds = r.engineDeeds ++ deeds ∧
    Rolled (b.ram r.bus commandState) (b.ram r.bus queueTail) deeds
      (b.ram r'.bus commandState) (b.ram r'.bus queueTail)

/-- What a routine may do by itself: claim a place for a submission, end a command, and anything that
does not write the two bytes. -/
inductive EngineStep : Steps (Recorded β)
  | aside {α : Type} (m : Run (Machine (Recorded β)) α) (h : m.Keeps (OnBus b.Leaves)) :
    EngineStep α m
  | claim : EngineStep UInt8 CommandRequest.claimSlot
  | complete (kind : CommandKind) (entry : CompletionEntry) : EngineStep Unit (kind.complete entry)

variable {b} {addr : UInt16} {value : UInt8}

theorem extends_quiet : Extends b.Quiet where
  refl r h := ⟨.refl h, rfl⟩
  trans h h' hr := by
    obtain ⟨hstill, hdeeds⟩ := h hr
    obtain ⟨hstill', hdeeds'⟩ := h' hstill.wired
    exact ⟨hstill.trans hstill', hdeeds'.trans hdeeds⟩

theorem extends_adds {K : List EngineDeed → Prop} (hnil : K [])
    (happend : ∀ {deeds deeds'}, K deeds → K deeds' → K (deeds ++ deeds')) :
    Extends (b.Adds K) where
  refl r h := ⟨h, [], hnil, (List.append_nil _).symm⟩
  trans h h' hr := by
    obtain ⟨hwired, deeds, hK, hdeeds⟩ := h hr
    obtain ⟨hwired', deeds', hK', hdeeds'⟩ := h' hwired
    refine ⟨hwired', deeds ++ deeds', happend hK hK', ?_⟩
    rw [hdeeds', hdeeds, List.append_assoc]

theorem extends_rolls : Extends b.Rolls where
  refl r h := ⟨h, [], (List.append_nil _).symm, .nil _ _⟩
  trans h h' hr := by
    obtain ⟨hwired, deeds, hdeeds, hrolled⟩ := h hr
    obtain ⟨hwired', deeds', hdeeds', hrolled'⟩ := h' hwired
    refine ⟨hwired', deeds ++ deeds', ?_, hrolled.trans hrolled'⟩
    rw [hdeeds', hdeeds, List.append_assoc]

theorem Quiet.adds {K : List EngineDeed → Prop} (hnil : K []) {r r' : Recorded β}
    (h : b.Quiet r r') : b.Adds K r r' := by
  intro hr
  obtain ⟨hstill, hdeeds⟩ := h hr
  exact ⟨hstill.wired, [], hnil, hdeeds.trans (List.append_nil _).symm⟩

theorem Quiet.leaves {r r' : Recorded β} (h : b.Quiet r r') : b.Leaves r r' := by
  intro hr
  obtain ⟨hstill, hdeeds⟩ := h hr
  exact ⟨hstill, [], hdeeds.trans (List.append_nil _).symm⟩

theorem Leaves.rolls {r r' : Recorded β} (h : b.Leaves r r') : b.Rolls r r' := by
  intro hr
  obtain ⟨hstill, places, hdeeds⟩ := h hr
  refine ⟨hstill.wired, places.map .slot, hdeeds, ?_⟩
  rw [hstill.ram _ (.inl rfl), hstill.ram _ (.inr rfl)]
  clear hdeeds
  induction places with
  | nil => exact .nil _ _
  | cons place rest ih => exact .stored place ih

section Accesses

variable {r r' : Recorded β}

theorem quiet_read (h : RegisterBus.read addr r = .done value r') : b.Quiet r r' := by
  intro hr
  obtain ⟨hread, hdeeds⟩ := Recorded.read_eq_done h
  exact ⟨still_read hr hread, hdeeds⟩

/-- A write to any other address than the two bytes' leaves them. -/
theorem still_write (haddr : ¬Rolling addr) (hr : b.wired r.bus)
    (h : RegisterBus.write addr value r = .done () r') :
    b.Still r.bus r'.bus ∧
      r'.engineDeeds = r.engineDeeds ++ (Deed.engine? (.write addr value)).toList := by
  obtain ⟨hwrite, hdeeds⟩ := Recorded.write_eq_done h
  obtain ⟨hwired, hram⟩ := b.write hr hwrite
  refine ⟨⟨hwired, fun a ha => ?_⟩, hdeeds⟩
  rw [hram a ha, if_neg]
  rintro rfl
  exact haddr ha

theorem quiet_write (haddr : Foreign addr) (h : RegisterBus.write addr value r = .done () r') :
    b.Quiet r r' := by
  intro hr
  obtain ⟨hstill, hdeeds⟩ := still_write haddr.not_rolling hr h
  rw [haddr.engine?] at hdeeds
  exact ⟨hstill, hdeeds.trans (List.append_nil _)⟩

theorem leaves_write (haddr : ¬Rolling addr) (h : RegisterBus.write addr value r = .done () r') :
    b.Leaves r r' := by
  intro hr
  obtain ⟨hstill, hdeeds⟩ := still_write haddr hr h
  refine ⟨hstill, ?_⟩
  by_cases hslot : addr = commandSlot
  · subst hslot
    exact ⟨[value], hdeeds⟩
  · have hforeign : Foreign addr := ⟨fun he => haddr (.inl he), hslot, fun he => haddr (.inr he)⟩
    rw [hforeign.engine?] at hdeeds
    exact ⟨[], hdeeds⟩

end Accesses

theorem admits_quiet : Admits (Keeping (OnBus b.Quiet)) fun addr _ => Foreign addr where
  note event := Machine.keeps_note extends_quiet event
  read addr := by
    intro s value t h
    obtain ⟨bus, hread, rfl⟩ := Machine.onBus_eq_done h
    exact quiet_read hread
  write addr value haddr := by
    intro s _ t h
    obtain ⟨bus, hwrite, rfl⟩ := Machine.onBus_eq_done h
    exact quiet_write haddr hwrite

theorem admits_engineStep : Admits b.EngineStep fun addr _ => ¬Rolling addr where
  note event := .aside _ fun s _ t h => (Machine.keeps_note extends_quiet event s _ t h).leaves
  read addr := by
    refine .aside _ fun s value t h => ?_
    obtain ⟨bus, hread, rfl⟩ := Machine.onBus_eq_done h
    exact (quiet_read hread).leaves
  write addr value haddr := by
    refine .aside _ fun s _ t h => ?_
    obtain ⟨bus, hwrite, rfl⟩ := Machine.onBus_eq_done h
    exact leaves_write haddr hwrite

theorem foreign_of_not_engineByte (h : ¬EngineByte addr) : Foreign addr := by
  refine ⟨?_, ?_, ?_⟩ <;> rintro rfl <;> exact h (by decide)

/-- The counters of the waits lie behind the engine's bytes. -/
theorem foreign_of_countsAt {kind : CommandKind} (h : kind.CountsAt addr) : Foreign addr := by
  refine ⟨?_, (EngineMemory.ne_of_countsAt h).1, ?_⟩ <;> rintro rfl <;> cases kind <;>
    exact absurd h (by decide)

/-- What is written while a unit is waited for is foreign to the engine. -/
theorem foreign_of_waitWrite {kind : CommandKind} (h : WaitWrite kind addr value) :
    Foreign addr := by
  cases h with
  | unit h =>
    cases h with
    | register h => exact foreign_of_not_engineByte (EngineMemory.not_engineByte_block kind h)
    | recovery h =>
      simp only [recoveryControls, List.mem_cons, List.not_mem_nil, or_false] at h
      rcases h with rfl | rfl | rfl | rfl <;> exact foreign_of_not_engineByte (by decide)
    | recoveries => exact ⟨by decide, by decide, by decide⟩
  | counter h => exact foreign_of_countsAt h

theorem admits_wait (kind : CommandKind) :
    Admits (Keeping (OnBus b.Quiet)) (WaitWrite kind) :=
  admits_quiet.mono fun _ _ h => foreign_of_waitWrite h

theorem admits_scan : Admits b.EngineStep ScanWrite := by
  refine admits_engineStep.mono fun addr value h => ?_
  rcases h with rfl | rfl | hsecondary
  · decide
  · decide
  · rintro (rfl | rfl) <;> exact absurd hsecondary (by decide)

theorem admits_route : Admits b.EngineStep RouteWrite := by
  refine admits_engineStep.mono fun addr value h => ?_
  rcases h with rfl | rfl | rfl <;> decide

section Engine

variable {s t : Machine (Recorded β)}

/-- A quiet program is quiet wherever it runs. -/
theorem quiet_of_composed {m : Run (Machine (Recorded β)) α}
    (h : Composed (Keeping (OnBus b.Quiet)) fun _ => m) : m.Keeps (OnBus b.Quiet) :=
  h.keeps (tolerates_onBus extends_quiet).survives (fun _ _ h => h)
    (l := Linkage.exhausted .standard ⟨[]⟩) ⟨fun _ _ => Run.keeps_giveUp, Run.keeps_giveUp⟩

theorem read_rolling (haddr : Rolling addr) (hwired : b.wired s.bus.bus)
    (h : Machine.read addr s = .done value t) :
    value = b.ram s.bus.bus addr ∧ OnBus b.Quiet s t := by
  obtain ⟨bus, hread, rfl⟩ := Machine.onBus_eq_done h
  refine ⟨?_, quiet_read hread⟩
  obtain ⟨bus', hfetch⟩ := b.fetch hwired haddr
  rw [(Recorded.read_eq_done hread).1] at hfetch
  cases hfetch
  rfl

theorem write_engine (hwired : b.wired s.bus.bus) (h : Machine.write addr value s = .done () t) :
    b.wired t.bus.bus ∧
      (∀ a, Rolling a → b.ram t.bus.bus a = if a = addr then value else b.ram s.bus.bus a) ∧
      t.bus.engineDeeds = s.bus.engineDeeds ++ (Deed.engine? (.write addr value)).toList := by
  obtain ⟨bus, hbus, rfl⟩ := Machine.onBus_eq_done h
  obtain ⟨hwrite, hdeeds⟩ := Recorded.write_eq_done hbus
  obtain ⟨hwired', hram⟩ := b.write hwired hwrite
  exact ⟨hwired', hram, hdeeds⟩

/-- A submission claims the place at the end of the queue and moves the end past it. -/
theorem claimSlot_done (hwired : b.wired s.bus.bus) {place : UInt8}
    (h : CommandRequest.claimSlot s = .done place t) :
    b.wired t.bus.bus ∧ place = b.ram s.bus.bus queueTail &&& queueMask ∧
      b.ram t.bus.bus commandState = b.ram s.bus.bus commandState ∧
      b.ram t.bus.bus queueTail = place + 1 &&& queueMask ∧
      t.bus.engineDeeds = s.bus.engineDeeds ++ EngineDeed.claimed (some place) := by
  obtain ⟨tail, u, hread, h⟩ := Run.bind_eq_done.1 h
  obtain ⟨rfl, hquiet⟩ := read_rolling (.inr rfl) hwired hread
  obtain ⟨hstill, hdeeds⟩ := hquiet hwired
  obtain ⟨_, v, hplace, h⟩ := Run.bind_eq_done.1 h
  obtain ⟨hv, hram, hdeeds'⟩ := write_engine hstill.wired hplace
  obtain ⟨_, w, hnext, h⟩ := Run.bind_eq_done.1 h
  obtain ⟨hw, hram', hdeeds''⟩ := write_engine hv hnext
  cases h
  refine ⟨hw, rfl, ?_, ?_, ?_⟩
  · rw [hram' _ (.inl rfl), if_neg (by decide), hram _ (.inl rfl), if_neg (by decide),
      hstill.ram _ (.inl rfl)]
  · rw [hram' _ (.inr rfl), if_pos rfl]
  · rw [hdeeds'', hdeeds', hdeeds, List.append_assoc]
    rfl

/-- The end of a command counts it, and gives its place back. -/
theorem complete_done (hwired : b.wired s.bus.bus) {kind : CommandKind} {entry : CompletionEntry}
    (h : kind.complete entry s = .done () t) :
    b.wired t.bus.bus ∧
      b.ram t.bus.bus commandState = b.ram s.bus.bus commandState + 1 &&& commandStateMask ∧
      b.ram t.bus.bus queueTail = b.ram s.bus.bus queueTail ∧
      t.bus.engineDeeds = s.bus.engineDeeds ++
        EngineDeed.ended (b.ram s.bus.bus commandState + 1 &&& commandStateMask) := by
  have hsettle := quiet_of_composed (Composed.settle (admits_wait (b := b) kind).unit entry)
  obtain ⟨_, r, hsettled, h⟩ := Run.bind_eq_done.1 h
  obtain ⟨hr, hsame⟩ := hsettle _ _ _ hsettled hwired
  obtain ⟨before, u, hread, h⟩ := Run.bind_eq_done.1 h
  obtain ⟨rfl, hquiet⟩ := read_rolling (.inl rfl) hr.wired hread
  obtain ⟨hstill, hdeeds⟩ := hquiet hr.wired
  obtain ⟨_, v, hstate, h⟩ := Run.bind_eq_done.1 h
  obtain ⟨hv, hram, hdeeds'⟩ := write_engine hstill.wired hstate
  obtain ⟨_, w, hplace, hnote⟩ := Run.bind_eq_done.1 h
  obtain ⟨hw, hram', hdeeds''⟩ := write_engine hv hplace
  cases hnote
  refine ⟨hw, ?_, ?_, ?_⟩
  · rw [hram' _ (.inl rfl), if_neg (by decide), hram _ (.inl rfl), if_pos rfl, hr.ram _ (.inl rfl)]
  · rw [hram' _ (.inr rfl), if_neg (by decide), hram _ (.inr rfl), if_neg (by decide),
      hstill.ram _ (.inr rfl), hr.ram _ (.inr rfl)]
  · change w.bus.engineDeeds = _
    rw [hdeeds'', hdeeds', hdeeds, hsame, List.append_assoc, hr.ram _ (.inl rfl)]
    rfl

/-- Each step counts on. -/
theorem EngineStep.rolls {m : Run (Machine (Recorded β)) α} (h : b.EngineStep α m) :
    m.Keeps (OnBus b.Rolls) := by
  cases h with
  | aside m h => exact fun s a t hrun => (h s a t hrun).rolls
  | claim =>
    intro s place t hrun hs
    obtain ⟨ht, rfl, hstate, htail, hdeeds⟩ := claimSlot_done hs hrun
    refine ⟨ht, _, hdeeds, ?_⟩
    rw [hstate, htail, ← List.append_nil (EngineDeed.claimed _)]
    exact .claimed (.nil _ _)
  | complete kind entry =>
    intro s _ t hrun hs
    obtain ⟨ht, hstate, htail, hdeeds⟩ := complete_done hs hrun
    refine ⟨ht, _, hdeeds, ?_⟩
    rw [hstate, htail]
    exact .counted (.stored 0 (.nil _ _))

/-- A command is made of such steps, of accesses that are foreign to the two bytes, and of waits. -/
theorem composed_execute (r : CommandRequest) : Composed b.EngineStep fun l => l.execute r := by
  have hforeign : Admits b.EngineStep (WaitWrite r.kind) :=
    admits_engineStep.mono fun _ _ h => (foreign_of_waitWrite h).not_rolling
  have hplace : Composed b.EngineStep fun _ => r.place := by
    obtain ⟨kind, opcode, param, tag, address⟩ := r
    cases kind with
    | nvme => exact .sequence (.step _ .claim) fun _ => .done _
    | flash => exact .done _
    | phy => exact .done _
  have hissue : Composed b.EngineStep fun _ => r.issue :=
    .sequence hplace fun _ => .followed (.send r hforeign.unit) (.done _)
  refine .sequence hissue fun slot => .followed (.note hforeign _) ?_
  refine .sequence (.awaitAll hforeign fun _ hwait => hwait) fun result => ?_
  exact .followed (.step _ (.complete r.kind result.2)) (.done _)

theorem composed_service :
    Routine.ComposedOf b.EngineStep (commandServiceRoutine (β := Recorded β)) :=
  Composed.serviceOf (.take admits_engineStep (by decide)) composed_execute

/-- Submissions claim a place, and no other command does. -/
theorem place_done (hwired : b.wired s.bus.bus) {r : CommandRequest} {found : Option UInt8}
    (h : r.place s = .done found t) :
    b.wired t.bus.bus ∧ found.isSome = decide (r.kind = .nvme) ∧
      t.bus.engineDeeds = s.bus.engineDeeds ++ EngineDeed.claimed found := by
  obtain ⟨kind, opcode, param, tag, address⟩ := r
  cases kind with
  | nvme =>
    obtain ⟨place, u, hclaim, h⟩ := Run.bind_eq_done.1 h
    cases h
    obtain ⟨ht, -, -, -, hdeeds⟩ := claimSlot_done hwired hclaim
    exact ⟨ht, rfl, hdeeds⟩
  | flash | phy =>
    cases h
    exact ⟨hwired, rfl, (List.append_nil _).symm⟩

/-- What the engine does for a command: a submission claims a place, then comes what is done at the
preemption points of the waits, and last the end of the command. -/
theorem execute_done {l : Linkage (Recorded β)} {K : List EngineDeed → Prop} (hnil : K [])
    (happend : ∀ {deeds deeds'}, K deeds → K deeds' → K (deeds ++ deeds'))
    (hpoll : l.poll.Keeps (OnBus (b.Adds K))) (hwired : b.wired s.bus.bus) {r : CommandRequest}
    {outcome : CommandOutcome} (h : l.execute r s = .done outcome t) :
    outcome.slot.isSome = decide (r.kind = .nvme) ∧ ∃ nested value, K nested ∧
      t.bus.engineDeeds = s.bus.engineDeeds ++ EngineDeed.claimed outcome.slot ++ nested ++
        EngineDeed.ended value := by
  obtain ⟨place, u, hissue, h⟩ := Run.bind_eq_done.1 h
  obtain ⟨found, x, hplace, hsend⟩ := Run.bind_eq_done.1 hissue
  obtain ⟨hx, hclaims, hdeeds⟩ := place_done hwired hplace
  obtain ⟨_, y, hsent, hend⟩ := Run.bind_eq_done.1 hsend
  cases hend
  have hquiet := quiet_of_composed (Composed.send r (admits_wait (b := b) r.kind).unit)
  obtain ⟨hu, hsame⟩ := hquiet _ _ _ hsent hx
  obtain ⟨_, v, hnote, h⟩ := Run.bind_eq_done.1 h
  cases hnote
  obtain ⟨⟨waits, entry⟩, w, hawait, h⟩ := Run.bind_eq_done.1 h
  have hadds := extends_adds (b := b) hnil happend
  have hwaits : (l.awaitAll r.kind r.kind.waits).Keeps (OnBus (b.Adds K)) :=
    (Solitary.awaitAll r.kind r.kind.waits).keeps
      (Composed.awaitAll (admits_wait (b := b) r.kind) fun _ hwait => hwait) (extends_onBus hadds)
      (fun _ hbody => Machine.keeps_critical (tolerates_onBus hadds) hbody)
      (fun _ _ hm s a t hrun => (hm s a t hrun).adds hnil) hpoll
  obtain ⟨hw, nested, hK, hnested⟩ := hwaits _ _ _ hawait hu.wired
  obtain ⟨_, z, hcomplete, hlast⟩ := Run.bind_eq_done.1 h
  obtain ⟨-, -, -, hended⟩ := complete_done hw hcomplete
  have hfinal : z = t ∧ outcome.slot = place := by
    cases hlast
    exact ⟨rfl, rfl⟩
  obtain ⟨rfl, hslot⟩ := hfinal
  have hbefore : w.bus.engineDeeds =
      s.bus.engineDeeds ++ EngineDeed.claimed place ++ nested := by
    rw [hnested]
    change u.bus.engineDeeds ++ nested = _
    rw [hsame, hdeeds]
  rw [hbefore] at hended
  rw [hslot]
  exact ⟨hclaims, nested, _, hK, hended⟩

end Engine

/-- Calls and preemption points of a firmware count on, if its routines do. -/
theorem rolls_linkage {image : CodeImage (Routine (Recorded β))} {entries : List DispatchEntry}
    {config : FirmwareConfig} {fw : Firmware (Recorded β)}
    (h : Firmware.link image entries config = .ok fw) (himage : image.ComposedOf b.EngineStep)
    (n : Nat) : (fw.linkage n).Keeps (OnBus b.Rolls) := by
  obtain ⟨-, -, hfw, -⟩ := Firmware.link_eq_ok h
  have hcomposed : fw.image.ComposedOf b.EngineStep := by
    rw [hfw]
    exact CodeImage.forall_of_installCore (fun _ _ => Composed.scanRoutine admits_scan)
      (fun _ _ => composed_service) entries himage
  exact Firmware.keeps_linkage extends_rolls (fun _ _ hstep => hstep.rolls) admits_route hcomposed n

end PlainMemory

/-- The counts of the engine, where the two bytes are plain memory and no routine writes them but by
claiming places and by ending commands. Any number of commands in any mix may be carried out, posted
or not, and nested in the waits of others. The count of completions goes on by one each time, modulo
eight, and the end of the queue with every submission, modulo 32; the places that are claimed are
consecutive, in the order of the submissions, so that no 32 in a row have two the same. A submission
claims one place and any other command none, and every command is counted once, whatever becomes of
it. -/
theorem PlainMemory.counters_roll [RegisterBus β] (b : PlainMemory β Rolling)
    {image : CodeImage (Routine (Recorded β))} {entries : List DispatchEntry}
    {config : FirmwareConfig} {fw : Firmware (Recorded β)}
    (h : Firmware.link image entries config = .ok fw) (himage : image.ComposedOf b.EngineStep)
    (n : Nat) :
    (∀ {α : Type} {m : Linkage (Recorded β) → Run (Machine (Recorded β)) α},
      Composed b.EngineStep m → ∀ s a t, b.wired s.bus.bus → m (fw.linkage n) s = .done a t →
        ∃ deeds, t.bus.engineDeeds = s.bus.engineDeeds ++ deeds ∧
          Counts 8 (b.ram s.bus.bus commandState).toNat (EngineDeed.states deeds)
            (b.ram t.bus.bus commandState).toNat ∧
          Counts 32 (b.ram s.bus.bus queueTail).toNat (EngineDeed.tails deeds)
            (b.ram t.bus.bus queueTail).toNat ∧
          (EngineDeed.claims deeds).map UInt8.toNat =
            roll 32 (b.ram s.bus.bus queueTail).toNat (EngineDeed.tails deeds).length ∧
          ∀ i, (((EngineDeed.claims deeds).drop i).take 32).Nodup) ∧
    (∀ r, Composed b.EngineStep fun l => l.execute r) ∧
    (∀ kind entry, Composed b.EngineStep fun _ => CommandKind.complete kind entry) ∧
    Routine.ComposedOf b.EngineStep (commandServiceRoutine (β := Recorded β)) ∧
    (∀ K : List EngineDeed → Prop, K [] →
      (∀ {deeds deeds'}, K deeds → K deeds' → K (deeds ++ deeds')) →
      (fw.linkage n).poll.Keeps (OnBus (b.Adds K)) → ∀ r s outcome t, b.wired s.bus.bus →
        (fw.linkage n).execute r s = .done outcome t →
          outcome.slot.isSome = decide (r.kind = .nvme) ∧ ∃ nested value, K nested ∧
            t.bus.engineDeeds = s.bus.engineDeeds ++ EngineDeed.claimed outcome.slot ++ nested ++
              EngineDeed.ended value) ∧
    ∀ kind entry (s t : Machine (Recorded β)), b.wired s.bus.bus →
      CommandKind.complete kind entry s = .done () t →
        ∃ value, t.bus.engineDeeds = s.bus.engineDeeds ++ EngineDeed.ended value := by
  have hl := rolls_linkage h himage n
  refine ⟨fun hm s a t hs hrun => ?_, composed_execute, fun kind entry => .step _ (.complete kind entry),
    composed_service, fun K hnil happend hpoll r s outcome t hs hrun => ?_,
    fun kind entry s t hs hrun => ?_⟩
  · have hkeeps := hm.keeps (tolerates_onBus extends_rolls).survives
      (fun _ _ hstep => hstep.rolls) hl
    obtain ⟨-, deeds, hdeeds, hrolled⟩ := hkeeps s a t hrun hs
    obtain ⟨hstates, htails, hclaims⟩ := hrolled.counts
    refine ⟨deeds, hdeeds, hstates, htails, hclaims, fun i => ?_⟩
    have hnodup : ((((EngineDeed.claims deeds).drop i).take 32).map UInt8.toNat).Nodup := by
      rw [List.map_take, List.map_drop, hclaims, take_drop_roll]
      exact nodup_roll _ (Nat.min_le_left _ _)
    exact hnodup.of_map _
  · exact execute_done hnil happend hpoll hs hrun
  · obtain ⟨-, -, -, hdeeds⟩ := complete_done hs hrun
    exact ⟨_, hdeeds⟩

namespace NestedSubmissions

def submission : CommandRequest := ⟨.nvme, 0, 0, 0, 0⟩

def submit : Routine (Recorded Cells) := fun l _ => do
  let _ ← l.execute submission

def image : CodeImage (Routine (Recorded Cells)) := ⟨[⟨"master", .ofLogical .bank0 0x5100, submit⟩]⟩

def entries : List DispatchEntry := [⟨.usbMaster, .bank0, 0x5100, .callReturn⟩]

/-- Every wait may find its register busy twice. -/
def config : FirmwareConfig := { FirmwareConfig.standard with timeouts := ⟨2, 2, 2, 2⟩ }

/-- Whenever the master asks for service, a submission is carried out. -/
def firmware : Firmware (Recorded Cells) where
  config := config
  table := ⟨entries.map DispatchTable.slotOf⟩
  image := image

theorem link_image : Firmware.link image entries config = .ok firmware := rfl

/-- The two bytes hold numbers past their ends, no start bit is ever cleared, and the master asks for
service, which is served at the first preemption point. -/
def machine : Machine (Recorded Cells) where
  bus := ⟨⟨fun addr =>
    if addr = usbStatus then usbMasterBit
    else if addr = queueTail then 0xFF
    else if addr = commandState then 0xFF
    else 0⟩, []⟩
  window := .initial
  stack := .ofBase config.stackBase
  irq := { InterruptController.initial with
    enable := InterruptController.globalBit ||| IrqLine.endpoint.bit
    pending := ⟨true, false⟩ }
  stats := .initial
  log := ⟨none, []⟩

theorem composedOf_image : image.ComposedOf (Cells.memory Rolling).EngineStep := by
  intro placed hplaced param
  obtain rfl := List.mem_singleton.1 hplaced
  exact .sequence (PlainMemory.composed_execute submission) fun _ => .done ()

end NestedSubmissions

/-- A submission is carried out while another is waited for. The outer one has claimed the last place
of the queue, the inner one claims the first and ends before the outer, and both run out. -/
theorem PlainMemory.counters_roll_nested :
    ∃ outcome t, (NestedSubmissions.firmware.linkage 9).execute NestedSubmissions.submission
        NestedSubmissions.machine = .done outcome t ∧ outcome.slot = some 31 ∧
      t.bus.engineDeeds = EngineDeed.claimed (some 31) ++ EngineDeed.claimed (some 0) ++
        EngineDeed.ended 0 ++ EngineDeed.ended 1 ∧
      ((Cells.memory Rolling).ram t.bus.bus commandState).toNat = (255 + 2) % 8 ∧
      ((Cells.memory Rolling).ram t.bus.bus queueTail).toNat = (255 + 2) % 32 := by
  obtain ⟨hruns, hexecute, -⟩ := counters_roll (Cells.memory Rolling)
    NestedSubmissions.link_image NestedSubmissions.composedOf_image 9
  have hasked : ((NestedSubmissions.firmware.linkage 9).execute NestedSubmissions.submission
      NestedSubmissions.machine).ask? (fun t => t.bus.engineDeeds) =
        some (EngineDeed.claimed (some 31) ++ EngineDeed.claimed (some 0) ++
          EngineDeed.ended 0 ++ EngineDeed.ended 1) := by
    decide +kernel
  have hvalue : ((NestedSubmissions.firmware.linkage 9).execute NestedSubmissions.submission
      NestedSubmissions.machine).value?.bind CommandOutcome.slot = some 31 := by
    decide +kernel
  obtain ⟨outcome, t, hrun, hdeeds⟩ := Outcome.done_of_ask? hasked
  rw [hrun] at hvalue
  obtain ⟨deeds, hadded, hstates, htails, -⟩ := hruns (hexecute _) _ _ _ trivial hrun
  rw [hdeeds] at hadded
  obtain rfl := hadded
  exact ⟨outcome, t, hrun, hvalue, hdeeds, hstates.last, htails.last⟩

end BankedController
