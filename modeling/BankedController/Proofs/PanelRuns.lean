import BankedController.Proofs.BoardCalls
import BankedController.Proofs.PanelAccesses

/-! From every state on which no access faults a run ends, puts the stack and the bank back, and
moves the panel by a function of the panel and of the room that was left on the stack. -/

namespace BankedController.Board

open RegisterMap

/-- The bytes that are left on the stack. -/
def room (s : State) : Nat := s.stack.capacity - s.stack.used

/-- What a run leaves of a state, if it takes at most `depth` bytes of stack. -/
structure Returns (depth : Nat) (s t : State) : Prop where
  intact : t.bus.Intact
  restored : Restored s t
  highWater : s.stack.used + depth ≤ s.stack.capacity →
    t.stack.highWater ≤ max s.stack.highWater (s.stack.used + depth)

/-- Besides, it leaves the interrupt controller alone. -/
structure Stays (depth : Nat) (s t : State) : Prop extends Returns depth s t where
  irq : t.irq = s.irq

theorem Returns.refl {depth : Nat} {s : State} (h : s.bus.Intact) : Returns depth s s :=
  ⟨h, .refl s, fun _ => le_max_left _ _⟩

theorem Returns.trans {depth : Nat} {s t u : State} (h : Returns depth s t)
    (h' : Returns depth t u) : Returns depth s u := by
  refine ⟨h'.intact, h.restored.trans h'.restored, fun hfits => ?_⟩
  have hused := h.restored.used
  have hcapacity := h.restored.capacity
  have hfirst := h.highWater hfits
  have hsecond := h'.highWater (by omega)
  omega

theorem Returns.mono {depth deeper : Nat} {s t : State} (h : Returns depth s t)
    (hle : depth ≤ deeper) : Returns deeper s t := by
  refine ⟨h.intact, h.restored, fun hfits => ?_⟩
  have := h.highWater (by omega)
  omega

theorem Returns.room {depth : Nat} {s t : State} (h : Returns depth s t) : room t = room s := by
  unfold Board.room
  rw [h.restored.used, h.restored.capacity]

theorem Stays.refl {depth : Nat} {s : State} (h : s.bus.Intact) : Stays depth s s := ⟨.refl h, rfl⟩

theorem Stays.trans {depth : Nat} {s t u : State} (h : Stays depth s t) (h' : Stays depth t u) :
    Stays depth s u :=
  ⟨h.toReturns.trans h'.toReturns, h'.irq.trans h.irq⟩

theorem Stays.mono {depth deeper : Nat} {s t : State} (h : Stays depth s t) (hle : depth ≤ deeper) :
    Stays deeper s t :=
  ⟨h.toReturns.mono hle, h.irq⟩

/-- Another bus, other counts and another log do not matter to the stack. -/
theorem Stays.of_parts {depth : Nat} {s t : State} (hintact : t.bus.Intact)
    (hwindow : t.window = s.window) (hstack : t.stack = s.stack) (hirq : t.irq = s.irq) :
    Stays depth s t := by
  refine ⟨⟨hintact, ⟨⟨?_, ?_, ?_, ?_⟩, ?_⟩, fun _ => ?_⟩, hirq⟩
  all_goals first | rw [hstack] | rw [hirq] | rw [hwindow]
  exact le_max_left _ _

variable {α γ : Type} {c : InterruptController} {depth : Nat} {f g : Nat → Panel → Panel}

/-- The run ends and moves the panel. -/
def Shows (c : InterruptController) (depth : Nat) (f : Nat → Panel → Panel) (m : Run State α) :
    Prop :=
  ∀ s : State, s.bus.Intact → s.irq = c →
    ∃ a t, m s = .done a t ∧ Stays depth s t ∧ panel t = f (room s) (panel s)

/-- Besides, its value can be told from the panel. -/
def Answers (c : InterruptController) (depth : Nat) (v : Panel → α) (f : Nat → Panel → Panel)
    (m : Run State α) : Prop :=
  ∀ s : State, s.bus.Intact → s.irq = c →
    ∃ t, m s = .done (v (panel s)) t ∧ Stays depth s t ∧ panel t = f (room s) (panel s)

section Sequences

variable {m m' : Run State α} {k : α → Run State γ}

theorem Shows.bind (hm : Shows c depth f m) (hk : ∀ a, Shows c depth g (k a)) :
    Shows c depth (fun r p => g r (f r p)) (m >>= k) := by
  intro s hs hirq
  obtain ⟨a, t, hrun, hstays, hpanel⟩ := hm s hs hirq
  obtain ⟨b, u, hrest, hstays', hpanel'⟩ := hk a t hstays.intact (hstays.irq.trans hirq)
  refine ⟨b, u, (Run.bind_of_done hrun).trans hrest, hstays.trans hstays', ?_⟩
  rw [hpanel', hstays.room, hpanel]

/-- What comes next depends on the value, and with it on the panel. -/
theorem Answers.bind {v : Panel → α} {h : α → Nat → Panel → Panel} (hm : Answers c depth v f m)
    (hk : ∀ a, Shows c depth (h a) (k a)) :
    Shows c depth (fun r p => h (v p) r (f r p)) (m >>= k) := by
  intro s hs hirq
  obtain ⟨t, hrun, hstays, hpanel⟩ := hm s hs hirq
  obtain ⟨b, u, hrest, hstays', hpanel'⟩ := hk _ t hstays.intact (hstays.irq.trans hirq)
  refine ⟨b, u, (Run.bind_of_done hrun).trans hrest, hstays.trans hstays', ?_⟩
  rw [hpanel', hstays.room, hpanel]

/-- The value of a run that only looks decides how the rest answers. -/
theorem Answers.look {v : Panel → α} {w : α → Panel → γ} {h : α → Nat → Panel → Panel}
    (hm : Answers c depth v (fun _ p => p) m) (hk : ∀ a, Answers c depth (w a) (h a) (k a)) :
    Answers c depth (fun p => w (v p) p) (fun r p => h (v p) r p) (m >>= k) := by
  intro s hs hirq
  obtain ⟨t, hrun, hstays, hpanel⟩ := hm s hs hirq
  obtain ⟨u, hrest, hstays', hpanel'⟩ := hk (v (panel s)) t hstays.intact (hstays.irq.trans hirq)
  rw [hpanel] at hrest
  refine ⟨u, (Run.bind_of_done hrun).trans hrest, hstays.trans hstays', ?_⟩
  rw [hpanel', hstays.room, hpanel]

/-- The answer of the rest stands before the first part runs. -/
theorem Shows.answers {b : γ} (hm : Shows c depth f m)
    (hk : ∀ a, Answers c depth (fun _ => b) g (k a)) :
    Answers c depth (fun _ => b) (fun r p => g r (f r p)) (m >>= k) := by
  intro s hs hirq
  obtain ⟨a, t, hrun, hstays, hpanel⟩ := hm s hs hirq
  obtain ⟨u, hrest, hstays', hpanel'⟩ := hk a t hstays.intact (hstays.irq.trans hirq)
  refine ⟨u, (Run.bind_of_done hrun).trans hrest, hstays.trans hstays', ?_⟩
  rw [hpanel', hstays.room, hpanel]

/-- A first part that is not seen leaves the answer to the rest. -/
theorem Shows.aside {v : Panel → γ} (hm : Shows c depth (fun _ p => p) m)
    (hk : ∀ a, Answers c depth v g (k a)) : Answers c depth v g (m >>= k) := by
  intro s hs hirq
  obtain ⟨a, t, hrun, hstays, hpanel⟩ := hm s hs hirq
  obtain ⟨u, hrest, hstays', hpanel'⟩ := hk a t hstays.intact (hstays.irq.trans hirq)
  rw [hpanel] at hrest hpanel'
  refine ⟨u, (Run.bind_of_done hrun).trans hrest, hstays.trans hstays', ?_⟩
  rw [hpanel', hstays.room]

theorem Shows.mono {deeper : Nat} (h : Shows c depth f m) (hle : depth ≤ deeper) :
    Shows c deeper f m := by
  intro s hs hirq
  obtain ⟨a, t, hrun, hstays, hpanel⟩ := h s hs hirq
  exact ⟨a, t, hrun, hstays.mono hle, hpanel⟩

theorem answers_pure (a : α) : Answers c depth (fun _ => a) (fun _ p => p) (pure a : Run State α) :=
  fun s hs _ => ⟨s, rfl, .refl hs, rfl⟩

theorem shows_pure (a : α) : Shows c depth (fun _ p => p) (pure a : Run State α) :=
  fun s hs _ => ⟨a, s, rfl, .refl hs, rfl⟩

theorem shows_branch {q : Prop} [Decidable q] (yes : Shows c depth f m) (no : Shows c depth g m') :
    Shows c depth (fun r p => if q then f r p else g r p) (if q then m else m') := by
  by_cases h : q
  · simpa only [if_pos h] using yes
  · simpa only [if_neg h] using no

theorem shows_gets (h : State → α) : Shows c depth (fun _ p => p) (Run.gets h) :=
  fun s hs _ => ⟨h s, s, rfl, .refl hs, rfl⟩

theorem shows_note (event : Event) :
    Shows c depth (fun _ p => p) (Machine.note event : Run State Unit) :=
  fun s hs _ => ⟨(), s.noted event, rfl, .of_parts hs rfl rfl rfl, rfl⟩

theorem shows_onBus {n : Run (Rig Record) α}
    (h : ∀ rig failures, rig.Intact → ∃ a rig', n rig = .done a rig' ∧ rig'.Intact ∧
      ∀ r, rigPanel failures rig' = f r (rigPanel failures rig)) :
    Shows c depth f (Machine.onBus n) := by
  intro s hs _
  obtain ⟨a, rig, hrun, hintact, hpanel⟩ := h s.bus s.stats.failures hs
  exact ⟨a, { s with bus := rig }, Machine.onBus_of_done hrun, .of_parts hintact rfl rfl rfl,
    hpanel _⟩

end Sequences

section Accesses

variable {addr : UInt16}

theorem answers_read (h : Readable addr) :
    Answers c depth (fun p => p.load addr) (fun _ p => p)
      (Machine.read addr : Run State UInt8) := by
  intro s hs _
  obtain ⟨value, rig, hread, hintact, hpanel, hvalue⟩ := read_rigPanel hs addr s.stats.failures
  have hload : value = (panel s).load addr := hvalue h
  have hrun : Machine.read addr s = .done value { s with bus := rig } := Machine.onBus_of_done hread
  rw [hload] at hrun
  exact ⟨{ s with bus := rig }, hrun, .of_parts hintact rfl rfl rfl, hpanel⟩

theorem shows_write (addr : UInt16) (value : UInt8) :
    Shows c depth (fun _ p => p.store addr value) (Machine.write addr value : Run State Unit) := by
  refine shows_onBus fun rig failures hrig => ?_
  obtain ⟨rig', hwrite, hintact, hwrote⟩ := write_wrote hrig addr value
  exact ⟨(), rig', hwrite, hintact, fun _ => hwrote.rigPanel failures⟩

/-- An address that is not on the panel. -/
def Hidden (addr : UInt16) : Prop := Cell.at? addr = none ∧ ¬Secondary addr

instance (addr : UInt16) : Decidable (Hidden addr) := inferInstanceAs (Decidable (_ ∧ _))

theorem Panel.store_hidden (p : Panel) (h : Hidden addr) (value : UInt8) : p.store addr value = p := by
  unfold Panel.store
  rw [h.1, Journaled.endpointAt?_of_not_secondary h.2]

theorem shows_write_hidden (h : Hidden addr) (value : UInt8) :
    Shows c depth (fun _ p => p) (Machine.write addr value : Run State Unit) := by
  have hwrite := @shows_write c depth addr value
  simpa only [Panel.store_hidden _ h] using hwrite

theorem shows_setBits (h : Readable addr) (mask : UInt8) :
    Shows c depth (fun _ p => p.store addr (p.load addr ||| mask))
      (Machine.setBits addr mask : Run State Unit) := by
  simp only [Machine.setBits, RegisterBus.setBits, Machine.onBus_bind]
  exact (answers_read h).bind fun value => shows_write addr (value ||| mask)

theorem shows_clearBits (h : Readable addr) (mask : UInt8) :
    Shows c depth (fun _ p => p.store addr (p.load addr &&& ~~~mask))
      (Machine.clearBits addr mask : Run State Unit) := by
  simp only [Machine.clearBits, RegisterBus.clearBits, Machine.onBus_bind]
  exact (answers_read h).bind fun value => shows_write addr (value &&& ~~~mask)

end Accesses

section StandIns

theorem shows_remember {h : Record → Record}
    (hf : ∀ rig failures r,
      rigPanel failures { rig with record := h rig.record } = f r (rigPanel failures rig)) :
    Shows c depth f (Rig.remember h) :=
  shows_onBus fun rig failures hrig =>
    ⟨(), _, rfl, ⟨hrig.claims, hrig.whole⟩, hf rig failures⟩

theorem shows_post (r : CommandRequest) :
    Shows c depth (fun _ p => p) (r.post : Run State Unit) := by
  have hwrite {addr : UInt16} (h : Hidden addr) (value : UInt8) :
      Shows c depth (fun _ p => p) (Machine.write addr value : Run State Unit) :=
    shows_write_hidden h value
  have haddress : Shows c depth (fun _ p => p)
      (Machine.write32 requestAddress r.address : Run State Unit) := by
    simp only [Machine.write32, RegisterBus.write32, Machine.onBus_bind]
    exact (hwrite (by decide) _).bind fun _ => (hwrite (by decide) _).bind fun _ =>
      (hwrite (by decide) _).bind fun _ => hwrite (by decide) _
  exact (hwrite (by decide) _).bind fun _ => (hwrite (by decide) _).bind fun _ =>
    (hwrite (by decide) _).bind fun _ => haddress.bind fun _ => hwrite (by decide) _

theorem shows_takeTag : Shows c depth (fun _ p => p) takeTag := by
  refine (shows_gets _).bind fun tag => ?_
  have hnext : Shows c depth (fun _ p => p)
      (Rig.remember fun r : Record => { r with nextTag := tag + 1 }) :=
    shows_remember fun _ _ _ => rfl
  exact hnext.bind fun _ => shows_pure tag

theorem shows_behaviour (b : Behaviour) :
    Shows c depth (fun _ p => p.behave b) b.run := by
  cases b with
  | nothing => exact shows_pure ()
  | acknowledge register mask => exact shows_write register mask
  | clearMasterReady => exact shows_clearBits (readable_cell .peripheral) _
  | linkUp => exact shows_setBits (readable_cell .state) _
  | relayCommand =>
    have hdefer : Shows c depth (fun _ p => p.store systemState (p.load systemState ||| deferredHost))
        (Machine.setBits systemState deferredHost : Run State Unit) :=
      shows_setBits (readable_cell .state) _
    have hload (p : Panel) : (p.store usbStatus usbCommandBit).load systemState =
        p.load systemState := rfl
    have hsequence := (@shows_write c depth usbStatus usbCommandBit).bind fun _ =>
      shows_takeTag.bind fun tag => (shows_post (readCommand tag)).bind fun _ => hdefer
    simp only [hload] at hsequence
    exact hsequence

theorem shows_standIn (slot : SlotId) (l : Linkage (Rig Record)) (param : Option UInt8) :
    Shows c depth (fun _ p => p.called slot param) (standIn slot l param) := by
  refine (shows_gets _).bind fun bank => ?_
  have hrecord : Shows c depth (fun _ p => { p with calls := (slot, param) :: p.calls })
      (Rig.remember fun r : Record =>
        { r with activity := ⟨slot, param, bank⟩ :: r.activity }) :=
    shows_remember fun _ _ _ => rfl
  exact hrecord.bind fun _ => shows_behaviour _

end StandIns

section Dispatches

variable {config : FirmwareConfig} {fw : BoardFirmware}

theorem panel_opened (slot : DispatchSlot) (param : Option UInt8) (s : State) (id : SlotId) :
    panel (FarCall.opened slot param { s with stats := s.stats.called id }) = panel s := by
  unfold panel
  rw [FarCall.bus_opened, FarCall.stats_opened]
  rfl

theorem panel_closed (slot : DispatchSlot) (bank : Bank) (entries : List StackEntry) (u : State) :
    panel (FarCall.closed slot bank entries u) = panel u := by
  unfold panel
  rw [FarCall.bus_closed, FarCall.stats_closed]

/-- A dispatch with room for its frame runs the routine of its slot with what room is left. -/
theorem dispatch_of_fits (h : link config = .ok fw) {l l' : Linkage (Rig Record)} {id : SlotId}
    {param : Option UInt8} (hl : l.call id param = fw.callWith l' id param) {slot : DispatchSlot}
    (hslot : fw.table.slot? id = some slot)
    (hbody : Shows c depth f (routineOf id l' param)) {s : State} (hs : s.bus.Intact)
    (hirq : s.irq = c) (hfits : s.stack.used + 5 ≤ s.stack.capacity) :
    ∃ t, l.dispatch id param s = .done () t ∧ Stays (depth + 5) s t ∧
      panel t = f (room s - 5) (panel s) := by
  obtain ⟨placed, hmem, haddr, hcall⟩ := Firmware.callWith_of_fits h l' hslot param hfits
  rw [body_of_target h hslot hmem haddr] at hcall
  let o : State := FarCall.opened slot param { s with stats := s.stats.called id }
  have hbus : o.bus = s.bus := FarCall.bus_opened ..
  have hopened : o.irq = s.irq := FarCall.irq_opened ..
  obtain ⟨_, u, hrun, hstays, hpanel⟩ := hbody o (hbus.symm ▸ hs) (hopened.trans hirq)
  have hused : o.stack.used = s.stack.used + 5 := rfl
  have hcapacity : o.stack.capacity = s.stack.capacity := rfl
  have hmark : o.stack.highWater = max (max (max s.stack.highWater (s.stack.used + 2))
      (s.stack.used + 3)) (s.stack.used + 5) := rfl
  have hrestored := FarCall.restored_of_closed hstays.restored.toKept
  refine ⟨FarCall.closed slot s.window.active s.stack.entries u, ?_, ⟨⟨?_, ?_, ?_⟩, ?_⟩, ?_⟩
  · unfold Linkage.dispatch
    rw [hl, Run.bind_of_done (hcall u hrun hstays.restored.toKept)]
    rfl
  · rw [FarCall.bus_closed]
    exact hstays.intact
  · exact ⟨⟨hrestored.entries, hrestored.used, hrestored.capacity, hrestored.inService⟩,
      hrestored.active⟩
  · -- the routine stands on the five bytes of the frame
    intro hdeep
    have hbody := hstays.highWater (by omega)
    change u.stack.highWater ≤ _
    omega
  · rw [FarCall.irq_closed, hstays.irq, hopened]
  · have hroom : room o = room s - 5 := by
      unfold room
      omega
    rw [panel_closed, hpanel, hroom, panel_opened]

theorem dispatch_of_overflow (h : link config = .ok fw) {l l' : Linkage (Rig Record)} {id : SlotId}
    {param : Option UInt8} (hl : l.call id param = fw.callWith l' id param) {slot : DispatchSlot}
    (hslot : fw.table.slot? id = some slot) {s : State} (hs : s.bus.Intact)
    (hover : s.stack.capacity < s.stack.used + 5) :
    ∃ t, l.dispatch id param s = .done () t ∧ Stays (depth + 5) s t ∧
      panel t = (panel s).failed := by
  obtain ⟨t, hcall, hunmoved⟩ := Firmware.callWith_of_overflow h l' hslot param hover
  have hbus : t.bus = s.bus := hunmoved.bus
  have hrestored := hunmoved.restored
  have hfailures : t.stats.failures = s.stats.failures := by
    rw [hunmoved.stats]
    rfl
  let counted : State := { t with stats := t.stats.failed }
  refine ⟨counted.noted (.dispatchFailed id (FarCall.overflow slot s.window.active s.stack)), ?_,
    ⟨⟨?_, ?_, ?_⟩, ?_⟩, ?_⟩
  · unfold Linkage.dispatch
    rw [hl, Run.bind_of_done hcall]
    rfl
  · exact hbus.symm ▸ hs
  · exact ⟨⟨hrestored.entries, hrestored.used, hrestored.capacity, hrestored.inService⟩,
      hrestored.active⟩
  · intro hdeep
    omega
  · exact hunmoved.irq
  · change rigPanel (t.stats.failures + 1) t.bus = _
    rw [hbus, hfailures]
    rfl

/-- A dispatch moves the panel as the routine of its slot does, if there is room for its frame. -/
theorem shows_dispatch (h : link config = .ok fw) {l l' : Linkage (Rig Record)} {id : SlotId}
    {param : Option UInt8} (hl : l.call id param = fw.callWith l' id param)
    (hid : id ∈ DispatchEntry.standard.map DispatchEntry.slot)
    (hbody : Shows c depth f (routineOf id l' param)) :
    Shows c (depth + 5) (fun r p => p.framed r f) (l.dispatch id param) := by
  intro s hs hirq
  obtain ⟨slot, hslot⟩ := slot_of_standard h hid
  unfold Panel.framed
  dsimp only
  by_cases hfits : s.stack.used + 5 ≤ s.stack.capacity
  · obtain ⟨t, hrun, hstays, hpanel⟩ := dispatch_of_fits h hl hslot hbody hs hirq hfits
    refine ⟨(), t, hrun, hstays, ?_⟩
    rw [if_pos (by unfold room; omega), hpanel]
  · obtain ⟨t, hrun, hstays, hpanel⟩ :=
      @dispatch_of_overflow depth _ _ h _ _ _ _ hl _ hslot _ hs (Nat.lt_of_not_le hfits)
    refine ⟨(), t, hrun, hstays, ?_⟩
    rw [if_neg (by unfold room; omega), hpanel]

/-- A slot of the shipped table whose routine is a stand-in. -/
def Relayed (id : SlotId) : Prop :=
  id ∈ DispatchEntry.standard.map DispatchEntry.slot ∧ id ≠ .endpointScan ∧ id ≠ .commandService

instance (id : SlotId) : Decidable (Relayed id) := inferInstanceAs (Decidable (_ ∧ _))

theorem shows_dispatch_standIn (h : link config = .ok fw) (n : Nat) {id : SlotId}
    (hid : Relayed id) (param : Option UInt8) :
    Shows c 5 (fun r p => p.standIn r id param) ((fw.linkage (n + 1)).dispatch id param) := by
  obtain ⟨hmem, hscan, hservice⟩ := hid
  have hbody : Shows c 0 (fun _ p => p.called id param) (routineOf id (fw.linkage n) param) := by
    unfold routineOf
    rw [if_neg hscan, if_neg hservice]
    exact shows_standIn id _ param
  exact shows_dispatch h rfl hmem hbody

end Dispatches

end BankedController.Board
