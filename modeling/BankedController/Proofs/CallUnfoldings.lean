import BankedController.Proofs.MonitoredCalls

/-! A firmware whose routines do nothing but call runs the unfolding of its call graph, cut at as
many levels as frames fit on the stack. The induction is on the number of frames that fit, and
within it on the calls of a routine. -/

namespace BankedController

variable {β : Type}

/-- What there is to tell about calls if frames of calls fit down to level `levels`: as far as that
calls are entered and succeed, and at the next level they are refused. -/
inductive CallNote.Granted (levels : Nat) : CallNote → Prop
  | entered {level : Nat} {slot : SlotId} {param : Option UInt8} (h : level ≤ levels) :
    Granted levels (.entered level slot param)
  | ok {level : Nat} {slot : SlotId} {param : Option UInt8} (h : level ≤ levels) :
    Granted levels (.ended level slot param .ok)
  | refused {slot : SlotId} {param : Option UInt8} :
    Granted levels (.ended (levels + 1) slot param .overflow)

namespace CallGraph

variable (graph : CallGraph)

/-- What there is to tell about a call if `levels` more frames fit on the stack: the unfolding of the
graph from its slot, cut off below as many levels. -/
def unfolding : Nat → Nat → SlotId → Option UInt8 → List CallNote
  | 0, level, slot, param => [.ended level slot param .overflow]
  | levels + 1, level, slot, param =>
    .entered level slot param ::
      ((graph slot).flatMap fun i => unfolding levels (level + 1) i.slot i.param) ++
        [.ended level slot param .ok]

/-- The unfolding from a slot is at most `depth` levels deep. -/
def Within : Nat → SlotId → Prop
  | 0, _ => False
  | depth + 1, slot => ∀ i ∈ graph slot, Within depth i.slot

/-- The unfolding from a slot is `depth` levels deep. -/
structure HasDepth (slot : SlotId) (depth : Nat) : Prop where
  within : graph.Within depth slot
  least : ∀ less < depth, ¬graph.Within less slot

end CallGraph

/-- The number of frames of calls that fit on the stack. -/
def CallStack.levels (s : CallStack) : Nat := (s.capacity - s.used) / 5

section Steps

variable [RegisterBus β] {fw : Firmware β} {image : CodeImage (Routine β)}
  {entries : List DispatchEntry} {config : FirmwareConfig} {graph : CallGraph}
  {tell : CallNote → β → β} {id : SlotId} {slot : DispatchSlot} {param : Option UInt8}
  {s t u : Machine β} {level n : Nat}

/-- What calls leave on a machine with room for `levels` more frames, of which the monitor is told
`notes`, and which take at most `d` levels exactly if `fits d`. -/
structure Leaves (tell : CallNote → β → β) (notes : List CallNote) (fits : Nat → Prop)
    (levels : Nat) (s t : Machine β) : Prop where
  told : t.bus = notes.foldl (fun bus note => tell note bus) s.bus
  restored : Restored s t
  grown : s.stack.highWater ≤ t.stack.highWater
  bounded : t.stack.highWater ≤ max s.stack.highWater s.stack.capacity
  shallow : ∀ d ≤ levels, fits d → t.stack.highWater ≤ max s.stack.highWater (s.stack.used + 5 * d)
  deep : ∀ d < levels, ¬fits d → s.stack.used + 5 * (d + 1) ≤ t.stack.highWater

namespace Leaves

variable {notes notes' : List CallNote} {fits fits' : Nat → Prop} {levels : Nat}

omit [RegisterBus β]

theorem nothing (s : Machine β) : Leaves tell [] (fun _ => True) levels s s :=
  ⟨rfl, .refl s, Nat.le_refl _, Nat.le_max_left .., fun _ _ _ => Nat.le_max_left ..,
    fun _ _ h => absurd trivial h⟩

theorem andThen (h : Leaves tell notes fits levels s t) (h' : Leaves tell notes' fits' levels t u) :
    Leaves tell (notes ++ notes') (fun d => fits d ∧ fits' d) levels s u := by
  have hused := h.restored.used
  have hcapacity := h.restored.capacity
  have hgrown := h.grown
  have hgrown' := h'.grown
  refine ⟨?_, h.restored.trans h'.restored, by omega, ?_, ?_, ?_⟩
  · rw [List.foldl_append, ← h.told]
    exact h'.told
  · have := h.bounded
    have := h'.bounded
    omega
  · intro d hd hfits
    have := h.shallow d hd hfits.1
    have := h'.shallow d hd hfits.2
    omega
  · intro d hd hfits
    by_cases hfirst : fits d
    · have := h'.deep d hd fun hsecond => hfits ⟨hfirst, hsecond⟩
      omega
    · have := h.deep d hd hfirst
      omega

theorem congr (h : Leaves tell notes fits levels s t) (hiff : ∀ d, fits' d ↔ fits d) :
    Leaves tell notes fits' levels s t := by
  have hsame : fits' = fits := funext fun d => propext (hiff d)
  rwa [hsame]

/-- A machine that differs in its counts of calls and its log only. -/
theorem aside (h : Leaves tell notes fits levels s t) (hbus : u.bus = t.bus)
    (hwindow : u.window = t.window) (hstack : u.stack = t.stack) (hirq : u.irq = t.irq) :
    Leaves tell notes fits levels s u := by
  obtain ⟨bus, window, stack, irq, stats, log⟩ := u
  subst hbus hwindow hstack hirq
  exact ⟨h.told, ⟨⟨h.restored.entries, h.restored.used, h.restored.capacity, h.restored.inService⟩,
    h.restored.active⟩, h.grown, h.bounded, h.shallow, h.deep⟩

theorem restored_counted (s : Machine β) (id : SlotId) :
    Restored s { s with stats := s.stats.called id } :=
  ⟨⟨rfl, rfl, rfl, rfl⟩, rfl⟩

theorem restored_told {note : CallNote} (h : Restored s t) : Restored s (t.told tell note) :=
  ⟨⟨h.entries, h.used, h.capacity, h.inService⟩, h.active⟩

/-- A call that is refused. -/
theorem refused (slot : DispatchSlot) (hfits : ¬fits 0) :
    Leaves tell [.ended level id param .overflow] fits 0 s
      ((FarCall.refused slot { s with stats := s.stats.called id }).told tell
        (.ended level id param .overflow)) := by
  let counted : Machine β := { s with stats := s.stats.called id }
  have hunmoved := FarCall.unmoved_refused slot counted
  have hrestored : Restored s (FarCall.refused slot counted) :=
    (restored_counted s id).trans hunmoved.restored
  obtain ⟨hgrown, hbounded⟩ := FarCall.highWater_refused slot counted
  refine ⟨congrArg (tell _) hunmoved.bus, restored_told hrestored, hgrown, hbounded, ?_, ?_⟩
  · intro d hd hfit
    rw [Nat.le_zero.1 hd] at hfit
    exact absurd hfit hfits
  · intro d hd
    exact absurd hd (Nat.not_lt_zero d)

/-- A call that is entered: its routine makes its calls on top of the frame. -/
theorem entered (hroom : s.stack.used + 5 ≤ s.stack.capacity)
    (h : Leaves tell notes fits levels (Firmware.begun tell level id slot param s) u)
    (hzero : ¬fits' 0) (hsucc : ∀ d, fits' (d + 1) ↔ fits d) :
    Leaves tell (.entered level id param :: notes ++ [.ended level id param .ok]) fits' (levels + 1)
      s ((FarCall.closed slot s.window.active s.stack.entries u).told tell
        (.ended level id param .ok)) := by
  let begun := Firmware.begun tell level id slot param s
  change Leaves tell notes fits levels begun u at h
  have hbus : begun.bus = tell (.entered level id param) s.bus :=
    congrArg (tell _) (FarCall.bus_opened ..)
  have hused : begun.stack.used = s.stack.used + 5 := rfl
  have hcapacity : begun.stack.capacity = s.stack.capacity := rfl
  have hmark : begun.stack.highWater = max (max (max s.stack.highWater (s.stack.used + 2))
      (s.stack.used + 3)) (s.stack.used + 5) := rfl
  let counted : Machine β := { s with stats := s.stats.called id }
  have hkept : Kept (FarCall.opened slot param counted) u :=
    ⟨h.restored.entries, h.restored.used, h.restored.capacity, h.restored.inService⟩
  have hclosed : Restored counted (FarCall.closed slot s.window.active s.stack.entries u) :=
    FarCall.restored_of_closed hkept
  have hrestored := (restored_counted s id).trans hclosed
  have hgrown := h.grown
  have hbounded := h.bounded
  refine ⟨?_, restored_told hrestored, ?_, ?_, ?_, ?_⟩
  · have hclosed : (FarCall.closed slot s.window.active s.stack.entries u).bus = u.bus :=
      FarCall.bus_closed ..
    rw [List.cons_append, List.foldl_cons, List.foldl_append, ← hbus, ← h.told, ← hclosed]
    rfl
  · change s.stack.highWater ≤ u.stack.highWater
    omega
  · change u.stack.highWater ≤ _
    omega
  · intro d hd hfits
    change u.stack.highWater ≤ _
    cases d with
    | zero => exact absurd hfits hzero
    | succ d =>
      have := h.shallow d (Nat.le_of_succ_le_succ hd) ((hsucc d).1 hfits)
      omega
  · intro d hd hfits
    change _ ≤ u.stack.highWater
    cases d with
    | zero => omega
    | succ d =>
      have := h.deep d (Nat.lt_of_succ_lt_succ hd) fun hfit => hfits ((hsucc d).2 hfit)
      omega

end Leaves

namespace Firmware

/-- Calls of slots with room for `levels` more frames end as the unfolding of the graph says. -/
def Unfolds (fw : Firmware β) (graph : CallGraph) (tell : CallNote → β → β) (levels : Nat) : Prop :=
  ∀ level id slot param (s : Machine β), fw.table.slot? id = some slot → s.stack.levels = levels →
    ∃ t, (∀ n, levels < n →
        (fw.monitored tell level n).call id param s = .done (FarCall.verdict slot s) t) ∧
      Leaves tell (graph.unfolding levels level id param) (graph.Within · id) levels s t

end Firmware

namespace Invocation

/-- The machine on which a routine goes on after a call. -/
def after (t : Machine β) : Invocation → Except CallError Unit → Machine β
  | dispatch slot _, .error e =>
    Machine.noted { t with stats := t.stats.failed } (.dispatchFailed slot e)
  | _, _ => t

omit [RegisterBus β]

theorem run_of_call {l : Linkage β} {i : Invocation} {r : Except CallError Unit}
    (h : l.call i.slot i.param s = .done r t) : i.run l s = .done () (i.after t r) := by
  cases i with
  | call slot param => exact (Run.bind_of_done h).trans rfl
  | dispatch slot param =>
    refine (Run.bind_of_done h).trans ?_
    cases r with
    | ok => rfl
    | error e => rfl

theorem leaves_after {notes : List CallNote} {fits : Nat → Prop} {levels : Nat}
    (h : Leaves tell notes fits levels s t) (i : Invocation) (r : Except CallError Unit) :
    Leaves tell notes fits levels s (i.after t r) := by
  cases i with
  | call slot param => exact h
  | dispatch slot param =>
    cases r with
    | ok => exact h
    | error e => exact h.aside rfl rfl rfl rfl

end Invocation

namespace Firmware

/-- The calls of a routine, one after the other. -/
theorem runAll_unfolds {levels : Nat} (level : Nat) (h : fw.Unfolds graph tell levels)
    (calls : List Invocation)
    (hknown : ∀ i ∈ calls, ∃ inner, fw.table.slot? i.slot = some inner)
    (hlevels : s.stack.levels = levels) :
    ∃ t, (∀ n, levels < n → Invocation.runAll (fw.monitored tell level n) calls s = .done () t) ∧
      Leaves tell (calls.flatMap fun i => graph.unfolding levels level i.slot i.param)
        (fun d => ∀ i ∈ calls, graph.Within d i.slot) levels s t := by
  induction calls generalizing s with
  | nil =>
    refine ⟨s, fun _ _ => rfl, ?_⟩
    exact (Leaves.nothing s).congr fun d => by simp
  | cons i rest ih =>
    obtain ⟨slot, hslot⟩ := hknown i List.mem_cons_self
    obtain ⟨t, hcall, hleaves⟩ := h level i.slot slot i.param s hslot hlevels
    have hfirst := Invocation.leaves_after hleaves i (FarCall.verdict slot s)
    have hroom : (i.after t (FarCall.verdict slot s)).stack.levels = levels := by
      rw [CallStack.levels, hfirst.restored.capacity, hfirst.restored.used]
      exact hlevels
    obtain ⟨u, hrest, hleaves'⟩ := ih (fun j hj => hknown j (List.mem_cons_of_mem _ hj)) hroom
    refine ⟨u, fun n hn => ?_, ?_⟩
    · exact (Run.bind_of_done (Invocation.run_of_call (hcall n hn))).trans (hrest n hn)
    · rw [List.flatMap_cons]
      exact (hfirst.andThen hleaves').congr fun d => List.forall_mem_cons

/-- The induction is on the number of frames that fit. With none a call is refused; with one more
than before it is entered, and its routine finds room for one less. -/
theorem unfolds (h : link image entries config = .ok fw) (hcalls : fw.Calls graph) (levels : Nat) :
    fw.Unfolds graph tell levels := by
  induction levels with
  | zero =>
    intro level id slot param s hslot hlevels
    have hover : s.stack.capacity < s.stack.used + 5 := by
      rw [CallStack.levels] at hlevels
      omega
    refine ⟨_, fun n hn => ?_, Leaves.refused slot not_false⟩
    cases n with
    | zero => omega
    | succ n =>
      rw [FarCall.verdict, if_pos hover]
      exact monitored_call_of_overflow tell level n param h hslot hover
  | succ levels ih =>
    intro level id slot param s hslot hlevels
    have hfits : s.stack.used + 5 ≤ s.stack.capacity := by
      rw [CallStack.levels] at hlevels
      omega
    have hroom : (begun tell level id slot param s).stack.levels = levels := by
      change (s.stack.capacity - (s.stack.used + 5)) / 5 = levels
      rw [CallStack.levels] at hlevels
      omega
    obtain ⟨u, hrun, hleaves⟩ := runAll_unfolds (level + 1) ih (graph id) (hcalls.known hslot) hroom
    refine ⟨_, fun n hn => ?_, Leaves.entered hfits hleaves not_false fun d => Iff.rfl⟩
    cases n with
    | zero => omega
    | succ n =>
      rw [FarCall.verdict, if_neg (Nat.not_lt.2 hfits)]
      exact monitored_call_of_fits h hcalls hslot hfits (hrun n (by omega)) hleaves.restored.toKept
end Firmware

end Steps

namespace CallGraph

variable {graph : CallGraph} {levels level depth : Nat} {id : SlotId} {param : Option UInt8}

theorem granted_unfolding : ∀ note ∈ graph.unfolding levels (level + 1) id param,
    note.Granted (level + levels) := by
  induction levels generalizing level id param with
  | zero =>
    intro note hnote
    rw [List.mem_singleton.1 hnote]
    exact .refused
  | succ levels ih =>
    intro note hnote
    rw [unfolding, List.cons_append, List.mem_cons, List.mem_append, List.mem_flatMap,
      List.mem_singleton] at hnote
    rcases hnote with rfl | ⟨i, -, hinner⟩ | rfl
    · exact .entered (by omega)
    · have hnext := ih note hinner
      rwa [Nat.add_right_comm] at hnext
    · exact .ok (by omega)

/-- Nothing is refused where there is room for the whole unfolding. -/
theorem not_refused_of_within (h : graph.Within depth id) (hdepth : depth ≤ levels) (level' : Nat)
    (id' : SlotId) (param' : Option UInt8) :
    CallNote.ended level' id' param' .overflow ∉ graph.unfolding levels level id param := by
  induction depth generalizing levels level id param with
  | zero => exact h.elim
  | succ depth ih =>
    cases levels with
    | zero => omega
    | succ levels =>
      intro hnote
      rw [unfolding, List.cons_append, List.mem_cons, List.mem_append, List.mem_flatMap,
        List.mem_singleton] at hnote
      rcases hnote with hnote | ⟨i, hi, hinner⟩ | hnote
      · cases hnote
      · exact ih (h i hi) (Nat.le_of_succ_le_succ hdepth) hinner
      · cases hnote

end CallGraph

namespace Firmware

variable [RegisterBus β] {fw : Firmware β} {image : CodeImage (Routine β)}
  {entries : List DispatchEntry} {config : FirmwareConfig} {graph : CallGraph} {id : SlotId}
  {slot : DispatchSlot}

/-- In a linked firmware of which the routines do nothing but call slots, every call ends, with the
stack as it was, and what a monitor is told is the unfolding of the call graph from the slot, down
to as many levels as frames fit on the stack; the calls at the next level are refused. The most that
is ever in use stays within the capacity, and if the whole unfolding has room, nothing is refused
and its depth says how much is in use. -/
theorem calls_unfold (h : link image entries config = .ok fw) (hcalls : fw.Calls graph)
    (hslot : fw.table.slot? id = some slot) (tell : CallNote → β → β) (param : Option UInt8)
    (s : Machine β) :
    (∀ n, fw.linkage n = fw.monitored (fun _ bus => bus) 1 n) ∧
      ∃ t, (∀ n, s.stack.levels < n →
          (fw.monitored tell 1 n).call id param s = .done (FarCall.verdict slot s) t) ∧
        t.bus = (graph.unfolding s.stack.levels 1 id param).foldl
          (fun bus note => tell note bus) s.bus ∧
        (∀ note ∈ graph.unfolding s.stack.levels 1 id param, note.Granted s.stack.levels) ∧
        Restored s t ∧ t.stack.highWater ≤ max s.stack.highWater s.stack.capacity ∧
        ∀ depth, graph.HasDepth id depth → s.stack.used + 5 * depth ≤ s.stack.capacity →
          (∀ level id' param', CallNote.ended level id' param' .overflow ∉
            graph.unfolding s.stack.levels 1 id param) ∧
          t.stack.highWater = max s.stack.highWater (s.stack.used + 5 * depth) := by
  refine ⟨fun n => (monitored_silent fw 1 n).symm, ?_⟩
  obtain ⟨t, hcall, hleaves⟩ := unfolds h hcalls s.stack.levels 1 id slot param s hslot rfl
  refine ⟨t, hcall, hleaves.told, ?_, hleaves.restored, hleaves.bounded, ?_⟩
  · intro note hnote
    have hgranted : note.Granted (0 + s.stack.levels) := CallGraph.granted_unfolding note hnote
    rwa [Nat.zero_add] at hgranted
  · intro depth hdepth hroom
    have hlevels : depth ≤ s.stack.levels := by
      rw [CallStack.levels]
      omega
    refine ⟨CallGraph.not_refused_of_within hdepth.within hlevels, ?_⟩
    have hshallow := hleaves.shallow depth hlevels hdepth.within
    have hgrown := hleaves.grown
    cases depth with
    | zero => exact hdepth.within.elim
    | succ depth =>
      have hdeep := hleaves.deep depth hlevels (hdepth.least depth (Nat.lt_succ_self depth))
      omega

end Firmware

namespace Ring

/-- A bus without devices that keeps what a monitor is told. -/
structure Tape where
  notes : List CallNote

instance : RegisterBus Tape where
  read _ := pure 0
  write _ _ := pure ()

def record (note : CallNote) (tape : Tape) : Tape := ⟨tape.notes ++ [note]⟩

def graph : CallGraph := fun id =>
  if id = .hwInit then [.call .usbInit none, .dispatch .hwInit (some 1)]
  else [.dispatch .hwInit none]

def image : CodeImage (Routine Tape) :=
  ⟨[⟨"answer", .ofLogical .bank0 0x8010, .calling (graph .usbInit)⟩,
    ⟨"ring", .ofLogical .bank1 0x8020, .calling (graph .hwInit)⟩]⟩

def entries : List DispatchEntry :=
  [⟨.hwInit, .bank1, 0x8020, .callReturn⟩, ⟨.usbInit, .bank0, 0x8010, .tailJump⟩]

/-- Two routines that call each other, one of which calls itself as well. -/
def firmware : Firmware Tape := ⟨.standard, ⟨entries.map DispatchTable.slotOf⟩, image⟩

theorem link_image : Firmware.link image entries .standard = .ok firmware := rfl

theorem calls_graph : firmware.Calls graph where
  body {id slot placed} hslot hplaced := by
    have hmem := DispatchTable.mem_of_slot? hslot
    have hid : slot.id = id := by simpa using List.find?_some hslot
    change slot ∈ [_, _] at hmem
    simp only [List.mem_cons, List.not_mem_nil, or_false] at hmem
    rcases hmem with rfl | rfl
    · rw [← hid, ← Option.some.inj hplaced]
      rfl
    · rw [← hid, ← Option.some.inj hplaced]
      rfl
  known {id slot} _ i hi := by
    have hcallee : i.slot = .hwInit ∨ i.slot = .usbInit := by
      unfold graph at hi
      split at hi
      · simp only [List.mem_cons, List.not_mem_nil, or_false] at hi
        rcases hi with rfl | rfl
        · exact .inr rfl
        · exact .inl rfl
      · rw [List.mem_singleton.1 hi]
        exact .inl rfl
    rcases hcallee with h | h
    · exact ⟨_, by rw [h]; rfl⟩
    · exact ⟨_, by rw [h]; rfl⟩

def machine : Machine Tape := { firmware.machine ⟨[]⟩ none with stack := ⟨[], 0, 12, 0⟩ }

end Ring

/-- The calls at the third level are refused, and their callers go on with their next calls. -/
theorem Firmware.calls_unfold_ring :
    ∃ t, (∀ n, 2 < n → (Ring.firmware.monitored Ring.record 1 n).call .hwInit none Ring.machine =
        .done (.ok ()) t) ∧
      t.bus.notes =
        [.entered 1 .hwInit none, .entered 2 .usbInit none, .ended 3 .hwInit none .overflow,
          .ended 2 .usbInit none .ok, .entered 2 .hwInit (some 1), .ended 3 .usbInit none .overflow,
          .ended 3 .hwInit (some 1) .overflow, .ended 2 .hwInit (some 1) .ok,
          .ended 1 .hwInit none .ok] ∧
      t.stack.highWater ≤ 12 := by
  have hslot : Ring.firmware.table.slot? .hwInit =
      some (DispatchTable.slotOf ⟨.hwInit, .bank1, 0x8020, .callReturn⟩) := rfl
  obtain ⟨-, t, hcall, hbus, -, -, hmark, -⟩ := Firmware.calls_unfold Ring.link_image
    Ring.calls_graph hslot Ring.record none Ring.machine
  refine ⟨t, hcall, ?_, hmark⟩
  rw [hbus]
  rfl

end BankedController
