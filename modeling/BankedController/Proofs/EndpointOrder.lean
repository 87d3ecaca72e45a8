import BankedController.Proofs.EndpointBuses
import BankedController.Proofs.PendingConditions
import BankedController.Proofs.PlainMemory
import BankedController.Proofs.ScanTranscripts

namespace BankedController

open RegisterMap Endpoint
open EndpointPort (Owns)

variable {β : Type}

namespace EndpointBlock

variable {block block' block'' : EndpointBlock}

/-- The conditions that are pending, in the order of their offsets. -/
def pending (block : EndpointBlock) : List Condition := Condition.pendingIn block.secondary

/-- Conditions may have been raised. None was cleared and nothing was forced. -/
structure Raises (block block' : EndpointBlock) : Prop where
  pending : ∀ c ∈ block.pending, c ∈ block'.pending
  clears : block'.clears = block.clears
  forced : block'.forced = block.forced

/-- Nothing happened but reads. -/
structure Rests (block block' : EndpointBlock) : Prop where
  secondary : block'.secondary = block.secondary
  clears : block'.clears = block.clears
  forced : block'.forced = block.forced

/-- The block with one condition cleared, of which the log tells. -/
def cleared (c : Condition) (block : EndpointBlock) : EndpointBlock :=
  { block with
    secondary := block.secondary.set c.endpoint (block.secondary.get c.endpoint &&& ~~~c.mask)
      (Condition.endpoint_lt c.endpoint)
    clears := (c.endpoint.val, c.mask) :: block.clears }

theorem extends_raises : Extends Raises where
  refl _ := ⟨fun _ h => h, rfl, rfl⟩
  trans h h' := ⟨fun c hc => h'.pending c (h.pending c hc), h'.clears.trans h.clears,
    h'.forced.trans h.forced⟩

theorem extends_rests : Extends Rests where
  refl _ := ⟨rfl, rfl, rfl⟩
  trans h h' := ⟨h'.secondary.trans h.secondary, h'.clears.trans h.clears,
    h'.forced.trans h.forced⟩

theorem Rests.pending (h : block.Rests block') : block'.pending = block.pending := by
  unfold EndpointBlock.pending
  rw [h.secondary]

theorem Rests.raises (h : block.Rests block') : block.Raises block' :=
  ⟨fun _ hc => h.pending.symm ▸ hc, h.clears, h.forced⟩

/-- A condition that is cleared is no longer pending, and every other is as it was. -/
theorem pending_cleared (c : Condition) (block : EndpointBlock) :
    (block.cleared c).pending = block.pending.filter fun other => other ∉ [c] :=
  Condition.pendingIn_clear block.secondary c

/-- The condition of the least offset is at the head of the list. -/
theorem pending_cons {c : Condition} {rest : List Condition} (h : block.pending = c :: rest) :
    ∀ c' ∈ block.pending, c.offset ≤ c'.offset := by
  have hascending := Condition.ascending_pendingIn block.secondary
  unfold pending at h ⊢
  rw [h] at hascending ⊢
  intro c' hc'
  rcases List.mem_cons.1 hc' with rfl | hrest
  · exact UInt8.le_refl _
  · exact UInt8.le_of_lt ((List.pairwise_cons.1 hascending).1 c' hrest)

theorem pending_cleared_cons {c : Condition} {rest : List Condition} (h : block.pending = c :: rest) :
    (block.cleared c).pending = rest := by
  rw [pending_cleared, h]
  exact Condition.filter_pendingIn_cons h

theorem read_status (block : EndpointBlock) :
    block.read endpointStatus =
      .ok (block.primary, { block with primaryReads := block.primaryReads + 1 }) :=
  if_pos rfl

theorem read_register (block : EndpointBlock) (e : Fin 8) :
    block.read (Condition.register e) = .ok (block.secondary.get e, block) := by
  unfold read
  rw [if_neg (register_ne_status e), endpointAt_register]
  rfl

theorem write_register_eq (block : EndpointBlock) (e : Fin 8) (value : UInt8) :
    block.write (Condition.register e) value = .ok { block with
      secondary := block.secondary.set e (block.secondary.get e &&& ~~~value)
        (Condition.endpoint_lt e)
      clears := (e.val, value) :: block.clears } := by
  unfold write
  rw [if_neg (register_ne_status e), endpointAt_register]
  rfl

theorem write_mask (block : EndpointBlock) (c : Condition) :
    block.write (Condition.register c.endpoint) c.mask = .ok (block.cleared c) :=
  write_register_eq block c.endpoint c.mask

end EndpointBlock

/-- The memory in which a step keeps the endpoint that it has chosen and the offset that it
announces. -/
def StepMemory (addr : UInt16) : Prop := addr = endpointIndex ∨ addr = endpointOffset

instance (addr : UInt16) : Decidable (StepMemory addr) := inferInstanceAs (Decidable (_ ∨ _))

/-- A bus on which, as far as its state is `wired`, an endpoint block has its addresses and the
memory of a step is plain. -/
structure EndpointBus (β : Type) [RegisterBus β] extends PlainMemory β StepMemory where
  block : β → EndpointBlock
  readBlock {bus : β} : wired bus → ∀ {addr}, Owns addr → ∀ {value found},
    (block bus).read addr = .ok (value, found) →
      ∃ bus', RegisterBus.read addr bus = .done value bus' ∧ block bus' = found
  writeBlock {bus : β} : wired bus → ∀ {addr}, Owns addr → ∀ {value found},
    (block bus).write addr value = .ok found →
      ∃ bus', RegisterBus.write addr value bus = .done () bus' ∧ block bus' = found
  readOther {bus bus' : β} : wired bus → ∀ {addr value}, ¬Owns addr →
    RegisterBus.read addr bus = .done value bus' → block bus' = block bus
  writeOther {bus bus' : β} : wired bus → ∀ {addr value}, ¬Owns addr →
    RegisterBus.write addr value bus = .done () bus' → block bus' = block bus

/-- A dispatch does on the bus what its call does. -/
theorem Linkage.keeps_dispatch {Q : β → β → Prop} (hQ : Extends Q) {l : Linkage β} {id : SlotId}
    {param : Option UInt8} (h : (l.call id param).Keeps (OnBus Q)) :
    (l.dispatch id param).Keeps (OnBus Q) := by
  rw [dispatch_eq]
  refine Run.keeps_bind (extends_onBus hQ) h fun result => ?_
  cases result with
  | ok => exact Run.keeps_pure (extends_onBus hQ) _
  | error e => exact Run.keeps_modify fun s => hQ.refl s.bus

namespace EndpointBus

variable [RegisterBus β] (b : EndpointBus β)

/-- A relation between blocks, as one between the buses that have them. -/
def OnBlock (R : EndpointBlock → EndpointBlock → Prop) (bus bus' : β) : Prop :=
  b.wired bus → b.wired bus' ∧ R (b.block bus) (b.block bus')

/-- The conditions that are pending on a machine. -/
def pending (s : Machine β) : List Condition := (b.block s.bus).pending

/-- A step serves a condition. Of those that are pending it is the one with the least offset; it is
handed to the handler, and then it is cleared and nothing else is. -/
structure ServesOne (l : Linkage β) (c : Condition) (s t : Machine β) : Prop where
  run : l.scanStep s = .done (some c.offset) t
  pending : c ∈ b.pending s
  least : ∀ c' ∈ b.pending s, c.offset ≤ c'.offset
  wired : b.wired t.bus
  handled : ∃ u v, b.wired u.bus ∧ (b.block s.bus).Rests (b.block u.bus) ∧
    l.dispatch .endpointHandler (some c.offset) u = .done () v ∧
    (b.block u.bus).Raises (b.block v.bus) ∧ b.block t.bus = (b.block v.bus).cleared c

/-- Steps serve conditions one after the other, until there is no room for more or nothing is
pending. -/
inductive Serves (l : Linkage β) :
    Nat → List Condition → ScanStop → Machine β → Machine β → Prop
  | full (s : Machine β) : Serves l 0 [] .exhausted s s
  | idle {limit : Nat} {s t : Machine β} (run : l.scanStep s = .done none t)
    (none : b.pending s = []) (wired : b.wired t.bus)
    (rests : (b.block s.bus).Rests (b.block t.bus)) :
    Serves l (limit + 1) [] .idle s t
  | step {limit : Nat} {c : Condition} {served : List Condition} {stop : ScanStop}
    {s t u : Machine β} (first : b.ServesOne l c s t) (later : Serves l limit served stop t u) :
    Serves l (limit + 1) (c :: served) stop s u

variable {b} {l : Linkage β} {s t : Machine β} {addr : UInt16}

theorem extends_onBlock {R : EndpointBlock → EndpointBlock → Prop} (hR : Extends R) :
    Extends (b.OnBlock R) := by
  refine ⟨fun bus hwired => ⟨hwired, hR.refl _⟩, fun h h' hwired => ?_⟩
  obtain ⟨hwired', hfirst⟩ := h hwired
  obtain ⟨hwired'', hsecond⟩ := h' hwired'
  exact ⟨hwired'', hR.trans hfirst hsecond⟩

section Accesses

theorem not_owns {addr : UInt16} (h : StepMemory addr) : ¬Owns addr := by
  rcases h with rfl | rfl <;> decide

theorem read_own (hwired : b.wired s.bus) (haddr : Owns addr) {value : UInt8}
    {found : EndpointBlock} (hread : (b.block s.bus).read addr = .ok (value, found)) :
    ∃ t, Machine.read addr s = .done value t ∧ b.wired t.bus ∧ b.block t.bus = found := by
  obtain ⟨bus, hbus, hfound⟩ := b.readBlock hwired haddr hread
  exact ⟨_, Machine.onBus_of_done hbus, (b.read hwired hbus).1, hfound⟩

theorem write_own (hwired : b.wired s.bus) (haddr : Owns addr) {value : UInt8}
    {found : EndpointBlock} (hwrite : (b.block s.bus).write addr value = .ok found) :
    ∃ t, Machine.write addr value s = .done () t ∧ b.wired t.bus ∧ b.block t.bus = found := by
  obtain ⟨bus, hbus, hfound⟩ := b.writeBlock hwired haddr hwrite
  exact ⟨_, Machine.onBus_of_done hbus, (b.write hwired hbus).1, hfound⟩

theorem write_memory (hwired : b.wired s.bus) (haddr : StepMemory addr) (value : UInt8) :
    ∃ t, Machine.write addr value s = .done () t ∧ b.wired t.bus ∧
      b.block t.bus = b.block s.bus ∧ b.ram t.bus addr = value := by
  obtain ⟨bus, hbus, hwired', hram⟩ := PlainMemory.store_ram hwired haddr value
  refine ⟨_, Machine.onBus_of_done hbus, hwired', b.writeOther hwired (not_owns haddr) hbus, ?_⟩
  exact (hram addr haddr).trans (if_pos rfl)

theorem read_memory (hwired : b.wired s.bus) (haddr : StepMemory addr) :
    ∃ t, Machine.read addr s = .done (b.ram s.bus addr) t ∧ b.wired t.bus ∧
      b.block t.bus = b.block s.bus := by
  obtain ⟨bus, hbus, hstill⟩ := PlainMemory.fetch_still hwired haddr
  exact ⟨_, Machine.onBus_of_done hbus, hstill.wired, b.readOther hwired (not_owns haddr) hbus⟩

end Accesses

/-- What is looked for is the first condition that is pending. -/
theorem seek_pending (hwired : b.wired s.bus) (hforced : (b.block s.bus).forced = none) :
    ∃ t, Linkage.seek s = .done ((b.pending s).head?.map fun c =>
        (UInt8.ofNat c.endpoint.val, UInt8.ofNat c.bit.val)) t ∧
      b.wired t.bus ∧ (b.block s.bus).Rests (b.block t.bus) := by
  have hprimary : (b.block s.bus).primary = EndpointBlock.pendingMap (b.block s.bus).secondary := by
    unfold EndpointBlock.primary
    rw [hforced]
    rfl
  have hfirst := Board.lowest?_pendingMap (b.block s.bus).secondary
  rw [← hprimary] at hfirst
  unfold pending EndpointBlock.pending
  rw [← hfirst]
  unfold Linkage.seek
  obtain ⟨t, hstatus, ht, hblock⟩ := read_own hwired (.inl rfl) (EndpointBlock.read_status _)
  have hrests : (b.block s.bus).Rests (b.block t.bus) := by
    rw [hblock]
    exact ⟨rfl, rfl, rfl⟩
  obtain ⟨u, hstored, hu, hstill, hlatched⟩ :=
    write_memory ht (.inl rfl) (lowestBit (b.block s.bus).primary)
  rw [← hstill] at hrests
  rw [Run.bind_of_done hstatus, Run.bind_of_done hstored]
  cases hlow : Board.lowest? (b.block s.bus).primary with
  | none =>
    rw [if_pos (Board.lowest?_eq_none.1 hlow)]
    exact ⟨u, rfl, hu, hrests⟩
  | some e =>
    obtain ⟨hindex, hset⟩ := Board.lowestBit_of_lowest? hlow
    obtain ⟨v, hread, hv, hsame⟩ := read_memory hu (.inl rfl)
    rw [← hsame] at hrests
    rw [if_neg hset, Run.bind_of_done hread, hlatched, if_neg hset, hindex]
    obtain ⟨w, hsecondary, hw, hblock⟩ := read_own hv
      (.inr (Condition.secondary_iff.2 ⟨e, rfl⟩)) (EndpointBlock.read_register _ e)
    rw [hrests.secondary] at hsecondary
    rw [← hblock] at hrests
    refine ⟨w, ?_, hw, hrests⟩
    refine (Run.bind_of_done hsecondary).trans ?_
    cases hbit : Board.lowest? ((b.block s.bus).secondary.get e) with
    | none => rw [if_pos (Board.lowest?_eq_none.1 hbit), Option.bind_some, hbit]; rfl
    | some bit =>
      obtain ⟨hsub, hraised⟩ := Board.lowestBit_of_lowest? hbit
      rw [if_neg hraised, hsub, Option.bind_some, hbit]
      rfl

theorem ServesOne.forced {c : Condition} (h : b.ServesOne l c s t)
    (hforced : (b.block s.bus).forced = none) : (b.block t.bus).forced = none := by
  obtain ⟨u, v, -, hrests, -, hraised, hcleared⟩ := h.handled
  rw [hcleared]
  exact (hraised.forced.trans hrests.forced).trans hforced

section Order

variable (hraises : ∀ offset,
  (l.call .endpointHandler (some offset)).Keeps (OnBus (b.OnBlock EndpointBlock.Raises)))

include hraises

/-- A step goes idle if nothing is pending, and otherwise serves a condition. -/
theorem scanStep_serves (hwired : b.wired s.bus) (hforced : (b.block s.bus).forced = none)
    {found : Option UInt8} (hrun : l.scanStep s = .done found t) :
    found = none ∧ b.pending s = [] ∧ b.wired t.bus ∧ (b.block s.bus).Rests (b.block t.bus) ∨
      ∃ c, found = some c.offset ∧ b.ServesOne l c s t := by
  obtain ⟨u, hseek, hu, hrests⟩ := seek_pending hwired hforced
  have hstep := hrun
  rw [Linkage.scanStep_eq, Run.bind_of_done hseek] at hstep
  cases hpending : b.pending s with
  | nil =>
    rw [hpending] at hstep
    cases hstep
    exact .inl ⟨rfl, rfl, hu, hrests⟩
  | cons c rest =>
    rw [hpending] at hstep
    simp only [Linkage.announce, Linkage.clearCondition, bind_assoc] at hstep
    obtain ⟨v, hoffset, hv, hstill, -⟩ := write_memory hu (.inr rfl) c.offset
    rw [← hstill] at hrests
    have hrest := (Run.bind_of_done hoffset).symm.trans hstep
    obtain ⟨_, w, hnote, hrest⟩ := Run.bind_eq_done.1 hrest
    cases hnote
    obtain ⟨_, x, hdispatch, hrest⟩ := Run.bind_eq_done.1 hrest
    have hkeeps := Linkage.keeps_dispatch (extends_onBlock EndpointBlock.extends_raises)
      (hraises c.offset)
    obtain ⟨hx, hraised⟩ := hkeeps _ _ _ hdispatch hv
    obtain ⟨y, hclear, hy, hcleared⟩ := write_own hx
      (.inr (Condition.secondary_iff.2 ⟨c.endpoint, rfl⟩)) (EndpointBlock.write_mask _ c)
    have hend := (Run.bind_of_done hclear).symm.trans hrest
    cases hend
    have hmem : c ∈ b.pending s := by
      rw [hpending]
      exact List.mem_cons_self
    refine .inr ⟨c, rfl, hrun, hmem, EndpointBlock.pending_cons hpending, hy, ?_⟩
    refine ⟨_, x, ?_, ?_, hdispatch, hraised, hcleared⟩
    · exact hv
    · exact hrests

/-- Steps, by induction on the limit. -/
theorem scanSteps_serves {limit : Nat} (hwired : b.wired s.bus)
    (hforced : (b.block s.bus).forced = none) {result : List UInt8 × ScanStop}
    (hrun : l.scanSteps limit s = .done result t) :
    ∃ served, result.1 = served.map Condition.offset ∧ b.Serves l limit served result.2 s t := by
  induction limit generalizing s result with
  | zero =>
    cases hrun
    exact ⟨[], rfl, .full t⟩
  | succ limit ih =>
    obtain ⟨found, u, hstep, hrest⟩ := Run.bind_eq_done.1 hrun
    rcases scanStep_serves hraises hwired hforced hstep with
      ⟨rfl, hnone, hu, hrests⟩ | ⟨c, rfl, hfirst⟩
    · cases hrest
      exact ⟨[], rfl, .idle hstep hnone hu hrests⟩
    · obtain ⟨later, v, hlater, hrest⟩ := Run.bind_eq_done.1 hrest
      cases hrest
      obtain ⟨served, hserviced, hserves⟩ := ih hfirst.wired (hfirst.forced hforced) hlater
      exact ⟨c :: served, congrArg (c.offset :: ·) hserviced, .step hfirst hserves⟩

end Order

section Served

variable {limit : Nat} {served : List Condition} {stop : ScanStop}

theorem Serves.wired (h : b.Serves l limit served stop s t) (hs : b.wired s.bus) :
    b.wired t.bus := by
  induction h with
  | full s => exact hs
  | idle run none wired rests => exact wired
  | step first later ih => exact ih first.wired

/-- Steps that go idle had room for more, and leave nothing pending. -/
theorem Serves.idle_iff (h : b.Serves l limit served stop s t) :
    (stop = .idle ↔ served.length < limit) ∧ (stop = .idle → b.pending t = []) := by
  induction h with
  | full s => exact ⟨⟨nofun, fun h => absurd h (Nat.lt_irrefl 0)⟩, nofun⟩
  | idle run none wired rests =>
    exact ⟨⟨fun _ => Nat.succ_pos _, fun _ => rfl⟩, fun _ => rests.pending.trans none⟩
  | step first later ih =>
    refine ⟨ih.1.trans ?_, ih.2⟩
    rw [List.length_cons]
    exact Nat.succ_lt_succ_iff.symm

/-- The log of clears tells what was served, the newest first. -/
theorem Serves.clears (h : b.Serves l limit served stop s t) :
    (b.block t.bus).clears =
      (served.map fun c => (c.endpoint.val, c.mask)).reverse ++ (b.block s.bus).clears := by
  induction h with
  | full s => rfl
  | idle run none wired rests => exact rests.clears
  | step first later ih =>
    obtain ⟨u, v, -, hrests, -, hraised, hcleared⟩ := first.handled
    rw [ih, hcleared, List.map_cons, List.reverse_cons, List.append_assoc, ← hrests.clears,
      ← hraised.clears]
    rfl

/-- Where the handler raises nothing, a step takes the first of the list and leaves the others. -/
theorem ServesOne.quiet {c : Condition} (h : b.ServesOne l c s t)
    (hquiet : (l.call .endpointHandler (some c.offset)).Keeps
      (OnBus (b.OnBlock EndpointBlock.Rests))) :
    b.pending s = c :: b.pending t := by
  obtain ⟨u, v, hu, hrests, hdispatch, -, hcleared⟩ := h.handled
  have hkeeps := Linkage.keeps_dispatch (extends_onBlock EndpointBlock.extends_rests) hquiet
  have hsame := hrests.pending.symm.trans (hkeeps _ _ _ hdispatch hu).2.pending.symm
  have hmem := h.pending
  unfold EndpointBus.pending at hmem ⊢
  cases hlist : (b.block s.bus).pending with
  | nil =>
    rw [hlist] at hmem
    exact absurd hmem List.not_mem_nil
  | cons c' rest =>
    have hhead : c' ∈ b.pending s := by
      unfold EndpointBus.pending
      rw [hlist]
      exact List.mem_cons_self
    have hle := EndpointBlock.pending_cons hlist c hmem
    obtain rfl : c' = c := Condition.offset_injective (UInt8.le_antisymm hle (h.least c' hhead))
    rw [hsame] at hlist
    rw [hcleared, EndpointBlock.pending_cleared_cons hlist]

/-- Where the handler raises nothing, steps serve the first conditions of the list, as many as there
is room for, and leave the others. -/
theorem Serves.quiet (h : b.Serves l limit served stop s t)
    (hquiet : ∀ offset, (l.call .endpointHandler (some offset)).Keeps
      (OnBus (b.OnBlock EndpointBlock.Rests))) :
    served = (b.pending s).take limit ∧ b.pending t = (b.pending s).drop limit := by
  induction h with
  | full s => exact ⟨rfl, rfl⟩
  | idle run none wired rests =>
    rw [none]
    exact ⟨List.take_nil.symm, (rests.pending.trans none).trans List.drop_nil.symm⟩
  | step first later ih =>
    obtain ⟨hserved, hleft⟩ := ih
    rw [first.quiet (hquiet _), List.take_succ_cons, List.drop_succ_cons]
    exact ⟨congrArg _ hserved, hleft⟩

end Served

/-- A scan returns if its calls do and the flag of the master can be read. -/
theorem scan_returns (hflag : ∀ bus, b.wired bus →
      ∃ value bus', RegisterBus.read peripheralStatus bus = .done value bus')
    (hcalls : ∀ id param, (l.call id param).Ends fun s => b.wired s.bus) :
    l.scan.Ends fun s => b.wired s.bus := by
  refine Linkage.scan_ends ?_ ?_ (fun event s hs => ⟨(), _, rfl, hs⟩) fun id param => ?_
  · intro addr haddr s hs
    rcases haddr with rfl | rfl | rfl | hsecondary
    · obtain ⟨t, hread, ht, -⟩ := read_own hs (.inl rfl) (EndpointBlock.read_status _)
      exact ⟨_, t, hread, ht⟩
    · obtain ⟨t, hread, ht, -⟩ := read_memory hs (.inl rfl)
      exact ⟨_, t, hread, ht⟩
    · obtain ⟨value, bus, hread⟩ := hflag s.bus hs
      exact ⟨value, _, Machine.onBus_of_done hread, (b.read hs hread).1⟩
    · obtain ⟨e, rfl⟩ := Condition.secondary_iff.1 hsecondary
      obtain ⟨t, hread, ht, -⟩ := read_own hs (.inr hsecondary) (EndpointBlock.read_register _ e)
      exact ⟨_, t, hread, ht⟩
  · intro addr value haddr s hs
    rcases haddr with rfl | rfl | hsecondary
    · obtain ⟨t, hwrite, ht, -⟩ := write_memory hs (.inl rfl) value
      exact ⟨_, t, hwrite, ht⟩
    · obtain ⟨t, hwrite, ht, -⟩ := write_memory hs (.inr rfl) value
      exact ⟨_, t, hwrite, ht⟩
    · obtain ⟨e, rfl⟩ := Condition.secondary_iff.1 hsecondary
      obtain ⟨t, hwrite, ht, -⟩ := write_own hs (.inr hsecondary)
        (EndpointBlock.write_register_eq _ e value)
      exact ⟨_, t, hwrite, ht⟩
  · rw [Linkage.dispatch_eq]
    refine Run.ends_bind (hcalls id param) fun result s hs => ?_
    cases result with
    | ok => exact ⟨(), _, rfl, hs⟩
    | error e => exact ⟨(), _, rfl, hs⟩

/-- A look at the master does on the bus what it serves. -/
theorem attend_keeps {R : EndpointBlock → EndpointBlock → Prop} (hR : Extends R)
    (hrests : ∀ {block block' : EndpointBlock}, block.Rests block' → R block block')
    {serve : Run (Machine β) Unit} (hserve : serve.Keeps (OnBus (b.OnBlock R))) :
    (Linkage.attend serve).Keeps (OnBus (b.OnBlock R)) := by
  have hextends : Extends (OnBus (b.OnBlock R)) := extends_onBus (extends_onBlock hR)
  have hready : (Linkage.masterReady : Run (Machine β) Bool).Keeps (OnBus (b.OnBlock R)) := by
    refine Run.keeps_bind hextends (fun s value t hread hs => ?_) fun _ => Run.keeps_pure hextends _
    obtain ⟨bus, hbus, rfl⟩ := Machine.onBus_eq_done hread
    have hsame := b.readOther hs (by decide) hbus
    exact ⟨(b.read hs hbus).1, hrests (by rw [hsame]; exact EndpointBlock.extends_rests.refl _)⟩
  refine Run.keeps_bind hextends hready fun ready => ?_
  split
  · exact Run.keeps_bind hextends hserve fun _ => Run.keeps_pure hextends _
  · exact Run.keeps_bind hextends (Run.keeps_pure hextends _) fun _ => Run.keeps_pure hextends _

end EndpointBus

/-- A scan where the endpoint block and the memory of a step are on the bus, nobody forces the primary
register, and the handler may raise conditions but clears none. Between the two looks at the master
it takes steps, each of which serves the condition that has the least offset of those pending when it
starts, clears that one and logs that clear, on top of what the handler has raised. It goes idle
exactly if there was room for more steps, and then nothing is pending. Where the handler raises
nothing, what is served is the first part of the list of pending conditions, and the rest of them
stay pending. -/
theorem EndpointBus.scan_serves [RegisterBus β] (b : EndpointBus β) (l : Linkage β) {s : Machine β}
    (hwired : b.wired s.bus) (hforced : (b.block s.bus).forced = none)
    (hraises : ∀ offset, (l.call .endpointHandler (some offset)).Keeps
      (OnBus (b.OnBlock EndpointBlock.Raises))) :
    let limit := min l.config.scanLimit.toNat 32
    ((∀ bus, b.wired bus →
        ∃ value bus', RegisterBus.read peripheralStatus bus = .done value bus') →
      (∀ id param, (l.call id param).Ends fun s => b.wired s.bus) →
        ∃ report t, l.scan s = .done report t) ∧
    ∀ report t, l.scan s = .done report t → ∃ served u v,
      (b.block s.bus).Raises (b.block u.bus) ∧
      l.scanSteps limit u = .done (report.serviced, report.stop) v ∧
      b.Serves l limit served report.stop u v ∧
      report.serviced = served.map Condition.offset ∧
      (b.block v.bus).clears =
        (served.map fun c => (c.endpoint.val, c.mask)).reverse ++ (b.block s.bus).clears ∧
      (report.stop = .idle ↔ served.length < limit) ∧
      (report.stop = .idle → b.pending v = []) ∧
      ((∀ offset, (l.call .endpointHandler (some offset)).Keeps
          (OnBus (b.OnBlock EndpointBlock.Rests))) →
        served = (b.pending s).take limit ∧ b.pending v = (b.pending s).drop limit) ∧
      ((l.call .masterEvent none).Keeps (OnBus (b.OnBlock EndpointBlock.Rests)) →
        (b.block v.bus).Rests (b.block t.bus)) := by
  intro limit
  refine ⟨fun hflag hcalls => ?_, fun report t hrun => ?_⟩
  · obtain ⟨report, t, hrun, -⟩ := scan_returns hflag hcalls s hwired
    exact ⟨report, t, hrun⟩
  rw [Linkage.scan_eq] at hrun
  obtain ⟨forced, u, hbefore, hrest⟩ := Run.bind_eq_done.1 hrun
  obtain ⟨result, v, hsteps, hrest⟩ := Run.bind_eq_done.1 hrest
  obtain ⟨master, w, hafter, hclose⟩ := Run.bind_eq_done.1 hrest
  have hforcedCall {R : EndpointBlock → EndpointBlock → Prop} (hR : Extends R)
      (hcall : (l.call .endpointHandler (some forcedOffset)).Keeps (OnBus (b.OnBlock R))) :
      (Machine.note .forcedDispatch >>= fun _ =>
        l.dispatch .endpointHandler (some forcedOffset)).Keeps (OnBus (b.OnBlock R)) :=
    Run.keeps_bind (extends_onBus (extends_onBlock hR))
      (Machine.keeps_note (extends_onBlock hR) _)
      fun _ => Linkage.keeps_dispatch (extends_onBlock hR) hcall
  have hfirst := attend_keeps EndpointBlock.extends_raises EndpointBlock.Rests.raises
    (hforcedCall EndpointBlock.extends_raises (hraises forcedOffset))
  obtain ⟨hu, hraised⟩ := hfirst _ _ _ hbefore hwired
  rw [Linkage.toNat_min_scanLimit] at hsteps
  obtain ⟨served, hserviced, hserves⟩ := scanSteps_serves hraises hu
    (hraised.forced.trans hforced) hsteps
  have hreport : report = ⟨forced, result.1, result.2, master⟩ ∧ t.bus = w.bus := by
    unfold Linkage.close at hclose
    split at hclose <;> cases hclose <;> exact ⟨rfl, rfl⟩
  obtain ⟨rfl, hbus⟩ := hreport
  obtain ⟨hidle, hnone⟩ := hserves.idle_iff
  refine ⟨served, u, v, hraised, hsteps, hserves, hserviced, ?_, hidle, hnone, fun hquiet => ?_,
    fun hmaster => ?_⟩
  · rw [hserves.clears, hraised.clears]
  · have hstill := attend_keeps EndpointBlock.extends_rests id
      (hforcedCall EndpointBlock.extends_rests (hquiet forcedOffset))
    have hsame : b.pending u = b.pending s := (hstill _ _ _ hbefore hwired).2.pending
    rw [← hsame]
    exact hserves.quiet hquiet
  · have hlast := attend_keeps EndpointBlock.extends_rests id
      (Linkage.keeps_dispatch (extends_onBlock EndpointBlock.extends_rests) hmaster)
    rw [hbus]
    exact (hlast _ _ _ hafter (hserves.wired hu)).2

namespace EndpointBlock

/-- What the hardware raises. -/
theorem raises_withRaised (block : EndpointBlock) (e : Fin 8) (mask : UInt8) :
    block.Raises (block.withRaised e mask) := by
  refine ⟨fun c hc => ?_, rfl, rfl⟩
  unfold pending at hc ⊢
  rw [Condition.mem_pendingIn] at hc ⊢
  rw [secondary_withRaised]
  by_cases hendpoint : c.endpoint = e
  · rw [if_pos hendpoint, Condition.isIn_or, ← hendpoint, hc, Bool.true_or]
  · rw [if_neg hendpoint]
    exact hc

end EndpointBlock

namespace Rig

variable {ω : Type}

/-- The endpoint block has its addresses and no others, and nothing claims the memory of a step. -/
structure ServesEndpoints (rig : Rig ω) : Prop where
  block : ∀ addr, rig.bus.claim? addr = some .endpoints ↔ Owns addr
  memory : ∀ addr, StepMemory addr → rig.bus.claim? addr = none

def endpointBus : EndpointBus (Rig ω) where
  wired := ServesEndpoints
  ram rig := rig.bus.ram.get
  block rig := rig.bus.devices.endpoints
  fetch h _ haddr := ⟨_, onBus_of_done (XdataBus.read_of_free (h.memory _ haddr))⟩
  store h _ haddr value := ⟨_, onBus_of_done (XdataBus.write_of_free (h.memory _ haddr) value)⟩
  read := by
    intro rig rig' h addr value hread
    have hbus := (onBus_eq_done hread).1
    obtain ⟨hmemory, hram⟩ := (XdataBus.plainMemory StepMemory).read h.memory hbus
    refine ⟨⟨fun addr => ?_, hmemory⟩, hram⟩
    rw [(XdataBus.read_eq_done hbus).2, h.block]
  write := by
    intro rig rig' h addr value hwrite
    have hbus := (onBus_eq_done hwrite).1
    obtain ⟨hmemory, hram⟩ := (XdataBus.plainMemory StepMemory).write h.memory hbus
    refine ⟨⟨fun addr => ?_, hmemory⟩, hram⟩
    rw [(XdataBus.write_eq_done hbus).2, h.block]
  readBlock := by
    intro rig h addr haddr value found hread
    have hblocks : DeviceStore.read Block.endpoints addr rig.bus.devices =
        .ok (value, { rig.bus.devices with endpoints := found }) :=
      congrArg (Except.map fun r : UInt8 × EndpointBlock =>
        (r.1, ({ rig.bus.devices with endpoints := r.2 } : Blocks))) hread
    exact ⟨_, onBus_of_done (XdataBus.read_of_claim ((h.block addr).2 haddr) hblocks), rfl⟩
  writeBlock := by
    intro rig h addr haddr value found hwrite
    have hblocks : DeviceStore.write Block.endpoints addr value rig.bus.devices =
        .ok { rig.bus.devices with endpoints := found } :=
      congrArg (Except.map fun d : EndpointBlock =>
        ({ rig.bus.devices with endpoints := d } : Blocks)) hwrite
    exact ⟨_, onBus_of_done (XdataBus.write_of_claim ((h.block addr).2 haddr) hblocks), rfl⟩
  readOther := by
    intro rig rig' h addr value haddr hread
    rcases XdataBus.read_cases (onBus_eq_done hread).1 with ⟨-, hdevices⟩ | ⟨key, hkey, hblocks⟩
    · rw [hdevices]
    rcases Blocks.endpoints_read hblocks with ⟨rfl, -⟩ | ⟨-, hsame⟩
    · exact absurd ((h.block addr).1 hkey) haddr
    · exact hsame
  writeOther := by
    intro rig rig' h addr value haddr hwrite
    rcases XdataBus.write_cases (onBus_eq_done hwrite).1 with ⟨-, hdevices⟩ | ⟨key, hkey, hblocks⟩
    · rw [hdevices]
    rcases Blocks.endpoints_write hblocks with ⟨rfl, -⟩ | ⟨-, hsame⟩
    · exact absurd ((h.block addr).1 hkey) haddr
    · exact hsame

theorem owns_of_contains {r : MappedRange Block} (hr : r ∈ RigBus.ranges)
    (hdevice : r.device = .endpoints) {addr : UInt16} (hcontains : r.contains addr = true) :
    Owns addr := by
  have hranges : ∀ r ∈ RigBus.ranges, r.device = .endpoints →
      r.start = endpointSecondaryBase ∧ r.size = 8 ∨ r.start = endpointStatus ∧ r.size = 1 := by
    decide
  have hbase : endpointSecondaryBase.toNat = 0x9096 := rfl
  have hlast : (endpointSecondaryBase + 8).toNat = 0x909E := rfl
  have height : (8 : UInt16).toNat = 8 := rfl
  have hone : (1 : UInt16).toNat = 1 := rfl
  rw [MappedRange.contains_iff] at hcontains
  rcases hranges r hr hdevice with ⟨hstart, hsize⟩ | ⟨hstart, hsize⟩
  · rw [hstart, hsize, hbase, height] at hcontains
    refine .inr ⟨?_, ?_⟩
    · rw [UInt16.le_iff_toNat_le, hbase]
      exact hcontains.1
    · rw [UInt16.lt_iff_toNat_lt, hlast]
      exact hcontains.2
  · rw [hstart, hsize, hone] at hcontains
    refine .inl (UInt16.toNat_inj.1 ?_)
    omega

/-- The hardware may raise conditions wherever a handler may. -/
theorem raiseEndpoint_keeps (e : Fin 8) (mask : UInt8) :
    (raiseEndpoint (ω := ω) e mask).Keeps
      (OnBus (endpointBus.OnBlock EndpointBlock.Raises)) := by
  rw [raiseEndpoint_eq]
  intro s _ t h
  obtain ⟨bus, hbus, rfl⟩ := Machine.onBus_eq_done h
  cases hbus
  exact fun hs => ⟨⟨hs.block, hs.memory⟩, EndpointBlock.raises_withRaised _ e mask⟩

/-- The endpoint block is wired from the start, whatever is in the blocks. -/
theorem servesEndpoints_initial (blocks : Blocks) (record : ω) :
    (Rig.mk { RigBus.initial with devices := blocks } record).ServesEndpoints := by
  have hblock (addr : UInt16) : RigBus.initial.claim? addr = some .endpoints ↔ Owns addr := by
    rw [XdataBus.claim?_eq]
    constructor
    · intro hfound
      obtain ⟨r, hr, hdevice⟩ := Option.map_eq_some_iff.1 hfound
      have hcontains : r.contains addr = true := by simpa using List.find?_some hr
      exact owns_of_contains (List.mem_of_find?_eq_some hr) hdevice hcontains
    · have hregister : ∀ e, MappedRange.claimIn (Condition.register e) RigBus.ranges =
          some .endpoints := by
        decide
      rintro (rfl | hsecondary)
      · decide
      · obtain ⟨e, rfl⟩ := Condition.secondary_iff.1 hsecondary
        exact hregister e
  refine ⟨hblock, fun addr haddr => ?_⟩
  change RigBus.initial.claim? addr = none
  rw [XdataBus.claim?_eq]
  rcases haddr with rfl | rfl <;> decide

end Rig

namespace Cascade

def handler : Routine (Rig Unit) := fun _ param =>
  if param = some 47 then Rig.raiseEndpoint 0 0x02 else pure ()

def image : CodeImage (Routine (Rig Unit)) := ⟨[⟨"handler", .ofLogical .bank0 0x5100, handler⟩]⟩

def entries : List DispatchEntry := [⟨.endpointHandler, .bank0, 0x5100, .callReturn⟩]

def config : FirmwareConfig := { FirmwareConfig.standard with scanLimit := 3 }

/-- The handler raises a condition of the first endpoint when it is handed the last one of the
sixth. -/
def firmware : Firmware (Rig Unit) where
  config := config
  table := ⟨entries.map DispatchTable.slotOf⟩
  image := image

/-- Conditions of three endpoints are pending. -/
def machine : Machine (Rig Unit) where
  bus := ⟨{ RigBus.initial with devices := { Blocks.initial with endpoints :=
    { EndpointBlock.initial with secondary := ⟨#[0, 0, 1, 0, 0, 0x80, 0, 1], rfl⟩ } } }, ()⟩
  window := .initial
  stack := .ofBase config.stackBase
  irq := .initial
  stats := .initial
  log := ⟨none, []⟩

theorem raises_handler (param : Option UInt8) :
    ((firmware.linkage 2).call .endpointHandler param).Keeps
      (OnBus (Rig.endpointBus.OnBlock EndpointBlock.Raises)) := by
  have hextends := EndpointBus.extends_onBlock (b := Rig.endpointBus (ω := Unit))
    EndpointBlock.extends_raises
  refine Firmware.keeps_call hextends fun slot _ active placed hplaced => ?_
  obtain rfl := List.mem_singleton.1 (CodeImage.mem_of_resolve hplaced)
  exact Run.keeps_branch (Rig.raiseEndpoint_keeps 0 0x02)
    (Run.keeps_pure (extends_onBus hextends) _)

end Cascade

/-- The condition that is raised while another is served comes next, before one that was pending all
along, and for that one there is no room. -/
theorem EndpointBus.scan_serves_cascade :
    ∃ t, (Cascade.firmware.linkage 2).scan Cascade.machine =
        .done ⟨false, [16, 47, 1], .exhausted, false⟩ t ∧
      ∃ u v, Rig.endpointBus.Serves (Cascade.firmware.linkage 2) 3 [⟨2, 0⟩, ⟨5, 7⟩, ⟨0, 1⟩]
        .exhausted u v := by
  have hwired : Rig.endpointBus.wired Cascade.machine.bus := Rig.servesEndpoints_initial _ ()
  obtain ⟨-, hserves⟩ := scan_serves Rig.endpointBus (Cascade.firmware.linkage 2) hwired rfl
    fun offset => Cascade.raises_handler (some offset)
  have hvalue : ((Cascade.firmware.linkage 2).scan Cascade.machine).value? =
      some ⟨false, [16, 47, 1], .exhausted, false⟩ := by
    decide +kernel
  obtain ⟨t, hrun⟩ := Outcome.done_of_value? hvalue
  obtain ⟨served, u, v, -, -, hsteps, hserviced, -⟩ := hserves _ t hrun
  have hserved : served = [⟨2, 0⟩, ⟨5, 7⟩, ⟨0, 1⟩] := by
    refine List.map_injective_iff.2 (fun c c' => Condition.offset_injective) ?_
    rw [← hserviced]
    rfl
  rw [hserved] at hsteps
  exact ⟨t, hrun, u, v, hsteps⟩

end BankedController
