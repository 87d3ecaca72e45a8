import BankedController.Proofs.BusRelations
import BankedController.Proofs.Watch

/-! From the states of an invariant a run does what another does and stays within the invariant; a
lax run may give up instead. This carries over from the routines of two firmwares to all their calls
and preemption points. -/

namespace BankedController

variable {σ β α γ : Type} {lax : Prop}

namespace Run

/-- From a state in `G` the first run does what the second does, and a value it ends with and the
state then are in `H`. If it is lax, it may give up instead. -/
def Follows (lax : Prop) (G : σ → Prop) (H : α → σ → Prop) (m m' : Run σ α) : Prop :=
  ∀ s, G s → lax ∧ m s = .exhausted ∨ m s = m' s ∧ ∀ a t, m s = .done a t → H a t

/-- It stays in `G`. -/
abbrev FollowsIn (lax : Prop) (G : σ → Prop) (m m' : Run σ α) : Prop :=
  Follows lax G (fun _ => G) m m'

variable {G : σ → Prop} {H : α → σ → Prop} {m m' : Run σ α}

theorem follows_self (h : ∀ s a t, G s → m s = .done a t → H a t) : Follows lax G H m m :=
  fun s hs => .inr ⟨rfl, fun a t hrun => h s a t hs hrun⟩

theorem followsIn_self (h : m.Keeps fun s t => G s → G t) : FollowsIn lax G m m :=
  follows_self fun s a t hs hrun => h s a t hrun hs

theorem follows_pure {a : α} (h : ∀ s, G s → H a s) :
    Follows lax G H (Pure.pure a) (Pure.pure a) := by
  refine follows_self ?_
  rintro s b t hs ⟨⟩
  exact h s hs

theorem follows_giveUp : Follows lax G H (giveUp : Run σ α) giveUp := by
  refine follows_self ?_
  rintro s b t hs ⟨⟩

/-- What the first parts end in is where the second parts start. -/
theorem follows_bind {K : γ → σ → Prop} {f f' : α → Run σ γ} (hm : Follows lax G H m m')
    (hf : ∀ a, Follows lax (H a) K (f a) (f' a)) : Follows lax G K (m >>= f) (m' >>= f') := by
  intro s hs
  rw [bind_apply, bind_apply]
  rcases hm s hs with ⟨hlax, hm⟩ | ⟨hsame, hend⟩
  · rw [hm]
    exact .inl ⟨hlax, rfl⟩
  rw [← hsame]
  cases hrun : m s with
  | done a t => exact hf a t (hend a t hrun)
  | fault cause t => exact .inr ⟨rfl, fun c u h => by cases h⟩
  | exhausted => exact .inr ⟨rfl, fun c u h => by cases h⟩

theorem Follows.weaken {G' : σ → Prop} {H' : α → σ → Prop} (h : Follows lax G H m m')
    (hG : ∀ s, G' s → G s) (hH : ∀ a s, H a s → H' a s) : Follows lax G' H' m m' := by
  intro s hs
  rcases h s (hG s hs) with hlax | ⟨hsame, hend⟩
  · exact .inl hlax
  · exact .inr ⟨hsame, fun a t hrun => hH a t (hend a t hrun)⟩

theorem follows_of_fact {p : Prop} (h : p → Follows lax G H m m') :
    Follows lax (fun s => p ∧ G s) H m m' :=
  fun s hs => h hs.1 s hs.2

/-- Something that does nothing where the run starts can be run before it. -/
theorem follows_silent {check : Run σ Unit} (hcheck : ∀ s, G s → check s = .done () s)
    (hm : Follows lax G H m m') : Follows lax G H (check >>= fun _ => m) m' := by
  intro s hs
  rw [bind_of_done (hcheck s hs)]
  exact hm s hs

/-- A run that is not lax is the other run. -/
theorem Follows.eq (h : Follows False G H m m') {s : σ} (hs : G s) : m s = m' s := by
  rcases h s hs with ⟨hlax, -⟩ | ⟨hsame, -⟩
  · exact hlax.elim
  · exact hsame

theorem Follows.end (h : Follows False G H m m') {s t : σ} {a : α} (hs : G s)
    (hrun : m s = .done a t) : H a t := by
  rcases h s hs with ⟨hlax, -⟩ | ⟨-, hend⟩
  · exact hlax.elim
  · exact hend a t hrun

/-- A run that follows itself stays where it is. -/
theorem FollowsIn.self_keeps (h : FollowsIn lax G m m) : m.Keeps fun s t => G s → G t := by
  intro s a t hrun hs
  rcases h s hs with ⟨-, hexhausted⟩ | ⟨-, hend⟩
  · rw [hrun] at hexhausted
    cases hexhausted
  · exact hend a t hrun

end Run

/-- Calls and preemption points of the first linkage follow those of the second. -/
structure Linkage.Follows (lax : Prop) (G : Machine β → Prop) (l l' : Linkage β) : Prop where
  config : l.config = l'.config
  table : l.table = l'.table
  patience : l.patience = l'.patience
  call : ∀ id param, Run.FollowsIn lax G (l.call id param) (l'.call id param)
  poll : Run.FollowsIn lax G l.poll l'.poll

section Parts

variable {G : Machine β → Prop} {l l' : Linkage β}

theorem Linkage.Follows.callStub (h : Linkage.Follows lax G l l') (addr : UInt16)
    (param : Option UInt8) :
    Run.FollowsIn lax G (l.callStub addr param) (l'.callStub addr param) := by
  simp only [Linkage.callStub, ← h.table]
  cases l.table.atStub? addr with
  | none => exact Run.follows_pure fun _ hs => hs
  | some slot => exact h.call slot.id param

theorem BusyWait.follows_poll [RegisterBus β] (h : Linkage.Follows lax G l l') {w : BusyWait}
    (hsample : (Machine.onBus w.sample).Keeps fun s t : Machine β => G s → G t)
    (hcount : ∀ n, (Machine.write32 w.counter n).Keeps fun s t : Machine β => G s → G t)
    (patience : Nat) : Run.FollowsIn lax G (w.poll l patience) (w.poll l' patience) := by
  induction patience with
  | zero => exact Run.follows_giveUp
  | succ patience ih =>
    refine Run.follows_bind (Run.followsIn_self hsample) fun sampled => ?_
    obtain ⟨value, iterations⟩ := sampled
    by_cases herror : value &&& w.error ≠ 0
    · simp only [if_pos herror]
      exact Run.follows_pure fun _ hs => hs
    by_cases hidle : value &&& w.busy = 0
    · simp only [if_neg herror, if_pos hidle]
      exact Run.follows_pure fun _ hs => hs
    simp only [if_neg herror, if_neg hidle]
    refine Run.follows_bind (Run.followsIn_self (hcount (iterations + 1))) fun _ => ?_
    by_cases hout : w.threshold ≤ iterations + 1
    · simp only [if_pos hout]
      exact Run.follows_pure fun _ hs => hs
    simp only [if_neg hout]
    exact Run.follows_bind h.poll fun _ => ih

theorem BusyWait.follows_run [RegisterBus β] (h : Linkage.Follows lax G l l') {w : BusyWait}
    (hsample : (Machine.onBus w.sample).Keeps fun s t : Machine β => G s → G t)
    (hcount : ∀ n, (Machine.write32 w.counter n).Keeps fun s t : Machine β => G s → G t) :
    Run.FollowsIn lax G (w.run l) (w.run l') := by
  refine Run.follows_bind (Run.followsIn_self (hcount 0)) fun _ => ?_
  rw [← h.patience]
  exact follows_poll h hsample hcount l.patience

/-- A composition of own steps alone, which does not look at a linkage, is in a class with them. -/
theorem Composed.alone [RegisterBus β] {P Q : Steps β} (hQ : Carries Q) (hP : ∀ α m, P α m → Q α m)
    {m : Run (Machine β) α} (hm : Composed P fun _ => m) : Q α m :=
  Composed.within hQ hP (l := .exhausted .standard ⟨[]⟩)
    ⟨fun _ _ => hQ.giveUp, hQ.giveUp⟩ hm

/-- Of two resolvers, the routines that the first finds follow those that the second finds. -/
def Resolver.Follows (lax : Prop) (G : Machine β → Prop) (resolve resolve' : Resolver β) : Prop :=
  ∀ logical active, Option.Rel
    (fun routine routine' => ∀ param, Run.FollowsIn lax G (routine param) (routine' param))
    (resolve logical active) (resolve' logical active)

section Calls

variable (hG : CallKeeping (Keeping fun s t : Machine β => G s → G t))

include hG

theorem Linkage.Follows.dispatch (h : Linkage.Follows lax G l l') (id : SlotId)
    (param : Option UInt8) :
    Run.FollowsIn lax G (l.dispatch id param) (l'.dispatch id param) := by
  refine Run.follows_bind (h.call id param) fun result => Run.followsIn_self ?_
  cases result with
  | ok => exact hG.done _
  | error e => exact hG.sequence (hG.count DispatchStats.failed) fun _ => hG.note _

/-- A composition follows itself, if its own steps stay within the invariant, and a critical section
follows another if what it encloses does. -/
theorem Composed.follows_of_critical [RegisterBus β] {P : Steps β}
    (hP : ∀ α m, P α m → m.Keeps fun s t => G s → G t)
    (hcritical : ∀ {α : Type} {body body' : Run (Machine β) α}, Run.FollowsIn lax G body body' →
      Run.FollowsIn lax G (Machine.critical body) (Machine.critical body'))
    (h : Linkage.Follows lax G l l') {m : Linkage β → Run (Machine β) α} (hm : Composed P m) :
    Run.FollowsIn lax G (m l) (m l') := by
  have hcarries : Carries (Keeping fun s t : Machine β => G s → G t) :=
    hG.carries fun _ hbody => (hcritical (Run.followsIn_self hbody)).self_keeps
  -- each way to use a linkage follows; own steps are the same run on both sides
  induction hm with
  | done a => exact Run.follows_pure fun _ hs => hs
  | sequence _ _ first next => exact Run.follows_bind first next
  | step m own => exact Run.followsIn_self (hP _ m own)
  | call id param => exact h.call id param
  | callStub addr param => exact h.callStub addr param
  | dispatch id param => exact h.dispatch hG id param
  | poll => exact h.poll
  | wait w sample count =>
    exact BusyWait.follows_run h (sample.alone hcarries hP) fun n => (count n).alone hcarries hP
  | critical _ body => exact hcritical body
  | @configured _ f next ih =>
    change Run.FollowsIn lax G (f l.config l) (f l'.config l')
    rw [← h.config]
    exact ih l.config

/-- A call follows a call of the same slot. -/
theorem farCall_follows {resolve resolve' : Resolver β}
    (hresolve : Resolver.Follows lax G resolve resolve')
    (slot : DispatchSlot) (param : Option UInt8) :
    Run.FollowsIn lax G (farCall resolve slot param) (farCall resolve' slot param) := by
  have land : Run.FollowsIn lax G (FarCall.land resolve slot param)
      (FarCall.land resolve' slot param) := by
    refine Run.follows_bind (Run.followsIn_self (hG.look fun bank _ _ => bank)) ?_
    intro active
    have hfound := hresolve slot.target.logical active
    generalize resolve slot.target.logical active = found at hfound
    generalize resolve' slot.target.logical active = found' at hfound
    cases hfound with
    | none => exact Run.follows_pure fun _ hs => hs
    | @some routine routine' hroutine =>
      refine Run.follows_bind (Run.followsIn_self (hG.stack _)) fun pushed => ?_
      cases pushed with
      | error e => exact Run.follows_pure fun _ hs => hs
      | ok =>
        refine Run.follows_bind (Run.followsIn_self (hG.look fun _ stack _ => stack.depth)) ?_
        intro depth
        refine Run.follows_bind (Run.followsIn_self (hG.note _)) fun _ => ?_
        refine Run.follows_bind (hroutine param) fun _ => ?_
        exact Run.followsIn_self (hG.restore slot)
  have enter (caller : Bank) : Run.FollowsIn lax G (FarCall.enter resolve slot param caller)
      (FarCall.enter resolve' slot param caller) := by
    refine Run.follows_bind (Run.followsIn_self (hG.stack _)) fun pushed => ?_
    cases pushed with
    | error e => exact Run.follows_pure fun _ hs => hs
    | ok =>
      refine Run.follows_bind (Run.followsIn_self (hG.stack _)) fun saved => ?_
      cases saved with
      | error e => exact Run.follows_pure fun _ hs => hs
      | ok => exact Run.follows_bind (Run.followsIn_self (hG.mapTarget slot)) fun _ => land
  refine Run.follows_bind (Run.followsIn_self (hG.look fun _ stack _ => stack.depth)) ?_
  intro depth
  refine Run.follows_bind (Run.followsIn_self (hG.look fun bank _ _ => bank)) ?_
  intro caller
  refine Run.follows_bind (enter caller) fun result => Run.followsIn_self ?_
  cases result with
  | ok => exact hG.done _
  | error e => exact hG.sequence (hG.unwind depth caller) fun _ => hG.done _

/-- Calls are counted alike, and follow each other in two firmwares with the same slots. -/
theorem callWith_follows {fw fw' : Firmware β} (htable : fw.table = fw'.table)
    (hresolver : Resolver.Follows lax G (fw.resolver l) (fw'.resolver l')) (id : SlotId)
    (param : Option UInt8) :
    Run.FollowsIn lax G (fw.callWith l id param) (fw'.callWith l' id param) := by
  unfold Firmware.callWith
  rw [← htable]
  cases fw.table.slot? id with
  | none => exact Run.follows_pure fun _ hs => hs
  | some slot =>
    refine Run.follows_bind (Run.followsIn_self (hG.count fun stats => stats.called id)) fun _ => ?_
    exact farCall_follows hG hresolver slot param

theorem serve_follows [RegisterBus β] {line : IrqLine}
    (hroute : Run.FollowsIn lax G (l.route line) (l'.route line)) :
    Run.FollowsIn lax G (l.serve line) (l'.serve line) := by
  have frame (bank : Bank) : Run.FollowsIn lax G (l.interruptFrame line bank)
      (l'.interruptFrame line bank) := by
    refine Run.follows_bind (Run.followsIn_self (hG.stack _)) fun pushed => ?_
    cases pushed with
    | error e => exact Run.follows_pure fun _ hs => hs
    | ok =>
      refine Run.follows_bind (Run.followsIn_self (hG.stack _)) fun saved => ?_
      cases saved with
      | error e => exact Run.follows_pure fun _ hs => hs
      | ok => exact Run.follows_bind hroute fun _ => Run.followsIn_self hG.leaveInterrupt
  refine Run.follows_bind (Run.followsIn_self (hG.look fun _ stack _ => stack.depth)) ?_
  intro depth
  refine Run.follows_bind (Run.followsIn_self (hG.look fun bank _ _ => bank)) ?_
  intro bank
  refine Run.follows_bind (Run.followsIn_self (hG.note _)) fun _ => ?_
  refine Run.follows_bind (frame bank) fun result => ?_
  refine Run.followsIn_self ?_
  cases result with
  | ok => exact hG.done _
  | error e => exact hG.sequence (hG.note _) fun _ => hG.unwind depth bank

end Calls

variable (hG : Bookkeeping (Keeping fun s t : Machine β => G s → G t))

include hG

theorem Machine.follows_critical {body body' : Run (Machine β) α}
    (h : Run.FollowsIn lax G body body') :
    Run.FollowsIn lax G (Machine.critical body) (Machine.critical body') := by
  refine Run.follows_bind (Run.followsIn_self (hG.look fun _ _ irq => irq.globallyEnabled)) ?_
  intro enabled
  refine Run.follows_bind (Run.followsIn_self (hG.irq _)) fun _ => ?_
  refine Run.follows_bind h fun a => ?_
  exact Run.followsIn_self (hG.sequence (hG.irq _) fun _ => hG.done a)

variable [RegisterBus β]

theorem Composed.follows {P : Steps β} (hP : ∀ α m, P α m → m.Keeps fun s t => G s → G t)
    (h : Linkage.Follows lax G l l') {m : Linkage β → Run (Machine β) α} (hm : Composed P m) :
    Run.FollowsIn lax G (m l) (m l') :=
  hm.follows_of_critical hG.toCallKeeping hP (Machine.follows_critical hG) h

theorem serviceInterrupt_follows (line : IrqLine)
    (hroute : Run.FollowsIn lax G (l.route line) (l'.route line)) :
    Run.FollowsIn lax G (l.serviceInterrupt line) (l'.serviceInterrupt line) := by
  rw [Linkage.serviceInterrupt_eq, Linkage.serviceInterrupt_eq]
  refine Run.follows_bind (Run.followsIn_self (hG.irq _)) fun _ => ?_
  refine Run.follows_bind (serve_follows hG.toCallKeeping hroute) fun _ => ?_
  exact Run.followsIn_self (hG.sequence (hG.irq _) fun _ => hG.note _)

end Parts

namespace Firmware

variable [RegisterBus β] {G : Machine β → Prop} {fw fw' : Firmware β}

/-- Two firmwares differ in their routines alone, and against linkages of which one follows the
other so do the routines. -/
structure Follows (lax : Prop) (G : Machine β → Prop) (fw fw' : Firmware β) : Prop where
  config : fw.config = fw'.config
  table : fw.table = fw'.table
  resolver : ∀ l l', Linkage.Follows lax G l l' →
    Resolver.Follows lax G (fw.resolver l) (fw'.resolver l')

/-- By induction on the bound: what is called, and what is run for an interrupt, runs against
linkages with a smaller bound. -/
theorem Follows.linkage (h : Follows lax G fw fw')
    (hG : Bookkeeping (Keeping fun s t : Machine β => G s → G t))
    (hroute : ∀ line l l', Linkage.Follows lax G l l' →
      Run.FollowsIn lax G (l.route line) (l'.route line)) (n : Nat) :
    Linkage.Follows lax G (fw.linkage n) (fw'.linkage n) := by
  induction n with
  | zero =>
    exact ⟨h.config, h.table, rfl, fun _ _ => Run.follows_giveUp, Run.follows_giveUp⟩
  | succ n ih =>
    refine ⟨h.config, h.table, rfl, ?_, ?_⟩
    · intro id param
      exact callWith_follows hG.toCallKeeping h.table (h.resolver _ _ ih) id param
    · -- which interrupt is served is decided by the machine, and so is the same for both
      intro s hs
      rw [poll_linkage, poll_linkage]
      cases s.irq.next? with
      | none => exact .inr ⟨rfl, fun a t hrun => by cases hrun; exact hs⟩
      | some line =>
        have hservice := serviceInterrupt_follows hG line (hroute line _ _ ih)
        exact Run.follows_bind hservice (fun _ => ih.poll) s hs

omit [RegisterBus β] in
/-- It is enough to look at each routine with what is run in front of it. -/
theorem hooked_follows {before : Placed (Routine β) → Run (Machine β) Unit}
    (h : ∀ placed ∈ fw.image.routines, ∀ l l' param, Linkage.Follows lax G l l' →
      Run.FollowsIn lax G (before placed >>= fun _ => placed.body l param) (placed.body l' param)) :
    Follows lax G (fw.hooked before) fw := by
  refine ⟨rfl, rfl, fun l l' hl logical active => ?_⟩
  rw [resolver_hooked]
  unfold resolver
  cases hfound : fw.image.resolve logical active with
  | none => exact .none
  | some placed =>
    exact .some fun param => h placed (CodeImage.mem_of_resolve hfound) l l' param hl

/-- The firmware in which a run gives up where it would enter a routine at one of the addresses. -/
def barring (fw : Firmware β) (addrs : List CodeAddr) : Firmware β :=
  fw.hooked fun placed => if placed.addr ∈ addrs then Run.giveUp else pure ()

/-- The routines count where they are not barred. -/
theorem composedOf_barring {P : Steps β} (hgiveUp : ∀ α : Type, P α Run.giveUp)
    {addrs : List CodeAddr}
    (himage : ∀ placed ∈ fw.image.routines, placed.addr ∉ addrs → placed.body.ComposedOf P) :
    (fw.barring addrs).image.ComposedOf P := by
  intro placed hplaced param
  obtain ⟨plain, hplain, rfl⟩ := List.mem_map.1 hplaced
  dsimp only
  by_cases hbarred : plain.addr ∈ addrs
  · rw [if_pos hbarred]
    exact .step Run.giveUp (hgiveUp _)
  · rw [if_neg hbarred]
    exact himage plain hplain hbarred param

/-- The routines of a linked firmware that are not barred are of the core, or were handed to the
linker. -/
theorem others_of_link {P : Steps β} (hP : Admits P CoreWrite) {image : CodeImage (Routine β)}
    {entries : List DispatchEntry} {config : FirmwareConfig}
    (h : link image entries config = .ok fw) {addrs : List CodeAddr}
    (himage : ∀ placed ∈ image.routines, placed.addr ∉ addrs → placed.body.ComposedOf P) :
    ∀ placed ∈ fw.image.routines, placed.addr ∉ addrs → placed.body.ComposedOf P := by
  obtain ⟨-, -, hfw, -⟩ := link_eq_ok h
  rw [hfw]
  exact CodeImage.forall_of_installCore
    (P := fun placed : Placed (Routine β) => placed.addr ∉ addrs → placed.body.ComposedOf P)
    (fun _ _ _ => Composed.scanRoutine hP.scan)
    (fun _ _ _ => Composed.commandServiceRoutine hP.service) entries himage

/-- Whatever is run with addresses barred, other than giving up, is run without. -/
theorem barring_apply {P : Steps β} (hP : Admits P RouteWrite) (himage : fw.image.ComposedOf P)
    (addrs : List CodeAddr) (n : Nat) {m : Linkage β → Run (Machine β) α} (hm : Composed P m)
    (s : Machine β) :
    m ((fw.barring addrs).linkage n) s = .exhausted ∨
      m (fw.linkage n) s = m ((fw.barring addrs).linkage n) s := by
  have hany : Bookkeeping (Keeping fun _ _ : Machine β => True → True) :=
    bookkeeping_onBus (Q := fun _ _ : β => True → True) ⟨fun _ => id, fun _ _ => id⟩
  have hown {l l' : Linkage β} (hl : Linkage.Follows True (fun _ => True) l l') {γ : Type}
      {m : Linkage β → Run (Machine β) γ} (hm : Composed P m) :
      Run.FollowsIn True (fun _ => True) (m l) (m l') :=
    Composed.follows hany (fun _ _ _ _ _ _ _ => id) hl hm
  have hfollows : Follows True (fun _ => True) (fw.barring addrs) fw := by
    refine hooked_follows fun placed hplaced l l' param hl => ?_
    by_cases hbarred : placed.addr ∈ addrs
    · rw [if_pos hbarred]
      exact fun s _ => .inl ⟨trivial, rfl⟩
    · rw [if_neg hbarred]
      exact hown hl (himage placed hplaced param)
  have hlinkage := hfollows.linkage hany (fun line _ _ hl => hown hl (.route hP line)) n
  rcases hown hlinkage hm s trivial with ⟨-, hexhausted⟩ | ⟨hsame, -⟩
  · exact .inl hexhausted
  · exact .inr hsame.symm

omit [RegisterBus β] in
/-- Something that does nothing within the invariant can be run in front of every routine, if the
routines that are not barred stay within it. -/
theorem checked_follows {addrs : List CodeAddr}
    (hothers : ∀ placed ∈ fw.image.routines, placed.addr ∉ addrs → ∀ l l' param,
      Linkage.Follows False G l l' →
        Run.FollowsIn False G (placed.body l param) (placed.body l' param))
    {check : Run (Machine β) Unit} (hcheck : ∀ s, G s → check s = .done () s) :
    Follows False G ((fw.barring addrs).hooked fun _ => check) (fw.barring addrs) := by
  refine hooked_follows fun placed hplaced l l' param hl => ?_
  obtain ⟨plain, hplain, rfl⟩ := List.mem_map.1 hplaced
  refine Run.follows_silent hcheck ?_
  dsimp only
  by_cases hbarred : plain.addr ∈ addrs
  · rw [if_pos hbarred]
    exact Run.follows_giveUp
  · rw [if_neg hbarred]
    exact hothers plain hplain hbarred l l' param hl

end Firmware

end BankedController
