import BankedController.Proofs.Bytes
import BankedController.Proofs.Passes
import BankedController.Proofs.RigLedger
import Mathlib.Data.List.Chain

/-! A pass consumes the bits that were posted since the pass before it read the byte, or that the
pass before it moved, and moves the bits that were posted since the pass before it moved any. So
every posting is seen by one pass. -/

namespace BankedController

open RegisterMap Ledger

variable {β : Type}

/-- A pass, by the machine at four moments and by what the pass reports. -/
structure PassRecord (β : Type) where
  start : Machine β
  read : Machine β
  promotion : Machine β
  finish : Machine β
  summary : PassSummary

section Definitions

variable [RegisterBus β]

/-- The record is of a pass of the main loop: the event byte is read after the pollers, and deferred
bits are promoted after the events are served. -/
structure PassRecord.Of (l : Linkage β) (p : PassRecord β) : Prop where
  run : l.runPass p.start = .done p.summary p.finish
  pollers : l.runPollers pollers p.start = .done () p.read
  serve : l.serveEvents p.read = .done p.summary.events p.promotion
  promote : ∃ t, Machine.critical promoteDeferred p.promotion = .done p.summary.promoted t ∧
    l.poll t = .done () p.finish

/-- Passes one after the other, each after something that the surroundings do. -/
def Linkage.passes (l : Linkage β) :
    List (Run (Machine β) Unit) → Run (Machine β) (List PassSummary)
  | [] => pure []
  | interlude :: rest => do
    interlude
    let summary ← l.runPass
    let summaries ← l.passes rest
    pure (summary :: summaries)

/-- The records of such passes. -/
inductive PassRecord.Chain (l : Linkage β) :
    List (Run (Machine β) Unit) → Machine β → List (PassRecord β) → Machine β → Prop
  | nil (s : Machine β) : Chain l [] s [] s
  | cons {interlude : Run (Machine β) Unit} {rest : List (Run (Machine β) Unit)} {s t : Machine β}
      {p : PassRecord β} {others : List (PassRecord β)}
      (before : interlude s = .done () p.start) (first : p.Of l)
      (next : Chain l rest p.finish others t) : Chain l (interlude :: rest) s (p :: others) t

namespace LedgerBus

variable (b : LedgerBus β)

def byte (which : SharedByte) (s : Machine β) : UInt8 := (b.view s.bus).value which

def ledger (s : Machine β) : List LedgerEntry := (b.view s.bus).ledger

/-- All bits posted in a byte between two moments. -/
def postedSince (which : SharedByte) (s t : Machine β) : UInt8 :=
  posted which (since (b.ledger s) (b.ledger t))

/-- What one pass does to the two bytes. -/
structure Accounted (p : PassRecord β) : Prop where
  toRead : b.ledger p.start <:+ b.ledger p.read
  toPromotion : b.ledger p.read <:+ b.ledger p.promotion
  toFinish : b.ledger p.promotion <:+ b.ledger p.finish
  eventsRead : b.byte .events p.read =
    b.byte .events p.start ||| b.postedSince .events p.start p.read
  events : p.summary.events = b.byte .events p.read &&& passEvents
  eventsLeft : b.byte .events p.finish =
    (b.byte .events p.read &&& ~~~p.summary.events) ||| b.postedSince .events p.read p.finish |||
      eventsOfDeferred p.summary.promoted
  stateRead : b.byte .state p.promotion =
    b.byte .state p.start ||| b.postedSince .state p.start p.promotion
  promoted : p.summary.promoted = b.byte .state p.promotion &&& deferredBits
  host : eventsOfDeferred p.summary.promoted &&& eventHost ≠ 0 ↔
    b.byte .state p.promotion &&& deferredHost ≠ 0
  endpoint : eventsOfDeferred p.summary.promoted &&& eventEndpoint ≠ 0 ↔
    b.byte .state p.promotion &&& deferredEndpoint ≠ 0
  stateLeft : b.byte .state p.finish =
    (b.byte .state p.promotion &&& ~~~p.summary.promoted) |||
      b.postedSince .state p.promotion p.finish

/-- What a pass hands over to the next. -/
structure HandsOver (p q : PassRecord β) : Prop where
  events : q.summary.events =
    (b.postedSince .events p.read q.read ||| eventsOfDeferred p.summary.promoted) &&& passEvents
  otherEvents : b.byte .events q.read &&& ~~~passEvents =
    (b.byte .events p.read ||| b.postedSince .events p.read q.read) &&& ~~~passEvents
  promoted : q.summary.promoted = b.postedSince .state p.promotion q.promotion &&& deferredBits
  otherState : b.byte .state q.promotion &&& ~~~deferredBits =
    (b.byte .state p.promotion ||| b.postedSince .state p.promotion q.promotion) &&& ~~~deferredBits

/-- Whatever the surroundings post before each pass, all passes of a sequence add up. -/
def Accounts (l : Linkage β) : Prop :=
  ∀ interludes : List (Run (Machine β) Unit),
    (∀ interlude ∈ interludes, interlude.Keeps (OnBus (b.Grows []))) →
    ∀ s summaries t, b.wired s.bus → l.passes interludes s = .done summaries t →
      ∃ records, PassRecord.Chain l interludes s records t ∧
        records.map PassRecord.summary = summaries ∧ (∀ p ∈ records, b.Accounted p) ∧
        records.IsChain b.HandsOver

/-- The dispatches that a pass enters are those of the pollers and those that its events ask for. -/
def Dispatches (l : Linkage β) : Prop :=
  ∀ s summary t, b.wired s.bus → l.runPass s = .done summary t →
    dispatched (since (b.ledger s) (b.ledger t)) = pollers ++ asked summary.events

end LedgerBus

end Definitions

/-- A deferred host bit becomes the host bit of the event byte, and nothing else does. -/
theorem eventsOfDeferred_host (state : UInt8) :
    eventsOfDeferred (state &&& deferredBits) &&& eventHost ≠ 0 ↔ state &&& deferredHost ≠ 0 := by
  have hmask : (state &&& deferredBits) &&& deferredHost = state &&& deferredHost :=
    UInt8.and_assoc ..
  unfold eventsOfDeferred
  rw [hmask]
  exact Bits.chosen_and (by decide) (by decide)

/-- A deferred endpoint bit becomes the endpoint bit of the event byte, and nothing else does. -/
theorem eventsOfDeferred_endpoint (state : UInt8) :
    eventsOfDeferred (state &&& deferredBits) &&& eventEndpoint ≠ 0 ↔
      state &&& deferredEndpoint ≠ 0 := by
  have hmask : (state &&& deferredBits) &&& deferredEndpoint = state &&& deferredEndpoint :=
    UInt8.and_assoc ..
  unfold eventsOfDeferred
  rw [hmask, UInt8.or_comm]
  exact Bits.chosen_and (by decide) (by decide)

/-- Promotion sets bits that the pass looks at and no others. -/
theorem eventsOfDeferred_outside (deferred : UInt8) :
    eventsOfDeferred deferred &&& ~~~passEvents = 0 := by
  unfold eventsOfDeferred
  split
  all_goals split
  all_goals decide

namespace LedgerBus

variable [RegisterBus β] {b : LedgerBus β}

section OnePass

variable {trail : SlotId → List SlotId} {l : Linkage β} {s t : Machine β} {summary : PassSummary}

/-- A pass that ends has gone through its four moments. -/
theorem record_of_runPass (h : l.runPass s = .done summary t) :
    ∃ p : PassRecord β, p.Of l ∧ p.start = s ∧ p.finish = t ∧ p.summary = summary := by
  obtain ⟨_, read, hpollers, hrest⟩ := Run.bind_eq_done.1 h
  obtain ⟨events, promotion, hserve, hrest⟩ := Run.bind_eq_done.1 hrest
  obtain ⟨promoted, u, hpromote, hrest⟩ := Run.bind_eq_done.1 hrest
  obtain ⟨_, _, hpoll, hrest⟩ := Run.bind_eq_done.1 hrest
  cases hrest
  exact ⟨⟨s, read, promotion, t, ⟨events, promoted⟩⟩, ⟨h, hpollers, hserve, u, hpromote, hpoll⟩,
    rfl, rfl, rfl⟩

omit [RegisterBus β] in
theorem since_of_append {entries : List LedgerEntry} {s t : List LedgerEntry}
    (h : t = entries ++ s) : since s t = entries := by
  rw [h, since_append]

/-- A pass that ends has kept its accounts, and has dispatched what its events asked for. -/
theorem accounted_of_record (hl : b.Trails trail l) {p : PassRecord β} (hp : p.Of l)
    (hwired : b.wired p.start.bus) :
    b.wired p.finish.bus ∧ b.Accounted p ∧
      dispatched (since (b.ledger p.start) (b.ledger p.finish)) =
        (pollers ++ asked p.summary.events).flatMap trail := by
  obtain ⟨hread, polled, hpolled, hpolledSlots⟩ :=
    grows_runPollers hl pollers _ _ _ hp.pollers hwired
  obtain ⟨hevents, hpromotion, served, hserved, hservedSlots⟩ :=
    serveEvents_eq_done hl hread hp.serve
  obtain ⟨t, hcritical, hpoll⟩ := hp.promote
  obtain ⟨hpromoted, hfinish, ended, hended, hendedSlots⟩ :=
    promotion_eq_done hl hpromotion hcritical hpoll
  have hledgerRead : b.ledger p.read = polled ++ b.ledger p.start := hpolled.ledger
  have hledgerPromotion : b.ledger p.promotion = served ++ b.ledger p.read := hserved.ledger
  have hledgerFinish : b.ledger p.finish = ended ++ b.ledger p.promotion := hended.ledger
  have hfromRead : b.ledger p.finish = (ended ++ served) ++ b.ledger p.read := by
    rw [hledgerFinish, hledgerPromotion, List.append_assoc]
  have htoPromotion : b.ledger p.promotion = (served ++ polled) ++ b.ledger p.start := by
    rw [hledgerPromotion, hledgerRead, List.append_assoc]
  have hwhole : b.ledger p.finish = (ended ++ served ++ polled) ++ b.ledger p.start := by
    simp only [hfromRead, hledgerRead, List.append_assoc]
  refine ⟨hfinish, ?_, ?_⟩
  · constructor
    case toRead => exact ⟨polled, hledgerRead.symm⟩
    case toPromotion => exact ⟨served, hledgerPromotion.symm⟩
    case toFinish => exact ⟨ended, hledgerFinish.symm⟩
    case eventsRead =>
      rw [postedSince, since_of_append hledgerRead]
      exact hpolled.value .events
    case events => exact hevents
    case eventsLeft =>
      rw [postedSince, since_of_append hfromRead, posted_append]
      have hserve := hserved.value .events
      have hend := hended.value .events
      rw [Account.value_store] at hserve hend
      unfold byte
      rw [hend, hserve]
      ac_rfl
    case stateRead =>
      rw [postedSince, since_of_append htoPromotion, posted_append, ← UInt8.or_assoc]
      have hserve := hserved.value .state
      rw [Account.value_store_of_ne _ (by decide)] at hserve
      unfold byte
      rw [hserve, hpolled.value .state]
    case promoted => exact hpromoted
    case host =>
      rw [hpromoted]
      exact eventsOfDeferred_host _
    case endpoint =>
      rw [hpromoted]
      exact eventsOfDeferred_endpoint _
    case stateLeft =>
      rw [postedSince, since_of_append hledgerFinish]
      have hend := hended.value .state
      rw [Account.value_store_of_ne _ (by decide), Account.value_store] at hend
      exact hend
  · rw [since_of_append hwhole, dispatched_append, dispatched_append, hpolledSlots, hservedSlots,
      hendedSlots, List.flatMap_append, List.append_nil]

end OnePass

section Sequences

variable {l : Linkage β} {p q : PassRecord β}

theorem postedSince_trans (which : SharedByte) {s t u : Machine β}
    (h : b.ledger s <:+ b.ledger t) (h' : b.ledger t <:+ b.ledger u) :
    b.postedSince which s u = b.postedSince which s t ||| b.postedSince which t u := by
  obtain ⟨earlier, hearlier⟩ := h
  obtain ⟨later, hlater⟩ := h'
  have hwhole : b.ledger u = (later ++ earlier) ++ b.ledger s := by
    rw [← hlater, ← hearlier, List.append_assoc]
  unfold postedSince
  rw [since_of_append hwhole, since_of_append hearlier.symm, since_of_append hlater.symm,
    posted_append]

/-- Between two moments between which things are only posted, the bytes take up what is posted. -/
theorem byte_of_grows {slots : List SlotId} {s t : Machine β} (h : b.Grows slots s.bus t.bus)
    (hs : b.wired s.bus) :
    b.wired t.bus ∧ b.ledger s <:+ b.ledger t ∧
      ∀ which, b.byte which t = b.byte which s ||| b.postedSince which s t := by
  obtain ⟨ht, entries, hgrown, -⟩ := h hs
  have hledger : b.ledger t = entries ++ b.ledger s := hgrown.ledger
  refine ⟨ht, ⟨entries, hledger.symm⟩, ?_⟩
  intro which
  rw [postedSince, since_of_append hledger]
  exact hgrown.value which

/-- What one pass leaves and what is posted until the next has read is what the next sees. -/
theorem handsOver_of_accounted (hp : b.Accounted p) (hq : b.Accounted q)
    (hwired : b.wired p.finish.bus) (hbetween : b.Grows [] p.finish.bus q.start.bus) :
    b.HandsOver p q := by
  obtain ⟨-, htoStart, hstart⟩ := byte_of_grows hbetween hwired
  have hevents : b.byte .events q.read =
      (b.byte .events p.read &&& ~~~(b.byte .events p.read &&& passEvents)) |||
        (b.postedSince .events p.read q.read ||| eventsOfDeferred p.summary.promoted) := by
    have hsplit := postedSince_trans .events (hp.toPromotion.trans hp.toFinish) htoStart
    have hall := postedSince_trans .events
      ((hp.toPromotion.trans hp.toFinish).trans htoStart) hq.toRead
    rw [hq.eventsRead, hstart, hp.eventsLeft, hall, hsplit, hp.events]
    ac_rfl
  have hstate : b.byte .state q.promotion =
      (b.byte .state p.promotion &&& ~~~(b.byte .state p.promotion &&& deferredBits)) |||
        b.postedSince .state p.promotion q.promotion := by
    have hsplit := postedSince_trans .state hp.toFinish htoStart
    have hall := postedSince_trans .state (hp.toFinish.trans htoStart)
      (hq.toRead.trans hq.toPromotion)
    rw [hq.stateRead, hstart, hp.stateLeft, hall, hsplit, hp.promoted]
    ac_rfl
  constructor
  case events =>
    rw [hq.events, hevents]
    exact Bits.clear_seen ..
  case otherEvents =>
    rw [hevents, Bits.clear_unseen, ← UInt8.or_assoc, Bits.or_and, eventsOfDeferred_outside]
    exact UInt8.or_zero
  case promoted =>
    rw [hq.promoted, hstate]
    exact Bits.clear_seen ..
  case otherState =>
    rw [hstate]
    exact Bits.clear_unseen ..

/-- The passes of a sequence add up if calls and preemption points only post. -/
theorem accounts_of_trails {trail : SlotId → List SlotId} (hl : b.Trails trail l) :
    b.Accounts l := by
  intro interludes hinterludes s summaries t hwired hrun
  -- beside the statement: up to the first record only postings are made
  suffices hrecords : ∃ records, PassRecord.Chain l interludes s records t ∧
      records.map PassRecord.summary = summaries ∧ (∀ p ∈ records, b.Accounted p) ∧
      records.IsChain b.HandsOver ∧ ∀ p ∈ records.head?, b.Grows [] s.bus p.start.bus by
    obtain ⟨records, hchain, hsummaries, haccounted, hhands, -⟩ := hrecords
    exact ⟨records, hchain, hsummaries, haccounted, hhands⟩
  induction interludes generalizing s summaries with
  | nil =>
    cases hrun
    exact ⟨[], .nil _, rfl, by simp, .nil, by simp⟩
  | cons interlude rest ih =>
    obtain ⟨_, start, hinterlude, hrun⟩ := Run.bind_eq_done.1 hrun
    obtain ⟨summary, finish, hpass, hrun⟩ := Run.bind_eq_done.1 hrun
    obtain ⟨others, u, hothers, hrun⟩ := Run.bind_eq_done.1 hrun
    cases hrun
    obtain ⟨hkeeps, hrest⟩ := List.forall_mem_cons.1 hinterludes
    have hbefore : b.Grows [] s.bus start.bus := hkeeps s () start hinterlude
    obtain ⟨p, hp, rfl, rfl, rfl⟩ := record_of_runPass hpass
    obtain ⟨hfinish, haccounted, -⟩ := accounted_of_record hl hp (hbefore hwired).1
    obtain ⟨records, hchain, hsummaries, hall, hhands, hhead⟩ :=
      ih hrest p.finish others hfinish hothers
    refine ⟨p :: records, .cons hinterlude hp hchain, ?_, ?_, ?_, ?_⟩
    · rw [List.map_cons, hsummaries]
    · exact List.forall_mem_cons.2 ⟨haccounted, hall⟩
    · refine List.isChain_cons.2 ⟨?_, hhands⟩
      intro q hq
      exact handsOver_of_accounted haccounted (hall q (List.mem_of_mem_head? hq)) hfinish
        (hhead q hq)
    · intro q hq
      cases hq
      exact hbefore

/-- The entries that a pass makes through a tapped linkage are the dispatches of the loop. -/
theorem dispatches_of_trails (hl : b.Trails (fun id => [id]) l) : b.Dispatches l := by
  intro s summary t hwired hrun
  obtain ⟨p, hp, rfl, rfl, rfl⟩ := record_of_runPass hrun
  obtain ⟨-, -, hslots⟩ := accounted_of_record hl hp hwired
  rw [hslots, List.flatMap_singleton']

end Sequences

end LedgerBus

namespace Firmware

variable [RegisterBus β]

/-- In a linked firmware whose routines change the two bytes by posting, the passes of every sequence
add up, and each dispatches the pollers and what its events ask for. A pass ends whenever the calls
that it makes and its preemption points do, also where calls fail. -/
theorem postings_accounted {fw : Firmware β} {image : CodeImage (Routine β)}
    {entries : List DispatchEntry} {config : FirmwareConfig} (b : LedgerBus β)
    (h : link image entries config = .ok fw) (himage : image.ComposedOf b.PostingStep) (n : Nat) :
    b.Accounts (fw.linkage n) ∧ b.Accounts (b.tapped (fw.linkage n)) ∧
      b.Dispatches (b.tapped (fw.linkage n)) ∧
      ∀ G, b.Viable (fw.linkage n) G → (fw.linkage n).runPass.Ends G := by
  have hkeeps := LedgerBus.grows_linkage h himage n
  have hplain := LedgerBus.trails_of_keeps hkeeps
  have htapped := LedgerBus.trails_tapped hkeeps
  refine ⟨LedgerBus.accounts_of_trails hplain, LedgerBus.accounts_of_trails htapped,
    LedgerBus.dispatches_of_trails htapped, ?_⟩
  intro G hG
  exact hG.ends_runPass

end Firmware

namespace Mailbox

def tick : Routine (Rig (List LedgerEntry)) := fun _ _ => do
  Rig.ledgerBus.post .state deferredEndpoint
  Rig.assertInterrupt pcieStatus pcieLinkBit
  Machine.raiseIrq .system

def host : Routine (Rig (List LedgerEntry)) := fun _ _ =>
  Rig.ledgerBus.post .events eventHost

def image : CodeImage (Routine (Rig (List LedgerEntry))) :=
  ⟨[⟨"tick", .ofLogical .bank0 0x8010, tick⟩, ⟨"host", .ofLogical .bank1 0x8020, host⟩,
    ⟨"link", .ofLogical .bank1 0x8030, host⟩]⟩

def entries : List DispatchEntry :=
  [⟨.timerPoll, .bank0, 0x8010, .callReturn⟩, ⟨.hostEvent, .bank1, 0x8020, .tailJump⟩,
    ⟨.pcieLinkEvent, .bank1, 0x8030, .callReturn⟩]

/-- The first poller leaves work to be promoted and raises a line, of which the handler posts an
event of the host; and what serves the host's events posts one more. All other dispatches fail. -/
def firmware : Firmware (Rig (List LedgerEntry)) where
  config := .standard
  table := ⟨entries.map DispatchTable.slotOf⟩
  image := image

theorem link_image : Firmware.link image entries .standard = .ok firmware := rfl

theorem composedOf_image : image.ComposedOf Rig.ledgerBus.PostingStep := by
  have hraise : (Machine.raiseIrq .system : Run (Machine (Rig (List LedgerEntry))) Unit).Keeps
      (OnBus Rig.ledgerBus.Aside) := Run.keeps_modify fun _ hs => ⟨hs, rfl⟩
  have htick : tick.ComposedOf Rig.ledgerBus.PostingStep := by
    intro _
    refine Composed.followed (.step _ (.post _ _)) ?_
    refine Composed.followed (.step _ (.aside _ (Rig.aside_onBlocks _))) ?_
    exact .step _ (.aside _ hraise)
  have hhost : host.ComposedOf Rig.ledgerBus.PostingStep := fun _ => .step _ (.post _ _)
  intro placed hplaced
  simp only [image, List.mem_cons, List.not_mem_nil, or_false] at hplaced
  rcases hplaced with rfl | rfl | rfl
  · exact htick
  · exact hhost
  · exact hhost

/-- The machine before the first pass, with all lines enabled. -/
def start : Machine (Rig (List LedgerEntry)) :=
  { firmware.machine ⟨RigBus.initial, []⟩ none with
    irq := { InterruptController.initial with enable := 0x85 } }

/-- Three passes through the tapped linkage. -/
def threePasses : Outcome (Machine (Rig (List LedgerEntry))) (List PassSummary) :=
  (Rig.ledgerBus.tapped (firmware.linkage 5)).passes (List.replicate 3 (pure ())) start

/-- The host's bit is posted by the handler before the first pass reads the byte, and by the routine
that serves it for the second. The endpoint bit is promoted in every pass and served in the next. -/
theorem value_threePasses : threePasses.value? = some [⟨2, 2⟩, ⟨3, 2⟩, ⟨3, 2⟩] := by
  decide +kernel

end Mailbox

theorem Firmware.postings_accounted_mailbox :
    ∃ records t, PassRecord.Chain (Rig.ledgerBus.tapped (Mailbox.firmware.linkage 5))
        (List.replicate 3 (pure ())) Mailbox.start records t ∧
      records.map PassRecord.summary = [⟨2, 2⟩, ⟨3, 2⟩, ⟨3, 2⟩] ∧
      (∀ p ∈ records, Rig.ledgerBus.Accounted p) ∧ records.IsChain Rig.ledgerBus.HandsOver := by
  obtain ⟨t, hrun⟩ := Outcome.done_of_value? Mailbox.value_threePasses
  obtain ⟨-, haccounts, -⟩ := Firmware.postings_accounted Rig.ledgerBus Mailbox.link_image
    Mailbox.composedOf_image 5
  have hinterludes : ∀ interlude ∈ List.replicate 3 (pure () : Run (Machine _) Unit),
      interlude.Keeps (OnBus (Rig.ledgerBus.Grows [])) := by
    intro interlude hmem
    rw [List.eq_of_mem_replicate hmem]
    exact Run.keeps_pure (extends_onBus LedgerBus.extends_grows) ()
  have hwired : Rig.ledgerBus.wired Mailbox.start.bus := Rig.plain_initial []
  obtain ⟨records, hrecords⟩ := haccounts _ hinterludes _ _ t hwired hrun
  exact ⟨records, t, hrecords⟩

end BankedController
