import BankedController.Proofs.EndpointService

namespace BankedController.Board

open RegisterMap Endpoint

theorem extends_le : Extends fun m n : Nat => m ≤ n := ⟨Nat.le_refl, Nat.le_trans⟩

theorem extends_unmoved : Extends fun m n : Nat => n = m :=
  ⟨fun _ => rfl, fun h h' => h'.trans h⟩

/-- A failure for which there is no room is a move that the relation allows. -/
def Allows (R : Nat → Nat → Prop) (need room : Nat) : Prop := need ≤ room ∨ ∀ n, R n (n + 1)

theorem allows_le (need room : Nat) : Allows (fun m n => m ≤ n) need room := .inr Nat.le_succ

namespace Panel

variable {R : Nat → Nat → Prop} {limit room : Nat} {p : Panel}

theorem failures_store (p : Panel) (addr : UInt16) (value : UInt8) :
    (p.store addr value).failures = p.failures := (p.store_frame addr value).2.1

theorem failures_called (p : Panel) (slot : SlotId) (param : Option UInt8) :
    (p.called slot param).failures = p.failures :=
  behave_respects (R := fun p q => q.failures = p.failures) (fun _ => rfl)
    (fun h h' => h'.trans h) (fun p c value _ => p.failures_store c.addr value)
    (fun p _ _ => p.failures_store systemState _) _ slot

section Moves

variable (hR : Extends R)

include hR

theorem closed_failures : Closed fun p q => R p.failures q.failures where
  refl p := hR.refl p.failures
  trans := hR.trans
  clear p c := by
    rw [failures_store]
    exact hR.refl _
  called p slot param := by
    rw [failures_called]
    exact hR.refl _

theorem failures_runTest (hfit : Allows R 10 room) (snapshot : UInt8) (test : StatusTest)
    (p : Panel) :
    R p.failures (p.runTest limit room snapshot test).failures := by
  refine (closed_failures hR).runTest (hfit.imp_right fun h p => h p.failures)
    (fun p => ?_) snapshot p
  refine acknowledge_respects (R := fun p q => R p.failures q.failures) (hR.refl _)
    (fun register value _ => ?_) test.mask
  rw [failures_store]
  exact hR.refl _

theorem failures_runTests (hfit : Allows R 10 room) (snapshot : UInt8) (tests : List StatusTest)
    (p : Panel) : R p.failures (p.runTests limit room snapshot tests).failures :=
  (closed_failures hR).runTests (fun test _ p => failures_runTest hR hfit snapshot test p) p

end Moves

/-- Without room for the handler a scan fails, if there is anything to serve. -/
theorem failures_lt_scan (hroom : room < 5) (hlimit : 0 < limit) (hforced : p.forced = none)
    (hpending : p.pending ≠ []) : p.failures < (p.scan limit room).failures := by
  have hmono := closed_failures (R := (· ≤ ·)) extends_le
  have hfits : Fits (fun p q => p.failures ≤ q.failures) 5 room := .inr fun p => p.failures.le_succ
  obtain ⟨steps, rfl⟩ := Nat.exists_eq_add_of_lt hlimit
  let q := p.forcedFirst room
  have hq : Served [] p q := p.served_forcedFirst
  obtain ⟨c, rest, hsome⟩ := List.exists_cons_of_ne_nil hpending
  have hnext : q.next? = some c := by
    rw [next?_eq_head? (hq.forced.trans hforced), hq.pending_of_nothing, hsome]
    rfl
  have hstep : q.scanSteps room (steps + 1) = (q.serveCondition room c).scanSteps room steps := by
    rw [scanSteps, hnext]
  have hfailed : (q.serveCondition room c).failures = q.failures + 1 := by
    have hstandIn : q.standIn room .endpointHandler (some c.offset) = q.failed :=
      if_neg (Nat.not_le_of_lt hroom)
    unfold serveCondition
    rw [failures_store, hstandIn]
    rfl
  calc p.failures ≤ q.failures := hmono.forcedFirst hfits p
    _ < (q.serveCondition room c).failures := by omega
    _ ≤ (q.scanSteps room (steps + 1)).failures := by
      rw [hstep]
      exact hmono.scanSteps hfits steps _
    _ ≤ (p.scan (0 + steps + 1) room).failures := by
      rw [Nat.zero_add]
      exact hmono.masterLast hfits _

/-- So does the route of the endpoint line, with room for the scan but not for its handlers. -/
theorem failures_lt_route (hlow : 5 ≤ room) (hhigh : room < 10) (hlimit : 0 < limit)
    (hforced : p.forced = none) (hpending : p.pending ≠ []) :
    p.failures < (p.route limit room .endpoint).failures := by
  let snapshot := p.load usbStatus
  let q := p.runTest limit room snapshot masterTest
  have hfit := allows_le 10 room
  have hq : Served [] p q := served_runTest rfl snapshot p
  have hqforced : q.forced = none := hq.forced.trans hforced
  have hqpending : q.pending ≠ [] := by
    rwa [hq.pending_of_nothing]
  have hscan : q.runTest limit room snapshot scanTest = q.scan limit (room - 5) := by
    rw [runTest_scan hqforced, if_neg hqpending]
    exact if_pos hlow
  calc p.failures ≤ q.failures := failures_runTest extends_le hfit _ _ p
    _ < (q.scan limit (room - 5)).failures := failures_lt_scan (by omega) hlimit hqforced hqpending
    _ ≤ (p.route limit room .endpoint).failures := by
      rw [← hscan]
      exact failures_runTests extends_le hfit snapshot
        (LineRoute.endpoint.tests.drop 2) _

end Panel

namespace Console

variable {R : Nat → Nat → Prop} {limit room : Nat} {c : Console}

section Moves

variable (hR : Extends R) (hfit : Allows R 13 room)

include hR hfit

theorem failures_service (c : Console) (line : IrqLine) :
    R c.panel.failures (c.service limit room line).panel.failures := by
  have hroute : Allows R 10 (room - 3) := hfit.imp_left fun _ => by omega
  unfold service
  dsimp only
  split
  · exact Panel.failures_runTests hR hroute _ _ c.panel
  · exact hR.refl _

theorem failures_poll (count : Nat) (c : Console) :
    R c.panel.failures (c.poll limit room count).panel.failures :=
  @poll_keeps (fun d => R c.panel.failures d.panel.failures) limit room c
    (fun d line hd _ => hR.trans hd (failures_service hR hfit d line)) count (hR.refl _)

theorem failures_runPollers {slots : List SlotId} (hslots : slots ⊆ pollers) (c : Console) :
    R c.panel.failures (c.runPollers limit room slots).panel.failures := by
  have hfits : Panel.Fits (fun p q => R p.failures q.failures) 10 room :=
    hfit.imp (fun _ => by omega) fun h p => h p.failures
  exact @runPollers_keeps (fun d => R c.panel.failures d.panel.failures) limit room c
    (fun d line hd _ => hR.trans hd (failures_service hR hfit d line))
    (fun d slot _ hd => hR.trans hd
      ((Panel.closed_failures hR).dispatch hfits d.panel slot)) slots hslots (hR.refl _)

theorem failures_serveEvents (p : Panel) :
    R p.failures (p.serveEvents limit room).promote.failures := by
  have hclosed := Panel.closed_failures hR
  have hfits : Panel.Fits (fun p q => R p.failures q.failures) 10 room :=
    hfit.imp (fun _ => by omega) fun h p => h p.failures
  have hstore (addr : UInt16) (p : Panel) (value : UInt8) :
      R p.failures (p.store addr value).failures := by
    rw [Panel.failures_store]
    exact hR.refl _
  have hserve := @Panel.Closed.serveEvents _ limit room hclosed hfits (hstore eventFlags) p
  exact hR.trans hserve (hclosed.promote (hstore eventFlags) (hstore systemState) _)

/-- A pass moves the number of failures as failures do, or not at all if there is room. -/
theorem failures_pass (c : Console) :
    R c.panel.failures (c.pass limit room).panel.failures := by
  rw [pass_eq]
  exact hR.trans (failures_runPollers hR hfit (List.Subset.refl pollers) c)
    (failures_serveEvents hR hfit _)

end Moves

/-- If the endpoint line is the first to be taken, there is something to serve, and there is no room
for the handlers, then dispatches of the pass fail. -/
theorem failures_lt_pass (hlow : 8 ≤ room) (hhigh : room < 13) (hlimit : 0 < limit)
    (hforced : c.panel.forced = none) (hpending : c.panel.pending ≠ [])
    (hnext : c.irq.next? = some .endpoint) :
    c.panel.failures < (c.pass limit room).panel.failures := by
  have hfit := allows_le 13 room
  have hfits : Panel.Fits (fun p q => p.failures ≤ q.failures) 10 room := .inr fun p => Nat.le_succ _
  let rest : List SlotId := [.linkPoll, .phyPoll, .queuePoll]
  let d := c.onPanel fun p => p.dispatch limit room .timerPoll
  let e := d.service limit room .endpoint
  have hd : Panel.Served [] c.panel d.panel := Panel.served_dispatch c.panel (by decide)
  have hroute : e.panel = d.panel.route limit (room - 3) .endpoint := if_pos (by omega)
  have hfirst : d.poll limit room 2 = e.poll limit room 1 := by
    have hsame : d.irq.next? = some .endpoint := hnext
    rw [poll, hsame]
  have hpollers : c.runPollers limit room pollers = (e.poll limit room 1).runPollers limit room rest := by
    rw [← hfirst]
    rfl
  calc c.panel.failures ≤ d.panel.failures :=
        (Panel.closed_failures extends_le).dispatch hfits c.panel .timerPoll
    _ < e.panel.failures := by
      rw [hroute]
      apply Panel.failures_lt_route (by omega) (by omega) hlimit (hd.forced.trans hforced)
      rwa [hd.pending_of_nothing]
    _ ≤ (e.poll limit room 1).panel.failures := failures_poll extends_le hfit 1 e
    _ ≤ (c.runPollers limit room pollers).panel.failures := by
      rw [hpollers]
      exact failures_runPollers extends_le hfit (by decide) _
    _ ≤ (c.pass limit room).panel.failures := by
      rw [pass_eq]
      exact failures_serveEvents extends_le hfit _

theorem failures_after {config : FirmwareConfig} (hroom : 13 ≤ stackRoom config) (script : Script)
    (passes : Nat) : (after config script passes).panel.failures = 0 := by
  induction passes with
  | zero => rfl
  | succ passes ih =>
    have hpass := @failures_pass (fun m n => n = m) config.scanSteps (stackRoom config) extends_unmoved
      (.inl hroom)
      ((after config script passes).struck (impulse (script.before passes)))
    exact hpass.trans ih

end Console

/-- A single condition. -/
def single : Script := ⟨[⟨0, .endpointReady 0 0x01⟩]⟩

theorem pending_single (config : FirmwareConfig) :
    ((Console.poweredOn config).struck (impulse (single.before 0))).panel.pending ≠ [] := by
  have hset : (Condition.all.filter fun c => c.isIn (Vector.ofFn fun e : Fin 8 =>
      (Vector.replicate 8 (0 : UInt8))[e] ||| (impulse (single.before 0)).conditions e)[c.endpoint]) ≠
        [] := by
    decide
  exact hset

theorem next?_single (config : FirmwareConfig) :
    ((Console.poweredOn config).struck (impulse (single.before 0))).irq.next? = some .endpoint := by
  have hall : ∀ line : IrqLine,
      ((impulse (single.before 0)).onIrq { InterruptController.initial with
        enable := 0x85, priority := line.bit }).next? = some .endpoint := by
    intro line
    cases line <;> decide
  exact hall config.highLine

/-- Where there is less room, a single condition is enough for a dispatch to fail. -/
theorem failures_single {config : FirmwareConfig} (h : config.defect? = none)
    (hroom : stackRoom config < 13) : 0 < (Console.after config single 1).panel.failures := by
  have hlimit : 0 < config.scanSteps := by
    have hone := UInt8.le_iff_toNat_le.1 (FirmwareConfig.scanLimit_of_defect? h).1
    rw [FirmwareConfig.scanSteps_of_defect? h]
    exact hone
  exact Console.failures_lt_pass (eight_le_stackRoom h) hroom hlimit rfl (pending_single config)
    (next?_single config)

/-- A script from power-on, and what it came to. -/
def sessionReport (l : Linkage (Rig Record)) (script : Script) (passes : Nat) :
    Run State RunReport := do
  let _ ← session l script passes
  report

theorem sessionReport_apply {config : FirmwareConfig} {fw : BoardFirmware}
    (h : link config = .ok fw) {n : Nat} (hn : 2 ^ 32 ≤ n) (threshold : Option Severity)
    (script : Script) (passes : Nat) :
    ∃ found t, sessionReport (fw.linkage (n + 4)) script passes (initial fw threshold) =
        .done found t ∧
      found.dispatchFailures = (Console.after config script passes).panel.failures ∧
      (13 ≤ stackRoom config → found.stackHighWater ≤ 13) := by
  obtain ⟨summaries, t, hreach, ht⟩ := reach_settled h hn threshold script passes
  have hsession := session_add hreach 0
  obtain ⟨found, u, hreport, hfailures, hmark⟩ :=
    @report_apply (t.noted (.scriptFinished passes)) ht.intact
  refine ⟨found, u, ?_, hfailures.trans ?_, fun hroom => ?_⟩
  · exact (Run.bind_of_done hsession).trans hreport
  · exact congrArg (fun c : Console => c.panel.failures) ht.console
  · rw [hmark]
    exact ht.highWater hroom

/-- With every configuration that passes the check, every session ends in a report; no session
reports a failed dispatch exactly if the stack starts at 0xF3 at the latest, and then no more than
thirteen bytes of it are ever in use. -/
theorem stack_suffices {config : FirmwareConfig} (h : config.defect? = none) {n : Nat}
    (hn : 2 ^ 32 + 4 ≤ n) (threshold : Option Severity) :
    ∃ fw, link config = .ok fw ∧
      (∀ script passes, ∃ found t,
        sessionReport (fw.linkage n) script passes (initial fw threshold) = .done found t) ∧
      ((∀ script passes found t,
          sessionReport (fw.linkage n) script passes (initial fw threshold) = .done found t →
            found.dispatchFailures = 0) ↔ config.stackBase ≤ 0xF3) ∧
      (config.stackBase ≤ 0xF3 → ∀ script passes found t,
        sessionReport (fw.linkage n) script passes (initial fw threshold) = .done found t →
          found.stackHighWater ≤ 13) := by
  obtain ⟨fw, hfw⟩ := link_ok h
  obtain ⟨m, rfl⟩ := Nat.exists_eq_add_of_le' (show 4 ≤ n by omega)
  have hm : 2 ^ 32 ≤ m := by omega
  have hreports := sessionReport_apply hfw hm threshold
  refine ⟨fw, hfw, fun script passes => ?_, ⟨fun hnone => ?_, fun hbase => ?_⟩, fun hbase => ?_⟩
  · obtain ⟨found, t, hrun, -, -⟩ := hreports script passes
    exact ⟨found, t, hrun⟩
  · -- with less room one condition before the first pass is a counterexample
    by_contra hhigh
    rw [← thirteen_le_stackRoom] at hhigh
    obtain ⟨found, t, hrun, hfailures, -⟩ := hreports single 1
    have hzero := hnone single 1 found t hrun
    have hsome := failures_single h (Nat.lt_of_not_le hhigh)
    omega
  · intro script passes found t hrun
    obtain ⟨found', t', hrun', hfailures, -⟩ := hreports script passes
    obtain ⟨rfl, rfl⟩ : found' = found ∧ t' = t := by
      cases hrun'.symm.trans hrun
      exact ⟨rfl, rfl⟩
    rw [hfailures, Console.failures_after (thirteen_le_stackRoom.2 hbase)]
  · intro script passes found t hrun
    obtain ⟨found', t', hrun', -, hmark⟩ := hreports script passes
    obtain ⟨rfl, rfl⟩ : found' = found ∧ t' = t := by
      cases hrun'.symm.trans hrun
      exact ⟨rfl, rfl⟩
    exact hmark (thirteen_le_stackRoom.2 hbase)

/-- The standard configuration with another stack. -/
def stackFrom (base : UInt8) : FirmwareConfig := { FirmwareConfig.standard with stackBase := base }

/-- The stack may start at 0xF3 but not one byte later. -/
theorem stack_suffices_brink :
    (stackFrom 0xF3).defect? = none ∧ (stackFrom 0xF4).defect? = none ∧
      2 ^ 32 + 4 ≤ Firmware.bound ∧
      (∃ fw found t, link (stackFrom 0xF3) = .ok fw ∧
        sessionReport fw.entry crowded 3 (initial fw none) = .done found t ∧
        found.dispatchFailures = 0 ∧ found.stackHighWater ≤ 13) ∧
      ∃ fw script passes found t, link (stackFrom 0xF4) = .ok fw ∧
        sessionReport fw.entry script passes (initial fw none) = .done found t ∧
        found.dispatchFailures ≠ 0 := by
  have hfits : (stackFrom 0xF3).defect? = none := by decide
  have hfails : (stackFrom 0xF4).defect? = none := by decide
  have hbound : 2 ^ 32 + 4 ≤ Firmware.bound := by decide
  refine ⟨hfits, hfails, hbound, ?_, ?_⟩
  · obtain ⟨fw, hfw, hends, hfailures, hmark⟩ := stack_suffices hfits hbound none
    obtain ⟨found, t, hrun⟩ := hends crowded 3
    have hbase : (stackFrom 0xF3).stackBase ≤ 0xF3 := by decide
    exact ⟨fw, found, t, hfw, hrun, hfailures.2 hbase crowded 3 found t hrun,
      hmark hbase crowded 3 found t hrun⟩
  · obtain ⟨fw, hfw, -, hfailures, -⟩ := stack_suffices hfails hbound none
    have hbase : ¬(stackFrom 0xF4).stackBase ≤ 0xF3 := by decide
    have hsome := mt hfailures.1 hbase
    push Not at hsome
    obtain ⟨script, passes, found, t, hrun, hfailed⟩ := hsome
    exact ⟨fw, script, passes, found, t, hfw, hrun, hfailed⟩

end BankedController.Board
