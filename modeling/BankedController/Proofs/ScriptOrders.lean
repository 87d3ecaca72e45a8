import BankedController.Proofs.ConsoleRuns
import BankedController.Proofs.UnreadLog

namespace BankedController

/-- Whether an event says how long a unit takes. -/
def Stimulus.paces (unit : CommandKind) : Stimulus → Bool
  | stall other => other = unit
  | release other _ => other = unit
  | _ => false

namespace Script

/-- The events that say how long a unit takes in a pass, in order. -/
def paced (s : Script) (pass : Nat) (unit : CommandKind) : List ScriptStep :=
  (s.before pass).filter fun step => step.stimulus.paces unit

/-- The same events in another order, but for what is said of a unit before the same pass. -/
structure Reordered (s s' : Script) : Prop where
  steps : s.steps.Perm s'.steps
  paced : ∀ pass unit, s.paced pass unit = s'.paced pass unit

/-- The script without what it has for later passes. -/
def upTo (s : Script) (passes : Nat) : Script :=
  ⟨s.steps.filter fun step => step.pass.toNat < passes⟩

theorem before_upTo {s : Script} {pass passes : Nat} (h : pass < passes) :
    (s.upTo passes).before pass = s.before pass := by
  unfold before upTo
  rw [List.filter_filter]
  refine List.filter_congr fun step _ => ?_
  by_cases hpass : step.pass.toNat = pass
  · simp [hpass, h]
  · simp [hpass]

end Script

theorem Stimulus.latency_impulse {stimulus : Stimulus} {unit : CommandKind}
    (h : stimulus.paces unit = false) : stimulus.impulse.latency unit = none := by
  cases stimulus with
  | stall other => exact if_neg fun heq => by simp [paces, heq] at h
  | release other reads => exact if_neg fun heq => by simp [paces, heq] at h
  | _ => rfl

/-- Bits, conditions and edges come to the same in any order. -/
theorem impulse_perm {steps steps' : List ScriptStep} (h : steps.Perm steps') :
    (impulse steps).bits = (impulse steps').bits ∧
      (impulse steps).conditions = (impulse steps').conditions ∧
      (impulse steps).edges = (impulse steps').edges := by
  -- on how the one list becomes the other: by events that stay in front and by neighbours swapped
  induction h with
  | nil => exact ⟨rfl, rfl, rfl⟩
  | cons step _ ih =>
    obtain ⟨hbits, hconditions, hedges⟩ := ih
    refine ⟨funext fun c => ?_, funext fun e => ?_, funext fun line => ?_⟩
    · exact congrArg (step.stimulus.impulse.bits c ||| ·) (congrFun hbits c)
    · exact congrArg (step.stimulus.impulse.conditions e ||| ·) (congrFun hconditions e)
    · exact congrArg (step.stimulus.impulse.edges line || ·) (congrFun hedges line)
  | swap step step' rest =>
    have or_left_comm (x y z : UInt8) : x ||| (y ||| z) = y ||| (x ||| z) := by
      rw [← UInt8.or_assoc, UInt8.or_comm x y, UInt8.or_assoc]
    refine ⟨funext fun c => ?_, funext fun e => ?_, funext fun line => ?_⟩
    · exact or_left_comm ..
    · exact or_left_comm ..
    · exact Bool.or_left_comm ..
  | trans _ _ ih ih' =>
    exact ⟨ih.1.trans ih'.1, ih.2.1.trans ih'.2.1, ih.2.2.trans ih'.2.2⟩

/-- Of all events only those that pace a unit matter to how long it takes. -/
theorem latency_filter (steps : List ScriptStep) (unit : CommandKind) :
    (impulse (steps.filter fun step => step.stimulus.paces unit)).latency unit =
      (impulse steps).latency unit := by
  induction steps with
  | nil => rfl
  | cons step rest ih =>
    have hcons (steps : List ScriptStep) : (impulse (step :: steps)).latency unit =
        ((impulse steps).latency unit).or (step.stimulus.impulse.latency unit) := rfl
    rw [List.filter_cons, hcons]
    cases hpaces : step.stimulus.paces unit with
    | true => rw [if_pos rfl, hcons, ih]
    | false => rw [if_neg Bool.false_ne_true, ih, Stimulus.latency_impulse hpaces, Option.or_none]

/-- Before each pass, reordered events come to the same. -/
theorem Script.Reordered.impulse_before {s s' : Script} (h : s.Reordered s') (pass : Nat) :
    impulse (s.before pass) = impulse (s'.before pass) := by
  have hperm : (s.before pass).Perm (s'.before pass) := h.steps.filter _
  obtain ⟨hbits, hconditions, hedges⟩ := impulse_perm hperm
  refine Impulse.ext hbits hconditions hedges (funext fun unit => ?_)
  calc (impulse (s.before pass)).latency unit
      = (impulse (s.paced pass unit)).latency unit := (latency_filter _ unit).symm
    _ = (impulse (s'.paced pass unit)).latency unit := by rw [h.paced]
    _ = (impulse (s'.before pass)).latency unit := latency_filter _ unit

namespace Board

/-- Events of passes that are not run are not looked at. -/
theorem runPasses_congr {l : Linkage (Rig Record)} {script script' : Script} {count pass : Nat}
    (h : ∀ p, pass ≤ p → p < pass + count → script'.before p = script.before p)
    (done : List PassSummary) :
    runPasses l script' pass done count = runPasses l script pass done count := by
  induction count generalizing pass done with
  | zero => rfl
  | succ count ih =>
    have hfirst : script'.before pass = script.before pass :=
      h pass (Nat.le_refl pass) (Nat.lt_add_of_pos_right (Nat.succ_pos count))
    have hlater : ∀ p, pass + 1 ≤ p → p < pass + 1 + count → script'.before p = script.before p :=
      fun p hle hlt => h p (by omega) (by omega)
    have hrest (summary : PassSummary) := ih hlater (summary :: done)
    change (injectAll (script'.before pass) >>= fun _ => runPass l >>= fun summary =>
      runPasses l script' (pass + 1) (summary :: done) count) = _
    simp only [hfirst, hrest]
    rfl

section Linked

variable {config : FirmwareConfig} {fw : BoardFirmware} (h : link config = .ok fw)

include h

/-- Boards that differ in their logs alone still do after events that come to the same, and a
pass. -/
theorem silent_turn {n : Nat} (hn : 2 ^ 32 ≤ n) {steps steps' : List ScriptStep}
    (hsteps : impulse steps = impulse steps') {s s' : State} (hs : s.bus.Intact)
    (hsame : s'.silent = s.silent) :
    ∃ summary t t',
      (injectAll steps >>= fun _ => runPass (fw.linkage (n + 4))) s = .done summary t ∧
      (injectAll steps' >>= fun _ => runPass (fw.linkage (n + 4))) s' = .done summary t' ∧
      t.bus.Intact ∧ t'.silent = t.silent := by
  have hbus : s'.silent.bus = s.silent.bus := congrArg Machine.bus hsame
  have hs' : s'.bus.Intact := hbus ▸ hs
  let i := impulse steps
  let r : State := i.onBoard { s with log := injected s.log steps }
  let r' : State := i.onBoard { s' with log := injected s'.log steps' }
  have hr : r.bus.Intact := Impulse.intact_onBoard (s := { s with log := injected s.log steps }) hs i
  have hstruck : r'.silent = r.silent := congrArg i.onBoard hsame
  obtain ⟨summary, t, hrun, ht, -⟩ := plays_runPass h hn r hr
  obtain ⟨t', hrun', ht'⟩ := (unread_runPass h (n + 4)).done hstruck hrun
  refine ⟨summary, t, t', ?_, ?_, ht.intact, ht'⟩
  · exact (Run.bind_of_done (injectAll_apply hs steps)).trans hrun
  · have hinject : injectAll steps' s' = .done () r' := by
      rw [injectAll_apply hs' steps', ← hsteps]
    exact (Run.bind_of_done hinject).trans hrun'

/-- Passes before each of which two scripts have events that come to the same. -/
theorem silent_runPasses {n : Nat} (hn : 2 ^ 32 ≤ n) {script script' : Script}
    (hscripts : ∀ pass, impulse (script.before pass) = impulse (script'.before pass))
    (count pass : Nat) (done : List PassSummary) {s s' : State} (hs : s.bus.Intact)
    (hsame : s'.silent = s.silent) :
    ∃ summaries t t', runPasses (fw.linkage (n + 4)) script pass done count s = .done summaries t ∧
      runPasses (fw.linkage (n + 4)) script' pass done count s' = .done summaries t' ∧
      t.bus.Intact ∧ t'.silent = t.silent := by
  induction count generalizing pass done s s' with
  | zero => exact ⟨done.reverse, s, s', rfl, rfl, hs, hsame⟩
  | succ count ih =>
    have hturn (script : Script) : runPasses (fw.linkage (n + 4)) script pass done (count + 1) = (do
        let summary ← injectAll (script.before pass) >>= fun _ => runPass (fw.linkage (n + 4))
        runPasses (fw.linkage (n + 4)) script (pass + 1) (summary :: done) count) := by
      rw [bind_assoc]
      rfl
    obtain ⟨summary, r, r', hrun, hrun', hr, hstill⟩ :=
      silent_turn h hn (hscripts pass) hs hsame
    obtain ⟨summaries, t, t', hrest, hrest', ht, hend⟩ := ih (pass + 1) (summary :: done) hr hstill
    refine ⟨summaries, t, t', ?_, ?_, ht, hend⟩
    · rw [hturn]
      exact (Run.bind_of_done hrun).trans hrest
    · rw [hturn]
      exact (Run.bind_of_done hrun').trans hrest'

end Linked

/-- From every state of a board a script comes to an end. In another order that it allows, it gives
the same summaries and the same report, and leaves the board in the same state but for the log; and a
script that is the same up to the last pass that is run gives the same summaries and leaves the same
state, log and all. -/
theorem runScript_reordered {config : FirmwareConfig} (h : config.defect? = none) {n : Nat}
    (hn : 2 ^ 32 + 4 ≤ n) :
    ∃ fw, link config = .ok fw ∧ ∀ s : State, s.bus.Intact → ∀ script passes,
      ∃ summaries t found, runScript (fw.linkage n) script passes s = .done summaries t ∧
        (report t).value? = some found ∧
        (∀ script', script.Reordered script' → ∃ t',
          runScript (fw.linkage n) script' passes s = .done summaries t' ∧
          (report t').value? = some found ∧ { t' with log := t.log } = t) ∧
        ∀ script', script'.upTo passes = script.upTo passes →
          runScript (fw.linkage n) script' passes s = .done summaries t := by
  obtain ⟨fw, hfw⟩ := link_ok h
  obtain ⟨m, rfl⟩ := Nat.exists_eq_add_of_le' (show 4 ≤ n by omega)
  have hm : 2 ^ 32 ≤ m := by omega
  refine ⟨fw, hfw, fun s hs script passes => ?_⟩
  let finished : Event := .scriptFinished passes
  have hpasses (script' : Script) (hsame : ∀ pass, impulse (script.before pass) =
      impulse (script'.before pass)) := silent_runPasses hfw hm hsame passes 0 [] hs rfl
  obtain ⟨summaries, t, -, hrun, -, ht, -⟩ := hpasses script fun _ => rfl
  have hscript : runScript (fw.linkage (m + 4)) script passes s =
      .done summaries (t.noted finished) := Run.bind_of_done hrun
  obtain ⟨found, u, hreport, -, -⟩ := @report_apply (t.noted finished) ht
  refine ⟨summaries, t.noted finished, found, hscript, ?_, fun script' hscripts => ?_,
    fun script' hearly => ?_⟩
  · rw [hreport]
    rfl
  · obtain ⟨summaries', r, t', hrun', hother, -, hstill⟩ :=
      hpasses script' hscripts.impulse_before
    obtain ⟨rfl, rfl⟩ : summaries = summaries' ∧ t = r := by
      cases hrun.symm.trans hrun'
      exact ⟨rfl, rfl⟩
    have hsilent : (t'.noted finished).silent = (t.noted finished).silent := hstill
    obtain ⟨u', hreport', -⟩ := unread_report.done hsilent hreport
    refine ⟨t'.noted finished, Run.bind_of_done hother, ?_, Machine.eq_of_silent hsilent⟩
    rw [hreport']
    rfl
  · have hbefore : ∀ pass, 0 ≤ pass → pass < 0 + passes →
        script'.before pass = script.before pass := by
      intro pass _ hlt
      have hlt : pass < passes := by omega
      rw [← Script.before_upTo hlt, hearly, Script.before_upTo hlt]
    have hpasses' : runPasses (fw.linkage (m + 4)) script' 0 [] passes =
        runPasses (fw.linkage (m + 4)) script 0 [] passes := runPasses_congr hbefore []
    rw [← hscript]
    unfold runScript
    rw [hpasses']

/-- A unit that is stalled and released again before one pass, among other events. -/
def stuttering : Script :=
  ⟨[⟨0, .stall .nvme⟩, ⟨0, .cbw⟩, ⟨0, .release .nvme 4⟩, ⟨1, .power⟩, ⟨1, .endpointReady 3 0x81⟩]⟩

/-- The same in another order. -/
def shuffled : Script :=
  ⟨[⟨1, .endpointReady 3 0x81⟩, ⟨0, .stall .nvme⟩, ⟨0, .release .nvme 4⟩, ⟨1, .power⟩, ⟨0, .cbw⟩]⟩

theorem reordered_shuffled : stuttering.Reordered shuffled := by
  refine ⟨by decide, fun pass unit => ?_⟩
  have hpaced : stuttering.steps.filter (fun step => step.stimulus.paces unit) =
      shuffled.steps.filter fun step => step.stimulus.paces unit := by
    cases unit <;> decide
  unfold Script.paced Script.before
  rw [List.filter_comm, hpaced, List.filter_comm]

/-- Both orders come to the same, and so does the script with an event for a pass that is not run. -/
theorem runScript_reordered_shuffled :
    FirmwareConfig.standard.defect? = none ∧ 2 ^ 32 + 4 ≤ Firmware.bound ∧
      ∃ fw summaries t t', link .standard = .ok fw ∧ (initial fw none).bus.Intact ∧
        runScript fw.entry stuttering 2 (initial fw none) = .done summaries t ∧
        runScript fw.entry shuffled 2 (initial fw none) = .done summaries t' ∧
        { t' with log := t.log } = t ∧
        runScript fw.entry ⟨stuttering.steps ++ [⟨2, .timerTick⟩]⟩ 2 (initial fw none) =
          .done summaries t := by
  have hdefect := FirmwareConfig.defect?_standard
  have hbound : 2 ^ 32 + 4 ≤ Firmware.bound := by decide
  obtain ⟨fw, hfw, hscripts⟩ := runScript_reordered hdefect hbound
  have hintact : (initial fw none).bus.Intact := Rig.intact_initial _
  obtain ⟨summaries, t, found, hrun, -, hreordered, hlate⟩ :=
    hscripts (initial fw none) hintact stuttering 2
  obtain ⟨t', hrun', -, hsame⟩ := hreordered shuffled reordered_shuffled
  have hearly : Script.upTo ⟨stuttering.steps ++ [⟨2, .timerTick⟩]⟩ 2 = stuttering.upTo 2 := by
    decide
  exact ⟨hdefect, hbound, fw, summaries, t, t', hfw, hintact, hrun, hrun', hsame, hlate _ hearly⟩

end Board

end BankedController
