import BankedController.Stimulus

/-! The intake of commands has one place for a request, and takes two steps from an event to the
pass that serves it. What becomes of the commands of a script can be read off the script. -/

namespace BankedController

namespace Script

variable (s : Script)

/-- The events before a pass. -/
def before (p : Nat) : List ScriptStep := s.steps.filter fun step => step.pass.toNat = p

/-- Whether a command arrives before a pass. -/
def commands (p : Nat) : Bool := (s.before p).any fun step => step.stimulus = .cbw

/-- Whether endpoint work is deferred before a pass. -/
def defers (p : Nat) : Bool := (s.before p).any fun step => step.stimulus = .deferEndpoint

/-- Whether a pass serves what waits: the pass in front has deferred work. -/
def serves : Nat → Bool
  | 0 => false
  | p + 1 => s.commands p || s.defers p

/-- The tag of the command of a pass, which is the number of commands before it. -/
def tag (p : Nat) : UInt8 := UInt8.ofNat ((List.range p).countP s.commands)

/-- Whether the command of a pass is submitted by the end of `passes` passes. -/
def submits (passes p : Nat) : Bool :=
  s.commands p && (s.serves p || p + 1 < passes && !s.commands (p + 1))

/-- Whether a request waits when a pass begins. -/
def waits : Nat → Bool
  | 0 => false
  | p + 1 => s.commands p && !s.serves p

end Script

/-- How far the commands have come. -/
structure Intake where
  /-- A command has arrived and is not received yet. -/
  arrived : Bool
  /-- The tag of the posted request. -/
  waiting : Option UInt8
  /-- Work is deferred. -/
  deferred : Bool
  /-- The next pass serves. -/
  asked : Bool
  nextTag : UInt8
  received : Nat
  /-- The tags of the commands that were submitted, in order. -/
  submitted : List UInt8
  deriving DecidableEq

namespace Intake

/-- Nothing has arrived. -/
def initial : Intake := ⟨false, none, false, false, 0, 0, []⟩

/-- What an event is to the intake. -/
def inject (i : Intake) : Stimulus → Intake
  | .cbw => { i with arrived := true }
  | .deferEndpoint => { i with deferred := true }
  | _ => i

/-- A command is received: its request is posted, over whatever waits. -/
def relay (i : Intake) : Intake :=
  { i with
    arrived := false
    waiting := some i.nextTag
    deferred := true
    nextTag := i.nextTag + 1
    received := i.received + 1 }

/-- A command is received if one has arrived. -/
def receive (i : Intake) : Intake := if i.arrived then i.relay else i

/-- What waits is submitted. -/
def submit (i : Intake) : Intake :=
  { i with waiting := none, submitted := i.submitted ++ i.waiting.toList }

/-- What waits is submitted if the pass was asked to. -/
def serve (i : Intake) : Intake := if i.asked then { i with asked := false }.submit else i

/-- The next pass is asked to serve if work is deferred. -/
def promote (i : Intake) : Intake :=
  { i with asked := i.asked || i.deferred, deferred := false }

/-- A pass of the main loop. -/
def pass (i : Intake) : Intake := i.receive.serve.promote

/-- The intake after so many passes of a script. -/
def after (s : Script) : Nat → Intake
  | 0 => initial
  | p + 1 => ((s.before p).foldl (fun i step => i.inject step.stimulus) (after s p)).pass

theorem receive_of_not_arrived {i : Intake} (h : i.arrived = false) : i.receive = i := by
  rw [receive, h]
  rfl

theorem arrived_receive (i : Intake) : i.receive.arrived = false := by
  cases h : i.arrived with
  | false => rw [receive_of_not_arrived h, h]
  | true =>
    rw [receive, h]
    rfl

theorem foldl_inject (steps : List ScriptStep) (i : Intake) :
    steps.foldl (fun i step => i.inject step.stimulus) i =
      { i with
        arrived := i.arrived || steps.any fun step => step.stimulus = .cbw
        deferred := i.deferred || steps.any fun step => step.stimulus = .deferEndpoint } := by
  induction steps generalizing i with
  | nil => simp
  | cons step rest ih =>
    rw [List.foldl_cons, ih]
    cases hstimulus : step.stimulus <;> simp [inject, hstimulus]

end Intake

namespace Script

variable (s : Script)

/-- What is submitted by the end of a pass is what was submitted before it and, if the pass serves,
the command that it received or else the one that waited. -/
theorem filter_submits_succ (p : Nat) :
    ((List.range (p + 1)).filter (s.submits (p + 1))).map s.tag =
      ((List.range p).filter (s.submits p)).map s.tag ++
        if s.serves p then
          if s.commands p then [s.tag p] else if s.waits p then [s.tag (p - 1)] else []
        else [] := by
  cases p with
  | zero => simp [submits, serves]
  | succ q =>
    have hearlier : (List.range q).filter (s.submits (q + 1 + 1)) =
        (List.range q).filter (s.submits (q + 1)) := by
      refine List.filter_congr fun r hr => ?_
      have hr := List.mem_range.1 hr
      have hlate : r + 1 < q + 1 + 1 := by omega
      have hsoon : r + 1 < q + 1 := by omega
      simp only [submits, hlate, hsoon]
    have hlast : s.submits (q + 1 + 1) (q + 1) = (s.commands (q + 1) && s.serves (q + 1)) := by
      simp [submits]
    have hprevious : s.submits (q + 1 + 1) q =
        (s.commands q && (s.serves q || !s.commands (q + 1))) := by
      simp [submits]
    have hbefore : s.submits (q + 1) q = (s.commands q && s.serves q) := by simp [submits]
    rw [List.range_succ, List.range_succ, List.filter_append, List.filter_append,
      List.filter_append, hearlier]
    simp only [List.filter_cons, List.filter_nil, hlast, hprevious, hbefore, List.map_append,
      List.append_assoc, Nat.add_sub_cancel]
    congr 1
    have hserves : s.serves (q + 1) = (s.commands q || s.defers q) := rfl
    have hwaits : s.waits (q + 1) = (s.commands q && !s.serves q) := rfl
    rw [hserves, hwaits]
    cases s.commands q <;> cases s.serves q <;> cases s.commands (q + 1) <;> cases s.defers q <;>
      rfl

theorem tag_succ (p : Nat) : s.tag (p + 1) = if s.commands p then s.tag p + 1 else s.tag p := by
  unfold tag
  rw [List.range_succ, List.countP_append, List.countP_singleton]
  cases s.commands p with
  | false => rfl
  | true => exact UInt8.ofNat_add ..

end Script

namespace Intake

variable (s : Script)

/-- What the intake is after a number of passes, read off the script. -/
structure Tells (p : Nat) (i : Intake) : Prop where
  arrived : i.arrived = false
  deferred : i.deferred = false
  asked : i.asked = s.serves p
  received : i.received = (List.range p).countP s.commands
  nextTag : i.nextTag = s.tag p
  waiting : i.waiting = if s.waits p then some (s.tag (p - 1)) else none
  submitted : i.submitted = ((List.range p).filter (s.submits p)).map s.tag

/-- A request that waits when a pass begins is served in it. -/
theorem serves_of_waits {p : Nat} (h : s.waits p = true) : s.serves p = true := by
  cases p with
  | zero => cases h
  | succ q =>
    have hcommand : (s.commands q && !s.serves q) = true := h
    rw [Bool.and_eq_true] at hcommand
    exact Bool.or_eq_true_iff.2 (.inl hcommand.1)

theorem tells_after (p : Nat) : Tells s p (after s p) := by
  induction p with
  | zero => exact ⟨rfl, rfl, rfl, rfl, rfl, rfl, rfl⟩
  | succ p ih =>
    have hreceived : (List.range (p + 1)).countP s.commands =
        (List.range p).countP s.commands + if s.commands p then 1 else 0 := by
      rw [List.range_succ, List.countP_append, List.countP_singleton]
    have hserves : s.serves (p + 1) = (s.commands p || s.defers p) := rfl
    have hwaits : s.waits (p + 1) = (s.commands p && !s.serves p) := rfl
    have hsubmits := s.filter_submits_succ p
    have htag := s.tag_succ p
    have hinjected : after s (p + 1) =
        { after s p with arrived := s.commands p, deferred := s.defers p }.pass := by
      refine congrArg pass ((foldl_inject _ _).trans ?_)
      rw [ih.arrived, ih.deferred, Bool.false_or, Bool.false_or]
      rfl
    rw [hinjected]
    generalize after s p = i at ih
    obtain ⟨arrived, waiting, deferred, asked, nextTag, received, submitted⟩ := i
    obtain ⟨-, -, rfl, rfl, rfl, rfl, rfl⟩ := ih
    cases hserved : s.serves p with
    | true =>
      cases hcommand : s.commands p <;> cases hwaited : s.waits p <;> constructor <;>
        simp [pass, receive, relay, serve, submit, promote, hreceived, hserves, hwaits, hsubmits,
          htag, hcommand, hserved, hwaited]
    | false =>
      have hnone : s.waits p = false := by
        cases hwaited : s.waits p with
        | false => rfl
        | true => exact (serves_of_waits s hwaited).symm.trans hserved
      cases hcommand : s.commands p <;> constructor <;>
        simp [pass, receive, relay, serve, promote, hreceived, hserves, hwaits, hsubmits, htag,
          hcommand, hserved, hnone]

end Intake

namespace Script

variable (s : Script)

/-- Nothing is scripted for the last two of a number of passes. -/
def EndsQuiet (passes : Nat) : Prop :=
  ∀ step ∈ s.steps, step.pass.toNat < passes → step.pass.toNat + 2 < passes

instance (passes : Nat) : Decidable (s.EndsQuiet passes) :=
  inferInstanceAs (Decidable (∀ step ∈ s.steps, _))

/-- The tags of all commands are the numbers from zero on. -/
theorem map_tag_filter_commands (n : Nat) :
    ((List.range n).filter s.commands).map s.tag =
      (List.range ((List.range n).countP s.commands)).map UInt8.ofNat := by
  induction n with
  | zero => rfl
  | succ n ih =>
    have htag : s.tag n = UInt8.ofNat ((List.range n).countP s.commands) := rfl
    rw [List.range_succ, List.filter_append, List.map_append, List.countP_append,
      List.countP_singleton, ih]
    cases hcommand : s.commands n with
    | false => simp [hcommand]
    | true => simp [hcommand, List.range_succ, htag]

/-- No tag is missing exactly if every command is submitted. -/
theorem map_tag_filter_submits (passes : Nat) :
    ((List.range passes).filter (s.submits passes)).map s.tag =
        (List.range ((List.range passes).countP s.commands)).map UInt8.ofNat ↔
      ∀ p < passes, s.commands p = true → s.submits passes p = true := by
  have hcommands : (List.range passes).filter (s.submits passes) =
      ((List.range passes).filter s.commands).filter (s.submits passes) := by
    rw [List.filter_filter]
    refine List.filter_congr fun p _ => ?_
    unfold submits
    cases s.commands p <;> simp
  rw [← map_tag_filter_commands, hcommands]
  constructor
  · intro h p hp hcommand
    have hlength := congrArg List.length h
    rw [List.length_map, List.length_map, List.length_filter_eq_length_iff] at hlength
    exact hlength p (List.mem_filter.2 ⟨List.mem_range.2 hp, hcommand⟩)
  · intro h
    rw [List.filter_eq_self.2]
    intro p hp
    obtain ⟨hrange, hcommand⟩ := List.mem_filter.1 hp
    exact h p (List.mem_range.1 hrange) hcommand

/-- If the last two passes are quiet, then the only commands that are not submitted are those of
which the pass does not serve while the next receives another. -/
theorem submits_iff_of_endsQuiet {passes : Nat} (h : s.EndsQuiet passes) :
    (∀ p < passes, s.commands p = true → s.submits passes p = true) ↔
      ∀ p, p + 1 < passes → s.commands p = true → s.commands (p + 1) = true →
        s.serves p = true := by
  have hlast {p : Nat} (hp : p < passes) (hcommand : s.commands p = true) : p + 1 < passes := by
    obtain ⟨step, hstep, -⟩ := List.any_eq_true.1 hcommand
    obtain ⟨hmem, hpass⟩ := List.mem_filter.1 hstep
    have hpass : step.pass.toNat = p := by simpa using hpass
    have := h step hmem (by omega)
    omega
  constructor
  · intro hall p hp hcommand hnext
    have hsubmits := hall p (by omega) hcommand
    simpa [submits, hcommand, hnext] using hsubmits
  · intro hall p hp hcommand
    have hnext := hall p (hlast hp hcommand) hcommand
    cases hother : s.commands (p + 1) with
    | false => simp [submits, hcommand, hother, hlast hp hcommand]
    | true => simp [submits, hcommand, hnext hother]

end Script

end BankedController
