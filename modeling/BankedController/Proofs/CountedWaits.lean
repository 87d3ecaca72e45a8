import BankedController.Command.BusyWait
import BankedController.Proofs.PlainMemory
import BankedController.Proofs.Transcripts

namespace BankedController

variable {β : Type}

/-- The values that were read at an address, in order. -/
def Deed.valuesAt (addr : UInt16) (deeds : List Deed) : List UInt8 :=
  deeds.filterMap fun
    | .read a value => if a = addr then some value else none
    | _ => none

/-- The count that a wait reports. -/
def WaitOutcome.iterations : WaitOutcome → UInt32
  | ready n | error n | timedOut n => n

namespace BusyWait

/-- Whether a wait ends with a value of its register: it shows an error, or is not busy. -/
def settles (w : BusyWait) (value : UInt8) : Bool :=
  value &&& w.error ≠ 0 ∨ value &&& w.busy = 0

/-- How many looks may find the register busy. The first look is taken whatever the threshold. -/
def limit (w : BusyWait) : Nat := max w.threshold.toNat 1

/-- What a wait makes of the values that its register yields, the first of them first. -/
def verdict (w : BusyWait) (values : List UInt8) : WaitOutcome :=
  let k := values.findIdx w.settles
  if k < w.limit then
    if values.getD k 0 &&& w.error ≠ 0 then .error (UInt32.ofNat k) else .ready (UInt32.ofNat k)
  else
    .timedOut (UInt32.ofNat w.limit)

section Looks

variable [RegisterBus β]

/-- A look at the register. A look that finds it busy is counted, and ends the wait if the count has
come to the threshold. -/
def look (w : BusyWait) : Run (Machine β) (Option WaitOutcome) := do
  let (value, iterations) ← Machine.onBus w.sample
  if value &&& w.error ≠ 0 then
    pure (some (.error iterations))
  else if value &&& w.busy = 0 then
    pure (some (.ready iterations))
  else
    Machine.write32 w.counter (iterations + 1)
    if w.threshold ≤ iterations + 1 then
      pure (some (.timedOut (iterations + 1)))
    else
      pure none

/-- From one look on, a wait comes to a preemption point. -/
inductive Pauses (w : BusyWait) (l : Linkage β) : Machine β → Machine β → Prop
  | now {s u : Machine β} (looked : w.look s = .done none u) : Pauses w l s u
  | later {s u v x : Machine β} (looked : w.look s = .done none u)
    (polled : l.poll u = .done () v) (rest : Pauses w l v x) : Pauses w l s x

/-- A wait that is begun comes to a preemption point. -/
def PausesAt (w : BusyWait) (l : Linkage β) (s u : Machine β) : Prop :=
  ∃ v, Machine.write32 w.counter 0 s = .done () v ∧ w.Pauses l v u

theorem poll_succ (w : BusyWait) (l : Linkage β) (patience : Nat) :
    w.poll l (patience + 1) = w.look >>= fun ended =>
      match ended with
      | some outcome => pure outcome
      | none => l.poll >>= fun _ => w.poll l patience := by
  rw [poll]
  unfold look
  simp only [bind_assoc]
  refine congrArg (Machine.onBus w.sample >>= ·) (funext fun sampled => ?_)
  obtain ⟨value, iterations⟩ := sampled
  dsimp only
  split
  · rfl
  split
  · rfl
  rw [bind_assoc]
  refine congrArg (Machine.write32 w.counter (iterations + 1) >>= ·) (funext fun _ => ?_)
  split
  · rfl
  · rfl

end Looks

section Values

variable {w : BusyWait} {values : List UInt8}

theorem limit_pos (w : BusyWait) : 0 < w.limit := Nat.lt_of_lt_of_le Nat.one_pos (Nat.le_max_right _ _)

theorem limit_lt (w : BusyWait) : w.limit < 2 ^ 32 := by
  have hbound := w.threshold.toNat_lt
  unfold limit
  omega

/-- Once a busy look is counted, the count is at the threshold if as many have been counted as there
may be. -/
theorem threshold_le_iff {n : Nat} (h : n < w.limit) :
    w.threshold ≤ UInt32.ofNat n + 1 ↔ n + 1 = w.limit := by
  have hbound := w.limit_lt
  have hcount : (UInt32.ofNat n + 1).toNat = n + 1 := by
    rw [UInt32.toNat_add, UInt32.toNat_ofNat', Nat.mod_eq_of_lt (a := n) (by omega)]
    exact Nat.mod_eq_of_lt (by simp only [UInt32.reduceToNat]; omega)
  rw [UInt32.le_iff_toNat_le, hcount]
  unfold limit at h ⊢
  omega

theorem findIdx_busy (h : ∀ value ∈ values, w.settles value = false) :
    values.findIdx w.settles = values.length :=
  List.findIdx_eq_length.2 h

theorem findIdx_settled (h : ∀ value ∈ values, w.settles value = false) {last : UInt8}
    (hlast : w.settles last = true) : (values ++ [last]).findIdx w.settles = values.length := by
  rw [List.findIdx_append, findIdx_busy h, if_neg (Nat.lt_irrefl _), List.findIdx_cons, hlast]
  exact Nat.zero_add _

/-- A wait that has found the register busy so often as there is room for has run out. -/
theorem verdict_busy (h : ∀ value ∈ values, w.settles value = false)
    (hlength : values.length = w.limit) : w.verdict values = .timedOut (UInt32.ofNat w.limit) := by
  unfold verdict
  dsimp only
  rw [findIdx_busy h, hlength, if_neg (Nat.lt_irrefl _)]

/-- The first value that settles it decides, and an error counts before anything else. -/
theorem verdict_settled (h : ∀ value ∈ values, w.settles value = false) {last : UInt8}
    (hlast : w.settles last = true) (hlength : values.length < w.limit) :
    w.verdict (values ++ [last]) =
      if last &&& w.error ≠ 0 then .error (UInt32.ofNat values.length)
      else .ready (UInt32.ofNat values.length) := by
  have hget : (values ++ [last]).getD values.length 0 = last := by simp
  unfold verdict
  dsimp only
  rw [findIdx_settled h hlast, if_pos hlength, hget]

end Values

section Loop

variable [RegisterBus β] {w : BusyWait} {l : Linkage β} (b : PlainMemory β (Quad w.counter))

/-- Where a wait stands: the values that it has read, what its counter says, and how many preemption
points it has offered. -/
structure Stands (values : List UInt8) (count polls : Nat) (deeds : List Deed) (s : Machine β) :
    Prop where
  wired : b.wired s.bus
  number : b.number w.counter s.bus = UInt32.ofNat count
  looked : Deed.valuesAt w.register deeds = values
  polled : deeds.count .polled = polls

/-- The wait goes on: every value that it has read was busy, it has counted them all, and there is room
for another look. -/
structure Waits (values : List UInt8) (polls : Nat) (deeds : List Deed) (s : Machine β) : Prop
    extends Stands b values values.length polls deeds s where
  busy : ∀ value ∈ values, w.settles value = false
  room : values.length < w.limit

/-- The wait is over, and what it did is what the values that it read make of it. -/
structure Ended (outcome : WaitOutcome) (deeds : List Deed) (s : Machine β) : Prop where
  verdict : outcome = w.verdict (Deed.valuesAt w.register deeds)
  looked : (Deed.valuesAt w.register deeds).length =
    min ((Deed.valuesAt w.register deeds).findIdx w.settles + 1) w.limit
  polled : deeds.count .polled =
    min ((Deed.valuesAt w.register deeds).findIdx w.settles) (w.limit - 1)
  number : b.number w.counter s.bus = outcome.iterations

variable {b} {values : List UInt8} {count polls : Nat} {deeds : List Deed} {s : Machine β}

/-- What is done at a preemption point does not write to the counter. -/
theorem Waits.resumed {t : Machine β} (h : Waits b values polls deeds s)
    (hstill : b.Still s.bus t.bus) : Waits b values (polls + 1) (deeds ++ [.polled]) t := by
  refine ⟨⟨hstill.wired, ?_, ?_, ?_⟩, h.busy, h.room⟩
  · rw [hstill.number fun _ ha => ha, h.number]
  · rw [← h.looked]
    simp [Deed.valuesAt]
  · rw [← h.polled]
    simp

/-- A look finds the register settled. -/
theorem ended_settled {last : UInt8}
    (h : Stands b (values ++ [last]) values.length values.length deeds s)
    (hbusy : ∀ value ∈ values, w.settles value = false) (hlast : w.settles last = true)
    (hlength : values.length < w.limit) :
    Ended b (if last &&& w.error ≠ 0 then .error (UInt32.ofNat values.length)
      else .ready (UInt32.ofNat values.length)) deeds s := by
  have hfirst := findIdx_settled hbusy hlast
  constructor
  · rw [h.looked, verdict_settled hbusy hlast hlength]
  · rw [h.looked, hfirst, List.length_append, List.length_singleton]
    omega
  · rw [h.looked, h.polled, hfirst]
    omega
  · rw [h.number]
    split <;> rfl

/-- A look finds the register busy, and there is no room for another. -/
theorem ended_busy (h : Stands b values w.limit (w.limit - 1) deeds s)
    (hbusy : ∀ value ∈ values, w.settles value = false) (hlength : values.length = w.limit) :
    Ended b (.timedOut (UInt32.ofNat w.limit)) deeds s := by
  have hnone := findIdx_busy hbusy
  constructor
  · rw [h.looked, verdict_busy hbusy hlength]
  · rw [h.looked, hnone, hlength]
    omega
  · rw [h.looked, h.polled, hnone, hlength]
    omega
  · exact h.number

variable (hregister : ¬Quad w.counter w.register)

include hregister

theorem counter_ne_register : w.counter ≠ w.register ∧ w.counter + 1 ≠ w.register ∧
    w.counter + 2 ≠ w.register ∧ w.counter + 3 ≠ w.register := by
  have hne {addr : UInt16} (haddr : Quad w.counter addr) : addr ≠ w.register := by
    rintro rfl
    exact hregister haddr
  exact ⟨hne (.inl rfl), hne (.inr (.inl rfl)), hne (.inr (.inr (.inl rfl))),
    hne (.inr (.inr (.inr rfl)))⟩

theorem sample_transcribed (h : Stands b values count polls deeds s) :
    Transcribed (fun sampled all t => sampled.2 = UInt32.ofNat count ∧
        Stands b (values ++ [sampled.1]) count polls all t)
      (Machine.onBus w.sample s) (Machine.onBus w.sample (s.recorded deeds)) := by
  unfold sample
  simp only [Machine.onBus_bind]
  refine (Transcribed.read w.register s deeds).bind fun value first t hlooked hfirst => ?_
  refine (Transcribed.read32 w.counter t first).bind fun iterations all u hread hall => ?_
  obtain ⟨bus, hvalue, rfl⟩ := Machine.onBus_eq_done hlooked
  have hstill := PlainMemory.still_read h.wired hvalue
  obtain ⟨bus', hnumber, hstill'⟩ := b.read32_still (fun _ ha => ha) hstill.wired
  rw [Machine.read32, Machine.onBus_of_done hnumber] at hread
  cases hread
  obtain ⟨b3, b2, b1, b0, rfl⟩ := hall
  subst hfirst
  obtain ⟨h0, h1, h2, h3⟩ := counter_ne_register hregister
  refine .pure ⟨?_, hstill'.wired, ?_, ?_, ?_⟩
  · rw [← h.number]
    exact hstill.number fun _ ha => ha
  · rw [← h.number]
    exact (hstill.trans hstill').number fun _ ha => ha
  · rw [← h.looked]
    simp [Deed.valuesAt, h0, h1, h2, h3]
  · rw [← h.polled]
    simp

omit hregister in
theorem count_transcribed (hwired : b.wired s.bus) (hlooked : Deed.valuesAt w.register deeds = values)
    (hpolled : deeds.count .polled = polls) (count : Nat) :
    Transcribed (fun _ all t => Stands b values count polls all t)
      (Machine.write32 w.counter (UInt32.ofNat count) s)
      (Machine.write32 w.counter (UInt32.ofNat count) (s.recorded deeds)) := by
  obtain ⟨bus, hwrite, hwired', hnumber⟩ := b.write32_number (fun _ ha => ha) hwired
    (UInt32.ofNat count)
  refine (Transcribed.write32 w.counter (UInt32.ofNat count) s deeds).imp fun _ all t hrun hall => ?_
  rw [Machine.write32, Machine.onBus_of_done hwrite] at hrun
  cases hrun
  subst hall
  refine ⟨hwired', hnumber, ?_, ?_⟩
  · rw [← hlooked]
    simp [Deed.valuesAt]
  · rw [← hpolled]
    simp

/-- A look ends the wait, or leaves one value more that found the register busy. -/
theorem look_transcribed (h : Waits b values values.length deeds s) :
    Transcribed (fun ended all t => match ended with
        | some outcome => Ended b outcome all t
        | none => ∃ more, more.length = values.length + 1 ∧ Waits b more values.length all t)
      (w.look s) (w.look (s.recorded deeds)) := by
  unfold look
  refine (sample_transcribed hregister h.toStands).bind fun sampled all t _ hsampled => ?_
  obtain ⟨value, iterations⟩ := sampled
  obtain ⟨hiterations, hstands⟩ := hsampled
  dsimp only at hiterations hstands ⊢
  subst hiterations
  by_cases herror : value &&& w.error ≠ 0
  · have hsettles : w.settles value = true := decide_eq_true (.inl herror)
    have hended := ended_settled hstands h.busy hsettles h.room
    rw [if_pos herror] at hended
    rw [if_pos herror, if_pos herror]
    exact .pure hended
  by_cases hidle : value &&& w.busy = 0
  · have hsettles : w.settles value = true := decide_eq_true (.inr hidle)
    have hended := ended_settled hstands h.busy hsettles h.room
    rw [if_neg herror] at hended
    rw [if_neg herror, if_neg herror, if_pos hidle, if_pos hidle]
    exact .pure hended
  have hsettles : w.settles value = false := decide_eq_false (not_or.2 ⟨herror, hidle⟩)
  have hbusy : ∀ v ∈ values ++ [value], w.settles v = false := by
    intro v hv
    rcases List.mem_append.1 hv with hv | hv
    · exact h.busy v hv
    · rw [List.mem_singleton.1 hv]
      exact hsettles
  have hlength : (values ++ [value]).length = values.length + 1 := List.length_append
  have hsucc : UInt32.ofNat values.length + 1 = UInt32.ofNat (values ++ [value]).length := by
    rw [hlength, UInt32.ofNat_add]
    rfl
  have hout := threshold_le_iff h.room
  rw [← hlength] at hout
  rw [if_neg herror, if_neg herror, if_neg hidle, if_neg hidle]
  rw [hsucc] at hout ⊢
  refine (count_transcribed hstands.wired hstands.looked hstands.polled _).bind ?_
  intro _ all' t' _ hcounted
  by_cases hlast : (values ++ [value]).length = w.limit
  · rw [if_pos (hout.2 hlast), if_pos (hout.2 hlast), hlast]
    have hpolls : values.length = w.limit - 1 := by omega
    rw [hlast, hpolls] at hcounted
    exact .pure (ended_busy hcounted hbusy hlast)
  · rw [if_neg (mt hout.1 hlast), if_neg (mt hout.1 hlast)]
    have hroom : (values ++ [value]).length < w.limit := by
      have hbefore := h.room
      omega
    exact .pure ⟨_, hlength, hcounted, hbusy, hroom⟩

omit hregister in
/-- A look returns if the register answers. -/
theorem look_ends
    (hanswers : ∀ bus, b.wired bus → ∃ value bus', RegisterBus.read w.register bus = .done value bus')
    (hs : b.wired s.bus) : ∃ ended t, w.look s = .done ended t := by
  obtain ⟨value, bus, hvalue⟩ := hanswers s.bus hs
  have hstill := PlainMemory.still_read hs hvalue
  obtain ⟨bus', hnumber, hstill'⟩ := b.read32_still (fun _ ha => ha) hstill.wired
  have hown : ∀ a, Quad w.counter a → Quad w.counter a := fun _ ha => ha
  obtain ⟨bus'', hwrite, -⟩ := b.write32_number hown hstill'.wired (b.number w.counter bus + 1)
  have hsample : Machine.onBus w.sample s =
      .done (value, b.number w.counter bus) { s with bus := bus' } := by
    apply Machine.onBus_of_done
    unfold sample
    rw [Run.bind_of_done hvalue, Run.bind_of_done hnumber]
    rfl
  have hcount : Machine.write32 w.counter (b.number w.counter bus + 1) { s with bus := bus' } =
      .done () { s with bus := bus'' } :=
    Machine.onBus_of_done hwrite
  unfold look
  rw [Run.bind_of_done hsample]
  dsimp only
  split
  · exact ⟨_, _, rfl⟩
  split
  · exact ⟨_, _, rfl⟩
  rw [Run.bind_of_done hcount]
  split
  · exact ⟨_, _, rfl⟩
  · exact ⟨_, _, rfl⟩

section Turns

variable
  (hpoll : ∀ u v, w.Pauses l s u → b.wired u.bus → l.poll u = .done () v → b.Still u.bus v.bus)

include hpoll

/-- The loop, by induction on the patience: every turn that does not end the wait leaves one value
more and one preemption point more. -/
theorem poll_transcribed (patience : Nat) (h : Waits b values values.length deeds s) :
    Transcribed (Ended b) (w.poll l patience s)
      (w.poll l.recorded patience (s.recorded deeds)) := by
  induction patience generalizing values deeds s with
  | zero => rfl
  | succ patience ih =>
    rw [poll_succ, poll_succ]
    refine (look_transcribed hregister h).bind fun ended all u hlook hended => ?_
    cases ended with
    | some outcome => exact .pure hended
    | none =>
      obtain ⟨more, hlength, hwaits⟩ := hended
      refine (Transcribed.poll l u all).bind fun _ later v hpolled hlater => ?_
      have hnext := hwaits.resumed (hpoll u v (.now hlook) hwaits.wired hpolled)
      rw [← hlater, ← hlength] at hnext
      exact ih (fun x y hx => hpoll x y (.later hlook hpolled hx)) hnext

/-- The loop returns if the preemption points return that it comes to, since there is patience for as
many looks as there may be. -/
theorem poll_ends (patience : Nat)
    (hanswers : ∀ bus, b.wired bus → ∃ value bus', RegisterBus.read w.register bus = .done value bus')
    (hends : ∀ u, w.Pauses l s u → ∃ v, l.poll u = .done () v)
    (h : Waits b values values.length deeds s) (hpatience : w.limit ≤ values.length + patience) :
    ∃ outcome t, w.poll l patience s = .done outcome t := by
  induction patience generalizing values deeds s with
  | zero =>
    have hroom := h.room
    omega
  | succ patience ih =>
    obtain ⟨ended, u, hlook⟩ := look_ends hanswers h.wired
    rw [poll_succ, Run.bind_of_done hlook]
    cases ended with
    | some outcome => exact ⟨outcome, u, rfl⟩
    | none =>
      obtain ⟨all, -, more, hlength, hwaits⟩ := (look_transcribed hregister h).of_done hlook
      obtain ⟨v, hpolled⟩ := hends u (.now hlook)
      have hnext := hwaits.resumed (hpoll u v (.now hlook) hwaits.wired hpolled)
      rw [← hlength] at hnext
      dsimp only
      rw [Run.bind_of_done hpolled]
      exact ih (fun x y hx => hpoll x y (.later hlook hpolled hx))
        (fun x hx => hends x (.later hlook hpolled hx)) hnext (by omega)

end Turns

end Loop

/-- A wait, on a bus of which the counter is plain memory apart from the register, as long as nothing
that runs at its preemption points writes to the counter. The first value that shows an error or is
not busy ends it, unless the count comes to the threshold first; an error counts even while the
register is busy. It looks once more than it found the register busy, or as often as the threshold
says, offers a preemption point between any two looks, and leaves the count that it reports in
memory, the most significant byte first. And it returns, if the preemption points return that it
comes to. -/
theorem run_decided [RegisterBus β] {w : BusyWait} {l : Linkage β}
    (b : PlainMemory β (Quad w.counter)) (hregister : ¬Quad w.counter w.register) {s : Machine β}
    (hpoll : ∀ u v, w.PausesAt l s u → b.wired u.bus → l.poll u = .done () v → b.Still u.bus v.bus)
    (hs : b.wired s.bus) :
    (∀ outcome t, w.run l s = .done outcome t → ∃ deeds,
      w.run l.recorded (s.recorded []) = .done outcome (t.recorded deeds) ∧
      let values := Deed.valuesAt w.register deeds
      let k := values.findIdx w.settles
      outcome = w.verdict values ∧ values.length = min (k + 1) w.limit ∧
        deeds.count .polled = min k (w.limit - 1) ∧
        b.number w.counter t.bus = outcome.iterations) ∧
    ((∀ bus, b.wired bus → ∃ value bus', RegisterBus.read w.register bus = .done value bus') →
      w.limit ≤ l.patience → (∀ u, w.PausesAt l s u → ∃ v, l.poll u = .done () v) →
        ∃ outcome t, w.run l s = .done outcome t) := by
  have hown : ∀ a, Quad w.counter a → Quad w.counter a := fun _ ha => ha
  obtain ⟨bus, hwrite, -⟩ := b.write32_number hown hs 0
  have hstart : Machine.write32 w.counter 0 s = .done () { s with bus := bus } :=
    Machine.onBus_of_done hwrite
  have hbegun : Transcribed (fun _ all t => Stands b [] 0 0 all t) (Machine.write32 w.counter 0 s)
      (Machine.write32 w.counter 0 (s.recorded [])) :=
    count_transcribed hs rfl rfl 0
  have hwaits {all : List Deed} (h : Stands b [] 0 0 all { s with bus := bus }) :
      Waits b [] 0 all { s with bus := bus } :=
    ⟨h, fun _ hv => absurd hv List.not_mem_nil, w.limit_pos⟩
  have hpoll' : ∀ u v, w.Pauses l { s with bus := bus } u → b.wired u.bus →
      l.poll u = .done () v → b.Still u.bus v.bus :=
    fun u v hu => hpoll u v ⟨_, hstart, hu⟩
  constructor
  · intro outcome t hrun
    have hall : Transcribed (Ended b) (w.run l s) (w.run l.recorded (s.recorded [])) := by
      refine hbegun.bind fun _ all u hu hstands => ?_
      obtain rfl : { s with bus := bus } = u := by
        have hsame := hstart.symm.trans hu
        injection hsame
      exact poll_transcribed hregister hpoll' l.patience (hwaits hstands)
    obtain ⟨deeds, hrecorded, hended⟩ := hall.of_done hrun
    exact ⟨deeds, hrecorded, hended.verdict, hended.looked, hended.polled, hended.number⟩
  · intro hanswers hpatience hends
    obtain ⟨all, -, hstands⟩ := hbegun.of_done hstart
    obtain ⟨outcome, t, hrun⟩ := poll_ends hregister hpoll' l.patience hanswers
      (fun u hu => hends u ⟨_, hstart, hu⟩) (hwaits hstands) (by simpa using hpatience)
    exact ⟨outcome, t, (Run.bind_of_done hstart).trans hrun⟩

end BusyWait

namespace Countdown

/-- A register that is busy until the interrupts have brought its work to an end, beside plain
memory. -/
structure Bus where
  left : Nat
  get : UInt16 → UInt8

def register : UInt16 := 0x9000

instance : RegisterBus Bus where
  read addr := Run.gets fun bus =>
    if addr = register then if bus.left = 0 then 0 else 0x80 else bus.get addr
  write addr value := Run.modify fun bus =>
    { bus with get := fun a => if a = addr then value else bus.get a }

def wait : BusyWait := ⟨register, 0x80, 0x01, 0x0A64, 5⟩

def memory : PlainMemory Bus (Quad wait.counter) where
  wired _ := True
  ram := Bus.get
  fetch {bus} _ {addr} haddr := by
    have hne : addr ≠ register := by
      rintro rfl
      exact absurd haddr (by decide)
    refine ⟨bus, ?_⟩
    change Outcome.done (if addr = register then _ else bus.get addr) bus = _
    rw [if_neg hne]
  store _ _ _ _ := ⟨_, rfl⟩
  read := by
    rintro bus bus' - addr value ⟨⟩
    exact ⟨trivial, fun _ _ => rfl⟩
  write := by
    rintro bus bus' - addr value ⟨⟩
    exact ⟨trivial, fun _ _ => rfl⟩

/-- Every preemption point does a part of the work. -/
def linkage : Linkage Bus where
  config := .standard
  table := ⟨[]⟩
  patience := 5
  call _ _ := Run.giveUp
  poll := Machine.onBus (Run.modify fun bus => { bus with left := bus.left - 1 })

/-- The counter holds garbage before the wait. -/
def machine : Machine Bus where
  bus := ⟨2, fun _ => 0xA5⟩
  window := .initial
  stack := .ofBase 0x21
  irq := .initial
  stats := .initial
  log := ⟨none, []⟩

end Countdown

/-- The third look finds the work done. -/
theorem BusyWait.run_decided_countdown :
    ∃ t deeds, Countdown.wait.run Countdown.linkage Countdown.machine = .done (.ready 2) t ∧
      Countdown.wait.run Countdown.linkage.recorded (Countdown.machine.recorded []) =
        .done (.ready 2) (t.recorded deeds) ∧
      Countdown.wait.verdict (Deed.valuesAt Countdown.register deeds) = .ready 2 ∧
      Countdown.memory.number Countdown.wait.counter t.bus = 2 := by
  have hpoll : ∀ u v, Countdown.wait.PausesAt Countdown.linkage Countdown.machine u →
      Countdown.memory.wired u.bus → Countdown.linkage.poll u = .done () v →
        Countdown.memory.Still u.bus v.bus := by
    rintro u v - - ⟨⟩
    exact ⟨trivial, fun _ _ => rfl⟩
  obtain ⟨hdecided, hreturns⟩ := run_decided Countdown.memory (by decide) hpoll trivial
  obtain ⟨outcome, t, hrun⟩ := hreturns (fun _ _ => ⟨_, _, rfl⟩) (by decide) fun _ _ => ⟨_, rfl⟩
  have hvalue : (Countdown.wait.run Countdown.linkage Countdown.machine).value? = some (.ready 2) := by
    decide +kernel
  rw [hrun] at hvalue
  cases hvalue
  obtain ⟨deeds, hrecorded, hverdict, -, -, hnumber⟩ := hdecided _ t hrun
  exact ⟨t, deeds, hrun, hrecorded, hverdict.symm, hnumber⟩

end BankedController
