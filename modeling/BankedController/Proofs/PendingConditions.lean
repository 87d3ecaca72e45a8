import BankedController.Proofs.PanelMoves

namespace BankedController

open RegisterMap Endpoint

namespace Condition

/-- All conditions, in the order of their offsets. -/
def all : List Condition :=
  (List.finRange 8).flatMap fun endpoint => (List.finRange 8).map fun bit => ⟨endpoint, bit⟩

theorem mem_all (c : Condition) : c ∈ all := by
  refine List.mem_flatMap.2 ⟨c.endpoint, List.mem_finRange _, ?_⟩
  exact List.mem_map.2 ⟨c.bit, List.mem_finRange _, rfl⟩

theorem ascending_all : all.Pairwise fun c c' => c.offset < c'.offset := by
  decide

/-- The first condition of which something holds, endpoint by endpoint. -/
theorem find?_all (p : Condition → Bool) : all.find? p = (List.finRange 8).findSome? fun endpoint =>
    ((List.finRange 8).find? fun bit => p ⟨endpoint, bit⟩).map fun bit => ⟨endpoint, bit⟩ := by
  unfold all
  rw [List.find?_flatMap]
  congr 1
  funext endpoint
  rw [List.find?_map]
  rfl

/-- The conditions that the registers show, in the order of their offsets. -/
def pendingIn (conditions : Vector UInt8 8) : List Condition :=
  all.filter fun c => c.isIn (conditions.get c.endpoint)

theorem mem_pendingIn {conditions : Vector UInt8 8} {c : Condition} :
    c ∈ pendingIn conditions ↔ c.isIn (conditions.get c.endpoint) = true :=
  List.mem_filter.trans (and_iff_right (mem_all c))

theorem ascending_pendingIn (conditions : Vector UInt8 8) :
    (pendingIn conditions).Pairwise fun c c' => c.offset < c'.offset :=
  ascending_all.filter _

theorem pendingIn_nodup (conditions : Vector UInt8 8) : (pendingIn conditions).Nodup := by
  refine (ascending_pendingIn conditions).imp ?_
  rintro c _ hlt rfl
  exact UInt8.lt_irrefl c.offset hlt

/-- Only the first condition of a list equals it: taking it off leaves the rest. -/
theorem filter_pendingIn_cons {conditions : Vector UInt8 8} {c : Condition} {rest : List Condition}
    (h : pendingIn conditions = c :: rest) :
    (c :: rest).filter (fun other => other ∉ [c]) = rest := by
  have hnodup := pendingIn_nodup conditions
  rw [h] at hnodup
  have hnot : ∀ other ∈ rest, other ≠ c := by
    rintro other hother rfl
    exact (List.nodup_cons.1 hnodup).1 hother
  simpa using hnot

/-- Clearing its bit takes a condition off the list. -/
theorem pendingIn_clear (conditions : Vector UInt8 8) (c : Condition) :
    pendingIn (conditions.set c.endpoint (conditions.get c.endpoint &&& ~~~c.mask)
      (endpoint_lt c.endpoint)) = (pendingIn conditions).filter fun other => other ∉ [c] := by
  unfold pendingIn
  rw [List.filter_filter]
  congr 1
  funext other
  rw [EndpointBlock.get_set]
  by_cases hendpoint : c.endpoint = other.endpoint
  · rw [if_pos hendpoint.symm, isIn_clear, hendpoint]
    by_cases hbit : c.bit = other.bit
    · have hsame : other = c := by
        obtain ⟨e, k⟩ := c
        obtain ⟨e', k'⟩ := other
        exact congrArg₂ mk hendpoint.symm hbit.symm
      simp [hsame]
    · have hne : other ≠ c := fun heq => hbit (congrArg bit heq.symm)
      simp [hbit, hne]
  · have hne : other ≠ c := fun heq => hendpoint (congrArg endpoint heq.symm)
    rw [if_neg fun heq => hendpoint heq.symm]
    simp [hne]

end Condition

namespace EndpointBlock

variable (conditions : Vector UInt8 8)

/-- The bitmap with the bit of an endpoint, if that has conditions. -/
def marked (map : UInt8) (i : Nat) : UInt8 :=
  if conditions.toArray.getD i 0 = 0 then map else map ||| (1 <<< UInt8.ofNat i)

/-- The bit of an endpoint is set by the endpoint and by no other. -/
theorem marked_and (map : UInt8) {i : Nat} (hi : i < 8) (e : Fin 8) :
    (marked conditions map i &&& conditionBit (UInt8.ofNat e.val) ≠ 0) ↔
      map &&& conditionBit (UInt8.ofNat e.val) ≠ 0 ∨ e.val = i ∧ conditions.get e ≠ 0 := by
  have hother : ∀ e : Fin 8, ∀ i < 8,
      ((1 : UInt8) <<< UInt8.ofNat i) &&& conditionBit (UInt8.ofNat e.val) ≠ 0 ↔ i = e.val := by
    decide
  have hvalue : conditions.toArray.getD i 0 = conditions[i] := by
    simp [Array.getD, hi]
  unfold marked
  rw [hvalue]
  by_cases hzero : conditions[i] = 0
  · have hnone : ¬(e.val = i ∧ conditions.get e ≠ 0) := by
      rintro ⟨rfl, hset⟩
      exact hset hzero
    rw [if_pos hzero, or_iff_left hnone]
  · have hset : i = e.val ↔ e.val = i ∧ conditions.get e ≠ 0 := by
      constructor
      · rintro rfl
        exact ⟨rfl, hzero⟩
      · rintro ⟨rfl, -⟩
        rfl
    rw [if_neg hzero, Bits.or_and, ne_eq, UInt8.or_eq_zero_iff, not_and_or, ← hset, ← hother e i hi]

theorem foldl_marked_and (places : List Nat) (hplaces : ∀ i ∈ places, i < 8) (map : UInt8) (e : Fin 8) :
    (places.foldl (marked conditions) map &&& conditionBit (UInt8.ofNat e.val) ≠ 0) ↔
      map &&& conditionBit (UInt8.ofNat e.val) ≠ 0 ∨ e.val ∈ places ∧ conditions.get e ≠ 0 := by
  -- on the endpoints, from any bitmap: each adds its own bit to what the ones before it have set
  induction places generalizing map with
  | nil => simp
  | cons i rest ih =>
    have hfirst := marked_and conditions map (hplaces i List.mem_cons_self) e
    have hrest := ih (fun j hj => hplaces j (List.mem_cons_of_mem _ hj)) (marked conditions map i)
    rw [List.foldl_cons, hrest, hfirst, List.mem_cons, or_assoc, or_and_right]

/-- The bitmap of endpoints shows those that have conditions. -/
theorem pendingMap_and (e : Fin 8) :
    (pendingMap conditions &&& conditionBit (UInt8.ofNat e.val) ≠ 0) ↔ conditions.get e ≠ 0 := by
  have hall := foldl_marked_and conditions (List.range 8) (fun i hi => List.mem_range.1 hi) 0 e
  have hmap : (List.range 8).foldl (marked conditions) 0 = pendingMap conditions := rfl
  have hmem : e.val ∈ List.range 8 := List.mem_range.2 e.isLt
  rw [hmap, UInt8.zero_and] at hall
  simpa only [ne_eq, not_true_eq_false, hmem, true_and, false_or] using hall

end EndpointBlock

namespace Board

theorem lowest?_eq_find? (value : UInt8) : lowest? value =
    (List.finRange 8).find? fun bit => value &&& conditionBit (UInt8.ofNat bit.val) ≠ 0 := by
  have hall : ∀ value : BitVec 8, lowest? ⟨value⟩ = (List.finRange 8).find? fun bit =>
      (⟨value⟩ : UInt8) &&& conditionBit (UInt8.ofNat bit.val) ≠ 0 := by
    decide
  exact hall value.toBitVec

theorem lowest?_isSome {value : UInt8} : (lowest? value).isSome = true ↔ value ≠ 0 := by
  have hall : ∀ value : BitVec 8, (lowest? ⟨value⟩).isSome = true ↔ (⟨value⟩ : UInt8) ≠ 0 := by
    decide
  exact hall value.toBitVec

/-- The lowest condition of the lowest endpoint that has some is the first that is pending. -/
theorem lowest?_pendingMap (conditions : Vector UInt8 8) :
    ((lowest? (EndpointBlock.pendingMap conditions)).bind fun e =>
      (lowest? (conditions.get e)).map fun bit => (⟨e, bit⟩ : Condition)) =
      (Condition.pendingIn conditions).head? := by
  have hchosen (e : Fin 8) :
      decide (EndpointBlock.pendingMap conditions &&& conditionBit (UInt8.ofNat e.val) ≠ 0) =
        ((lowest? (conditions.get e)).map fun bit => (⟨e, bit⟩ : Condition)).isSome := by
    rw [Option.isSome_map, Bool.eq_iff_iff, decide_eq_true_eq, EndpointBlock.pendingMap_and,
      lowest?_isSome]
  have hfirst : ∀ endpoints : List (Fin 8),
      ((endpoints.find? fun e =>
        EndpointBlock.pendingMap conditions &&& conditionBit (UInt8.ofNat e.val) ≠ 0).bind fun e =>
          (lowest? (conditions.get e)).map fun bit => (⟨e, bit⟩ : Condition)) =
      endpoints.findSome? fun e =>
        (lowest? (conditions.get e)).map fun bit => (⟨e, bit⟩ : Condition) := by
    intro endpoints
    induction endpoints with
    | nil => rfl
    | cons e rest ih =>
      rw [List.find?_cons, List.findSome?_cons, hchosen]
      cases hfound : (lowest? (conditions.get e)).map fun bit => (⟨e, bit⟩ : Condition) with
      | none => exact ih
      | some c => exact hfound
  unfold Condition.pendingIn
  rw [List.head?_filter, Condition.find?_all, lowest?_eq_find? (EndpointBlock.pendingMap conditions),
    hfirst]
  congr 1
  funext e
  rw [lowest?_eq_find?]
  rfl

namespace Panel

/-- The conditions that are pending. -/
def pending (p : Panel) : List Condition :=
  Condition.all.filter fun c => c.isIn (p.conditions.get c.endpoint)

theorem primary_eq {p : Panel} (h : p.forced = none) :
    p.primary = EndpointBlock.pendingMap p.conditions := by
  unfold primary
  rw [h]
  rfl

theorem next?_eq_head? {p : Panel} (h : p.forced = none) : p.next? = p.pending.head? := by
  unfold next?
  rw [primary_eq h]
  exact lowest?_pendingMap p.conditions

/-- What the handler was handed in calls, but for the byte that forces a dispatch. -/
def handed (calls : List (SlotId × Option UInt8)) : List UInt8 :=
  calls.filterMap fun call =>
    if call.1 = .endpointHandler then call.2.filter fun byte => byte < forcedOffset else none

/-- Conditions were handed to the handler and cleared, one after the other, and no others. -/
structure Served (served : List Condition) (p q : Panel) : Prop where
  forced : q.forced = p.forced
  pending : q.pending = p.pending.filter fun c => c ∉ served
  clears : q.clears = (served.map fun c => (c.endpoint.val, c.mask)).reverse ++ p.clears
  handed : handed q.calls = (served.map Condition.offset).reverse ++ handed p.calls

variable {p q : Panel} {limit room : Nat}

theorem Served.trans {first later : List Condition} {r : Panel} (h : Served first p q)
    (h' : Served later q r) : Served (first ++ later) p r := by
  refine ⟨h'.forced.trans h.forced, ?_, ?_, ?_⟩
  · rw [h'.pending, h.pending, List.filter_filter]
    congr 1
    funext c
    simp [Bool.and_comm]
  · rw [h'.clears, h.clears, List.map_append, List.reverse_append, List.append_assoc]
  · rw [h'.handed, h.handed, List.map_append, List.reverse_append, List.append_assoc]

/-- Nothing is served where conditions, clears and what was handed stay as they are. -/
theorem served_nothing (hforced : q.forced = p.forced) (hconditions : q.conditions = p.conditions)
    (hclears : q.clears = p.clears) (hhanded : Panel.handed q.calls = Panel.handed p.calls) :
    Served [] p q := by
  refine ⟨hforced, ?_, hclears, hhanded⟩
  unfold pending
  rw [hconditions]
  simp

theorem Served.refl (p : Panel) : Served [] p p := served_nothing rfl rfl rfl rfl

theorem Served.then_nothing {served : List Condition} {r : Panel} (h : Served served p q)
    (h' : Served [] q r) : Served served p r := by
  have hboth := h.trans h'
  rwa [List.append_nil] at hboth

theorem Served.pending_of_nothing (h : Served [] p q) : q.pending = p.pending := by
  rw [h.pending]
  simp

theorem served_store_cell (p : Panel) (c : Cell) (value : UInt8) :
    Served [] p (p.store c.addr value) := by
  unfold store
  rw [c.at?_addr]
  exact served_nothing rfl rfl rfl rfl

/-- A relation that stores in cells respect holds over what a stand-in does; of the state byte a
stand-in only sets bits, and none of them defers endpoint work. -/
theorem behave_respects {R : Panel → Panel → Prop} (hrefl : ∀ p, R p p)
    (htrans : ∀ {p q r}, R p q → R q r → R p r)
    (hstore : ∀ (p : Panel) (c : Cell) (value : UInt8), c.latched ∨ c = .peripheral →
      R p (p.store c.addr value))
    (hstate : ∀ (p : Panel) (mask : UInt8), mask &&& deferredEndpoint = 0 →
      R p (p.store systemState (p.load systemState ||| mask)))
    (p : Panel) (slot : SlotId) : R p (p.behave (.ofSlot slot)) := by
  unfold Behaviour.ofSlot
  split_ifs
  · exact hstore p .usb _ (.inl rfl)
  · exact htrans (hstore p .usb _ (.inl rfl)) (hstate _ deferredHost (by decide))
  · exact hstore p .system _ (.inl rfl)
  · exact hstate p linkUp (by decide)
  · exact hstore p .pcie _ (.inl rfl)
  · exact hstore p .pcie _ (.inl rfl)
  · exact hstore p .pcie _ (.inl rfl)
  · exact hstore p .system _ (.inl rfl)
  · exact hstore p .peripheral _ (.inr rfl)
  · exact hrefl p

theorem served_called (p : Panel) {slot : SlotId} {param : Option UInt8}
    (h : handed [(slot, param)] = []) : Served [] p (p.called slot param) := by
  have hbehave := behave_respects (R := Served []) .refl Served.then_nothing
    (fun p c value _ => served_store_cell p c value) (fun p _ _ => served_store_cell p .state _)
    { p with calls := (slot, param) :: p.calls } slot
  have hcalls : handed ((slot, param) :: p.calls) = handed p.calls := by
    change handed ([(slot, param)] ++ p.calls) = _
    unfold handed at h ⊢
    rw [List.filterMap_append, h, List.nil_append]
  have hcalled : Served [] p { p with calls := (slot, param) :: p.calls } :=
    served_nothing rfl rfl rfl hcalls
  exact hcalled.then_nothing hbehave

theorem served_standIn (p : Panel) {slot : SlotId} {param : Option UInt8}
    (h : handed [(slot, param)] = []) : Served [] p (p.standIn room slot param) := by
  unfold standIn framed
  split
  · exact served_called p h
  · exact served_nothing rfl rfl rfl rfl

theorem handed_none (slot : SlotId) : handed [(slot, none)] = [] := by
  unfold handed
  simp

theorem store_register (p : Panel) (e : Fin 8) (value : UInt8) :
    p.store (Condition.register e) value =
      { p with
        conditions :=
          p.conditions.set e (p.conditions.get e &&& ~~~value) (Condition.endpoint_lt e)
        clears := (e.val, value) :: p.clears } := by
  have hsecondary : Secondary (Condition.register e) := Condition.secondary_iff.2 ⟨e, rfl⟩
  unfold store
  rw [Cell.at?_of_secondary hsecondary, Journaled.endpointAt?_register]

/-- Writing its bit takes a condition off the list. -/
theorem pending_clear (p : Panel) (c : Condition) :
    (p.store (Condition.register c.endpoint) c.mask).pending =
      p.pending.filter fun other => other ∉ [c] := by
  rw [store_register]
  exact Condition.pendingIn_clear p.conditions c

/-- A scan step with room for the handler serves its condition. -/
theorem served_serveCondition (p : Panel) (c : Condition) (hroom : 5 ≤ room) :
    Served [c] p (p.serveCondition room c) := by
  have hlow : c.offset < forcedOffset := by
    have hbit := c.bit.isLt
    have hendpoint := c.endpoint.isLt
    have hforced : forcedOffset.toNat = 64 := rfl
    rw [UInt8.lt_iff_toNat_lt, Condition.toNat_offset, hforced]
    omega
  have hcalled : p.standIn room .endpointHandler (some c.offset) =
      { p with calls := (.endpointHandler, some c.offset) :: p.calls } := if_pos hroom
  unfold serveCondition
  rw [hcalled]
  refine ⟨?_, pending_clear _ c, ?_, ?_⟩
  · exact (store_frame _ _ _).2.2
  · rw [store_register]
    rfl
  · have hkept : (some c.offset).filter (fun byte => byte < forcedOffset) = some c.offset := by
      simp [Option.filter, hlow]
    rw [(store_frame _ _ _).1]
    unfold handed
    rw [List.filterMap_cons]
    simp only [if_true, hkept]
    rfl

/-- Steps of a scan serve as many conditions as the limit lets them. -/
theorem served_scanSteps (hroom : 5 ≤ room) (limit : Nat) {p : Panel} (h : p.forced = none) :
    Served (p.pending.take limit) p (p.scanSteps room limit) := by
  induction limit generalizing p with
  | zero => exact .refl p
  | succ limit ih =>
    unfold scanSteps
    rw [next?_eq_head? h]
    cases hpending : p.pending with
    | nil => exact .refl p
    | cons c rest =>
      have hfirst := served_serveCondition p c hroom
      have hrest : (p.serveCondition room c).pending = rest := by
        rw [hfirst.pending, hpending]
        exact Condition.filter_pendingIn_cons hpending
      have hsteps := ih (hfirst.forced.trans h)
      rw [hrest] at hsteps
      exact hfirst.trans hsteps

theorem served_forcedFirst (p : Panel) : Served [] p (p.forcedFirst room) := by
  unfold forcedFirst
  split
  · exact served_standIn p (by decide)
  · exact .refl p

theorem served_masterLast (p : Panel) : Served [] p (p.masterLast room) := by
  unfold masterLast
  split
  · exact served_standIn p (handed_none _)
  · exact .refl p

/-- A scan serves the first conditions, whatever the master asks for. -/
theorem served_scan (hroom : 5 ≤ room) (limit : Nat) {p : Panel} (h : p.forced = none) :
    Served (p.pending.take limit) p (p.scan limit room) := by
  have hforced := @served_forcedFirst room p
  have hsteps := served_scanSteps hroom limit (hforced.forced.trans h)
  rw [hforced.pending_of_nothing] at hsteps
  exact (hforced.trans hsteps).then_nothing (served_masterLast _)

theorem served_dispatch (p : Panel) {slot : SlotId} (hslot : slot ≠ .endpointScan) :
    Served [] p (p.dispatch limit room slot) := by
  have hbody : Served [] p (if slot = .endpointScan then p.scan limit (room - 5)
      else if slot = .commandService then p else p.called slot none) := by
    rw [if_neg hslot]
    split
    · exact .refl p
    · exact served_called p (handed_none slot)
  by_cases hroom : 5 ≤ room
  · have hruns : p.dispatch limit room slot = if slot = .endpointScan then p.scan limit (room - 5)
        else if slot = .commandService then p else p.called slot none := if_pos hroom
    rwa [hruns]
  · have hfails : p.dispatch limit room slot = p.failed := if_neg hroom
    rw [hfails]
    exact served_nothing rfl rfl rfl rfl

theorem served_dispatch_scan (hroom : 10 ≤ room) (limit : Nat) {p : Panel} (h : p.forced = none) :
    Served (p.pending.take limit) p (p.dispatch limit room .endpointScan) := by
  have hdispatch : p.dispatch limit room .endpointScan = p.scan limit (room - 5) :=
    if_pos (by omega)
  rw [hdispatch]
  exact served_scan (by omega) limit h

/-- A status test that dispatches no scan, and of which the router clears bits of a cell. -/
def scanless (test : StatusTest) : Bool :=
  test.slot ≠ .endpointScan &&
    (registerOf test.ack).all fun register => Cell.all.any fun c => c.addr = register

theorem served_runTest {test : StatusTest} (h : scanless test = true) (snapshot : UInt8)
    (p : Panel) : Served [] p (p.runTest limit room snapshot test) := by
  unfold scanless at h
  simp only [Bool.and_eq_true, decide_eq_true_eq, Option.all_eq_true] at h
  obtain ⟨hslot, hack⟩ := h
  rw [runTest_eq]
  split
  · exact .refl p
  · refine (served_dispatch p hslot).then_nothing (acknowledge_respects (.refl _) ?_ _)
    intro register value hregister
    obtain ⟨c, -, hc⟩ := List.any_eq_true.1 (hack register hregister)
    obtain rfl : c.addr = register := by simpa using hc
    exact served_store_cell _ c value

theorem served_runTests {tests : List StatusTest} (h : ∀ test ∈ tests, scanless test = true)
    (snapshot : UInt8) (p : Panel) : Served [] p (p.runTests limit room snapshot tests) := by
  induction tests generalizing p with
  | nil => exact .refl p
  | cons test rest ih =>
    have hfirst := @served_runTest limit room test (h test List.mem_cons_self) snapshot p
    exact hfirst.then_nothing (ih (fun test htest => h test (List.mem_cons_of_mem _ htest)) _)

theorem served_route_system (p : Panel) : Served [] p (p.route limit room .system) :=
  served_runTests (by decide) _ p

/-- The tests of the endpoint line up to the one that scans. -/
def masterTest : StatusTest := ⟨.snapshot, usbMasterBit, .usbMaster, .handler⟩

def scanTest : StatusTest := ⟨.reread endpointStatus, 0xFF, .endpointScan, .handler⟩

/-- The primary register is clear exactly if nothing is pending. -/
theorem primary_eq_zero {p : Panel} (h : p.forced = none) : p.primary = 0 ↔ p.pending = [] := by
  rw [← List.head?_eq_none_iff, ← next?_eq_head? h]
  constructor
  · intro hzero
    unfold next?
    rw [hzero]
    rfl
  · intro hnone
    by_contra hset
    obtain ⟨e, he⟩ := Option.isSome_iff_exists.1 (lowest?_isSome.2 hset)
    have hbit : p.primary &&& conditionBit (UInt8.ofNat e.val) ≠ 0 := by
      have hfound := he
      rw [lowest?_eq_find?] at hfound
      simpa using List.find?_some hfound
    have hconditions : p.conditions.get e ≠ 0 := by
      rw [primary_eq h] at hbit
      exact (EndpointBlock.pendingMap_and p.conditions e).1 hbit
    obtain ⟨bit, hlowest⟩ := Option.isSome_iff_exists.1 (lowest?_isSome.2 hconditions)
    unfold next? at hnone
    rw [he, Option.bind_some, hlowest] at hnone
    cases hnone

/-- The endpoint line scans if there is anything to serve. -/
theorem runTest_scan {p : Panel} (h : p.forced = none) (snapshot : UInt8) :
    p.runTest limit room snapshot scanTest =
      if p.pending = [] then p else p.dispatch limit room .endpointScan := by
  have hlooked : p.looked snapshot scanTest &&& scanTest.mask = p.primary := by
    change p.primary &&& 0xFF = p.primary
    rw [UInt8.and_comm]
    exact UInt8.neg_one_and
  have hquiet := primary_eq_zero h
  rw [runTest_eq, hlooked]
  by_cases hempty : p.pending = []
  · rw [if_pos hempty, if_pos (hquiet.2 hempty)]
  · rw [if_neg hempty, if_neg fun hzero => hempty (hquiet.1 hzero)]
    rfl

theorem served_route_endpoint (hroom : 10 ≤ room) (limit : Nat) {p : Panel} (h : p.forced = none) :
    Served (p.pending.take limit) p (p.route limit room .endpoint) := by
  let snapshot := p.load usbStatus
  have hfirst : Served [] p (p.runTest limit room snapshot masterTest) :=
    served_runTest rfl snapshot p
  have hscan (q : Panel) (hq : q.forced = none) :
      Served (q.pending.take limit) q (q.runTest limit room snapshot scanTest) := by
    rw [runTest_scan hq]
    by_cases hempty : q.pending = []
    · rw [if_pos hempty, hempty, List.take_nil]
      exact .refl q
    · rw [if_neg hempty]
      exact served_dispatch_scan hroom limit hq
  have hsecond := hscan _ (hfirst.forced.trans h)
  rw [hfirst.pending_of_nothing] at hsecond
  have hrest := fun q : Panel => @served_runTests limit room (LineRoute.endpoint.tests.drop 2)
    (by decide) snapshot q
  exact (hfirst.trans hsecond).then_nothing (hrest _)

end Panel

end Board
end BankedController
