import BankedController.Proofs.Acknowledgements
import BankedController.Proofs.Conditions
import BankedController.Proofs.Transcripts

namespace BankedController

open RegisterMap Endpoint

variable {σ β : Type}

namespace Endpoint

/-- Looks up a table. A look past its end is a fault. -/
def lookUp (table : List UInt8) (index : UInt8) : Run σ UInt8 :=
  match table[index.toNat]? with
  | some value => pure value
  | none => Run.throw .indexOutOfRange

/-- Adds two bytes. A sum that is not a byte is a fault. -/
def addUp (a b : UInt8) : Run σ UInt8 :=
  if a.toNat + b.toNat < 256 then pure (a + b) else Run.throw .overflow

theorem toNat_lt_of_not_count {index : UInt8} (h : ¬index ≥ count) : index.toNat < 8 :=
  Nat.lt_of_not_le fun hle => h (UInt8.le_iff_toNat_le.2 hle)

/-- The table has an entry for every byte. -/
theorem lookUp_indexTable (value : UInt8) :
    (lookUp indexTable value : Run σ UInt8) = pure (lowestBit value) := by
  have hentry : indexTable[value.toNat]? = some (lowestBit value) := by
    unfold indexTable
    rw [List.getElem?_map, List.getElem?_range value.toNat_lt, Option.map_some, UInt8.ofNat_toNat]
  unfold lookUp
  rw [hentry]

theorem lookUp_offsetTable {index : UInt8} (h : ¬index ≥ count) :
    (lookUp offsetTable index : Run σ UInt8) = pure (offsetBase index) := by
  have hentry : offsetTable[index.toNat]? = some (offsetBase index) := by
    unfold offsetTable
    rw [List.getElem?_map, List.getElem?_range (toNat_lt_of_not_count h), Option.map_some,
      UInt8.ofNat_toNat]
  unfold lookUp
  rw [hentry]

theorem lookUp_bitTable {sub : UInt8} (h : ¬sub ≥ count) :
    (lookUp bitTable sub : Run σ UInt8) = pure (conditionBit sub) := by
  have hentry : bitTable[sub.toNat]? = some (conditionBit sub) := by
    unfold bitTable
    rw [List.getElem?_map, List.getElem?_range (toNat_lt_of_not_count h), Option.map_some,
      UInt8.ofNat_toNat]
  unfold lookUp
  rw [hentry]

theorem addUp_offset {index sub : UInt8} (hindex : ¬index ≥ count) (hsub : ¬sub ≥ count) :
    (addUp (offsetBase index) sub : Run σ UInt8) = pure (offsetBase index + sub) := by
  have hlow := toNat_lt_of_not_count hindex
  have hbit := toNat_lt_of_not_count hsub
  have height : (8 : UInt8).toNat = 8 := rfl
  refine if_pos ?_
  unfold offsetBase
  rw [UInt8.toNat_mul, height]
  omega

end Endpoint

namespace Linkage

variable [RegisterBus β]

/-- A scan step with its tables looked up and its offset added up. -/
def tableStep (l : Linkage β) : Run (Machine β) (Option UInt8) := do
  let primary ← Machine.read endpointStatus
  let chosen ← lookUp indexTable primary
  Machine.write endpointIndex chosen
  if chosen ≥ count then
    pure none
  else
    let index ← Machine.read endpointIndex
    if index ≥ count then
      pure none
    else
      let register := endpointSecondaryBase + index.toUInt16
      let secondary ← Machine.read register
      let sub ← lookUp indexTable secondary
      if sub ≥ count then
        pure none
      else
        let base ← lookUp offsetTable index
        let offset ← addUp base sub
        Machine.write endpointOffset offset
        Machine.note (.endpointStep index sub offset)
        l.dispatch .endpointHandler (some offset)
        let mask ← lookUp bitTable sub
        Machine.write register mask
        pure (some offset)

def tableSteps (l : Linkage β) : Nat → Run (Machine β) (List UInt8 × ScanStop)
  | 0 => pure ([], .exhausted)
  | limit + 1 => do
    match ← l.tableStep with
    | none => pure ([], .idle)
    | some offset =>
      let (rest, stop) ← l.tableSteps limit
      pure (offset :: rest, stop)

/-- A scan of such steps. -/
def tableScan (l : Linkage β) : Run (Machine β) ScanReport := do
  let forced ← masterReady
  if forced then
    Machine.note .forcedDispatch
    l.dispatch .endpointHandler (some forcedOffset)
  let limit := min l.config.scanLimit FirmwareConfig.maxScanSteps
  let (serviced, stop) ← l.tableSteps limit.toNat
  let master ← masterReady
  if master then
    l.dispatch .masterEvent none
  if stop = .exhausted then
    Machine.note (.scanLimitReached limit)
  pure ⟨forced, serviced, stop, master⟩

theorem tableStep_eq (l : Linkage β) : l.tableStep = l.scanStep := by
  unfold tableStep scanStep
  simp only [lookUp_indexTable, pure_bind]
  refine congrArg (Machine.read endpointStatus >>= ·) (funext fun primary => ?_)
  refine congrArg (Machine.write endpointIndex (lowestBit primary) >>= ·) (funext fun _ => ?_)
  split
  · rfl
  refine congrArg (Machine.read endpointIndex >>= ·) (funext fun index => ?_)
  split
  · rfl
  next hindex =>
    refine congrArg (Machine.read _ >>= ·) (funext fun secondary => ?_)
    split
    · rfl
    next hsub =>
      rw [lookUp_offsetTable hindex, pure_bind, addUp_offset hindex hsub, pure_bind,
        lookUp_bitTable hsub]
      rfl

theorem tableSteps_eq (l : Linkage β) : l.tableSteps = l.scanSteps := by
  funext limit
  induction limit with
  | zero => rfl
  | succ limit ih =>
    unfold tableSteps scanSteps
    rw [tableStep_eq]
    refine congrArg (l.scanStep >>= ·) (funext fun found => ?_)
    cases found with
    | none => rfl
    | some offset => exact congrArg (· >>= _) ih

/-- A look at the master, and what is done if the master asks for it. -/
def attend (serve : Run (Machine β) Unit) : Run (Machine β) Bool := do
  let ready ← masterReady
  if ready then serve else pure ()
  pure ready

/-- The end of a scan. -/
def close (limit : UInt8) (report : ScanReport) : Run (Machine β) ScanReport := do
  if report.stop = .exhausted then Machine.note (.scanLimitReached limit) else pure ()
  pure report

/-- A scan is a number of steps between two looks at the master. -/
theorem scan_eq (l : Linkage β) :
    l.scan = attend (do
        Machine.note .forcedDispatch
        l.dispatch .endpointHandler (some forcedOffset)) >>= fun forced =>
      l.scanSteps (min l.config.scanLimit FirmwareConfig.maxScanSteps).toNat >>= fun result =>
        attend (l.dispatch .masterEvent none) >>= fun master =>
          close (min l.config.scanLimit FirmwareConfig.maxScanSteps)
            ⟨forced, result.1, result.2, master⟩ := by
  have hclose (limit : UInt8) (report : ScanReport) :
      (close limit report : Run (Machine β) ScanReport) =
        if report.stop = .exhausted then
          Machine.note (.scanLimitReached limit) >>= fun _ => pure report
        else pure report := by
    unfold close
    split <;> rfl
  have hattend {α : Type} (serve : Run (Machine β) Unit) (next : Bool → Run (Machine β) α) :
      attend serve >>= next = masterReady >>= fun ready =>
        if ready then serve >>= fun _ => next ready else next ready := by
    unfold attend
    rw [bind_assoc]
    refine congrArg (masterReady >>= ·) (funext fun ready => ?_)
    cases ready with
    | false => rfl
    | true => simp only [if_true, bind_assoc, pure_bind]
  have hfrom (forced : Bool) (limit : UInt8) :
      l.scanFrom forced limit = l.scanSteps limit.toNat >>= fun result =>
        attend (l.dispatch .masterEvent none) >>= fun master =>
          close limit ⟨forced, result.1, result.2, master⟩ := by
    simp only [hattend, hclose]
    rfl
  rw [hattend]
  unfold scan
  simp only [hfrom, bind_assoc]

theorem tableScan_eq (l : Linkage β) : l.tableScan = l.scan := by
  unfold tableScan
  rw [tableSteps_eq]
  rfl

end Linkage

namespace Endpoint

/-- What a step reads that finds a condition: the bitmap, the endpoint that is read back, and what is
pending there. -/
structure Find where
  primary : UInt8
  condition : Condition
  secondary : UInt8
  ready : ¬lowestBit primary ≥ count
  lowest : lowestBit secondary = UInt8.ofNat condition.bit.val

/-- The accesses by which it finds the condition. -/
def Find.looks (f : Find) : List Deed :=
  [.read endpointStatus f.primary, .write endpointIndex (lowestBit f.primary),
    .read endpointIndex (UInt8.ofNat f.condition.endpoint.val),
    .read (Condition.register f.condition.endpoint) f.secondary]

/-- What such a step does: it looks, announces the offset of the condition, hands it over, and clears
the condition in the register that it was found in. -/
def Find.deeds (f : Find) : List Deed :=
  f.looks ++ [.write endpointOffset f.condition.offset,
    .called .endpointHandler (some f.condition.offset),
    .write (Condition.register f.condition.endpoint) f.condition.mask]

/-- What a step does that finds nothing: no endpoint is ready, or none is read back, or nothing is
pending at the one that is. -/
inductive Fruitless : List Deed → Prop
  | unready {primary : UInt8} (none : lowestBit primary ≥ count) :
    Fruitless [.read endpointStatus primary, .write endpointIndex (lowestBit primary)]
  | unlatched {primary index : UInt8} (ready : ¬lowestBit primary ≥ count) (none : index ≥ count) :
    Fruitless [.read endpointStatus primary, .write endpointIndex (lowestBit primary),
      .read endpointIndex index]
  | unraised {primary secondary : UInt8} {endpoint : Fin 8} (ready : ¬lowestBit primary ≥ count)
    (none : lowestBit secondary ≥ count) :
    Fruitless [.read endpointStatus primary, .write endpointIndex (lowestBit primary),
      .read endpointIndex (UInt8.ofNat endpoint.val), .read (Condition.register endpoint) secondary]

/-- A look at the master, and the call of a slot if the master asks for it. -/
def masterLook (value : UInt8) (id : SlotId) (param : Option UInt8) : List Deed :=
  .read peripheralStatus value ::
    if value &&& masterReadyBit ≠ 0 then [.called id param] else []

/-- What steps do, up to the last. They stop because there is no room for more, or because the last
of them found nothing. -/
structure Stepped (limit : Nat) (serviced : List UInt8) (stop : ScanStop) (finds : List Find)
    (last : List Deed) : Prop where
  serviced : serviced = finds.map fun f => f.condition.offset
  stopped : finds.length = limit ∧ stop = .exhausted ∧ last = [] ∨
    finds.length < limit ∧ stop = .idle ∧ Fruitless last

end Endpoint

namespace Linkage

variable [RegisterBus β] (l : Linkage β) (s : Machine β) (deeds : List Deed)

theorem seek_transcribed :
    Transcribed (fun found all _ => match found with
        | none => ∃ last, Fruitless last ∧ all = deeds ++ last
        | some (index, sub) => ∃ f : Find, index = UInt8.ofNat f.condition.endpoint.val ∧
            sub = UInt8.ofNat f.condition.bit.val ∧ all = deeds ++ f.looks)
      (seek s) (seek (s.recorded deeds)) := by
  unfold seek
  refine (Transcribed.read _ s deeds).bind fun primary _ t _ hstatus => ?_
  refine (Transcribed.write _ _ t _).bind fun _ _ u _ hindex => ?_
  rw [hstatus, List.append_assoc] at hindex
  by_cases hnone : lowestBit primary ≥ count
  · rw [if_pos hnone, if_pos hnone]
    exact .pure ⟨_, .unready hnone, hindex⟩
  rw [if_neg hnone, if_neg hnone]
  refine (Transcribed.read _ u _).bind fun index _ v _ hlatched => ?_
  rw [hindex, List.append_assoc] at hlatched
  by_cases hlarge : index ≥ count
  · rw [if_pos hlarge, if_pos hlarge]
    exact .pure ⟨_, .unlatched hnone hlarge, hlatched⟩
  rw [if_neg hlarge, if_neg hlarge]
  refine (Transcribed.read _ v _).bind fun secondary _ x _ hsecondary => ?_
  rw [hlatched, List.append_assoc] at hsecondary
  let endpoint : Fin 8 := ⟨index.toNat, toNat_lt_of_not_count hlarge⟩
  have hendpoint : UInt8.ofNat endpoint.val = index := UInt8.ofNat_toNat
  by_cases hidle : lowestBit secondary ≥ count
  · rw [if_pos hidle, if_pos hidle]
    rw [← hendpoint] at hsecondary
    exact .pure ⟨_, .unraised hnone hidle, hsecondary⟩
  rw [if_neg hidle, if_neg hidle]
  let c : Condition := ⟨endpoint, ⟨(lowestBit secondary).toNat, toNat_lt_of_not_count hidle⟩⟩
  have hbit : UInt8.ofNat c.bit.val = lowestBit secondary := UInt8.ofNat_toNat
  rw [← hendpoint] at hsecondary
  exact .pure ⟨⟨primary, c, secondary, hnone, hbit.symm⟩, hendpoint.symm, hbit.symm, hsecondary⟩

theorem scanStep_transcribed :
    Transcribed (fun found all _ => match found with
        | none => ∃ last, Fruitless last ∧ all = deeds ++ last
        | some offset => ∃ f : Find, offset = f.condition.offset ∧ all = deeds ++ f.deeds)
      (l.scanStep s) (l.recorded.scanStep (s.recorded deeds)) := by
  rw [scanStep_eq, scanStep_eq]
  refine (seek_transcribed s deeds).bind fun found sought t _ hfound => ?_
  cases found with
  | none => exact .pure hfound
  | some pair =>
    obtain ⟨index, sub⟩ := pair
    obtain ⟨f, rfl, rfl, hsought⟩ := hfound
    simp only [announce, clearCondition, bind_assoc]
    refine (Transcribed.write _ _ t _).bind fun _ _ u _ hoffset => ?_
    refine (Transcribed.note _ u _).bind fun _ _ v _ hnote => ?_
    refine (Transcribed.dispatch l _ _ v _).bind fun _ _ x _ hdispatch => ?_
    refine (Transcribed.write _ _ x _).bind fun _ _ y _ hclear => ?_
    refine .pure ⟨f, rfl, ?_⟩
    rw [hclear, hdispatch, hnote, hoffset, hsought]
    unfold Find.deeds
    simp only [List.append_assoc]
    rfl

/-- Steps, by induction on the limit. -/
theorem scanSteps_transcribed (limit : Nat) :
    Transcribed (fun result all _ => ∃ finds last,
        all = deeds ++ finds.flatMap Find.deeds ++ last ∧
          Stepped limit result.1 result.2 finds last)
      (l.scanSteps limit s) (l.recorded.scanSteps limit (s.recorded deeds)) := by
  induction limit generalizing s deeds with
  | zero => exact .pure ⟨[], [], by simp, rfl, .inl ⟨rfl, rfl, rfl⟩⟩
  | succ limit ih =>
    unfold scanSteps
    refine (scanStep_transcribed l s deeds).bind fun found stepped t _ hfound => ?_
    cases found with
    | none =>
      obtain ⟨last, hfruitless, hall⟩ := hfound
      exact .pure ⟨[], last, by simpa using hall, rfl, .inr ⟨Nat.succ_pos _, rfl, hfruitless⟩⟩
    | some offset =>
      obtain ⟨f, rfl, hstepped⟩ := hfound
      refine (ih t stepped).bind fun result all u _ hresult => ?_
      obtain ⟨finds, last, hall, hserviced, hstopped⟩ := hresult
      obtain ⟨rest, stop⟩ := result
      refine .pure ⟨f :: finds, last, ?_, ?_, ?_⟩
      · rw [hall, hstepped, List.flatMap_cons]
        simp only [List.append_assoc]
      · exact congrArg (f.condition.offset :: ·) hserviced
      · rw [List.length_cons]
        exact hstopped.imp (.imp_left (congrArg (· + 1))) (.imp_left Nat.succ_lt_succ)

theorem masterReady_transcribed :
    Transcribed (fun ready all _ => ∃ value, ready = decide (value &&& masterReadyBit ≠ 0) ∧
        all = deeds ++ [.read peripheralStatus value])
      (masterReady s) (masterReady (s.recorded deeds)) := by
  refine (Transcribed.read _ s deeds).bind fun value _ t _ hread => ?_
  exact .pure ⟨value, rfl, hread⟩

variable {s deeds} in
theorem attend_transcribed {serve : Run (Machine β) Unit} {serve' : Run (Machine (Recorded β)) Unit}
    {id : SlotId} {param : Option UInt8}
    (hserve : ∀ t all, Transcribed (fun _ all' _ => all' = all ++ [.called id param]) (serve t)
      (serve' (t.recorded all))) :
    Transcribed (fun ready all _ => ∃ value, ready = decide (value &&& masterReadyBit ≠ 0) ∧
        all = deeds ++ masterLook value id param)
      (attend serve s) (attend serve' (s.recorded deeds)) := by
  refine (masterReady_transcribed s deeds).bind fun ready looked t _ hready => ?_
  obtain ⟨value, rfl, hlooked⟩ := hready
  unfold masterLook
  by_cases hasks : value &&& masterReadyBit ≠ 0
  · simp only [decide_eq_true hasks, if_true]
    refine (hserve t looked).bind fun _ all u _ hall => ?_
    refine .pure ⟨value, (decide_eq_true hasks).symm, ?_⟩
    rw [hall, hlooked, if_pos hasks, List.append_assoc]
    rfl
  · simp only [decide_eq_false hasks]
    refine .pure ⟨value, (decide_eq_false hasks).symm, ?_⟩
    rw [if_neg hasks]
    exact hlooked

omit [RegisterBus β] l s deeds in
/-- A dispatch returns if its call does, however the call ends. -/
theorem dispatch_ends {l : Linkage β}
    (hcalls : ∀ id param s, ∃ result t, l.call id param s = .done result t) (id : SlotId)
    (param : Option UInt8) : (l.dispatch id param).Ends fun _ => True := by
  refine Run.ends_bind (fun s _ => ?_) fun result s _ => ?_
  · obtain ⟨result, t, hcall⟩ := hcalls id param s
    exact ⟨result, t, hcall, trivial⟩
  · cases result with
    | ok => exact ⟨(), _, rfl, trivial⟩
    | error e => exact ⟨(), _, rfl, trivial⟩

omit l s deeds in
theorem read_ends
    (hreads : ∀ addr (bus : β), ∃ value bus', RegisterBus.read addr bus = .done value bus')
    (addr : UInt16) : (Machine.read addr : Run (Machine β) UInt8).Ends fun _ => True := by
  intro s _
  obtain ⟨value, bus, hread⟩ := hreads addr s.bus
  exact ⟨value, _, Machine.onBus_of_done hread, trivial⟩

omit l s deeds in
theorem write_ends
    (hwrites : ∀ addr value (bus : β), ∃ bus', RegisterBus.write addr value bus = .done () bus')
    (addr : UInt16) (value : UInt8) :
    (Machine.write addr value : Run (Machine β) Unit).Ends fun _ => True := by
  intro s _
  obtain ⟨bus, hwrite⟩ := hwrites addr value s.bus
  exact ⟨(), _, Machine.onBus_of_done hwrite, trivial⟩

/-- The reads of a scan. -/
def ScanRead (addr : UInt16) : Prop :=
  addr = endpointStatus ∨ addr = endpointIndex ∨ addr = peripheralStatus ∨ Secondary addr

section Returns

variable {l} {G : Machine β → Prop} (hread : ∀ addr, ScanRead addr → (Machine.read addr).Ends G)
  (hwrite : ∀ addr value, ScanWrite addr value → (Machine.write addr value).Ends G)
  (hnote : ∀ event, (Machine.note event).Ends G)
  (hdispatch : ∀ id param, (l.dispatch id param).Ends G)

include hread hwrite hnote hdispatch

theorem scanStep_ends : l.scanStep.Ends G := by
  unfold scanStep
  refine Run.ends_bind (hread _ (.inl rfl)) fun primary => ?_
  refine Run.ends_bind (hwrite _ _ (.inl rfl)) fun _ => ?_
  split
  · exact Run.ends_pure _
  refine Run.ends_bind (hread _ (.inr (.inl rfl))) fun index => ?_
  split
  · exact Run.ends_pure _
  next hindex =>
    have hregister := Composed.secondary_of_index hindex
    refine Run.ends_bind (hread _ (.inr (.inr (.inr hregister)))) fun secondary => ?_
    dsimp only
    split
    · exact Run.ends_pure _
    refine Run.ends_bind (hwrite _ _ (.inr (.inl rfl))) fun _ => Run.ends_bind (hnote _) fun _ => ?_
    refine Run.ends_bind (hdispatch _ _) fun _ => ?_
    exact Run.ends_bind (hwrite _ _ (.inr (.inr hregister))) fun _ => Run.ends_pure _

theorem scanSteps_ends (limit : Nat) : (l.scanSteps limit).Ends G := by
  induction limit with
  | zero => exact Run.ends_pure _
  | succ limit ih =>
    refine Run.ends_bind (scanStep_ends hread hwrite hnote hdispatch) fun found => ?_
    cases found with
    | none => exact Run.ends_pure _
    | some offset => exact Run.ends_bind ih fun _ => Run.ends_pure _

/-- A scan returns if its accesses and what it dispatches do. -/
theorem scan_ends : l.scan.Ends G := by
  have hattend {serve : Run (Machine β) Unit} (hserve : serve.Ends G) : (attend serve).Ends G := by
    have hready := hread peripheralStatus (.inr (.inr (.inl rfl)))
    refine Run.ends_bind (Run.ends_bind hready fun _ => Run.ends_pure _) fun ready => ?_
    split
    · exact Run.ends_bind hserve fun _ => Run.ends_pure _
    · exact Run.ends_bind (Run.ends_pure _) fun _ => Run.ends_pure _
  have hclose (limit : UInt8) (report : ScanReport) : (close limit report).Ends G := by
    unfold close
    split
    · exact Run.ends_bind (hnote _) fun _ => Run.ends_pure _
    · exact Run.ends_bind (Run.ends_pure _) fun _ => Run.ends_pure _
  rw [scan_eq]
  refine Run.ends_bind (hattend (Run.ends_bind (hnote _) fun _ => hdispatch _ _)) fun forced => ?_
  refine Run.ends_bind (scanSteps_ends hread hwrite hnote hdispatch _) fun result => ?_
  exact Run.ends_bind (hattend (hdispatch _ _)) fun master => hclose _ _

end Returns

theorem toNat_min_scanLimit (limit : UInt8) :
    (min limit FirmwareConfig.maxScanSteps).toNat = min limit.toNat 32 :=
  UInt8.toNat_min limit FirmwareConfig.maxScanSteps

omit [RegisterBus β] in
variable {s deeds} in
theorem close_transcribed {P : ScanReport → List Deed → Machine β → Prop} (limit : UInt8)
    {report : ScanReport} (h : ∀ t, P report deeds t) :
    Transcribed P (close limit report s) (close limit report (s.recorded deeds)) := by
  unfold close
  split
  · refine (Transcribed.note _ s deeds).bind fun _ _ t _ hnote => ?_
    rw [hnote]
    exact .pure (h t)
  · exact .pure (h s)

end Linkage

/-- A scan, whatever the bus returns and whatever the routines do that it dispatches. It is the scan
with its tables looked up and its offsets added up, none of which is a fault; it returns if all its
accesses and calls do. What it does is a look at the master, a number of steps that each serve a
condition, one more step that finds nothing unless there is no room for it, and another look at the
master; its report says which conditions these were, by their offsets. -/
theorem Linkage.scan_transcribed [RegisterBus β] (l : Linkage β) (s : Machine β) :
    l.tableScan = l.scan ∧
    ((∀ addr (bus : β), ∃ value bus', RegisterBus.read addr bus = .done value bus') →
      (∀ addr value (bus : β), ∃ bus', RegisterBus.write addr value bus = .done () bus') →
      (∀ id param s, ∃ result t, l.call id param s = .done result t) →
        ∃ report t, l.tableScan s = .done report t) ∧
    Transcribed (fun report deeds _ => ∃ before finds last after,
        deeds = masterLook before .endpointHandler (some forcedOffset) ++
          finds.flatMap Find.deeds ++ last ++ masterLook after .masterEvent none ∧
        report.forced = decide (before &&& masterReadyBit ≠ 0) ∧
        report.master = decide (after &&& masterReadyBit ≠ 0) ∧
        Stepped (min l.config.scanLimit.toNat 32) report.serviced report.stop finds last ∧
        ∀ f ∈ finds, f.condition.offset.toNat =
          8 * f.condition.endpoint.val + f.condition.bit.val)
      (l.scan s) (l.recorded.scan (s.recorded [])) := by
  refine ⟨l.tableScan_eq, fun hreads hwrites hcalls => ?_, ?_⟩
  · have hends : l.scan.Ends fun _ => True :=
      scan_ends (fun addr _ => read_ends hreads addr)
        (fun addr value _ => write_ends hwrites addr value) (fun event s _ => ⟨(), _, rfl, trivial⟩)
        (dispatch_ends hcalls)
    rw [tableScan_eq]
    obtain ⟨report, t, hrun, -⟩ := hends s trivial
    exact ⟨report, t, hrun⟩
  · have hforced (t : Machine β) (all : List Deed) :
        Transcribed (fun _ all' _ => all' = all ++ [.called .endpointHandler (some forcedOffset)])
          ((Machine.note .forcedDispatch >>= fun _ =>
            l.dispatch .endpointHandler (some forcedOffset)) t)
          ((Machine.note .forcedDispatch >>= fun _ =>
            l.recorded.dispatch .endpointHandler (some forcedOffset)) (t.recorded all)) := by
      refine (Transcribed.note _ t all).bind fun _ _ u _ hnote => ?_
      rw [hnote]
      exact Transcribed.dispatch l _ _ u all
    rw [scan_eq, scan_eq]
    refine (attend_transcribed hforced).bind fun forced looked t _ hbefore => ?_
    obtain ⟨before, hready, hlooked⟩ := hbefore
    refine (scanSteps_transcribed l t looked _).bind fun result stepped u _ hresult => ?_
    obtain ⟨finds, last, hstepped, hsteps⟩ := hresult
    refine (attend_transcribed fun v all => Transcribed.dispatch l _ _ v all).bind ?_
    rintro master all v - ⟨after, hmaster, hall⟩
    refine close_transcribed _ fun _ => ⟨before, finds, last, after, ?_, hready, hmaster, ?_, ?_⟩
    · rw [hall, hstepped, hlooked, List.nil_append]
    · rw [← toNat_min_scanLimit]
      exact hsteps
    · exact fun f _ => f.condition.toNat_offset

namespace Taped

/-- A bus that returns what stands on a tape, whatever is read of it. -/
structure Bus where
  tape : List UInt8

instance : RegisterBus Bus where
  read _ := fun bus => .done (bus.tape.headD 0) ⟨bus.tape.tail⟩
  write _ _ := pure ()

/-- A call winds the tape on. -/
def linkage : Linkage Bus where
  config := .standard
  table := ⟨[]⟩
  patience := 0
  call _ _ := do
    Machine.onBus (Run.modify fun bus => ⟨bus.tape.tail⟩)
    pure (.ok ())
  poll := pure ()

/-- The endpoint that is read back is the fourth, although the first was stored, and then an endpoint
is read back that there is not. -/
def machine : Machine Bus where
  bus := ⟨[0x00, 0x01, 0x03, 0x20, 0x55, 0x80, 0xFF, 0xFF, 0x77]⟩
  window := .initial
  stack := .ofBase 0x21
  irq := .initial
  stats := .initial
  log := ⟨none, []⟩

end Taped

/-- The condition that is found is the sixth of the fourth endpoint, and the next step finds none. -/
theorem Linkage.scan_transcribed_tape :
    ∃ t deeds, Taped.linkage.tableScan Taped.machine = .done ⟨false, [29], .idle, true⟩ t ∧
      Taped.linkage.recorded.scan (Taped.machine.recorded []) =
        .done ⟨false, [29], .idle, true⟩ (t.recorded deeds) ∧
      ∃ (find : Find) (last : List Deed), find.condition = ⟨3, 5⟩ ∧ Fruitless last ∧
        deeds = masterLook 0 .endpointHandler (some forcedOffset) ++ find.deeds ++ last ++
          masterLook 0xFF .masterEvent none := by
  obtain ⟨htable, hreturns, htold⟩ := scan_transcribed Taped.linkage Taped.machine
  obtain ⟨report, t, hrun⟩ := hreturns (fun _ _ => ⟨_, _, rfl⟩) (fun _ _ _ => ⟨_, rfl⟩)
    fun _ _ _ => ⟨_, _, rfl⟩
  have hvalue : (Taped.linkage.tableScan Taped.machine).value? =
      some ⟨false, [29], .idle, true⟩ := by
    decide +kernel
  rw [hrun] at hvalue
  cases hvalue
  obtain ⟨deeds, hrecorded, -⟩ := htold.of_done (htable ▸ hrun)
  have hdeeds : (Taped.linkage.recorded.scan (Taped.machine.recorded [])).ask?
      (fun r => r.bus.deeds) = some (masterLook 0 .endpointHandler (some forcedOffset) ++
        Find.deeds ⟨0x01, ⟨3, 5⟩, 0x20, by decide, by decide⟩ ++
        [.read endpointStatus 0x80, .write endpointIndex 7, .read endpointIndex 0xFF] ++
        masterLook 0xFF .masterEvent none) := by
    decide +kernel
  rw [hrecorded] at hdeeds
  have hready : ¬lowestBit 0x80 ≥ count := by decide
  exact ⟨t, deeds, hrun, hrecorded, _, _, rfl, .unlatched hready (by decide),
    Option.some.inj hdeeds⟩

end BankedController
