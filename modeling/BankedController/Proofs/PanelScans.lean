import BankedController.Proofs.PanelRuns

namespace BankedController.Board

open RegisterMap Endpoint

theorem lowest?_eq_none {value : UInt8} : lowest? value = none ↔ lowestBit value ≥ count := by
  unfold lowest?
  rw [ge_iff_le, UInt8.le_iff_toNat_le]
  have hcount : count.toNat = 8 := rfl
  split <;> simp <;> omega

theorem lowestBit_of_lowest? {value : UInt8} {e : Fin 8} (h : lowest? value = some e) :
    lowestBit value = UInt8.ofNat e.val ∧ ¬lowestBit value ≥ count := by
  have hlow : ¬lowestBit value ≥ count := by
    rw [← lowest?_eq_none, h]
    nofun
  refine ⟨UInt8.toNat_inj.1 ?_, hlow⟩
  unfold lowest? at h
  split at h
  next hlt =>
    cases h
    exact (Condition.toNat_ofNat ⟨_, hlt⟩).symm
  next => cases h

variable {α : Type} {c : InterruptController} {l : Linkage (Rig Record)}

theorem Answers.congr {depth : Nat} {v v' : Panel → α} {f f' : Nat → Panel → Panel}
    {m m' : Run State α} (h : Answers c depth v f m) (hm : ∀ s : State, s.bus.Intact → m' s = m s)
    (hv : ∀ p, v' p = v p) (hf : ∀ r p, f' r p = f r p) : Answers c depth v' f' m' := by
  intro s hs hirq
  obtain ⟨t, hrun, hstays, hpanel⟩ := h s hs hirq
  refine ⟨t, ?_, hstays, hpanel.trans (hf _ _).symm⟩
  rw [hm s hs, hrun, hv]

theorem Shows.congr {depth : Nat} {f f' : Nat → Panel → Panel} {m : Run State α}
    (h : Shows c depth f m) (hf : ∀ r p, f' r p = f r p) : Shows c depth f' m := by
  intro s hs hirq
  obtain ⟨a, t, hrun, hstays, hpanel⟩ := h s hs hirq
  exact ⟨a, t, hrun, hstays, hpanel.trans (hf _ _).symm⟩

/-- The index that a step stores is the one that it reads back. -/
theorem index_read_back (value : UInt8) (k : UInt8 → Run State α) {s : State} (hs : s.bus.Intact) :
    (Machine.write endpointIndex value >>= fun _ => Machine.read endpointIndex >>= k) s =
      (Machine.write endpointIndex value >>= fun _ => k value) s := by
  have hlow : endpointIndex < 0x8000 := by decide
  let t : State := { s with bus := s.bus.stored endpointIndex value }
  have hwrite : Machine.write endpointIndex value s = .done () t :=
    Machine.onBus_of_done (hs.write_free hlow value)
  have ht : t.bus.Intact := hs.stored _ _
  have hread : Machine.read endpointIndex t = .done (t.bus.bus.ram.get endpointIndex) t :=
    Machine.onBus_of_done (ht.read_free hlow)
  rw [Rig.ram_stored, if_pos rfl] at hread
  rw [Run.bind_of_done hwrite, Run.bind_of_done hwrite, Run.bind_of_done hread]

/-- What a step does for the endpoint that it has chosen. -/
def serveEndpoint (l : Linkage (Rig Record)) (index : UInt8) : Run State (Option UInt8) := do
  let register := endpointSecondaryBase + index.toUInt16
  let secondary ← Machine.read register
  let sub := lowestBit secondary
  if sub ≥ count then
    pure none
  else
    let offset := offsetBase index + sub
    Machine.write endpointOffset offset
    Machine.note (.endpointStep index sub offset)
    l.dispatch .endpointHandler (some offset)
    Machine.write register (conditionBit sub)
    pure (some offset)

theorem scanStep_eq (l : Linkage (Rig Record)) : l.scanStep = (do
    let primary ← Machine.read endpointStatus
    Machine.write endpointIndex (lowestBit primary)
    if lowestBit primary ≥ count then
      pure none
    else
      let index ← Machine.read endpointIndex
      if index ≥ count then
        pure none
      else
        serveEndpoint l index : Run State (Option UInt8)) := rfl

theorem answers_masterReady {depth : Nat} :
    Answers c depth Panel.masterReady (fun _ p => p) (Linkage.masterReady : Run State Bool) :=
  (answers_read (readable_cell .peripheral)).look fun _ => answers_pure _

section Scans

variable (hhandler : ∀ param,
  Shows c 5 (fun r p => p.standIn r .endpointHandler param) (l.dispatch .endpointHandler param))

include hhandler

theorem answers_serveEndpoint (e : Fin 8) :
    Answers c 5 (fun p => (lowest? (p.conditions.get e)).map fun b => (Condition.mk e b).offset)
      (fun r p => match lowest? (p.conditions.get e) with
        | none => p
        | some b => p.serveCondition r ⟨e, b⟩)
      (serveEndpoint l (UInt8.ofNat e.val)) := by
  have hrest (secondary : UInt8) : Answers c 5
      (fun _ => (lowest? secondary).map fun b => (Condition.mk e b).offset)
      (fun r p => match lowest? secondary with
        | none => p
        | some b => p.serveCondition r ⟨e, b⟩)
      (if lowestBit secondary ≥ count then
        pure none
      else do
        let offset := offsetBase (UInt8.ofNat e.val) + lowestBit secondary
        Machine.write endpointOffset offset
        Machine.note (.endpointStep (UInt8.ofNat e.val) (lowestBit secondary) offset)
        l.dispatch .endpointHandler (some offset)
        Machine.write (Condition.register e) (conditionBit (lowestBit secondary))
        pure (some offset) : Run State (Option UInt8)) := by
    cases hlow : lowest? secondary with
    | none =>
      rw [if_pos (lowest?_eq_none.1 hlow)]
      exact answers_pure none
    | some b =>
      obtain ⟨hbit, hset⟩ := lowestBit_of_lowest? hlow
      let d : Condition := ⟨e, b⟩
      have hserve := (hhandler (some d.offset)).answers fun _ =>
        (shows_write (Condition.register e) d.mask).answers fun _ => answers_pure (some d.offset)
      rw [if_neg hset, hbit]
      exact (shows_write_hidden (by decide) _).aside fun _ => (shows_note _).aside fun _ => hserve
  refine ((answers_read (readable_register e)).look hrest).congr (fun _ _ => rfl)
    (fun p => ?_) fun r p => ?_
  · rw [p.load_register]
  · rw [p.load_register]

/-- A scan step answers with the offset that it served. -/
theorem answers_scanStep :
    Answers c 5 (fun p => p.next?.map Condition.offset)
      (fun r p => match p.next? with
        | none => p
        | some d => p.serveCondition r d) l.scanStep := by
  have hrest (primary : UInt8) : Answers c 5
      (fun p => ((lowest? primary).bind fun e => (lowest? (p.conditions.get e)).map fun b =>
        Condition.mk e b).map Condition.offset)
      (fun r p => match (lowest? primary).bind fun e => (lowest? (p.conditions.get e)).map fun b =>
          Condition.mk e b with
        | none => p
        | some d => p.serveCondition r d)
      (do
        Machine.write endpointIndex (lowestBit primary)
        if lowestBit primary ≥ count then
          pure none
        else
          let index ← Machine.read endpointIndex
          if index ≥ count then
            pure none
          else
            serveEndpoint l index : Run State (Option UInt8)) := by
    have hstore : Shows c 5 (fun _ p => p)
        (Machine.write endpointIndex (lowestBit primary) : Run State Unit) :=
      shows_write_hidden (by decide) _
    cases hlow : lowest? primary with
    | none =>
      simp only [if_pos (lowest?_eq_none.1 hlow)]
      exact hstore.aside fun _ => answers_pure none
    | some e =>
      obtain ⟨hindex, hset⟩ := lowestBit_of_lowest? hlow
      have hserve := hstore.aside fun _ => answers_serveEndpoint hhandler e
      rw [hindex] at hset hserve ⊢
      refine hserve.congr (fun s hs => ?_) (fun p => ?_) fun r p => ?_
      · simp only [if_neg hset]
        rw [index_read_back _ _ hs, if_neg hset]
      · rw [Option.bind_some, Option.map_map]
        rfl
      · dsimp only [Option.bind_some]
        cases lowest? (p.conditions.get e) <;> rfl
  rw [scanStep_eq]
  exact ((answers_read (.inl rfl)).look hrest).congr (fun _ _ => rfl) (fun p => rfl) fun r p => rfl

theorem shows_scanSteps (limit : Nat) :
    Shows c 5 (fun r p => p.scanSteps r limit) (l.scanSteps limit) := by
  induction limit with
  | zero => exact shows_pure _
  | succ limit ih =>
    refine Shows.congr ((answers_scanStep hhandler).bind
      (h := fun found r p => if found.isSome then p.scanSteps r limit else p) fun found => ?_)
      fun r p => ?_
    · cases found with
      | none => exact shows_pure _
      | some offset => exact ih.bind fun _ => shows_pure _
    cases hnext : p.next? with
    | none => simp only [Panel.scanSteps, hnext, Option.map_none, Option.isSome_none,
        Bool.false_eq_true, if_false]
    | some d => simp only [Panel.scanSteps, hnext, Option.map_some, Option.isSome_some, if_true]

variable (hmaster : Shows c 5 (fun r p => p.standIn r .masterEvent none)
  (l.dispatch .masterEvent none))

include hmaster

theorem shows_scanFrom (forced : Bool) (limit : UInt8) :
    Shows c 5 (fun r p => (p.scanSteps r limit.toNat).masterLast r) (l.scanFrom forced limit) := by
  have hend (result : List UInt8 × ScanStop) (master : Bool) : Shows c 5 (fun _ p => p) (do
      if result.2 = .exhausted then
        Machine.note (.scanLimitReached limit)
      pure ⟨forced, result.1, result.2, master⟩ : Run State Endpoint.ScanReport) := by
    have hnote : Shows c 5 (fun _ p => p)
        (Machine.note (.scanLimitReached limit) : Run State Unit) := shows_note _
    have hreport := @shows_pure _ c 5 (ScanReport.mk forced result.1 result.2 master)
    have hbranch := shows_branch (q := result.2 = .exhausted) (hnote.bind fun _ => hreport) hreport
    simp only [ite_self] at hbranch
    exact hbranch
  have hlast (result : List UInt8 × ScanStop) := (answers_masterReady (c := c)).bind fun master =>
    shows_branch (q := master = true) (hmaster.bind fun _ => hend result master) (hend result master)
  exact (shows_scanSteps hhandler limit.toNat).bind hlast

theorem shows_scan : Shows c 5
    (fun r p => p.scan (min l.config.scanLimit FirmwareConfig.maxScanSteps).toNat r) l.scan := by
  let limit := min l.config.scanLimit FirmwareConfig.maxScanSteps
  have hsteps (forced : Bool) := shows_scanFrom hhandler hmaster forced limit
  have hnote : Shows c 5 (fun _ p => p) (Machine.note .forcedDispatch : Run State Unit) :=
    shows_note _
  have hforced (forced : Bool) := hnote.bind fun _ =>
    (hhandler (some forcedOffset)).bind fun _ => hsteps forced
  have hall := (answers_masterReady (c := c)).bind fun forced =>
    shows_branch (q := forced = true) (hforced forced) (hsteps forced)
  refine hall.congr fun r p => ?_
  unfold Panel.scan Panel.forcedFirst
  split <;> rfl

end Scans

end BankedController.Board
