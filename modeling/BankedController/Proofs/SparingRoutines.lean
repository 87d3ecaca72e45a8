import BankedController.Proofs.EngineMemory
import BankedController.Proofs.FollowedRuns

namespace BankedController

open RegisterMap

variable {β α : Type} [RegisterBus β]

namespace EngineMemory

variable {b : EngineMemory β} {kinds posts : List CommandKind} {g : β → Prop} {fw : Firmware β}
  {image : CodeImage (Routine β)} {entries : List DispatchEntry} {config : FirmwareConfig}
  {addrs : List CodeAddr}

/-- The routes write nothing of the engine's. -/
theorem sparingWrite_of_routeWrite {addr : UInt16} {value : UInt8} (h : RouteWrite addr value) :
    SparingWrite kinds posts addr value := by
  apply SparingWrite.of_not_engineByte
  rcases h with rfl | rfl | rfl <;> decide

/-- The scan writes nothing of the engine's. -/
theorem sparingWrite_of_scanWrite {addr : UInt16} {value : UInt8} (h : ScanWrite addr value) :
    SparingWrite kinds posts addr value := by
  apply SparingWrite.of_not_engineByte
  rcases h with rfl | rfl | hsecondary
  · decide
  · decide
  · apply not_engineByte_of_gt
    have hbase : endpointSecondaryBase.toNat = 0x9096 := rfl
    have hrequest : requestKind.toNat = 0x0A80 := rfl
    have habove := UInt16.le_iff_toNat_le.1 hsecondary.1
    apply UInt16.lt_iff_toNat_lt.2
    omega

section Invariant

-- an invariant of the bus that sparing steps keep
variable (hg : ∀ bus bus', g bus → b.Spares kinds posts bus bus' → g bus')

include hg

theorem keeps_of_spares {m : Run (Machine β) α} (h : m.Keeps (OnBus (b.Spares kinds posts))) :
    m.Keeps fun s t => g s.bus → g t.bus :=
  fun s a t hrun hs => hg s.bus t.bus hs (h s a t hrun)

omit hg [RegisterBus β] in
theorem bookkeeping_bus (g : β → Prop) :
    Bookkeeping (Keeping fun s t : Machine β => g s.bus → g t.bus) :=
  bookkeeping_onBus (Q := fun bus bus' => g bus → g bus') ⟨fun _ => id, fun h h' => h' ∘ h⟩

/-- A composition of sparing steps stays within what they spare. -/
theorem followsIn_of_composed {l l' : Linkage β}
    (hl : Linkage.Follows False (fun s => g s.bus) l l') {m : Linkage β → Run (Machine β) α}
    (hm : Composed (Keeping (OnBus (b.Spares kinds posts))) m) :
    Run.FollowsIn False (fun s => g s.bus) (m l) (m l') :=
  Composed.follows (bookkeeping_bus g) (fun _ _ h => keeps_of_spares hg h) hl hm

theorem followsIn_of_spares {m : Run (Machine β) α} (h : m.Keeps (OnBus (b.Spares kinds posts))) :
    Run.FollowsIn False (fun s => g s.bus) m m :=
  Run.followsIn_self (keeps_of_spares hg h)

/-- A request that is taken is of a kind that may be posted. -/
theorem take_follows (hposted : ∀ bus, g bus → b.wired bus ∧ b.Posted posts bus) :
    Run.Follows False (fun s : Machine β => g s.bus)
      (fun found s => (∀ r, found = some r → r.kind ∈ posts) ∧ g s.bus)
      CommandRequest.take CommandRequest.take := by
  have hclear : SparingWrite kinds posts requestKind 0 := by
    have hnone : CommandKind.ofRequest? 0 = none := rfl
    refine ⟨fun _ kind h => ?_, fun kind _ => ?_, fun h => absurd h (by decide)⟩
    · rw [hnone] at h
      cases h
    · exact not_countsAt_of_outside (by decide) kind
  have hkeeps : (CommandRequest.take : Run (Machine β) _).Keeps (OnBus (b.Spares kinds posts)) :=
    (Composed.take admits_sparing hclear).alone (bookkeeping_onBus extends_spares).carries
      fun _ _ h => h
  refine Run.follows_self fun s found t hs hrun => ⟨fun r hr => ?_, ?_⟩
  · -- the code that was read is the one that the invariant speaks of
    obtain ⟨hwired, hkinds⟩ := hposted s.bus hs
    obtain ⟨code, u, hread, hrest⟩ := Run.bind_eq_done.1 hrun
    obtain ⟨bus', hread, -⟩ := Machine.onBus_eq_done hread
    have hcode : code = b.ram s.bus requestKind := (b.read hwired hread).2.2 (.inr rfl)
    by_cases hzero : code = 0
    · rw [if_pos hzero] at hrest
      cases hrest
      cases hr
    rw [if_neg hzero] at hrest
    obtain ⟨_, v, -, hrest⟩ := Run.bind_eq_done.1 hrest
    cases hfound : CommandKind.ofRequest? code with
    | none =>
      rw [hfound] at hrest
      cases hrest
      cases hr
    | some kind =>
      rw [hfound] at hrest
      obtain ⟨opcode, _, -, hrest⟩ := Run.bind_eq_done.1 hrest
      obtain ⟨param, _, -, hrest⟩ := Run.bind_eq_done.1 hrest
      obtain ⟨tag, _, -, hrest⟩ := Run.bind_eq_done.1 hrest
      obtain ⟨address, _, -, hrest⟩ := Run.bind_eq_done.1 hrest
      cases hrest
      cases hr
      rw [hcode] at hfound
      exact hkinds kind hfound
  · exact keeps_of_spares hg hkeeps s found t hrun hs

/-- The command service carries out what is posted. -/
theorem commandService_follows (hserved : ∀ kind ∈ posts, kind ∈ kinds)
    (hposted : ∀ bus, g bus → b.wired bus ∧ b.Posted posts bus)
    {l l' : Linkage β} (hl : Linkage.Follows False (fun s => g s.bus) l l') (param : Option UInt8) :
    Run.FollowsIn False (fun s => g s.bus) (commandServiceRoutine l param)
      (commandServiceRoutine l' param) := by
  refine Run.follows_bind (take_follows hg hposted) fun found => ?_
  cases found with
  | none => exact Run.follows_pure fun s hs => hs.2
  | some request =>
    refine Run.follows_of_fact fun hkind => ?_
    have hexecute := followsIn_of_composed hg hl (composed_execute (hserved _ (hkind request rfl)))
    exact Run.follows_bind hexecute fun _ => Run.follows_pure fun _ hs => hs

end Invariant

/-- The routines that are not barred spare all kinds but the given ones. -/
def Sparing (b : EngineMemory β) (kinds posts : List CommandKind) (addrs : List CodeAddr)
    (image : CodeImage (Routine β)) : Prop :=
  ∀ placed ∈ image.routines, placed.addr ∉ addrs →
    placed.body.ComposedOf (Keeping (OnBus (b.Spares kinds posts)))

/-- With the routines barred that do not spare them, the firmware stays within what is spared,
whatever silent thing is run in front of its routines. -/
theorem checked_linkage_follows (h : Firmware.link image entries config = .ok fw)
    (hothers : b.Sparing kinds posts addrs image)
    (hserved : (∀ kind ∈ posts, kind ∈ kinds) ∨
      ∀ e ∈ entries, e.slot = .commandService → e.target ∈ addrs)
    (hg : ∀ bus bus', g bus → b.Spares kinds posts bus bus' → g bus')
    (hposted : ∀ bus, g bus → b.wired bus ∧ b.Posted posts bus) {check : Run (Machine β) Unit}
    (hcheck : ∀ s, g s.bus → check s = .done () s) (n : Nat) :
    Linkage.Follows False (fun s => g s.bus)
      (((fw.barring addrs).hooked fun _ => check).linkage n) ((fw.barring addrs).linkage n) := by
  refine (Firmware.checked_follows ?_ hcheck).linkage (bookkeeping_bus g) ?_ n
  · intro placed hplaced hbarred l l' param hl
    obtain ⟨-, -, himage, -⟩ := Firmware.link_eq_ok h
    rw [himage] at hplaced
    rcases CodeImage.mem_installCore hplaced with
      hown | ⟨e, he, haddr, ⟨-, hbody⟩ | ⟨hslot, hbody⟩⟩
    · exact followsIn_of_composed hg hl (hothers placed hown hbarred param)
    · rw [hbody]
      have hscan : Routine.ComposedOf (Keeping (OnBus (b.Spares kinds posts))) scanRoutine :=
        Composed.scanRoutine (admits_sparing.mono fun _ _ => sparingWrite_of_scanWrite)
      exact followsIn_of_composed hg hl (hscan param)
    · rcases hserved with hserved | hbars
      · rw [hbody]
        exact commandService_follows hg hserved hposted hl param
      · rw [haddr] at hbarred
        exact absurd (hbars e he hslot) hbarred
  · intro line l l' hl
    have hroute : Admits (Keeping (OnBus (b.Spares kinds posts))) RouteWrite :=
      admits_sparing.mono fun _ _ => sparingWrite_of_routeWrite
    exact followsIn_of_composed hg hl (.route hroute line)

end EngineMemory

end BankedController
