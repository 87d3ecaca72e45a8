import BankedController.Proofs.StubAddresses

/-! The routines of an image ascend by their places, whatever was placed and in whatever order. By
this invariant the image is the one list of the placements that succeeded in which common code comes
first, then the banks in turn. -/

namespace BankedController

namespace CodeAddr

variable {a b : CodeAddr} {bank bank' : Bank} {logical logical' : UInt16}

theorem ofLogical_of_lt (h : logical.toNat < 0x8000) :
    ofLogical bank logical = .common ⟨logical.toNat, h⟩ :=
  dif_pos h

theorem ofLogical_of_le (h : 0x8000 ≤ logical.toNat) : ofLogical bank logical =
    .banked bank ⟨logical.toNat - 0x8000, by have := logical.toNat_lt; omega⟩ :=
  dif_neg (Nat.not_lt.2 h)

theorem toNat_logical_common (m : Fin 0x8000) : (common m).logical.toNat = m := by
  have hlt := m.isLt
  rw [logical, UInt16.toNat_ofNat']
  exact Nat.mod_eq_of_lt (by omega)

theorem toNat_logical_banked (bank : Bank) (m : Fin 0x8000) :
    (banked bank m).logical.toNat = 0x8000 + m := by
  have hlt := m.isLt
  rw [logical, UInt16.toNat_ofNat']
  exact Nat.mod_eq_of_lt (by omega)

theorem logical_ofLogical (bank : Bank) (logical : UInt16) :
    (ofLogical bank logical).logical = logical := by
  apply UInt16.toNat_inj.1
  rcases Nat.lt_or_ge logical.toNat 0x8000 with hlow | hhigh
  · rw [ofLogical_of_lt hlow, toNat_logical_common]
  · rw [ofLogical_of_le hhigh, toNat_logical_banked]
    exact Nat.add_sub_of_le hhigh

/-- Two names are names of one place if they have one address and, in the window, one bank. -/
theorem ofLogical_eq_iff : ofLogical bank logical = ofLogical bank' logical' ↔
    logical = logical' ∧ (0x8000 ≤ logical' → bank = bank') := by
  constructor
  · intro hplace
    have hsame : logical = logical' := by
      rw [← logical_ofLogical bank logical, hplace, logical_ofLogical]
    subst hsame
    refine ⟨rfl, fun hwindow => ?_⟩
    have hhigh : 0x8000 ≤ logical.toNat := UInt16.le_iff_toNat_le.1 hwindow
    rw [ofLogical_of_le hhigh, ofLogical_of_le hhigh] at hplace
    exact (banked.inj hplace).1
  · rintro ⟨rfl, hbank⟩
    rcases Nat.lt_or_ge logical.toNat 0x8000 with hlow | hhigh
    · -- in common code the bank is not looked at
      rw [ofLogical_of_lt hlow, ofLogical_of_lt hlow]
    · rw [hbank (UInt16.le_iff_toNat_le.2 hhigh)]

/-- Within one region the processor sees the places in their order. -/
theorem logical_lt_iff (h : a.bank? = b.bank?) :
    a.logical < b.logical ↔ a.physical < b.physical := by
  rw [UInt16.lt_iff_toNat_lt]
  cases a with
  | common m =>
    cases b with
    | common n =>
      rw [toNat_logical_common, toNat_logical_common]
      exact Iff.rfl
    | banked bank n => cases h
  | banked bank m =>
    cases b with
    | common n => cases h
    | banked bank' n =>
      obtain rfl := Option.some.inj h
      rw [toNat_logical_banked, toNat_logical_banked]
      cases bank <;> simp [physical]

/-- Common code lies below the banks, and a bank below those with higher numbers. -/
theorem physical_lt_of_bank? (hb : b.bank? = some bank)
    (ha : ∀ bank', a.bank? = some bank' → bank'.number < bank.number) :
    a.physical < b.physical := by
  rw [← before_iff]
  cases b with
  | common n => cases hb
  | banked own n =>
    obtain rfl := Option.some.inj hb
    cases a with
    | common m => rfl
    | banked bank' m =>
      have hless : bank'.number < own.number := ha bank' rfl
      simp only [before, hless, decide_true, Bool.true_or]

end CodeAddr

/-- A routine that is to stand where the processor sees `logical` while `bank` is mapped. -/
structure Placement (ρ : Type) where
  name : String
  bank : Bank
  logical : UInt16
  body : ρ

namespace Placement

variable {ρ : Type}

/-- The routine at the place that is meant. -/
def placed (p : Placement ρ) : Placed ρ :=
  ⟨p.name, .ofLogical p.bank p.logical, p.body⟩

/-- Whether the processor reaches the placement at `logical` while `bank` is mapped. What stands in
common code is reached under either bank. -/
def ReachedAt (p : Placement ρ) (bank : Bank) (logical : UInt16) : Prop :=
  p.logical = logical ∧ (0x8000 ≤ logical → p.bank = bank)

theorem reachedAt_iff {p : Placement ρ} {bank : Bank} {logical : UInt16} :
    p.ReachedAt bank logical ↔ p.placed.addr = .ofLogical bank logical :=
  CodeAddr.ofLogical_eq_iff.symm

end Placement

namespace CodeImage

variable {ρ : Type} {image : CodeImage ρ} {history landings : List (Placement ρ)}
  {next : Placement ρ} {p q : Placed ρ} {rs rs' : List (Placed ρ)} {addr : CodeAddr}
  {c : Collision}

/-- The image after a placement. A collision leaves it as it was. -/
def offer (image : CodeImage ρ) (p : Placement ρ) : CodeImage ρ :=
  match image.place p.placed with
  | .ok image => image
  | .error _ => image

/-- The image after placements. -/
def offerAll (image : CodeImage ρ) (history : List (Placement ρ)) : CodeImage ρ :=
  history.foldl offer image

/-- Those of the placements that succeed when they are made one after the other. -/
def landed (image : CodeImage ρ) : List (Placement ρ) → List (Placement ρ)
  | [] => []
  | p :: rest =>
    match image.place p.placed with
    | .ok image => p :: landed image rest
    | .error _ => landed image rest

/-- Routines in the order of their places, no two of them at one place. -/
def Ascending (rs : List (Placed ρ)) : Prop :=
  rs.Pairwise fun p q => p.addr.physical < q.addr.physical

/-- What an image is once the placements in `landings` have succeeded, and no others. -/
structure Holds (image : CodeImage ρ) (landings : List (Placement ρ)) : Prop where
  /-- A placement collides exactly with one that succeeded at its address and, in the window, in
  its bank. -/
  collides : ∀ (next : Placement ρ) c, image.place next.placed = .error c ↔
    ∃ p ∈ landings, p.ReachedAt next.bank next.logical ∧ c = ⟨next.placed.addr, next.name, p.name⟩
  /-- The processor reaches exactly what was placed at the address in the mapped bank, or in common
  code. -/
  resolves : ∀ logical bank found, image.resolve logical bank = some found ↔
    ∃ p ∈ landings, p.ReachedAt bank logical ∧ p.placed = found
  /-- By its tagged address a routine is found as the processor reaches it. -/
  agrees : ∀ addr bank, (∀ b, addr.bank? = some b → b = bank) →
    image.get? addr = image.resolve addr.logical bank
  /-- Looking up a tagged address is looking up its place in the flat image. -/
  located : ∀ addr,
    image.get? addr = image.routines.find? fun q => q.addr.physical = addr.physical
  /-- Each placement that succeeded is listed once. -/
  listed : image.routines.Perm (landings.map Placement.placed)
  ordered : image.routines.Pairwise fun p q => p.addr.before q.addr
  ascending : Ascending image.routines

section Place

theorem place_of_free (h : image.get? p.addr = none) :
    image.place p = .ok ⟨insert p image.routines⟩ := by
  simp only [place, h]

theorem place_of_taken (h : image.get? p.addr = some q) :
    image.place p = .error ⟨p.addr, p.name, q.name⟩ := by
  simp only [place, h]

theorem place_eq_error_iff : image.place p = .error c ↔
    ∃ q, image.get? p.addr = some q ∧ c = ⟨p.addr, p.name, q.name⟩ := by
  cases hget : image.get? p.addr with
  | none => simp [place_of_free hget]
  | some q => simp [place_of_taken hget, eq_comm]

theorem offer_of_free (h : image.get? next.placed.addr = none) :
    image.offer next = ⟨insert next.placed image.routines⟩ := by
  simp only [offer, place_of_free h]

theorem offer_of_taken (h : image.get? next.placed.addr = some q) : image.offer next = image := by
  simp only [offer, place_of_taken h]

theorem landed_of_free (h : image.get? next.placed.addr = none) :
    landed image (next :: history) = next :: landed (image.offer next) history := by
  rw [offer_of_free h, landed, place_of_free h]

theorem landed_of_taken (h : image.get? next.placed.addr = some q) :
    landed image (next :: history) = landed (image.offer next) history := by
  rw [offer_of_taken h, landed, place_of_taken h]

theorem addr_ne_of_free (h : image.get? addr = none) : ∀ q ∈ image.routines, q.addr ≠ addr := by
  intro q hq hsame
  exact List.find?_eq_none.1 h q hq (decide_eq_true hsame)

/-- A placement fills its place if nothing stands there, and changes no other. -/
theorem get?_offer (image : CodeImage ρ) (next : Placement ρ) (addr : CodeAddr) :
    (image.offer next).get? addr =
      (image.get? addr).or (if next.placed.addr = addr then some next.placed else none) := by
  cases hget : image.get? next.placed.addr with
  | none =>
    rw [offer_of_free hget, get?_insert (addr_ne_of_free hget)]
    split
    next hsame => rw [← hsame, hget, Option.none_or]
    next => rw [Option.or_none]
  | some q =>
    rw [offer_of_taken hget]
    split
    next hsame => rw [← hsame, hget, Option.some_or]
    next => rw [Option.or_none]

/-- At each place stands the first routine that was put there. -/
theorem get?_offerAll (image : CodeImage ρ) (history : List (Placement ρ)) (addr : CodeAddr) :
    (image.offerAll history).get? addr =
      (image.get? addr).or
        ((history.find? fun p => p.placed.addr = addr).map Placement.placed) := by
  induction history generalizing image with
  | nil => exact Option.or_none.symm
  | cons next rest ih =>
    calc (image.offerAll (next :: rest)).get? addr
      _ = ((image.offer next).get? addr).or
            ((rest.find? fun p => p.placed.addr = addr).map Placement.placed) := ih _
      _ = (image.get? addr).or
            (((next :: rest).find? fun p => p.placed.addr = addr).map Placement.placed) := by
        rw [get?_offer, Option.or_assoc, List.find?_cons]
        by_cases hsame : next.placed.addr = addr
        · simp [hsame]
        · simp [hsame]

end Place

section Order

theorem perm_insert : (insert p rs).Perm (p :: rs) := by
  induction rs with
  | nil => exact .refl _
  | cons q rest ih =>
    unfold insert
    split
    · exact .refl _
    · exact (ih.cons q).trans (.swap p q rest)

/-- A routine with a place of its own is put where its place belongs. -/
theorem ascending_insert (hnew : ∀ q ∈ rs, q.addr ≠ p.addr) (h : Ascending rs) :
    Ascending (insert p rs) := by
  induction rs with
  | nil => exact List.pairwise_singleton _ _
  | cons q rest ih =>
    obtain ⟨hfirst, hrest⟩ := List.pairwise_cons.1 h
    unfold insert
    split
    next hbefore =>
      have hless : p.addr.physical < q.addr.physical := (CodeAddr.before_iff _ _).1 hbefore
      refine List.pairwise_cons.2 ⟨fun t ht => ?_, h⟩
      rcases List.mem_cons.1 ht with rfl | ht
      · exact hless
      · exact Nat.lt_trans hless (hfirst t ht)
    next hnot =>
      have hless : q.addr.physical < p.addr.physical := by
        have hapart : q.addr.physical ≠ p.addr.physical := fun hsame =>
          hnew q List.mem_cons_self (CodeAddr.physical_injective hsame)
        rw [CodeAddr.before_iff] at hnot
        omega
      refine List.pairwise_cons.2 ⟨fun t ht => ?_, ?_⟩
      · rcases mem_insert.1 ht with rfl | ht
        · exact hless
        · exact hfirst t ht
      · exact ih (fun t ht => hnew t (List.mem_cons_of_mem _ ht)) hrest

theorem ascending_offer (h : Ascending image.routines) (next : Placement ρ) :
    Ascending (image.offer next).routines := by
  cases hget : image.get? next.placed.addr with
  | none =>
    rw [offer_of_free hget]
    exact ascending_insert (addr_ne_of_free hget) h
  | some q => rwa [offer_of_taken hget]

theorem ascending_offerAll (h : Ascending image.routines) (history : List (Placement ρ)) :
    Ascending (image.offerAll history).routines := by
  induction history generalizing image with
  | nil => exact h
  | cons next rest ih => exact ih (ascending_offer h next)

/-- An image gains the placements that succeed, and loses nothing. -/
theorem perm_offerAll (image : CodeImage ρ) (history : List (Placement ρ)) :
    (image.offerAll history).routines.Perm
      ((landed image history).map Placement.placed ++ image.routines) := by
  induction history generalizing image with
  | nil => exact .refl _
  | cons next rest ih =>
    have hrest := ih (image.offer next)
    cases hget : image.get? next.placed.addr with
    | none =>
      rw [landed_of_free hget]
      apply hrest.trans
      rw [offer_of_free hget]
      exact (perm_insert.append_left _).trans List.perm_middle
    | some q =>
      rw [landed_of_taken hget]
      apply hrest.trans
      rw [offer_of_taken hget]

theorem Ascending.nodup (h : Ascending rs) : rs.Nodup :=
  h.imp fun hless hsame => absurd (hsame ▸ hless) (Nat.lt_irrefl _)

/-- No two routines of an image stand at one address. -/
theorem Ascending.addr_injective (h : Ascending rs) :
    ∀ p ∈ rs, ∀ q ∈ rs, p.addr = q.addr → p = q := by
  have hnodup : (rs.map Placed.addr).Nodup := by
    refine List.pairwise_map.2 (h.imp fun hless hsame => ?_)
    rw [hsame] at hless
    exact Nat.lt_irrefl _ hless
  exact fun p hp q hq => List.inj_on_of_nodup_map hnodup hp hq

theorem Ascending.get?_eq_some_iff (h : Ascending image.routines) :
    image.get? addr = some p ↔ p ∈ image.routines ∧ p.addr = addr :=
  find?_key_eq_some_iff h.addr_injective

/-- Routines stand in one order only. -/
theorem Ascending.eq_of_mem_iff (h : Ascending rs) (h' : Ascending rs')
    (hmem : ∀ p, p ∈ rs ↔ p ∈ rs') : rs = rs' := by
  have hperm : rs.Perm rs' := (List.perm_ext_iff_of_nodup h.nodup h'.nodup).2 hmem
  refine hperm.eq_of_pairwise ?_ h h'
  intro p q _ _ hless hgreater
  exact absurd hgreater (Nat.lt_asymm hless)

end Order

section Answers

/-- A look-up finds a routine that is listed, and each of these comes from a placement that
succeeded. -/
theorem resolve_eq_some_iff (h : Ascending image.routines)
    (hlisted : image.routines.Perm (landings.map Placement.placed)) {logical : UInt16}
    {bank : Bank} : image.resolve logical bank = some p ↔
      ∃ landing ∈ landings, landing.ReachedAt bank logical ∧ landing.placed = p := by
  rw [resolve, h.get?_eq_some_iff, hlisted.mem_iff, List.mem_map]
  constructor
  · rintro ⟨⟨landing, hmem, rfl⟩, haddr⟩
    exact ⟨landing, hmem, Placement.reachedAt_iff.2 haddr, rfl⟩
  · rintro ⟨landing, hmem, hreached, rfl⟩
    exact ⟨⟨landing, hmem, rfl⟩, Placement.reachedAt_iff.1 hreached⟩

theorem get?_eq_find?_physical (image : CodeImage ρ) (addr : CodeAddr) :
    image.get? addr = image.routines.find? fun q => q.addr.physical = addr.physical := by
  have hplace : ∀ q : Placed ρ, q.addr = addr ↔ q.addr.physical = addr.physical := fun q =>
    ⟨congrArg CodeAddr.physical, CodeAddr.physical_injective⟩
  simp only [get?, hplace]

/-- What an image answers follows from what it lists and from the order of its list. -/
theorem holds_of_listed (h : Ascending image.routines)
    (hlisted : image.routines.Perm (landings.map Placement.placed)) : image.Holds landings where
  collides next c := by
    have hresident : ∀ q, image.get? next.placed.addr = some q ↔
        ∃ p ∈ landings, p.ReachedAt next.bank next.logical ∧ p.placed = q := fun q =>
      resolve_eq_some_iff h hlisted
    rw [place_eq_error_iff]
    constructor
    · rintro ⟨q, hq, rfl⟩
      obtain ⟨p, hp, hreached, rfl⟩ := (hresident q).1 hq
      exact ⟨p, hp, hreached, rfl⟩
    · rintro ⟨p, hp, hreached, rfl⟩
      exact ⟨p.placed, (hresident p.placed).2 ⟨p, hp, hreached, rfl⟩, rfl⟩
  resolves logical bank found := resolve_eq_some_iff h hlisted
  agrees addr bank hbank := by rw [resolve, CodeAddr.ofLogical_logical bank addr hbank]
  located := get?_eq_find?_physical image
  listed := hlisted
  ordered := h.imp (CodeAddr.before_iff _ _).2
  ascending := h

end Answers

section Region

/-- The image of those placements alone that go to common code, or to one bank. -/
def region (history : List (Placement ρ)) (bank? : Option Bank) : CodeImage ρ :=
  offerAll empty (history.filter fun p => p.placed.addr.bank? = bank?)

/-- What stands in a region has been placed there, and all that has been placed there counts. -/
theorem get?_region (history : List (Placement ρ)) (bank? : Option Bank) (addr : CodeAddr) :
    (region history bank?).get? addr =
      if addr.bank? = bank? then (offerAll empty history).get? addr else none := by
  have hempty : (empty : CodeImage ρ).get? addr = none := rfl
  rw [region, get?_offerAll, get?_offerAll, hempty, Option.none_or, Option.none_or,
    List.find?_filter]
  split
  next hbank =>
    congr 2
    funext p
    by_cases hsame : p.placed.addr = addr
    · simp [hsame, hbank]
    · simp [hsame]
  next hbank =>
    rw [Option.map_eq_none_iff, List.find?_eq_none]
    rintro p - hfound
    simp only [decide_eq_true_eq] at hfound
    obtain ⟨hregion, rfl⟩ := hfound
    exact hbank hregion

theorem ascending_region (history : List (Placement ρ)) (bank? : Option Bank) :
    Ascending (region history bank?).routines :=
  ascending_offerAll .nil _

theorem mem_region {bank? : Option Bank} : p ∈ (region history bank?).routines ↔
    p ∈ (offerAll empty history).routines ∧ p.addr.bank? = bank? := by
  have hwhole : Ascending (offerAll empty history).routines := ascending_offerAll .nil history
  calc p ∈ (region history bank?).routines
    _ ↔ (region history bank?).get? p.addr = some p := by
      rw [(ascending_region history bank?).get?_eq_some_iff, and_iff_left rfl]
    _ ↔ (offerAll empty history).get? p.addr = some p ∧ p.addr.bank? = bank? := by
      rw [get?_region]
      split
      next hbank => exact (and_iff_left hbank).symm
      next hbank => exact iff_of_false (by simp) fun h => hbank h.2
    _ ↔ p ∈ (offerAll empty history).routines ∧ p.addr.bank? = bank? := by
      rw [hwhole.get?_eq_some_iff, and_iff_left rfl]

/-- An image lists its regions one after the other. -/
theorem routines_eq_regions (history : List (Placement ρ)) :
    (offerAll empty history).routines =
      (region history none).routines ++ (region history (some .bank0)).routines ++
        (region history (some .bank1)).routines := by
  have hcommon : ∀ bank, ∀ p ∈ (region history none).routines,
      ∀ q ∈ (region history (some bank)).routines, p.addr.physical < q.addr.physical := by
    intro bank p hp q hq
    refine CodeAddr.physical_lt_of_bank? (mem_region.1 hq).2 fun bank' hbank => ?_
    cases (mem_region.1 hp).2.symm.trans hbank
  have hbanks : ∀ p ∈ (region history (some .bank0)).routines,
      ∀ q ∈ (region history (some .bank1)).routines, p.addr.physical < q.addr.physical := by
    intro p hp q hq
    refine CodeAddr.physical_lt_of_bank? (mem_region.1 hq).2 fun bank' hbank => ?_
    cases (mem_region.1 hp).2.symm.trans hbank
    exact Nat.zero_lt_one
  have hlower := List.pairwise_append.2
    ⟨ascending_region history none, ascending_region history _, hcommon .bank0⟩
  -- both sides ascend, so that it is enough to compare what they list
  refine (ascending_offerAll .nil history).eq_of_mem_iff ?_ fun p => ?_
  · refine List.pairwise_append.2 ⟨hlower, ascending_region history _, fun p hp q hq => ?_⟩
    rcases List.mem_append.1 hp with hp | hp
    · exact hcommon .bank1 p hp q hq
    · exact hbanks p hp q hq
  · rw [List.mem_append, List.mem_append, mem_region, mem_region, mem_region]
    constructor
    · intro hp
      cases hbank : p.addr.bank? with
      | none => exact .inl (.inl ⟨hp, rfl⟩)
      | some bank =>
        cases bank with
        | bank0 => exact .inl (.inr ⟨hp, rfl⟩)
        | bank1 => exact .inr ⟨hp, rfl⟩
    · rintro ((hp | hp) | hp)
      · exact hp.1
      · exact hp.1
      · exact hp.1

theorem logical_ascending (history : List (Placement ρ)) (bank? : Option Bank) :
    (region history bank?).routines.Pairwise fun p q => p.addr.logical < q.addr.logical := by
  refine (ascending_region history bank?).imp_of_mem fun hp hq hless => ?_
  have hbank := (mem_region.1 hp).2.trans (mem_region.1 hq).2.symm
  exact (CodeAddr.logical_lt_iff hbank).2 hless

end Region

/-- However routines are placed, the image holds those whose placement succeeded: a placement
collides exactly with one of them at its address and in its bank, the processor reaches exactly the
one that stands in the mapped bank or in common code, and they are listed once each, in the order of
their places. Common code and the two banks are images of their own: what is reached in one of them
does not depend on what is placed into the others, and they are listed one after the other, each by
the addresses that the processor sees. -/
theorem placements_held (history : List (Placement ρ)) :
    let image := offerAll empty history
    image.Holds (landed empty history) ∧
      (∀ logical bank, image.resolve logical bank =
        (region history (CodeAddr.ofLogical bank logical).bank?).resolve logical bank) ∧
      image.routines = (region history none).routines ++
        (region history (some .bank0)).routines ++ (region history (some .bank1)).routines ∧
      ∀ bank?, (region history bank?).routines.Pairwise
        fun p q => p.addr.logical < q.addr.logical := by
  intro image
  have hlisted : image.routines.Perm ((landed empty history).map Placement.placed) := by
    have hperm := perm_offerAll empty history
    rwa [show (empty : CodeImage ρ).routines = [] from rfl, List.append_nil] at hperm
  refine ⟨holds_of_listed (ascending_offerAll .nil history) hlisted, fun logical bank => ?_,
    routines_eq_regions history, logical_ascending history⟩
  exact ((get?_region history _ _).trans (if_pos rfl)).symm

/-- Places on both sides of the window's base and in both banks: the one that is taken twice is
refused the second time, under whichever bank it is named. -/
example :
    let history : List (Placement Unit) := [⟨"erase", .bank1, 0x8000, ()⟩,
      ⟨"copy", .bank1, 0x7FFF, ()⟩, ⟨"fill", .bank0, 0x7FFF, ()⟩, ⟨"poll", .bank0, 0xFFFF, ()⟩,
      ⟨"scan", .bank0, 0x8000, ()⟩]
    (offerAll empty history).listing.map Prod.fst = ["copy", "scan", "poll", "erase"] := by
  decide

end CodeImage

end BankedController
