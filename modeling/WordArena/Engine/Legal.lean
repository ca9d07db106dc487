import WordArena.Library.Slots
import WordArena.Engine.Placement

/-! What an accepted placement satisfies, stated on the canonical sorted list
it is committed and recorded with. Submitting that list again is accepted with
the same outcome, which is what replay relies on. -/
namespace WordArena.Engine

open Fallible WordArena.Lexicon

/-! Canonical letters. -/

theorem length_of_isUpper {text : String} (h : IsUpper text) :
    text.utf8ByteSize = text.toList.length := by
  refine Bytes.utf8ByteSize_of_basic fun c hc => ?_
  exact Nat.lt_of_le_of_lt (Ascii.isUpper_iff.mp (h c hc)).2 (by decide)

/-- A canonical token is a single basic letter. -/
theorem isPhysicalToken_of_canonical {platform : Platform} {profile token letter : String}
    (h : canonicalTileToken platform profile token = .ok letter) :
    isPhysicalToken letter = true := by
  simp only [canonicalTileToken, bind_eq_ok, mapErr_eq_ok, reject_eq_ok, not_not, pure_eq_ok] at h
  obtain ⟨key, hKey, -, hSize, rfl⟩ := h
  have hUpper := isUpper_of_normalizeKey hKey
  rw [length_of_isUpper hUpper, List.length_eq_one_iff] at hSize
  obtain ⟨c, hc⟩ := hSize
  exact isPhysicalToken_iff.mpr ⟨c, hUpper c (by rw [hc]; exact List.mem_singleton_self c), hc⟩

/-- Canonical tokens are fixed points of every supported profile. -/
theorem canonicalTileToken_self (platform : Platform) {profile letter : String}
    (hProfile : Supported profile) (h : isPhysicalToken letter = true) :
    canonicalTileToken platform profile letter = .ok letter := by
  obtain ⟨c, hc, hList⟩ := isPhysicalToken_iff.mp h
  have hUpper : IsUpper letter := by
    intro d hd
    rw [hList, List.mem_singleton] at hd
    rwa [hd]
  have hText : letter ≠ "" := by
    rintro rfl
    cases hList
  obtain ⟨key, hKey, hValue⟩ := normalizeKey_upper platform.tables hProfile hText hUpper
  simp only [canonicalTileToken, bind_eq_ok, mapErr_eq_ok, reject_eq_ok, not_not, pure_eq_ok]
  refine ⟨key, hKey, (), ?_, hValue⟩
  rw [hValue, length_of_isUpper hUpper, hList]
  rfl

/-! Ownership. -/

def Placement.withLetter (p : Placement) (letter : String) : Placement :=
  { p with tile := { p.tile with letter } }

/-- A canonical placement of an owned tile on a free square. -/
structure Owned (g : Game) (player : Player) (p : Placement) (t : PhysicalTile) : Prop where
  found : ((g.rack player).tiles.find? fun tile => tile.id = p.tileId) = some t
  inBounds : p.coordinate.inBounds boardSize boardSize = true
  letter : isPhysicalToken p.tile.letter = true
  face : assignmentMatches t p.tile = true
  free : g.state.tileAt p.coordinate = none

theorem Owned.mem {g : Game} {player : Player} {p : Placement} {t : PhysicalTile}
    (h : Owned g player p t) : t ∈ (g.rack player).tiles := List.mem_of_find?_eq_some h.found

theorem Owned.id {g : Game} {player : Player} {p : Placement} {t : PhysicalTile}
    (h : Owned g player p t) : t.id = p.tileId := by
  simpa using List.find?_some h.found

/-- A placement and its canonical spelling. -/
def Canonical (platform : Platform) (g : Game) (p q : Placement) : Prop :=
  ∃ letter, canonicalTileToken platform g.profile p.tile.letter = .ok letter ∧
    q = p.withLetter letter

theorem Canonical.kept {platform : Platform} {g : Game} {p q : Placement}
    (h : Canonical platform g p q) : q.tileId = p.tileId ∧ q.coordinate = p.coordinate := by
  obtain ⟨letter, -, rfl⟩ := h
  exact ⟨rfl, rfl⟩

section

variable {platform : Platform} {g : Game} {player : Player}

theorem validateOwnedPlacement_eq_ok {owned next : OwnedPlacements} {p : Placement} :
    g.validateOwnedPlacement platform player owned p = .ok next ↔
      ∃ q t, p.tileId ∉ owned.placements.map (·.tileId) ∧ Canonical platform g p q ∧
        Owned g player q t ∧ next = ⟨owned.placements ++ [q], owned.played ++ [t]⟩ := by
  simp only [Game.validateOwnedPlacement, validateAssignment, bind_eq_ok, reject_eq_ok, okOr_eq_ok,
    not_not, pure_eq_ok, Option.not_isSome_iff_eq_none]
  constructor
  · rintro ⟨-, hFresh, t, hFound, -, hBounds, letter, hLetter, -, hFace, -, hFree, rfl⟩
    exact ⟨p.withLetter letter, t, hFresh, ⟨letter, hLetter, rfl⟩,
      ⟨hFound, hBounds, isPhysicalToken_of_canonical hLetter, hFace, hFree⟩, rfl⟩
  · rintro ⟨_, t, hFresh, ⟨letter, hLetter, rfl⟩, hOwned, rfl⟩
    exact ⟨(), hFresh, t, hOwned.found, (), hOwned.inBounds, letter, hLetter, (), hOwned.face, (),
      hOwned.free, rfl⟩

theorem foldlM_validateOwned_eq_ok {placements : List Placement} {owned next : OwnedPlacements} :
    placements.foldlM (g.validateOwnedPlacement platform player) owned = .ok next ↔
      ∃ qs ts, List.Forall₂ (Canonical platform g) placements qs ∧
        List.Forall₂ (Owned g player) qs ts ∧ (qs.map (·.tileId)).Nodup ∧
        (∀ q ∈ qs, q.tileId ∉ owned.placements.map (·.tileId)) ∧
        next = ⟨owned.placements ++ qs, owned.played ++ ts⟩ := by
  induction placements generalizing owned with
  | nil =>
      simp only [List.foldlM_nil, pure_eq_ok, List.forall₂_nil_left_iff]
      constructor
      · rintro rfl
        exact ⟨[], [], rfl, .nil, List.nodup_nil, by simp, by simp⟩
      · rintro ⟨_, _, rfl, hOwned, -, -, rfl⟩
        cases hOwned
        simp
  | cons p placements ih =>
      simp only [List.foldlM_cons, bind_eq_ok, validateOwnedPlacement_eq_ok, ih]
      constructor
      · rintro ⟨_, ⟨q, t, hFresh, hCanon, hOwned, rfl⟩, qs, ts, hCanons, hOwneds, hNodup, hFreshs,
          rfl⟩
        simp only [List.map_append, List.map_cons, List.map_nil, List.mem_append, not_or,
          List.mem_singleton] at hFreshs
        refine ⟨q :: qs, t :: ts, .cons hCanon hCanons, .cons hOwned hOwneds, ?_, ?_, by simp⟩
        · rw [List.map_cons, List.nodup_cons]
          refine ⟨fun hMem => ?_, hNodup⟩
          obtain ⟨other, hOther, hEq⟩ := List.mem_map.mp hMem
          exact (hFreshs other hOther).2 hEq
        · rw [List.forall_mem_cons, hCanon.kept.1]
          exact ⟨hFresh, fun other hOther => (hFreshs other hOther).1⟩
      · rintro ⟨_, _, hCanons, hOwneds, hNodup, hFreshs, rfl⟩
        obtain ⟨q, qs, hCanon, hCanonRest, rfl⟩ := List.forall₂_cons_left_iff.mp hCanons
        obtain ⟨t, ts, hOwned, hOwnedRest, rfl⟩ := List.forall₂_cons_left_iff.mp hOwneds
        rw [List.forall_mem_cons] at hFreshs
        rw [List.map_cons, List.nodup_cons] at hNodup
        refine ⟨_, ⟨q, t, hCanon.kept.1 ▸ hFreshs.1, hCanon, hOwned, rfl⟩, qs, ts, hCanonRest,
          hOwnedRest, hNodup.2, fun other hOther => ?_, by simp⟩
        simp only [List.map_append, List.map_cons, List.map_nil, List.mem_append, not_or,
          List.mem_singleton]
        exact ⟨hFreshs.2 other hOther, fun hEq => hNodup.1 (hEq ▸ List.mem_map_of_mem hOther)⟩

/-- Ownership is checked placement by placement, with distinct tiles. -/
theorem validateOwnedPlacements_eq_ok {placements : List Placement} {owned : OwnedPlacements} :
    g.validateOwnedPlacements platform player placements = .ok owned ↔
      List.Forall₂ (Canonical platform g) placements owned.placements ∧
        List.Forall₂ (Owned g player) owned.placements owned.played ∧
        (owned.placements.map (·.tileId)).Nodup := by
  rw [Game.validateOwnedPlacements, foldlM_validateOwned_eq_ok]
  constructor
  · rintro ⟨qs, ts, hCanon, hOwned, hNodup, -, rfl⟩
    exact ⟨hCanon, hOwned, hNodup⟩
  · rintro ⟨hCanon, hOwned, hNodup⟩
    exact ⟨owned.placements, owned.played, hCanon, hOwned, hNodup, by simp, rfl⟩

/-- Canonical placements stay as they are when they are submitted again. -/
theorem canonical_self (hProfile : Supported g.profile) {p : Placement} {t : PhysicalTile}
    (h : Owned g player p t) : Canonical platform g p p :=
  ⟨p.tile.letter, canonicalTileToken_self platform hProfile h.letter, rfl⟩

end

theorem validateUniqueCoordinates_eq_ok {placements : List Placement} {u : Unit} :
    validateUniqueCoordinates placements = .ok u ↔ (placements.map (·.coordinate)).Nodup := by
  rw [List.nodup_iff_count_le_one]
  simp only [validateUniqueCoordinates]
  constructor
  · intro h
    split at h
    · cases h
    · rename_i hNone
      intro c
      by_cases hc : c ∈ placements.map (·.coordinate)
      · have := List.find?_eq_none.mp hNone c hc
        simpa using this
      · rw [List.count_eq_zero_of_not_mem hc]
        exact Nat.zero_le 1
  · intro h
    split
    · rename_i c hSome
      have := List.find?_some hSome
      simp only [decide_eq_true_eq] at this
      exact absurd (h c) (by omega)
    · rfl

/-! Orientation. -/

theorem orientation_eq_of_length {placements : List Placement} (h : placements.length ≠ 1) :
    orientation placements =
      match placements.all (fun p => some p.coordinate.row ==
          (placements.head?.map (·.coordinate)).map (·.row)),
        placements.all (fun p => some p.coordinate.column ==
          (placements.head?.map (·.coordinate)).map (·.column)) with
      | true, false => .ok .horizontal
      | false, true => .ok .vertical
      | _, _ => .error .notAligned := by
  unfold orientation
  split
  · exact absurd rfl h
  · rfl

/-- A field agrees with the first one exactly when it is constant. -/
theorem all_eq_head_iff {β : Type} [DecidableEq β] {placements : List Placement}
    {field : Coordinate → β} :
    (placements.all fun p => some (field p.coordinate) ==
      (placements.head?.map (·.coordinate)).map field) = true ↔
      ∀ p ∈ placements, ∀ q ∈ placements, field p.coordinate = field q.coordinate := by
  cases placements with
  | nil => simp
  | cons first rest =>
      simp only [List.head?_cons, Option.map_some, List.all_eq_true, beq_iff_eq, Option.some.injEq]
      constructor
      · intro h p hp q hq
        rw [h p hp, h q hq]
      · intro h p hp
        exact h p hp first List.mem_cons_self

/-- The orientation does not depend on the order of submission. -/
theorem orientation_perm {xs ys : List Placement} (h : xs.Perm ys) :
    orientation xs = orientation ys := by
  by_cases hLength : xs.length = 1
  · obtain ⟨p, rfl⟩ := List.length_eq_one_iff.mp hLength
    rw [List.perm_singleton.mp h.symm]
  · have hAll : ∀ {β : Type} [DecidableEq β] (field : Coordinate → β),
        (xs.all fun p => some (field p.coordinate) ==
          (xs.head?.map (·.coordinate)).map field) =
        (ys.all fun p => some (field p.coordinate) ==
          (ys.head?.map (·.coordinate)).map field) := by
      intro β _ field
      rw [Bool.eq_iff_iff, all_eq_head_iff, all_eq_head_iff]
      simp only [h.mem_iff]
    rw [orientation_eq_of_length hLength, orientation_eq_of_length (h.length_eq ▸ hLength),
      hAll (·.row), hAll (·.column)]

/-! The whole placement. -/

/-- A committed placement: canonical letters, sorted along its line. -/
structure Legal (platform : Platform) (g : Game) (player : Player) (m : PreparedMove)
    (o : Orientation) : Prop where
  nonempty : m.placements ≠ []
  ids : (m.placements.map (·.tileId)).Nodup
  coordinates : (m.placements.map (·.coordinate)).Nodup
  owned : List.Forall₂ (Owned g player) m.placements m.played
  oriented : orientation m.placements = .ok o
  sorted : sortPlacements o m.placements = m.placements
  contiguous : g.validateContiguous m.placements o = .ok ()
  connected : g.validateConnection m.placements = .ok ()
  formed : g.formedWordCoordinates m.placements o ≠ []
  bingo : m.bingoBonus = g.bingoBonus m.placements
  scored : ∃ wordScore, (g.formedWordCoordinates m.placements o).foldlM
      (g.addWord platform m.placements) ([], 0) = .ok (m.words, wordScore) ∧
    m.score.toNat = wordScore.toNat + m.bingoBonus.toNat

section

variable {platform : Platform} {g : Game} {player : Player}

theorem Owned.unique {p : Placement} {t t' : PhysicalTile} (h : Owned g player p t)
    (h' : Owned g player p t') : t = t' := by
  have := h.found.symm.trans h'.found
  exact Option.some.inj this

/-- Looking up played tiles by identity finds the tile of each placement. -/
theorem find_played {placements : List Placement} {played : List PhysicalTile}
    (h : List.Forall₂ (Owned g player) placements played) {p : Placement} (hp : p ∈ placements) :
    ∃ t, (played.find? fun tile => tile.id = p.tileId) = some t ∧ Owned g player p t := by
  obtain ⟨t, ht, hOwned⟩ := Slots.exists_of_forall₂_left h hp
  cases hFind : played.find? fun tile => tile.id = p.tileId with
  | none =>
      have := List.find?_eq_none.mp hFind t ht
      exact absurd hOwned.id (by simpa using this)
  | some t' =>
      obtain ⟨p', -, hOwned'⟩ := Slots.exists_of_forall₂_right h (List.mem_of_find?_eq_some hFind)
      have hId : t'.id = p.tileId := by simpa using List.find?_some hFind
      have hSame : t' = t := by
        have hFound := hOwned'.found
        rw [← hOwned'.id, hId, hOwned.found] at hFound
        exact (Option.some.inj hFound).symm
      exact ⟨t', rfl, hSame ▸ hOwned⟩

theorem sortPlacements_perm (o : Orientation) (placements : List Placement) :
    (sortPlacements o placements).Perm placements := List.perm_insertionSort ..

theorem sortPlacements_sort (o : Orientation) (placements : List Placement) :
    sortPlacements o (sortPlacements o placements) = sortPlacements o placements := by
  have hTotal : Std.Total fun a b : Placement => o.key a.coordinate ≤ o.key b.coordinate :=
    ⟨fun a b => Nat.le_total _ _⟩
  have hTrans : IsTrans Placement fun a b => o.key a.coordinate ≤ o.key b.coordinate :=
    ⟨fun _ _ _ => Nat.le_trans⟩
  exact (List.pairwise_insertionSort _ _).insertionSort_eq

/-- An accepted submission is committed as a legal placement. -/
theorem legal_of_preparePlacement {placements : List Placement} {m : PreparedMove}
    (h : g.preparePlacement platform player placements = .ok m) :
    ∃ o, Legal platform g player m o := by
  simp only [Game.preparePlacement, bind_eq_ok, reject_eq_ok, validateOwnedPlacements_eq_ok,
    validateUniqueCoordinates_eq_ok, Prod.exists, okOr_eq_ok, Checked.addU32_eq_some,
    pure_eq_ok] at h
  obtain ⟨-, hNonempty, owned, ⟨hCanon, hOwned, hIds⟩, -, hUnique, o, hOriented, _, hContiguous, _,
    hConnected, -, hFormed, words, wordScore, hWords, score, hScore, rfl⟩ := h
  have hPerm := sortPlacements_perm o owned.placements
  refine ⟨o, ?_, (hPerm.map _).nodup_iff.mpr hIds, (hPerm.map _).nodup_iff.mpr hUnique, ?_, ?_,
    sortPlacements_sort o _, hContiguous, hConnected, hFormed, rfl, wordScore, hWords, hScore⟩
  · intro hEmpty
    change sortPlacements o owned.placements = [] at hEmpty
    rw [hEmpty] at hPerm
    have hNil : owned.placements = [] := List.nil_perm.mp hPerm
    rw [hNil] at hCanon
    cases hCanon
    exact hNonempty rfl
  · refine Slots.forall₂_filterMap fun p hp => ?_
    exact find_played hOwned (hPerm.mem_iff.mp hp)
  · rw [orientation_perm hPerm]
    exact hOriented

/-- A legal placement is accepted as it stands, with the same outcome. -/
theorem preparePlacement_of_legal {m : PreparedMove} {o : Orientation}
    (hProfile : Supported g.profile) (h : Legal platform g player m o) :
    g.preparePlacement platform player m.placements = .ok m := by
  obtain ⟨wordScore, hWords, hScore⟩ := h.scored
  have hCanon : List.Forall₂ (Canonical platform g) m.placements m.placements := by
    refine List.forall₂_same.mpr fun p hp => ?_
    obtain ⟨t, -, hOwned⟩ := Slots.exists_of_forall₂_left h.owned hp
    exact canonical_self hProfile hOwned
  have hPlayed : (m.placements.filterMap fun p => m.played.find? fun tile => tile.id = p.tileId) =
      m.played :=
    Slots.forall₂_unique (r := Owned g player) (fun _ _ _ => Owned.unique)
      (Slots.forall₂_filterMap fun _ hp => find_played h.owned hp) h.owned
  simp only [Game.preparePlacement, bind_eq_ok, reject_eq_ok, validateOwnedPlacements_eq_ok,
    validateUniqueCoordinates_eq_ok, Prod.exists, okOr_eq_ok, Checked.addU32_eq_some,
    pure_eq_ok]
  refine ⟨(), h.nonempty, ⟨m.placements, m.played⟩, ⟨hCanon, h.owned, h.ids⟩, (), h.coordinates, o,
    h.oriented, (), ?_⟩
  simp only [h.sorted]
  exact ⟨h.contiguous, (), h.connected, (), h.formed, m.words, wordScore, hWords, m.score,
    by rw [hScore, h.bingo], by rw [hPlayed, ← h.bingo]⟩

end

end WordArena.Engine
