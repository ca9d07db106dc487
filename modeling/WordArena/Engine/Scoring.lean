import WordArena.Engine.Lexical

/-! How much one placement can score. A word has at most fifteen squares, at
most seven of them new, and a placement forms at most eight words, so no sum
or product of the scoring loop leaves its width. -/
namespace WordArena.Engine

open Fallible WordArena.Lexicon

/-- A square covered by one of the proposed tiles. -/
def isNew (proposed : List Placement) (c : Coordinate) : Bool :=
  proposed.any fun p => p.coordinate = c

/-- Number of new squares of a run. -/
def newCount (proposed : List Placement) (run : List Coordinate) : Nat :=
  run.countP (isNew proposed)

theorem premiumLetter_le (premium : Premium) : (premiumLetter premium).toNat ≤ 3 := by
  cases premium <;> decide

theorem premiumWord_bounds (premium : Premium) :
    1 ≤ (premiumWord premium).toNat ∧ (premiumWord premium).toNat ≤ 3 := by
  cases premium <;> decide

theorem newPremium_old {g : Game} {proposed : List Placement} {c : Coordinate}
    (h : isNew proposed c = false) : g.newPremium proposed c = .normal := by
  unfold isNew at h
  rw [Game.newPremium, h]
  rfl

section

variable {platform : Platform} {g : Game} {proposed : List Placement}
  (hBuiltin : g.ruleset = Ruleset.builtin g.ruleset.id)

include hBuiltin

theorem tileBase_le (tile : TileRef) :
    (if tile.isBlank then 0 else ((g.ruleset.letterValue tile.letter).getD 0).toUInt32 :
      UInt32).toNat ≤ 10 := by
  split
  · exact Nat.zero_le 10
  · cases hValue : g.ruleset.letterValue tile.letter with
    | none => exact Nat.zero_le 10
    | some value =>
        rw [hBuiltin] at hValue
        have hLe := builtin_letterValue_le hValue
        rw [Option.getD_some, UInt16.toNat_toUInt32]
        exact hLe

/-- One square adds at most thirty points and triples the word at most once. -/
theorem tallySquare_bound {tally : WordTally} {c : Coordinate} {letters news : Nat}
    (hLetters : tally.letterScore.toNat ≤ letters)
    (hWord : tally.wordMultiplier.toNat ≤ 3 ^ news) (hFits : letters + 30 < 2 ^ 32)
    (hNews : 3 ^ (news + if isNew proposed c then 1 else 0) < 2 ^ 32) :
    ∃ next, g.tallySquare proposed tally c = .ok next ∧
      next.letterScore.toNat ≤ letters + 30 ∧
      next.wordMultiplier.toNat ≤ 3 ^ (news + if isNew proposed c then 1 else 0) := by
  have hGrow : tally.wordMultiplier.toNat ≤ 3 ^ (news + if isNew proposed c then 1 else 0) :=
    hWord.trans (Nat.pow_le_pow_right (by decide) (Nat.le_add_right _ _))
  unfold Game.tallySquare
  cases hTile : g.tileWithProposed proposed c with
  | none => exact ⟨tally, rfl, by omega, hGrow⟩
  | some tile =>
      simp only [bind_eq_ok, okOr_eq_ok, Checked.mulU32_eq_some, Checked.addU32_eq_some, pure_eq_ok]
      have hBase := tileBase_le hBuiltin tile
      generalize (if tile.isBlank then 0 else
        ((g.ruleset.letterValue tile.letter).getD 0).toUInt32 : UInt32) = base at hBase ⊢
      have hPremium := premiumLetter_le (g.newPremium proposed c)
      have hValue : base.toNat * (premiumLetter (g.newPremium proposed c)).toNat ≤ 30 :=
        Nat.mul_le_mul hBase hPremium
      have hMultiplier : tally.wordMultiplier.toNat *
          (premiumWord (g.newPremium proposed c)).toNat ≤
            3 ^ (news + if isNew proposed c then 1 else 0) := by
        by_cases hNew : isNew proposed c = true
        · rw [if_pos hNew, Nat.pow_succ]
          exact Nat.mul_le_mul hWord (premiumWord_bounds _).2
        · rw [newPremium_old (Bool.not_eq_true _ ▸ hNew)]
          change tally.wordMultiplier.toNat * 1 ≤ _
          rw [Nat.mul_one]
          exact hGrow
      obtain ⟨value, hv⟩ : ∃ value : UInt32, value.toNat =
          base.toNat * (premiumLetter (g.newPremium proposed c)).toNat :=
        Checked.exists_u32 (by omega)
      obtain ⟨multiplier, hm⟩ : ∃ multiplier : UInt32, multiplier.toNat =
          tally.wordMultiplier.toNat * (premiumWord (g.newPremium proposed c)).toNat :=
        Checked.exists_u32 (by omega)
      obtain ⟨score, hs⟩ : ∃ score : UInt32, score.toNat =
          tally.letterScore.toNat + value.toNat :=
        Checked.exists_u32 (by omega)
      refine ⟨_, ⟨value, hv, multiplier, hm, score, hs, rfl⟩, ?_, ?_⟩
      · simp only
        omega
      · simp only
        omega

/-- The tally of a whole run never overflows. -/
theorem foldlM_tallySquare_bound {run : List Coordinate} {tally : WordTally} {letters news : Nat}
    (hLetters : tally.letterScore.toNat ≤ letters)
    (hWord : tally.wordMultiplier.toNat ≤ 3 ^ news)
    (hFits : letters + 30 * run.length < 2 ^ 32)
    (hNews : 3 ^ (news + newCount proposed run) < 2 ^ 32) :
    ∃ final, run.foldlM (g.tallySquare proposed) tally = .ok final ∧
      final.letterScore.toNat ≤ letters + 30 * run.length ∧
      final.wordMultiplier.toNat ≤ 3 ^ (news + newCount proposed run) := by
  induction run generalizing tally letters news with
  | nil => exact ⟨tally, rfl, hLetters, hWord⟩
  | cons c run ih =>
      have hCount : news + newCount proposed (c :: run) =
          (news + if isNew proposed c then 1 else 0) + newCount proposed run := by
        rw [newCount, List.countP_cons, newCount]
        omega
      rw [hCount] at hNews ⊢
      rw [List.length_cons, Nat.mul_succ] at hFits ⊢
      have hStepNews : 3 ^ (news + if isNew proposed c then 1 else 0) < 2 ^ 32 :=
        (Nat.pow_le_pow_right (by decide) (Nat.le_add_right _ _)).trans_lt hNews
      obtain ⟨next, hStep, hNextLetters, hNextWord⟩ :=
        tallySquare_bound hBuiltin hLetters hWord (by omega) hStepNews
      obtain ⟨final, hRest, hFinalLetters, hFinalWord⟩ :=
        ih hNextLetters hNextWord (by omega) hNews
      refine ⟨final, ?_, by omega, hFinalWord⟩
      rw [List.foldlM_cons, bind_eq_ok]
      exact ⟨next, hStep, hRest⟩

/-- Points of one word: fifteen squares of thirty points, tripled seven times. -/
def wordLimit : Nat := 450 * 2187

theorem validateWord_bound {run : List Coordinate} (hLength : run.length ≤ 15)
    (hNews : newCount proposed run ≤ 7) :
    Avoids GameError.Internal (g.validateWord platform proposed run) ∧
      ∀ word, g.validateWord platform proposed run = .ok word → word.score.toNat ≤ wordLimit := by
  have hPow : 3 ^ (0 + newCount proposed run) ≤ 2187 := by
    rw [Nat.zero_add]
    exact Nat.pow_le_pow_right (by decide) hNews
  obtain ⟨tally, hTally, hLetters, hWord⟩ := @foldlM_tallySquare_bound g proposed hBuiltin run
    ⟨"", 0, 1⟩ 0 0 (le_refl 0) (le_refl 1) (by omega) (by omega)
  have hProduct : tally.letterScore.toNat * tally.wordMultiplier.toNat ≤ 450 * 2187 :=
    Nat.mul_le_mul (by omega) (hWord.trans hPow)
  constructor
  · refine (Avoids.of_ok hTally).bind fun found hFound => ?_
    rw [hTally, Except.ok.injEq] at hFound
    subst hFound
    refine Avoids.bind (avoids_mapErr fun _ h => h) fun key _ => ?_
    refine Avoids.bind (avoids_reject fun h => h) fun _ _ => ?_
    obtain ⟨score, hScore⟩ : ∃ score : UInt32, score.toNat =
        tally.letterScore.toNat * tally.wordMultiplier.toNat :=
      Checked.exists_u32 (by omega)
    refine Avoids.bind (Avoids.of_ok (okOr_eq_ok.mpr (Checked.mulU32_eq_some.mpr hScore)))
      fun _ _ => avoids_pure _
  · intro word h
    simp only [Game.validateWord, bind_eq_ok, hTally, Except.ok.injEq, okOr_eq_ok,
      Checked.mulU32_eq_some, pure_eq_ok] at h
    obtain ⟨_, rfl, key, -, -, -, score, hScore, rfl⟩ := h
    simp only
    rw [hScore]
    exact hProduct

/-- The words of a placement add up without overflow. -/
theorem foldlM_addWord_bound {runs : List (List Coordinate)} {sofar : List FormedWord × UInt32}
    {total : Nat} (hRuns : ∀ run ∈ runs, run.length ≤ 15 ∧ newCount proposed run ≤ 7)
    (hTotal : sofar.2.toNat ≤ total) (hFits : total + wordLimit * runs.length < 2 ^ 32) :
    Avoids GameError.Internal (runs.foldlM (g.addWord platform proposed) sofar) ∧
      ∀ final, runs.foldlM (g.addWord platform proposed) sofar = .ok final →
        final.2.toNat ≤ total + wordLimit * runs.length := by
  induction runs generalizing sofar total with
  | nil =>
      refine ⟨avoids_pure _, fun final h => ?_⟩
      cases pure_eq_ok.mp h
      exact hTotal
  | cons run runs ih =>
      rw [List.forall_mem_cons] at hRuns
      rw [List.length_cons, Nat.mul_succ] at hFits ⊢
      obtain ⟨hAvoids, hScore⟩ := @validateWord_bound platform g proposed hBuiltin run hRuns.1.1
        hRuns.1.2
      have hStep : Avoids GameError.Internal (g.addWord platform proposed sofar run) := by
        refine hAvoids.bind fun word hWord => ?_
        have hWordScore := hScore word hWord
        obtain ⟨sum, hSum⟩ : ∃ sum : UInt32, sum.toNat = sofar.2.toNat + word.score.toNat :=
          Checked.exists_u32 (by omega)
        exact Avoids.bind (Avoids.of_ok (okOr_eq_ok.mpr (Checked.addU32_eq_some.mpr hSum)))
          fun _ _ => avoids_pure _
      have hNext : ∀ next, g.addWord platform proposed sofar run = .ok next →
          next.2.toNat ≤ total + wordLimit := by
        intro next h
        simp only [Game.addWord, bind_eq_ok, okOr_eq_ok, Checked.addU32_eq_some, pure_eq_ok] at h
        obtain ⟨word, hWord, sum, hSum, rfl⟩ := h
        have := hScore word hWord
        simp only
        omega
      rw [List.foldlM_cons]
      constructor
      · exact hStep.bind fun next hOk => (ih hRuns.2 (hNext next hOk) (by omega)).1
      · intro final h
        obtain ⟨next, hOk, hRest⟩ := bind_eq_ok.mp h
        have := (ih hRuns.2 (hNext next hOk) (by omega)).2 final hRest
        omega

end

/-! Candidate words of a placement. -/

theorem walkForward_length (occupied : Coordinate → Bool) (rowStep columnStep : Int) (fuel : Nat)
    (row column : Int) :
    (walkForward occupied rowStep columnStep fuel row column).length ≤ fuel := by
  induction fuel generalizing row column with
  | zero => exact Nat.zero_le 0
  | succ fuel ih =>
      rw [walkForward]
      split
      · split
        · exact Nat.succ_le_succ (ih _ _)
        · exact Nat.zero_le _
      · exact Nat.zero_le _

/-- Positions strictly increase along a run, so no square repeats. -/
theorem nodup_of_chain {axis : Axis} {run : List Coordinate} (h : run.IsChain axis.Next) :
    run.Nodup := by
  have hIncreasing : run.IsChain fun a b => axis.along a < axis.along b :=
    h.imp fun a b hNext => by
      rw [axis.next_iff] at hNext
      omega
  have hTrans : IsTrans Coordinate fun a b => axis.along a < axis.along b :=
    ⟨fun _ _ _ => Nat.lt_trans⟩
  refine (List.isChain_iff_pairwise.mp hIncreasing).imp fun hLt hEq => ?_
  rw [hEq] at hLt
  exact lt_irrefl _ hLt

section

variable {g : Game} {proposed : List Placement} {o : Orientation}

/-- Every candidate word is the walk through some new tile. -/
theorem exists_of_mem_wordSegments {run : List Coordinate} (h : run ∈ g.wordSegments proposed o) :
    ∃ p ∈ proposed, ∃ axis : Axis,
      run = g.wordSegment proposed p.coordinate axis.rowStep axis.columnStep := by
  unfold Game.wordSegments at h
  split at h
  · cases h
  · rename_i first hFirst
    have hMem := List.mem_of_mem_head? hFirst
    cases o with
    | horizontal =>
        rcases List.mem_cons.mp h with h | h
        · exact ⟨first, hMem, .horizontal, h⟩
        · obtain ⟨p, hp, h⟩ := List.mem_map.mp h
          exact ⟨p, hp, .vertical, h.symm⟩
    | vertical =>
        rcases List.mem_cons.mp h with h | h
        · exact ⟨first, hMem, .vertical, h⟩
        · obtain ⟨p, hp, h⟩ := List.mem_map.mp h
          exact ⟨p, hp, .horizontal, h.symm⟩
    | single =>
        rcases List.mem_cons.mp h with h | h
        · exact ⟨first, hMem, .horizontal, h⟩
        · exact ⟨first, hMem, .vertical, List.mem_singleton.mp h⟩

theorem length_formedWordCoordinates (hNonempty : proposed ≠ []) :
    (g.formedWordCoordinates proposed o).length ≤ proposed.length + 1 := by
  refine (Slots.length_eraseDups_le _).trans ((List.length_filter_le _ _).trans ?_)
  have hPos := List.length_pos_iff.mpr hNonempty
  unfold Game.wordSegments
  split
  · exact Nat.zero_le _
  · cases o with
    | horizontal => rw [List.length_cons, List.length_map]
    | vertical => rw [List.length_cons, List.length_map]
    | single =>
        rw [List.length_cons, List.length_singleton]
        omega

/-- A formed word fits on the board and covers each new square once. -/
theorem formedWord_bound (hBounds : ∀ p ∈ proposed, p.coordinate.inBounds boardSize boardSize = true)
    {run : List Coordinate} (h : run ∈ g.formedWordCoordinates proposed o) :
    run.length ≤ 15 ∧ newCount proposed run ≤ proposed.length := by
  obtain ⟨p, hp, axis, rfl⟩ := exists_of_mem_wordSegments (mem_formedWordCoordinates.mp h).1
  refine ⟨walkForward_length .., ?_⟩
  have hSelf : (g.tileWithProposed proposed p.coordinate).isSome = true := by
    unfold Game.tileWithProposed
    cases hFind : proposed.find? fun q => q.coordinate = p.coordinate with
    | some q => rfl
    | none => exact absurd (decide_eq_true rfl) (List.find?_eq_none.mp hFind p hp)
  have hMax := (@Engine.segment_maximal (fun c => (g.tileWithProposed proposed c).isSome)
    { c | c.inBounds boardSize boardSize = true ∧ (g.tileWithProposed proposed c).isSome = true }
    (fun _ => Iff.rfl) axis _ ⟨hBounds p hp, hSelf⟩).1
  have hNodup := nodup_of_chain hMax.chain
  rw [newCount, List.countP_eq_length_filter, ← List.length_map (f := Placement.coordinate)]
  refine (List.subperm_of_subset (hNodup.filter _) fun c hc => ?_).length_le
  have hNew := (List.mem_filter.mp hc).2
  obtain ⟨q, hq, hSame⟩ := List.any_eq_true.mp hNew
  exact List.mem_map.mpr ⟨q, hq, by simpa using hSame⟩

end

/-! The whole placement. -/

/-- The answers to a placement that the rules do not allow. -/
def GameError.Refusal : GameError → Prop
  | .emptyPlacement | .duplicatePlacementTile _ | .tileNotOwned _ | .coordinateOutOfBounds _
  | .normalization _ | .invalidTileToken _ _ | .tileFaceMismatch _ | .occupiedSquare _
  | .duplicateCoordinate _ | .notAligned | .notContiguous _ | .openingMoveMissesCenter
  | .disconnectedPlacement | .noWordFormed | .invalidWord _ _ => True
  | _ => False

theorem not_internal_of_refusal (e : GameError) (h : e.Refusal) : ¬ e.Internal := by
  cases e <;> first | exact id | exact absurd h id

section

variable {bad : GameError → Prop} (hBad : ∀ e : GameError, e.Refusal → ¬ bad e)

include hBad

theorem validateOwnedPlacements_avoids {platform : Platform} {g : Game} {player : Player}
    (placements : List Placement) :
    Avoids bad (g.validateOwnedPlacements platform player placements) := by
  refine avoids_foldlM fun owned p _ => ?_
  refine Avoids.bind (avoids_reject (hBad _ trivial)) fun _ _ => ?_
  refine Avoids.bind (avoids_okOr (hBad _ trivial)) fun _ _ => ?_
  refine Avoids.bind (avoids_reject (hBad _ trivial)) fun _ _ => ?_
  refine Avoids.bind ?_ fun _ _ => ?_
  · exact Avoids.bind (avoids_mapErr fun _ => hBad _ trivial) fun _ _ =>
      Avoids.bind (avoids_reject (hBad _ trivial)) fun _ _ => avoids_pure _
  refine Avoids.bind (avoids_reject (hBad _ trivial)) fun _ _ => ?_
  exact Avoids.bind (avoids_reject (hBad _ trivial)) fun _ _ => avoids_pure _

theorem validateUniqueCoordinates_avoids (placements : List Placement) :
    Avoids bad (validateUniqueCoordinates placements) := by
  intro e he
  simp only [validateUniqueCoordinates] at he
  split at he
  · cases he
    exact hBad _ trivial
  · cases he

theorem orientation_avoids (placements : List Placement) : Avoids bad (orientation placements) := by
  intro e he
  by_cases hLength : placements.length = 1
  · obtain ⟨p, rfl⟩ := List.length_eq_one_iff.mp hLength
    cases he
  · rw [orientation_eq_of_length hLength] at he
    split at he
    · cases he
    · cases he
    · cases he
      exact hBad _ trivial

theorem validateContiguous_avoids {g : Game} (placements : List Placement) (o : Orientation) :
    Avoids bad (g.validateContiguous placements o) := by
  unfold Game.validateContiguous
  split
  · exact avoids_forM fun _ _ => avoids_reject (hBad _ trivial)
  · exact Avoids.of_ok rfl

theorem validateConnection_avoids {g : Game} (placements : List Placement) :
    Avoids bad (g.validateConnection placements) := by
  unfold Game.validateConnection
  split
  · exact avoids_reject (hBad _ trivial)
  · exact avoids_reject (hBad _ trivial)

end

section

variable {platform : Platform} {g : Game} {player : Player}

/-- A rack never holds more than its capacity, whoever is asked about. -/
theorem Filled.rack_length (h : Filled g) (hShape : Shape g) (player : Player) :
    (g.rack player).tiles.length ≤ 7 := by
  by_cases hSeat : player.index < g.racks.length
  · have hCapacity := h.capacity _ (rack_mem hSeat)
    rwa [hShape.rackCapacity] at hCapacity
  · rw [Game.rack, List.getD_eq_getElem?_getD, List.getElem?_eq_none (Nat.le_of_not_lt hSeat)]
    exact Nat.zero_le 7

/-- A placement uses distinct tiles of one rack. -/
theorem owned_length {placements : List Placement} {played : List PhysicalTile}
    (hIds : (placements.map (·.tileId)).Nodup)
    (hOwned : List.Forall₂ (Owned g player) placements played) :
    placements.length ≤ (g.rack player).tiles.length := by
  have hSub : placements.map (·.tileId) ⊆ (g.rack player).tiles.map (·.id) := by
    intro id hId
    obtain ⟨p, hp, rfl⟩ := List.mem_map.mp hId
    obtain ⟨t, -, hp⟩ := Slots.exists_of_forall₂_left hOwned hp
    exact List.mem_map.mpr ⟨t, hp.mem, hp.id⟩
  simpa using (List.subperm_of_subset hIds hSub).length_le

/-- Points of one placement: eight words and the bonus. -/
def moveLimit : Nat := 8 * wordLimit + 50

theorem bingoBonus_le (hShape : Shape g) (placements : List Placement) :
    (g.bingoBonus placements).toNat ≤ 50 := by
  rw [Game.bingoBonus, hShape.bingoBonus]
  split
  · exact le_refl 50
  · exact Nat.zero_le 50

/-- Scoring a placement never overflows. -/
theorem preparePlacement_avoids (hShape : Shape g) (hFilled : Filled g)
    (placements : List Placement) :
    Avoids GameError.Internal (g.preparePlacement platform player placements) := by
  refine Avoids.bind (avoids_reject fun h => h) fun _ hNonempty => ?_
  have hBad := not_internal_of_refusal
  refine (validateOwnedPlacements_avoids hBad placements).bind fun owned hOwned => ?_
  refine (validateUniqueCoordinates_avoids hBad _).bind fun _ _ => ?_
  refine (orientation_avoids hBad _).bind fun o _ => ?_
  refine (validateContiguous_avoids hBad _ _).bind fun _ _ => ?_
  refine (validateConnection_avoids hBad _).bind fun _ _ => ?_
  refine Avoids.bind (avoids_reject fun h => h) fun _ hFormed => ?_
  rw [reject_eq_ok] at hFormed
  obtain ⟨-, hEach, hIds⟩ := validateOwnedPlacements_eq_ok.mp hOwned
  have hPerm := sortPlacements_perm o owned.placements
  generalize sortPlacements o owned.placements = sorted at hPerm hFormed ⊢
  have hLength : sorted.length ≤ 7 :=
    hPerm.length_eq.trans_le ((owned_length hIds hEach).trans (hFilled.rack_length hShape player))
  have hBounds : ∀ p ∈ sorted, p.coordinate.inBounds boardSize boardSize = true := by
    intro p hp
    obtain ⟨_, -, hOwnedP⟩ := Slots.exists_of_forall₂_left hEach (hPerm.mem_iff.mp hp)
    exact hOwnedP.inBounds
  have hRuns : ∀ run ∈ g.formedWordCoordinates sorted o,
      run.length ≤ 15 ∧ newCount sorted run ≤ 7 := by
    intro run hRun
    obtain ⟨hShort, hNews⟩ := formedWord_bound hBounds hRun
    exact ⟨hShort, hNews.trans hLength⟩
  have hSome : sorted ≠ [] := by
    rintro rfl
    exact hFormed rfl
  have hCount := @length_formedWordCoordinates g sorted o hSome
  have hEight : wordLimit * (g.formedWordCoordinates sorted o).length ≤ wordLimit * 8 :=
    Nat.mul_le_mul_left _ (by omega)
  have hLimit : wordLimit = 984150 := rfl
  obtain ⟨hAvoids, hScore⟩ := @foldlM_addWord_bound platform g sorted hShape.builtin _ ([], 0) 0
    hRuns (le_refl 0) (by omega)
  refine hAvoids.bind fun result hResult => ?_
  have hWords := hScore result hResult
  have hBingo := bingoBonus_le hShape sorted
  obtain ⟨score, hSum⟩ : ∃ score : UInt32, score.toNat =
      result.2.toNat + (g.bingoBonus sorted).toNat :=
    Checked.exists_u32 (by omega)
  exact Avoids.bind (Avoids.of_ok (okOr_eq_ok.mpr (Checked.addU32_eq_some.mpr hSum)))
    fun _ _ => avoids_pure _

theorem Legal.score_le {m : PreparedMove} {o : Orientation} (h : Legal platform g player m o)
    (hShape : Shape g) (hFilled : Filled g) : m.score.toNat ≤ moveLimit := by
  have hLength : m.placements.length ≤ 7 :=
    (owned_length h.ids h.owned).trans (hFilled.rack_length hShape player)
  have hBounds : ∀ p ∈ m.placements, p.coordinate.inBounds boardSize boardSize = true := by
    intro p hp
    obtain ⟨_, hOwned⟩ := h.each hp
    exact hOwned.inBounds
  have hRuns : ∀ run ∈ g.formedWordCoordinates m.placements o,
      run.length ≤ 15 ∧ newCount m.placements run ≤ 7 := by
    intro run hRun
    obtain ⟨hShort, hNews⟩ := formedWord_bound hBounds hRun
    exact ⟨hShort, hNews.trans hLength⟩
  have hCount := @length_formedWordCoordinates g m.placements o h.nonempty
  have hEight : wordLimit * (g.formedWordCoordinates m.placements o).length ≤ wordLimit * 8 :=
    Nat.mul_le_mul_left _ (by omega)
  have hLimit : wordLimit = 984150 := rfl
  obtain ⟨wordScore, hWords, hScore⟩ := h.scored
  have hTotal := (@foldlM_addWord_bound platform g m.placements hShape.builtin _ ([], 0) 0 hRuns
    (le_refl 0) (by omega)).2 _ hWords
  have hBingo := bingoBonus_le hShape m.placements
  rw [← h.bingo] at hBingo
  simp only at hTotal
  rw [hScore, moveLimit]
  omega

end

end WordArena.Engine
