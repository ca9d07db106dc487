import WordArena.Engine.Playable

/-! Words and points of a move, read off the boards before and after it. The source walks
one line per new tile and folds the premiums into one loop; the rules speak of maximal
runs, sums and products. -/
namespace WordArena.Engine

open Fallible WordArena.Lexicon

/-! The rules. -/

def GameEventKind.words : GameEventKind → List FormedWord
  | .movePlayed _ _ words _ _ _ _ _ _ _ _ _ => words
  | _ => []

/-- A maximal run of two or more squares after the move, one of them newly covered. -/
def NewWord (before after : PublicGameState) (run : List Coordinate) : Prop :=
  ∃ axis : Axis, Runs.Maximal axis.Next after.occupied run ∧ 2 ≤ run.length ∧
    ∃ c ∈ run, before.tileAt c = none

def Ruleset.premiumAt (ruleset : Ruleset) (c : Coordinate) : Premium :=
  ((ruleset.game.board.square c).map (·.premium)).getD .normal

def letterFactor : Premium → Nat
  | .doubleLetter => 2
  | .tripleLetter => 3
  | _ => 1

def wordFactor : Premium → Nat
  | .doubleWord => 2
  | .tripleWord => 3
  | _ => 1

def tilePoints (ruleset : Ruleset) (tile : BoardTile) : Nat :=
  if tile.isBlank then 0 else ((ruleset.letterValue tile.letter).getD 0).toNat

/-- Points of a square in a word. A premium counts when its square is newly covered. -/
def squarePoints (ruleset : Ruleset) (before after : PublicGameState) (c : Coordinate) : Nat :=
  ((after.tileAt c).map (tilePoints ruleset)).getD 0 *
    if before.tileAt c = none then letterFactor (ruleset.premiumAt c) else 1

def squareFactor (ruleset : Ruleset) (before : PublicGameState) (c : Coordinate) : Nat :=
  if before.tileAt c = none then wordFactor (ruleset.premiumAt c) else 1

def wordPoints (ruleset : Ruleset) (before after : PublicGameState) (run : List Coordinate) : Nat :=
  (run.map (squarePoints ruleset before after)).sum * (run.map (squareFactor ruleset before)).prod

/-! The loops of the source. -/

section

variable {platform : Platform} {g : Game} {proposed : List Placement}

theorem premiumLetter_toNat (premium : Premium) :
    (premiumLetter premium).toNat = letterFactor premium := by
  cases premium <;> rfl

theorem premiumWord_toNat (premium : Premium) : (premiumWord premium).toNat = wordFactor premium := by
  cases premium <;> rfl

/-- Points a square adds to the loop. -/
def Game.tallyPoints (g : Game) (proposed : List Placement) (c : Coordinate) : Nat :=
  ((g.tileWithProposed proposed c).map fun tile => tilePoints g.ruleset tile.boardTile).getD 0 *
    letterFactor (g.newPremium proposed c)

theorem tallySquare_points {tally next : WordTally} {c : Coordinate}
    (hTile : (g.tileWithProposed proposed c).isSome = true)
    (h : g.tallySquare proposed tally c = .ok next) :
    next.letterScore.toNat = tally.letterScore.toNat + g.tallyPoints proposed c ∧
      next.wordMultiplier.toNat =
        tally.wordMultiplier.toNat * wordFactor (g.newPremium proposed c) := by
  obtain ⟨tile, hFound⟩ := Option.isSome_iff_exists.mp hTile
  simp only [Game.tallySquare, hFound, bind_eq_ok, okOr_eq_ok, Checked.mulU32_eq_some,
    Checked.addU32_eq_some, pure_eq_ok] at h
  obtain ⟨value, hValue, multiplier, hMultiplier, score, hScore, rfl⟩ := h
  refine ⟨?_, by rw [hMultiplier, premiumWord_toNat]⟩
  rw [hScore, hValue, Game.tallyPoints, hFound, premiumLetter_toNat]
  congr 2
  simp only [Option.map_some, Option.getD_some, tilePoints]
  have hBlank : tile.boardTile.isBlank = tile.isBlank := by cases tile <;> rfl
  rw [hBlank, tile.boardTile_letter]
  split
  · rfl
  · exact UInt16.toNat_toUInt32 _

theorem foldlM_tallySquare_points {run : List Coordinate} {tally final : WordTally}
    (hTiles : ∀ c ∈ run, (g.tileWithProposed proposed c).isSome = true)
    (h : run.foldlM (g.tallySquare proposed) tally = .ok final) :
    final.letterScore.toNat = tally.letterScore.toNat + (run.map (g.tallyPoints proposed)).sum ∧
      final.wordMultiplier.toNat = tally.wordMultiplier.toNat *
        (run.map fun c => wordFactor (g.newPremium proposed c)).prod := by
  induction run generalizing tally with
  | nil =>
      cases pure_eq_ok.mp h
      exact ⟨rfl, (Nat.mul_one _).symm⟩
  | cons c run ih =>
      rw [List.forall_mem_cons] at hTiles
      rw [List.foldlM_cons, bind_eq_ok] at h
      obtain ⟨next, hStep, hRest⟩ := h
      obtain ⟨hLetters, hWord⟩ := tallySquare_points hTiles.1 hStep
      obtain ⟨hFinalLetters, hFinalWord⟩ := ih hTiles.2 hRest
      rw [List.map_cons, List.sum_cons, List.map_cons, List.prod_cons]
      exact ⟨by rw [hFinalLetters, hLetters, Nat.add_assoc],
        by rw [hFinalWord, hWord, Nat.mul_assoc]⟩

/-- A validated word records its run, its spelling and its score. -/
theorem validateWord_records {run : List Coordinate} {word : FormedWord}
    (hTiles : ∀ c ∈ run, (g.tileWithProposed proposed c).isSome = true)
    (h : g.validateWord platform proposed run = .ok word) :
    word.coordinates = run ∧
      word.text = run.foldl (fun text c =>
        text ++ ((g.tileWithProposed proposed c).map TileRef.letter).getD "") "" ∧
      word.score.toNat = (run.map (g.tallyPoints proposed)).sum *
        (run.map fun c => wordFactor (g.newPremium proposed c)).prod := by
  simp only [Game.validateWord, bind_eq_ok, okOr_eq_ok, Checked.mulU32_eq_some, pure_eq_ok] at h
  obtain ⟨tally, hTally, key, -, -, -, score, hScore, rfl⟩ := h
  obtain ⟨hLetters, hWord⟩ := foldlM_tallySquare_points hTiles hTally
  refine ⟨rfl, foldlM_tallySquare_text hTally, ?_⟩
  rw [hScore, hLetters, hWord]
  change (0 + _) * (1 * _) = _
  rw [Nat.zero_add, Nat.one_mul]

/-- The words are those of the runs, in order, and their scores add up. -/
theorem foldlM_addWord_records {runs : List (List Coordinate)}
    {sofar final : List FormedWord × UInt32}
    (h : runs.foldlM (g.addWord platform proposed) sofar = .ok final) :
    ∃ words, final.1 = sofar.1 ++ words ∧
      List.Forall₂ (fun run word => g.validateWord platform proposed run = .ok word) runs words ∧
      final.2.toNat = sofar.2.toNat + (words.map fun word => word.score.toNat).sum := by
  induction runs generalizing sofar with
  | nil =>
      cases pure_eq_ok.mp h
      exact ⟨[], (List.append_nil _).symm, .nil, rfl⟩
  | cons run runs ih =>
      rw [List.foldlM_cons, bind_eq_ok] at h
      obtain ⟨next, hStep, hRest⟩ := h
      simp only [Game.addWord, bind_eq_ok, okOr_eq_ok, Checked.addU32_eq_some, pure_eq_ok] at hStep
      obtain ⟨word, hWord, score, hScore, rfl⟩ := hStep
      obtain ⟨words, hFinal, hWords, hTotal⟩ := ih hRest
      refine ⟨word :: words, ?_, .cons hWord hWords, ?_⟩
      · rw [hFinal, List.append_assoc]
        rfl
      · rw [hTotal, hScore, List.map_cons, List.sum_cons, Nat.add_assoc]

end

/-! The boards before and after. -/

section

variable {platform : Platform} {g : Game} {player : Player} {m : PreparedMove} {o : Orientation}
  {state : PublicGameState} (h : Legal platform g player m o) (hShape : Shape g)
  (hBoard : state.board = placeOnBoard g.state.board m.placements)

include h

/-- New squares are those that were empty. -/
theorem Legal.free {p : Placement} (hp : p ∈ m.placements) : g.state.tileAt p.coordinate = none := by
  obtain ⟨_, -, hOwned⟩ := Slots.exists_of_forall₂_left h.owned hp
  exact hOwned.free

include hShape hBoard

theorem Legal.isNew_iff {c : Coordinate} (hc : c ∈ state.occupied) :
    isNew m.placements c = true ↔ g.state.tileAt c = none := by
  rw [isNew, List.any_eq_true]
  constructor
  · rintro ⟨p, hp, hSame⟩
    rw [← of_decide_eq_true hSame]
    exact h.free hp
  · intro hFree
    rw [h.occupied_placed hShape hBoard] at hc
    rcases hc with hOld | ⟨p, hp, rfl⟩
    · have hSome : (g.state.tileAt c).isSome = true := hOld
      rw [hFree] at hSome
      cases hSome
    · exact ⟨p, hp, decide_eq_true rfl⟩

theorem Legal.newPremium_eq {c : Coordinate} (hc : c ∈ state.occupied) :
    g.newPremium m.placements c =
      if g.state.tileAt c = none then g.ruleset.premiumAt c else .normal := by
  have hIff := h.isNew_iff hShape hBoard hc
  rw [isNew] at hIff
  by_cases hFree : g.state.tileAt c = none
  · rw [Game.newPremium, if_pos (hIff.mpr hFree), if_pos hFree, Ruleset.premiumAt]
    cases g.ruleset.game.board.square c <;> rfl
  · rw [Game.newPremium, if_neg fun hNew => hFree (hIff.mp hNew), if_neg hFree]

/-- The loop counts what the rules say. -/
theorem Legal.square_eq {c : Coordinate} (hc : c ∈ state.occupied) :
    g.tallyPoints m.placements c = squarePoints g.ruleset g.state state c ∧
      wordFactor (g.newPremium m.placements c) = squareFactor g.ruleset g.state c := by
  rw [Game.tallyPoints, h.newPremium_eq hShape hBoard hc, squarePoints, squareFactor,
    h.tileAt_placed hShape hBoard, Option.map_map]
  split <;> exact ⟨rfl, rfl⟩

theorem Legal.points_eq {run : List Coordinate} (hRun : ∀ c ∈ run, c ∈ state.occupied) :
    (run.map (g.tallyPoints m.placements)).sum *
        (run.map fun c => wordFactor (g.newPremium m.placements c)).prod =
      wordPoints g.ruleset g.state state run := by
  rw [wordPoints, List.map_congr_left fun c hc => (h.square_eq hShape hBoard (hRun c hc)).1,
    List.map_congr_left fun c hc => (h.square_eq hShape hBoard (hRun c hc)).2]

theorem Legal.newWord_iff {run : List Coordinate} :
    NewWord g.state state run ↔ run ∈ g.formedWordCoordinates m.placements o := by
  rw [h.laid.mem_formed_iff, Game.Makes, ← covered_eq h.laid.bounds, ← h.occupied_eq hShape hBoard,
    NewWord]
  refine exists_congr fun axis => and_congr_right fun hMax => and_congr_right fun _ => ⟨?_, ?_⟩
  · rintro ⟨c, hc, hFree⟩
    obtain ⟨p, hp, hSame⟩ := List.any_eq_true.mp
      ((h.isNew_iff hShape hBoard (hMax.mem c hc)).mpr hFree)
    exact ⟨p, hp, of_decide_eq_true hSame ▸ hc⟩
  · rintro ⟨p, hp, hMem⟩
    exact ⟨p.coordinate, hMem, h.free hp⟩

end

/-! The main word. -/

/-- The first word holds all new squares; of two words through a single new square it is the
one across. -/
def MainFirst (placements : List Placement) (runs : List (List Coordinate)) : Prop :=
  ∃ main others, runs = main :: others ∧ (∀ p ∈ placements, p.coordinate ∈ main) ∧
    (placements.length = 1 → ∀ run ∈ others, run.IsChain Axis.vertical.Next)

theorem Laid.mainFirst {g : Game} {placements : List Placement} {o : Orientation}
    (h : Laid g placements o) (hFormed : g.formedWordCoordinates placements o ≠ []) :
    MainFirst placements (g.formedWordCoordinates placements o) := by
  cases hAxis : o.axis with
  | some axis =>
      obtain ⟨first, last, hFirst, hFirstMem, hLastMem, hSpread, -⟩ := h.line hAxis
      have hAll : ∀ p ∈ placements,
          p.coordinate ∈ g.wordSegment placements first.coordinate axis.rowStep axis.columnStep := by
        intro p hp
        obtain ⟨hMax, hSelf⟩ := covered_maximal axis (h.placed_mem hp)
        obtain ⟨hMain, hMainSelf⟩ := covered_maximal axis (h.placed_mem hFirstMem)
        have hOn := h.first_mem hAxis hFirst hp hMax hSelf
        rw [hMain.unique axis.linear hMax hMainSelf hOn]
        exact hSelf
      have hTwo : 2 ≤ (g.wordSegment placements first.coordinate axis.rowStep
          axis.columnStep).length := by
        refine Runs.two_le_length (hAll first hFirstMem) (hAll last hLastMem) fun hSame => ?_
        rw [hSame] at hSpread
        exact lt_irrefl _ hSpread
      have hMany : placements.length ≠ 1 := by
        intro hOne
        obtain ⟨p, rfl⟩ := List.length_eq_one_iff.mp hOne
        rw [List.mem_singleton.mp hFirstMem, List.mem_singleton.mp hLastMem] at hSpread
        exact lt_irrefl _ hSpread
      obtain ⟨rest, hSegments⟩ : ∃ rest, g.wordSegments placements o =
          g.wordSegment placements first.coordinate axis.rowStep axis.columnStep :: rest := by
        cases o with
        | horizontal =>
            cases hAxis
            exact ⟨_, by simp only [Game.wordSegments, hFirst]; rfl⟩
        | vertical =>
            cases hAxis
            exact ⟨_, by simp only [Game.wordSegments, hFirst]; rfl⟩
        | single => cases hAxis
      rw [Game.formedWordCoordinates, hSegments, List.filter_cons, if_pos (decide_eq_true hTwo),
        List.eraseDups_cons]
      exact ⟨_, _, rfl, hAll, fun hOne => absurd hOne hMany⟩
  | none =>
      obtain ⟨rfl, p, rfl⟩ := orientation_no_axis h.oriented hAxis
      have hSelf : ∀ axis : Axis, p.coordinate ∈
          g.wordSegment [p] p.coordinate axis.rowStep axis.columnStep := fun axis =>
        (covered_maximal axis (h.placed_mem (List.mem_singleton_self p))).2
      have hDown : (g.wordSegment [p] p.coordinate 1 0).IsChain Axis.vertical.Next :=
        (covered_maximal .vertical (h.placed_mem (List.mem_singleton_self p))).1.chain
      have hSegments : g.wordSegments [p] .single =
          [g.wordSegment [p] p.coordinate 0 1, g.wordSegment [p] p.coordinate 1 0] := rfl
      rw [Game.formedWordCoordinates, hSegments] at hFormed ⊢
      by_cases hAcross : 2 ≤ (g.wordSegment [p] p.coordinate 0 1).length
      · rw [List.filter_cons, if_pos (decide_eq_true hAcross), List.eraseDups_cons]
        refine ⟨_, _, rfl, ?_, fun _ run hRun => ?_⟩
        · rw [List.forall_mem_singleton]
          exact hSelf .horizontal
        · have hRest := (List.mem_filter.mp (List.mem_filter.mp (List.mem_eraseDups.mp hRun)).1).1
          rw [List.mem_singleton.mp hRest]
          exact hDown
      · rw [List.filter_cons, if_neg (by rwa [decide_eq_true_eq])] at hFormed ⊢
        by_cases hTwo : 2 ≤ (g.wordSegment [p] p.coordinate 1 0).length
        · rw [List.filter_cons, if_pos (decide_eq_true hTwo), List.filter_nil, List.eraseDups_cons]
          refine ⟨_, _, rfl, ?_, fun _ run hRun => absurd hRun (by simp)⟩
          rw [List.forall_mem_singleton]
          exact hSelf .vertical
        · rw [List.filter_cons, if_neg (by rwa [decide_eq_true_eq])] at hFormed
          exact absurd rfl hFormed

/-- In every reachable game the words of an accepted placement are exactly the new words of
the board, the main word first, and its score is the sum of their points and the bonus
for a full rack. -/
theorem reachable_moves_scored {platform : Platform} {g g' : Game} (hReachable : Reachable platform g)
    {player : Player} {version : UInt64} {placements : List Placement} {event : GameEvent}
    (hPlay : g.playTiles platform player version placements = .ok (g', event)) :
    (event.kind.words.map (·.coordinates)).Nodup ∧
    (∀ run, run ∈ event.kind.words.map (·.coordinates) ↔ NewWord g.state g'.state run) ∧
    MainFirst placements (event.kind.words.map (·.coordinates)) ∧
    (∀ word ∈ event.kind.words, word.text = g'.state.spell word.coordinates ∧
      word.score.toNat = wordPoints g.ruleset g.state g'.state word.coordinates) ∧
    event.kind.points =
      (event.kind.words.map fun word =>
        wordPoints g.ruleset g.state g'.state word.coordinates).sum +
      if placements.length = g.ruleset.game.rackCapacity.toNat then g.ruleset.game.bingoBonus.toNat
      else 0 := by
  have hShape := hReachable.shape
  obtain ⟨-, d, valid, rfl, rfl⟩ := playTiles_eq_ok.mp hPlay
  obtain ⟨o, hLegal⟩ := legal_of_preparePlacement valid.prepare
  obtain ⟨qs, hCanon, hPerm⟩ := canonical_of_prepare valid.prepare
  have hBoard : d.final.board = placeOnBoard g.state.board d.prepared.placements :=
    valid.commit.final_board
  have hLength : d.prepared.placements.length = placements.length :=
    hPerm.length_eq.trans hCanon.length_eq.symm
  obtain ⟨wordScore, hWords, hScore⟩ := hLegal.scored
  obtain ⟨words, hRecorded, hEach, hTotal⟩ := foldlM_addWord_records hWords
  rw [List.nil_append] at hRecorded
  obtain rfl : d.prepared.words = words := hRecorded
  have hTiles : ∀ run ∈ g.formedWordCoordinates d.prepared.placements o, ∀ c ∈ run,
      c ∈ d.final.occupied := by
    intro run hRun
    obtain ⟨axis, hMax, -⟩ := (hLegal.newWord_iff hShape hBoard).mpr hRun
    exact hMax.mem
  have hRecords : ∀ run ∈ g.formedWordCoordinates d.prepared.placements o, ∀ word,
      g.validateWord platform d.prepared.placements run = .ok word →
        word.coordinates = run ∧ word.text = d.final.spell run ∧
          word.score.toNat = wordPoints g.ruleset g.state d.final run := by
    intro run hRun word hWord
    obtain ⟨hRunSame, hText, hPoints⟩ := validateWord_records (fun c hc =>
      ((hLegal.mem_occupied hShape hBoard c).mp (hTiles run hRun c hc)).2) hWord
    exact ⟨hRunSame, hText.trans (hLegal.spell_placed hShape hBoard run).symm,
      hPoints.trans (hLegal.points_eq hShape hBoard (hTiles run hRun))⟩
  have hRuns : d.prepared.words.map (·.coordinates) =
      g.formedWordCoordinates d.prepared.placements o :=
    Slots.map_of_forall₂ hEach fun run hRun word hWord => (hRecords run hRun word hWord).1
  have hWord : ∀ word ∈ d.prepared.words, word.text = d.final.spell word.coordinates ∧
      word.score.toNat = wordPoints g.ruleset g.state d.final word.coordinates := by
    intro word hMem
    obtain ⟨run, hRun, hValid⟩ := Slots.exists_of_forall₂_right hEach hMem
    obtain ⟨hSame, hRecord⟩ := hRecords run hRun word hValid
    rwa [hSame]
  change (d.prepared.words.map (·.coordinates)).Nodup ∧ (∀ run, run ∈ d.prepared.words.map
    (·.coordinates) ↔ NewWord g.state d.final run) ∧ MainFirst placements (d.prepared.words.map
      (·.coordinates)) ∧ (∀ word ∈ d.prepared.words, _) ∧ d.prepared.score.toNat =
        (d.prepared.words.map _).sum + _
  refine ⟨?_, fun run => ?_, ?_, hWord, ?_⟩
  · rw [hRuns]
    exact Slots.nodup_eraseDups _
  · rw [hRuns, hLegal.newWord_iff hShape hBoard]
  · rw [hRuns]
    obtain ⟨main, others, hSplit, hMain, hDown⟩ := hLegal.laid.mainFirst hLegal.formed
    refine ⟨main, others, hSplit, fun p hp => ?_, fun hOne => hDown (hLength.trans hOne)⟩
    obtain ⟨q, hq, hCanonical⟩ := Slots.exists_of_forall₂_left hCanon hp
    rw [← hCanonical.kept.2]
    exact hMain q (hPerm.mem_iff.mpr hq)
  · have hBonus : d.prepared.bingoBonus.toNat = if placements.length =
        g.ruleset.game.rackCapacity.toNat then g.ruleset.game.bingoBonus.toNat else 0 := by
      rw [hLegal.bingo, Game.bingoBonus, hLength]
      split
      · exact UInt16.toNat_toUInt32 _
      · rfl
    rw [hScore, hTotal, hBonus, List.map_congr_left fun word hMem => (hWord word hMem).2]
    change 0 + _ + _ = _
    rw [Nat.zero_add]
    rfl

theorem bake_scored : ∃ (g g' : Game) (event : GameEvent), Reachable basicPlatform g ∧
    (∀ run, run ∈ event.kind.words.map (·.coordinates) ↔ NewWord g.state g'.state run) := by
  obtain ⟨g, hReachable, -, g', event, hPlay⟩ := exists_baked
  exact ⟨g, g', event, hReachable, (reachable_moves_scored hReachable hPlay).2.1⟩

end WordArena.Engine
