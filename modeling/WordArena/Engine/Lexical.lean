import WordArena.Engine.Line
import WordArena.Engine.Progress

/-! Every word on the board is in the dictionary. Only the words of the latest
placement are looked up; they are exactly the maximal runs that contain a new
tile, and every other run was there before. -/
namespace WordArena.Engine

open Fallible WordArena.Lexicon

/-- The letters of a run of squares, in order. -/
def PublicGameState.spell (state : PublicGameState) (run : List Coordinate) : String :=
  run.foldl (fun text c => text ++ ((state.tileAt c).map (·.letter)).getD "") ""

/-- A key that the dictionary of a game contains. -/
def Game.Accepts (platform : Platform) (g : Game) (text : String) : Prop :=
  ∃ key, normalizeKey platform.tables g.profile text = .ok key ∧ g.lexicon.contains key = true

/-! Looked-up words. -/

section

variable {platform : Platform} {g : Game} {proposed : List Placement}

theorem foldlM_tallySquare_text {run : List Coordinate} {tally final : WordTally}
    (h : run.foldlM (g.tallySquare proposed) tally = .ok final) :
    final.text = run.foldl (fun text c =>
      text ++ ((g.tileWithProposed proposed c).map TileRef.letter).getD "") tally.text := by
  induction run generalizing tally with
  | nil =>
      cases pure_eq_ok.mp h
      rfl
  | cons c run ih =>
      rw [List.foldlM_cons, bind_eq_ok] at h
      obtain ⟨mid, hStep, hRest⟩ := h
      rw [ih hRest, List.foldl_cons]
      congr 1
      unfold Game.tallySquare at hStep
      cases hTile : g.tileWithProposed proposed c with
      | none =>
          simp only [hTile] at hStep
          cases hStep
          simp
      | some tile =>
          simp only [hTile, bind_eq_ok, pure_eq_ok] at hStep
          obtain ⟨_, -, _, -, _, -, rfl⟩ := hStep
          rfl

theorem foldlM_addWord_valid {runs : List (List Coordinate)} {sofar final : List FormedWord × UInt32}
    (h : runs.foldlM (g.addWord platform proposed) sofar = .ok final) {run : List Coordinate}
    (hRun : run ∈ runs) : ∃ word, g.validateWord platform proposed run = .ok word := by
  induction runs generalizing sofar with
  | nil => cases hRun
  | cons head runs ih =>
      rw [List.foldlM_cons, bind_eq_ok] at h
      obtain ⟨mid, hStep, hRest⟩ := h
      rcases List.mem_cons.mp hRun with rfl | hRun
      · rw [Game.addWord, bind_eq_ok] at hStep
        obtain ⟨word, hWord, -⟩ := hStep
        exact ⟨word, hWord⟩
      · exact ih hRest hRun

/-- A validated word is one the dictionary contains. -/
theorem accepts_of_validateWord {run : List Coordinate} {word : FormedWord}
    (h : g.validateWord platform proposed run = .ok word) :
    g.Accepts platform (run.foldl (fun text c =>
      text ++ ((g.tileWithProposed proposed c).map TileRef.letter).getD "") "") := by
  simp only [Game.validateWord, bind_eq_ok, mapErr_eq_ok, reject_eq_ok, Bool.not_eq_false] at h
  obtain ⟨tally, hTally, key, hKey, -, hContains, -⟩ := h
  rw [foldlM_tallySquare_text hTally] at hKey
  exact ⟨key, hKey, hContains⟩

/-! Candidate words. -/

theorem mem_wordSegments_main {o : Orientation} {axis : Axis} {first : Placement}
    (hAxis : o.axis = some axis) (hFirst : proposed.head? = some first) :
    g.wordSegment proposed first.coordinate axis.rowStep axis.columnStep ∈
      g.wordSegments proposed o := by
  cases o with
  | horizontal =>
      cases hAxis
      simp [Game.wordSegments, hFirst, Axis.rowStep, Axis.columnStep]
  | vertical =>
      cases hAxis
      simp [Game.wordSegments, hFirst, Axis.rowStep, Axis.columnStep]
  | single => cases hAxis

theorem mem_wordSegments_cross {o : Orientation} {axis : Axis} {p : Placement}
    (hAxis : o.axis = some axis) (hp : p ∈ proposed) :
    g.wordSegment proposed p.coordinate axis.cross.rowStep axis.cross.columnStep ∈
      g.wordSegments proposed o := by
  have hFirst := List.head?_eq_some_head (List.ne_nil_of_mem hp)
  cases o with
  | horizontal =>
      cases hAxis
      simp only [Game.wordSegments, hFirst, Axis.cross, Axis.rowStep, Axis.columnStep]
      exact List.mem_cons_of_mem _ (List.mem_map_of_mem hp)
  | vertical =>
      cases hAxis
      simp only [Game.wordSegments, hFirst, Axis.cross, Axis.rowStep, Axis.columnStep]
      exact List.mem_cons_of_mem _ (List.mem_map_of_mem hp)
  | single => cases hAxis

theorem mem_wordSegments_single {p : Placement} {run : List Coordinate} :
    run ∈ g.wordSegments [p] .single ↔
      ∃ axis : Axis, run = g.wordSegment [p] p.coordinate axis.rowStep axis.columnStep := by
  simp only [Game.wordSegments, List.head?_cons, List.mem_cons, List.not_mem_nil, or_false]
  constructor
  · rintro (h | h)
    · exact ⟨.horizontal, h⟩
    · exact ⟨.vertical, h⟩
  · rintro ⟨axis, h⟩
    cases axis with
    | horizontal => exact .inl h
    | vertical => exact .inr h

theorem mem_formedWordCoordinates {o : Orientation} {run : List Coordinate} :
    run ∈ g.formedWordCoordinates proposed o ↔
      run ∈ g.wordSegments proposed o ∧ 2 ≤ run.length := by
  simp [Game.formedWordCoordinates]

end

/-! Runs through new tiles. -/

/-- A maximal run reaches back along squares that stay in the set. -/
theorem first_mem_of_segment {axis : Axis} {S : Set Coordinate} {run : List Coordinate}
    (hRun : Runs.Maximal axis.Next S run) {first c : Coordinate} (hc : c ∈ run)
    (hAcross : axis.across c = axis.across first) (hAlong : axis.along first ≤ axis.along c)
    (hSegment : ∀ d ∈ axis.segment first c, d ∈ S) : first ∈ run := by
  obtain ⟨n, hn⟩ := Nat.le.dest hAlong
  induction n generalizing c with
  | zero =>
      have hSame : first = c := axis.ext hAcross.symm (by omega)
      rwa [hSame]
  | succ n ih =>
      have hLt := axis.along_lt c
      have hPrevious : axis.along (axis.square (axis.across first) (axis.along first + n)) =
          axis.along first + n := axis.along_square (by omega)
      have hLine : axis.across (axis.square (axis.across first) (axis.along first + n)) =
          axis.across first := axis.across_square (axis.across_lt first)
      generalize axis.square (axis.across first) (axis.along first + n) = d at hPrevious hLine
      have hMem : d ∈ S := hSegment d (Axis.mem_segment.mpr ⟨hLine, by omega, by omega⟩)
      have hNext : axis.Next d c := axis.next_iff.mpr ⟨by omega, by omega⟩
      refine ih (hRun.previous_mem axis.linear hc hNext hMem) hLine (by omega) ?_ (by omega)
      intro e he
      obtain ⟨hAcrossE, hLow, hHigh⟩ := Axis.mem_segment.mp he
      exact hSegment e (Axis.mem_segment.mpr ⟨hAcrossE, hLow, by omega⟩)

theorem Axis.eq_or_eq_cross (axis main : Axis) : axis = main ∨ axis = main.cross := by
  cases axis <;> cases main <;> simp [Axis.cross]

/-! Runs on the squares that will be occupied. -/

/-- The squares the source walks: old tiles and proposed ones. -/
def Game.covered (g : Game) (proposed : List Placement) : Set Coordinate :=
  { c | c.inBounds boardSize boardSize = true ∧ (g.tileWithProposed proposed c).isSome = true }

theorem covered_maximal {g : Game} {proposed : List Placement} (axis : Axis) {c : Coordinate}
    (hc : c ∈ g.covered proposed) :
    Runs.Maximal axis.Next (g.covered proposed)
        (g.wordSegment proposed c axis.rowStep axis.columnStep) ∧
      c ∈ g.wordSegment proposed c axis.rowStep axis.columnStep :=
  Engine.segment_maximal (fun _ => Iff.rfl) axis hc

theorem tileWithProposed_isSome {g : Game} {proposed : List Placement} {p : Placement}
    (hp : p ∈ proposed) : (g.tileWithProposed proposed p.coordinate).isSome = true := by
  unfold Game.tileWithProposed
  cases hFind : proposed.find? fun q => q.coordinate = p.coordinate with
  | some q => rfl
  | none => exact absurd (decide_eq_true rfl) (List.find?_eq_none.mp hFind p hp)

namespace Laid

variable {g : Game} {placements : List Placement} {o : Orientation}

theorem placed_mem (h : Laid g placements o) {p : Placement} (hp : p ∈ placements) :
    p.coordinate ∈ g.covered placements :=
  ⟨h.bounds p hp, tileWithProposed_isSome hp⟩

/-- Along the axis of the placement a run through any new tile passes through
the first one. -/
theorem first_mem (h : Laid g placements o) {axis : Axis} (hAxis : o.axis = some axis)
    {first : Placement} (hFirst : placements.head? = some first) {p : Placement}
    (hp : p ∈ placements) {run : List Coordinate}
    (hRun : Runs.Maximal axis.Next (g.covered placements) run) (hMem : p.coordinate ∈ run) :
    first.coordinate ∈ run := by
  obtain ⟨first', last, hHead, -, hLastMem, -, hSegment, hOccupied⟩ := h.line hAxis
  rw [hFirst, Option.some.injEq] at hHead
  subst hHead
  obtain ⟨hAcross, hLow, hHigh⟩ := Axis.mem_segment.mp (hSegment p hp)
  refine first_mem_of_segment hRun hMem hAcross hLow fun d hd => ?_
  obtain ⟨hAcrossD, hLowD, hHighD⟩ := Axis.mem_segment.mp hd
  refine ⟨?_, hOccupied d (Axis.mem_segment.mpr ⟨hAcrossD, hLowD, by omega⟩)⟩
  -- A square between two squares of the board is on the board.
  have hFirstBounds := Coordinate.inBounds_iff.mp (h.bounds first (List.mem_of_mem_head? hFirst))
  have hPBounds := Coordinate.inBounds_iff.mp (h.bounds p hp)
  rw [Coordinate.inBounds_iff]
  cases axis <;> simp only [Axis.across, Axis.along] at hAcrossD hHighD <;> omega

/-- Every run of two or more squares through a new tile is looked up. -/
theorem run_formed (h : Laid g placements o) {axis : Axis} {run : List Coordinate}
    (hRun : Runs.Maximal axis.Next (g.covered placements) run) (hTwo : 2 ≤ run.length)
    {p : Placement} (hp : p ∈ placements) (hMem : p.coordinate ∈ run) :
    run ∈ g.formedWordCoordinates placements o := by
  refine mem_formedWordCoordinates.mpr ⟨?_, hTwo⟩
  cases hAxis : o.axis with
  | some main =>
      rcases axis.eq_or_eq_cross main with rfl | rfl
      · obtain ⟨first, -, hFirst, hFirstMem, -⟩ := h.line hAxis
        have hOnRun := h.first_mem hAxis hFirst hp hRun hMem
        obtain ⟨hMax, hSelf⟩ := covered_maximal axis (h.placed_mem hFirstMem)
        rw [hRun.unique axis.linear hMax hOnRun hSelf]
        exact mem_wordSegments_main hAxis hFirst
      · obtain ⟨hMax, hSelf⟩ := covered_maximal main.cross (h.placed_mem hp)
        rw [hRun.unique main.cross.linear hMax hMem hSelf]
        exact mem_wordSegments_cross hAxis hp
  | none =>
      obtain ⟨hSingle, q, hq⟩ := orientation_no_axis h.oriented hAxis
      obtain ⟨hMax, hSelf⟩ := covered_maximal axis (h.placed_mem hp)
      have hSame : p = q := by
        rw [hq] at hp
        exact List.mem_singleton.mp hp
      rw [hRun.unique axis.linear hMax hMem hSelf, hSingle, hq, hSame]
      exact mem_wordSegments_single.mpr ⟨axis, rfl⟩

end Laid

section

variable {platform : Platform} {g : Game} {player : Player} {m : PreparedMove} {o : Orientation}
  {state : PublicGameState} (h : Legal platform g player m o) (hShape : Shape g)
  (hBoard : state.board = placeOnBoard g.state.board m.placements)

include h hShape hBoard

theorem Legal.occupied_eq : state.occupied = g.covered m.placements :=
  Set.ext (h.mem_occupied hShape hBoard)

theorem Legal.segment_maximal (axis : Axis) {c : Coordinate} (hc : c ∈ state.occupied) :
    Runs.Maximal axis.Next state.occupied
        (g.wordSegment m.placements c axis.rowStep axis.columnStep) ∧
      c ∈ g.wordSegment m.placements c axis.rowStep axis.columnStep := by
  rw [h.occupied_eq hShape hBoard] at hc ⊢
  exact covered_maximal axis hc

theorem Legal.placed_mem {p : Placement} (hp : p ∈ m.placements) :
    p.coordinate ∈ state.occupied := by
  rw [h.occupied_eq hShape hBoard]
  exact h.laid.placed_mem hp

/-- Along the axis of the placement a run through any new tile passes through
the first one. -/
theorem Legal.first_mem {axis : Axis} (hAxis : o.axis = some axis) {first : Placement}
    (hFirst : m.placements.head? = some first) {p : Placement} (hp : p ∈ m.placements)
    {run : List Coordinate} (hRun : Runs.Maximal axis.Next state.occupied run)
    (hMem : p.coordinate ∈ run) : first.coordinate ∈ run := by
  rw [h.occupied_eq hShape hBoard] at hRun
  exact h.laid.first_mem hAxis hFirst hp hRun hMem

/-- Every run of two or more squares through a new tile is looked up. -/
theorem Legal.run_formed {axis : Axis} {run : List Coordinate}
    (hRun : Runs.Maximal axis.Next state.occupied run) (hTwo : 2 ≤ run.length) {p : Placement}
    (hp : p ∈ m.placements) (hMem : p.coordinate ∈ run) :
    run ∈ g.formedWordCoordinates m.placements o := by
  rw [h.occupied_eq hShape hBoard] at hRun
  exact h.laid.run_formed hRun hTwo hp hMem

/-- Every new tile lies in a run of two or more squares. -/
theorem Legal.new_covered {p : Placement} (hp : p ∈ m.placements) :
    ∃ (axis : Axis) (run : List Coordinate), Runs.Maximal axis.Next state.occupied run ∧
      2 ≤ run.length ∧ p.coordinate ∈ run := by
  cases hAxis : o.axis with
  | some axis =>
      obtain ⟨first, last, hFirst, hFirstMem, hLastMem, hSpread, -⟩ := h.line hAxis
      obtain ⟨hMax, hSelf⟩ := h.segment_maximal hShape hBoard axis (h.placed_mem hShape hBoard hp)
      obtain ⟨hLastMax, hLastSelf⟩ :=
        h.segment_maximal hShape hBoard axis (h.placed_mem hShape hBoard hLastMem)
      have hFirstRun := h.first_mem hShape hBoard hAxis hFirst hp hMax hSelf
      have hLastRun := h.first_mem hShape hBoard hAxis hFirst hLastMem hLastMax hLastSelf
      have hSame := hMax.unique axis.linear hLastMax hFirstRun hLastRun
      have hNe : first.coordinate ≠ last.coordinate := fun hEq => by
        rw [hEq] at hSpread
        exact lt_irrefl _ hSpread
      exact ⟨axis, _, hMax, Runs.two_le_length hFirstRun (hSame ▸ hLastSelf) hNe, hSelf⟩
  | none =>
      obtain ⟨hSingle, q, hq⟩ := orientation_no_axis h.oriented hAxis
      obtain ⟨run, hFormed⟩ := List.exists_mem_of_ne_nil _ h.formed
      rw [mem_formedWordCoordinates, hSingle, hq, mem_wordSegments_single] at hFormed
      obtain ⟨⟨axis, hRun⟩, hTwo⟩ := hFormed
      have hSame : p = q := by
        rw [hq] at hp
        exact List.mem_singleton.mp hp
      obtain ⟨hMax, hSelf⟩ := h.segment_maximal hShape hBoard axis (h.placed_mem hShape hBoard hp)
      rw [hq, hSame, ← hRun] at hMax hSelf
      exact ⟨axis, run, hMax, hTwo, hSame ▸ hSelf⟩

/-- A square that was in a run of two or more still is. -/
theorem Legal.old_covered {axis : Axis} {run : List Coordinate}
    (hRun : Runs.Maximal axis.Next g.state.occupied run) (hTwo : 2 ≤ run.length) {c : Coordinate}
    (hc : c ∈ run) :
    ∃ run, Runs.Maximal axis.Next state.occupied run ∧ 2 ≤ run.length ∧ c ∈ run := by
  have hSub : g.state.occupied ⊆ state.occupied := by
    rw [h.occupied_placed hShape hBoard]
    exact Set.subset_union_left
  obtain ⟨d, hd, hNext⟩ := Runs.exists_neighbor hRun.chain hTwo hc
  obtain ⟨hMax, hSelf⟩ := h.segment_maximal hShape hBoard axis (hSub (hRun.mem c hc))
  have hOther := hSub (hRun.mem d hd)
  have hNe : c ≠ d := by
    rintro rfl
    rw [or_self, axis.next_iff] at hNext
    omega
  rcases hNext with hNext | hNext
  · exact ⟨_, hMax, Runs.two_le_length hSelf (hMax.next_mem axis.linear hSelf hNext hOther) hNe,
      hSelf⟩
  · exact ⟨_, hMax, Runs.two_le_length hSelf (hMax.previous_mem axis.linear hSelf hNext hOther) hNe,
      hSelf⟩

/-- The committed board spells what the proposal spelled. -/
theorem Legal.spell_placed (run : List Coordinate) :
    state.spell run = run.foldl (fun text c =>
      text ++ ((g.tileWithProposed m.placements c).map TileRef.letter).getD "") "" := by
  unfold PublicGameState.spell
  congr 1
  funext text c
  rw [h.tileAt_placed hShape hBoard]
  cases g.tileWithProposed m.placements c with
  | none => rfl
  | some tile => simp [TileRef.boardTile_letter]

/-- Squares without a new tile show what they showed before. -/
theorem Legal.spell_old {run : List Coordinate}
    (hOld : ∀ c ∈ run, ∀ p ∈ m.placements, p.coordinate ≠ c) :
    state.spell run = g.state.spell run := by
  unfold PublicGameState.spell
  refine List.foldl_ext _ _ _ fun text c hc => ?_
  have hFind : (m.placements.find? fun p => p.coordinate = c) = none := by
    rw [List.find?_eq_none]
    intro p hp hEq
    exact hOld c hc p hp (by simpa using hEq)
  rw [h.tileAt_placed hShape hBoard, Game.tileWithProposed, hFind]
  cases g.state.tileAt c <;> rfl

end

/-! The invariant. -/

/-- Every run is a word, and every occupied square is part of one. -/
structure Lexical (platform : Platform) (g : Game) : Prop where
  words : ∀ (axis : Axis) (run : List Coordinate),
    Runs.Maximal axis.Next g.state.occupied run → 2 ≤ run.length →
      g.Accepts platform (g.state.spell run)
  covered : ∀ c ∈ g.state.occupied, ∃ (axis : Axis) (run : List Coordinate),
    Runs.Maximal axis.Next g.state.occupied run ∧ 2 ≤ run.length ∧ c ∈ run

theorem Lexical.place {platform : Platform} {g : Game} {player : Player} {d : PlacementStep}
    {placements : List Placement} (h : Lexical platform g) (hShape : Shape g)
    (valid : d.Valid platform g player placements) : Lexical platform (d.game g player) := by
  obtain ⟨o, hLegal⟩ := legal_of_preparePlacement valid.prepare
  have hBoard : d.final.board = placeOnBoard g.state.board d.prepared.placements :=
    valid.commit.final_board
  refine ⟨fun axis run hRun hTwo => ?_, fun c hc => ?_⟩
  · by_cases hNew : ∃ p ∈ d.prepared.placements, p.coordinate ∈ run
    · obtain ⟨p, hp, hMem⟩ := hNew
      have hFormed := hLegal.run_formed hShape hBoard hRun hTwo hp hMem
      obtain ⟨_, hWords, -⟩ := hLegal.scored
      obtain ⟨word, hWord⟩ := foldlM_addWord_valid hWords hFormed
      have hAccepts := accepts_of_validateWord hWord
      rw [← hLegal.spell_placed hShape hBoard] at hAccepts
      exact hAccepts
    · -- A run without new tiles is a run of the old board with the old letters.
      have hOld : ∀ c ∈ run, ∀ p ∈ d.prepared.placements, p.coordinate ≠ c := by
        rintro c hc p hp rfl
        exact hNew ⟨p, hp, hc⟩
      have hUnion := hLegal.occupied_placed hShape hBoard
      have hSub : g.state.occupied ⊆ d.final.occupied := by
        rw [hUnion]
        exact Set.subset_union_left
      have hBefore : Runs.Maximal axis.Next g.state.occupied run := by
        refine hRun.restrict hSub fun c hc => ?_
        have hMem : c ∈ d.final.occupied := hRun.mem c hc
        rw [hUnion] at hMem
        refine hMem.resolve_right ?_
        rintro ⟨p, hp, hSame⟩
        exact hOld c hc p hp hSame
      have hAccepts := h.words axis run hBefore hTwo
      rw [← hLegal.spell_old hShape hBoard hOld] at hAccepts
      exact hAccepts
  · have hMem : c ∈ d.final.occupied := hc
    rw [hLegal.occupied_placed hShape hBoard] at hMem
    rcases hMem with hOld | ⟨p, hp, rfl⟩
    · obtain ⟨axis, run, hRun, hTwo, hOn⟩ := h.covered c hOld
      exact ⟨axis, hLegal.old_covered hShape hBoard hRun hTwo hOn⟩
    · exact hLegal.new_covered hShape hBoard hp

/-- Actions that leave the board alone leave its words alone. -/
theorem Lexical.of_board {platform : Platform} {g g' : Game} (h : Lexical platform g)
    (hBoard : g'.state.board = g.state.board) (hRuleset : g'.ruleset = g.ruleset)
    (hLexicon : g'.lexicon = g.lexicon) : Lexical platform g' := by
  have hOccupied := occupied_congr hBoard
  have hTiles := tileAt_congr hBoard
  refine ⟨fun axis run hRun hTwo => ?_, ?_⟩
  · have hAccepts := h.words axis run (hOccupied ▸ hRun) hTwo
    rw [Game.Accepts, Game.profile, PublicGameState.spell] at hAccepts ⊢
    rwa [hTiles, hRuleset, hLexicon]
  · rw [hOccupied]
    exact h.covered

theorem Reachable.lexical {platform : Platform} {g : Game} (h : Reachable platform g) :
    Lexical platform g := by
  refine Reachable.invariant (Lexical platform) ?_ ?_ h
  · intro d gameId ruleset seed mode playerCount _
    have hEmpty : (d.state platform gameId ruleset mode playerCount).occupied = ∅ :=
      occupied_fresh rfl
    refine ⟨fun axis run hRun hTwo => ?_, fun c hc => ?_⟩
    · obtain ⟨c, hc⟩ := List.exists_mem_of_length_pos (by omega : 0 < run.length)
      have hMem : c ∈ (d.state platform gameId ruleset mode playerCount).occupied := hRun.mem c hc
      rw [hEmpty] at hMem
      cases hMem
    · change c ∈ (d.state platform gameId ruleset mode playerCount).occupied at hc
      rw [hEmpty] at hc
      cases hc
  · intro g player action g' event hReachable hLexical hAccepted
    cases hAccepted with
    | place d valid => exact hLexical.place hReachable.shape valid
    | exchange d valid => exact hLexical.of_board valid.commit.final_board rfl rfl
    | pass d valid => exact hLexical.of_board valid.commit.final_board rfl rfl
    | resign d valid => exact hLexical.of_board valid.commit.final_board rfl rfl

/-- After any history of requests, accepted or refused, every maximal run of
two or more occupied squares spells a word of the dictionary, and every
occupied square lies in such a run. -/
theorem history_words_accepted {platform : Platform} {gameId : String} {id : RulesetId}
    {validator : WordValidator} {seed : GameSeed} {mode : GameMode} {playerCount : Nat}
    {fresh : Game} (hCreate : Game.createWithModeAndPlayers platform gameId (Ruleset.builtin id)
      (some validator) seed mode playerCount = .ok fresh) (calls : List Call) :
    (∀ (axis : Axis) (run : List Coordinate),
      Runs.Maximal axis.Next ((engine platform).settleAll fresh calls).state.occupied run →
      2 ≤ run.length →
      ∃ key, normalizeKey platform.tables (Ruleset.builtin id).lexicon.normalization.profile
          (((engine platform).settleAll fresh calls).state.spell run) = .ok key ∧
        validator.contains key = true) ∧
    ∀ c ∈ ((engine platform).settleAll fresh calls).state.occupied,
      ∃ (axis : Axis) (run : List Coordinate),
        Runs.Maximal axis.Next ((engine platform).settleAll fresh calls).state.occupied run ∧
          2 ≤ run.length ∧ c ∈ run := by
  have hInitial : (engine platform).initial fresh := ⟨_, _, _, _, _, _, hCreate⟩
  have hLexical := Reachable.lexical (System.reachable_settleAll hInitial calls)
  obtain ⟨hRuleset, hLexicon, -⟩ := Run.kept (System.settleAll_run fresh calls)
  obtain ⟨d, hValidator, -, hFresh⟩ := createWithModeAndPlayers_eq_ok.mp hCreate
  rw [Option.some.injEq] at hValidator
  refine ⟨fun axis run hRun hTwo => ?_, hLexical.covered⟩
  have hAccepts := hLexical.words axis run hRun hTwo
  rw [Game.Accepts, Game.profile, hRuleset, hLexicon, hFresh] at hAccepts
  rw [hValidator]
  exact hFresh ▸ hAccepts

theorem hookTable_words_accepted :
    ∃ fresh, hookTable = .ok fresh ∧
      ∃ (axis : Axis) (run : List Coordinate),
        Runs.Maximal axis.Next ((engine basicPlatform).settleAll fresh hookCalls).state.occupied run ∧
          center ∈ run ∧
          ∃ key, normalizeKey basicPlatform.tables
              (Ruleset.builtin .englishV1).lexicon.normalization.profile
              (((engine basicPlatform).settleAll fresh hookCalls).state.spell run) = .ok key ∧
            hookValidator.contains key = true := by
  obtain ⟨fresh, hFresh, -, -, hCenter⟩ := hookTable_played
  obtain ⟨hWords, hCovered⟩ := history_words_accepted hFresh hookCalls
  obtain ⟨axis, run, hRun, hTwo, hMem⟩ := hCovered center hCenter
  exact ⟨fresh, hFresh, axis, run, hRun, hMem, hWords axis run hRun hTwo⟩

end WordArena.Engine
