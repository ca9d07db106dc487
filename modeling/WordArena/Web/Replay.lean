import WordArena.Web.Views

/-! The replay viewer of the browser. It rebuilds the table from the fields that recorded events
happen to carry, and never asks the engine. -/
namespace WordArena.Web

open WordArena.Engine (Seat Score Game GamePhase Reachable Platform Accepted scoreOf boardSize)

section Viewer

/-- A number of the viewer is known by its value if it is an integer. -/
abbrev Numeral := Option Int

structure ReplayFrame where
  sequence : Int
  board : List (Option BoardTile)
  scores : List Numeral
  currentPlayer : Seat
  rackCounts : List Numeral
  bagCount : Int
  phase : GamePhase
  event : Option GameEvent

def text : Option Document → Option String
  | some (.string value) => some value
  | _ => none

def numeral : Document → Option Numeral
  | .number value => some value
  | _ => none

def playerNumbers (value : Option Document) : Option (List Numeral) := do
  let values ← array value
  require (2 ≤ values.length && values.length ≤ 4)
  values.mapM numeral

def present : Option Document → Bool
  | none => false
  | some .null => false
  | some _ => true

/-- The square and the tile of a placement that names both. -/
def placedTile (value : Document) : Option (Nat × BoardTile) := do
  let placement ← record value
  let coordinate ← (field placement "coordinate").bind record
  let tile ← (field placement "tile").bind record
  let row ← integer (field coordinate "row")
  let column ← integer (field coordinate "column")
  let tileId ← integer (field placement "tile_id")
  require (0 ≤ row && row < 15 && 0 ≤ column && column < 15)
  let letter ← text (field tile "letter")
  let isBlank ← boolean (field tile "is_blank")
  return ((row * 15 + column).toNat, ⟨tileId, letter, isBlank⟩)

def showPlacement (board : List (Option BoardTile)) (value : Document) : List (Option BoardTile) :=
  match placedTile value with
  | some (index, tile) => board.set index (some tile)
  | none => board

namespace ReplayFrame

def initial : ReplayFrame where
  sequence := -1
  board := List.replicate 225 none
  scores := [some 0, some 0]
  currentPlayer := .one
  rackCounts := [some 0, some 0]
  bagCount := 0
  phase := .active
  event := none

variable (frame : ReplayFrame) (kind : List (String × Document))

/-- What every event but a resignation says of the turn after it. -/
def turn : ReplayFrame := { frame with
  currentPlayer := (seat (field kind "next_player")).getD frame.currentPlayer
  phase := if present (field kind "result") then .finished else frame.phase }

/-- The private tiles, as far as they are counted in public. -/
def counts (racks bag : String) : ReplayFrame := { frame with
  rackCounts := (playerNumbers (field kind racks)).getD frame.rackCounts
  bagCount := (integer (field kind bag)).getD frame.bagCount }

def move : ReplayFrame := { frame with
  board := ((array (field kind "placements")).getD []).foldl showPlacement frame.board
  scores := (playerNumbers (field kind "scores_after")).getD frame.scores }

def resigned : ReplayFrame := { frame with
  scores := (playerNumbers (((field kind "result").bind record).bind (field · "scores"))).getD
    frame.scores
  phase := .finished }

/-- The part of an event that depends on its kind. -/
def shown : ReplayFrame :=
  let type := text (field kind "type")
  if type = some "created" then frame.counts kind "rack_counts" "bag_count"
  else if type = some "move_played" then
    ((frame.move kind).counts kind "rack_counts_after" "bag_count_after").turn kind
  else if type = some "passed" then frame.turn kind
  else if type = some "exchanged" then
    (frame.counts kind "rack_counts_after" "bag_count_after").turn kind
  else if type = some "resigned" then frame.resigned kind
  else frame

def next (event : GameEvent) : ReplayFrame :=
  { frame.shown event.kind with sequence := event.sequence, event := some event }

/-- The events up to a sequence. -/
def through (last : Int) : ReplayFrame → List GameEvent → ReplayFrame
  | frame, [] => frame
  | frame, event :: events =>
      if last < event.sequence then frame else (frame.next event).through last events

end ReplayFrame

def replayFrame (replay : ReplayBundle) (throughSequence : Int) : ReplayFrame :=
  ReplayFrame.initial.through throughSequence replay.events

end Viewer

section Reading

variable {α : Type}

def viewScores (scores : List Score) : List Numeral := scores.map fun score => some score.value.toInt

def viewNumerals (counts : List UInt8) : List Numeral := counts.map fun count => some count.toNat

def viewBoard (board : List (Option Engine.BoardTile)) : List (Option BoardTile) :=
  board.map (Option.map viewTile)

theorem playerNumbers_encode {encode : α → Document} {view : α → Numeral} {values : List α}
    (hLength : 2 ≤ values.length ∧ values.length ≤ 4)
    (h : ∀ value, numeral (encode value) = some (view value)) :
    playerNumbers (some (encodeList encode values)) = some (values.map view) := by
  have hValues : (values.map encode).mapM numeral = some (values.map view) :=
    mapM_encode fun value _ => h value
  rw [playerNumbers, array_encodeList]
  simp only [Option.bind_eq_bind, Option.bind_some, List.length_map, hLength, decide_true,
    Bool.and_self, require, if_true, hValues]

theorem playerNumbers_scores {scores : List Score} (h : 2 ≤ scores.length ∧ scores.length ≤ 4) :
    playerNumbers (some (encodeList encodeScore scores)) = some (viewScores scores) :=
  playerNumbers_encode h fun _ => rfl

theorem playerNumbers_counts {counts : List UInt8} (h : 2 ≤ counts.length ∧ counts.length ≤ 4) :
    playerNumbers (some (encodeRackCounts counts)) = some (viewNumerals counts) :=
  playerNumbers_encode h fun _ => rfl

/-- A square of the board has its number in the viewer. -/
theorem placedTile_encode {p : Engine.Placement}
    (h : p.coordinate.inBounds boardSize boardSize = true) :
    placedTile (encodePlacement p) = some (p.coordinate.index boardSize,
      viewTile ⟨p.tileId, p.tile.letter, p.tile.isBlank⟩) := by
  simp only [Engine.Coordinate.inBounds, Bool.and_eq_true, decide_eq_true_eq,
    UInt8.lt_iff_toNat_lt, boardSize] at h
  obtain ⟨hRow, hColumn⟩ := h
  change p.coordinate.row.toNat < 15 at hRow
  change p.coordinate.column.toNat < 15 at hColumn
  have hIndex : ((p.coordinate.row.toNat : Int) * 15 + p.coordinate.column.toNat).toNat =
      p.coordinate.index boardSize := by
    simp only [Engine.Coordinate.index, boardSize]
    change _ = p.coordinate.row.toNat * 15 + p.coordinate.column.toNat
    omega
  have hRowInt : (p.coordinate.row.toNat : Int) < 15 := by omega
  have hColumnInt : (p.coordinate.column.toNat : Int) < 15 := by omega
  simp [placedTile, encodePlacement, encodeCoordinate, encodeTile, encodeTileId, record, require,
    hRowInt, hColumnInt, text, boolean, hIndex, viewTile]

theorem showPlacement_encode {placements : List Engine.Placement}
    {board : List (Option Engine.BoardTile)}
    (h : ∀ p ∈ placements, p.coordinate.inBounds boardSize boardSize = true) :
    (placements.map encodePlacement).foldl showPlacement (viewBoard board) =
      viewBoard (Engine.placeOnBoard board placements) := by
  induction placements generalizing board with
  | nil => rfl
  | cons p placements ih =>
      have hFirst : showPlacement (viewBoard board) (encodePlacement p) =
          viewBoard (board.set (p.coordinate.index boardSize)
            (some ⟨p.tileId, p.tile.letter, p.tile.isBlank⟩)) := by
        rw [showPlacement, placedTile_encode (h p List.mem_cons_self), viewBoard, viewBoard,
          List.map_set]
        rfl
      rw [List.map_cons, List.foldl_cons, hFirst,
        ih fun q hq => h q (List.mem_cons_of_mem _ hq)]
      rfl

theorem present_result (result : Option Engine.GameResult) :
    present (some (encodeOption encodeResult result)) = result.isSome := by
  cases result <;> rfl

/-! What each kind of event shows. -/

variable {frame : ReplayFrame} {player nextPlayer : Seat} {turns : UInt8}
  {result : Option Engine.GameResult} {rackCounts : List UInt8} {bagCount : UInt16}

theorem shown_created {gameId : String} {ruleset : Engine.Ruleset} {mode : Engine.GameMode}
    {rngAlgorithm : Engine.RngAlgorithm} {seedCommitment : Engine.SeedCommitment}
    (hCounts : 2 ≤ rackCounts.length ∧ rackCounts.length ≤ 4) :
    frame.shown (kindFields (.created gameId ruleset mode rngAlgorithm seedCommitment rackCounts
      bagCount)) =
      { frame with rackCounts := viewNumerals rackCounts, bagCount := bagCount.toNat } := by
  simp [ReplayFrame.shown, ReplayFrame.counts, kindFields, text, playerNumbers_counts hCounts]

theorem shown_move {placements : List Engine.Placement} {words : List Engine.FormedWord}
    {bingoBonus score : UInt32} {drawCount : UInt8} {scores : List Score}
    {board : List (Option Engine.BoardTile)} (hBoard : frame.board = viewBoard board)
    (hPlacements : ∀ p ∈ placements, p.coordinate.inBounds boardSize boardSize = true)
    (hCounts : 2 ≤ rackCounts.length ∧ rackCounts.length ≤ 4)
    (hScores : 2 ≤ scores.length ∧ scores.length ≤ 4) :
    frame.shown (kindFields (.movePlayed player placements words bingoBonus score drawCount
      rackCounts bagCount scores turns nextPlayer result)) =
      { frame with
        board := viewBoard (Engine.placeOnBoard board placements)
        scores := viewScores scores
        currentPlayer := nextPlayer
        rackCounts := viewNumerals rackCounts
        bagCount := bagCount.toNat
        phase := if result.isSome then .finished else frame.phase } := by
  simp [ReplayFrame.shown, ReplayFrame.move, ReplayFrame.counts, ReplayFrame.turn, kindFields, text,
    hBoard, showPlacement_encode hPlacements, playerNumbers_counts hCounts,
    playerNumbers_scores hScores, present_result]

theorem shown_passed :
    frame.shown (kindFields (.passed player turns nextPlayer result)) =
      { frame with
        currentPlayer := nextPlayer
        phase := if result.isSome then .finished else frame.phase } := by
  simp [ReplayFrame.shown, ReplayFrame.turn, kindFields, text, present_result]

theorem shown_exchanged {tileIds : List Engine.TileId}
    (hCounts : 2 ≤ rackCounts.length ∧ rackCounts.length ≤ 4) :
    frame.shown (kindFields (.exchanged player tileIds rackCounts bagCount turns nextPlayer
      result)) =
      { frame with
        currentPlayer := nextPlayer
        rackCounts := viewNumerals rackCounts
        bagCount := bagCount.toNat
        phase := if result.isSome then .finished else frame.phase } := by
  simp [ReplayFrame.shown, ReplayFrame.counts, ReplayFrame.turn, kindFields, text,
    playerNumbers_counts hCounts, present_result]

theorem shown_resigned {outcome : Engine.GameResult}
    (hScores : 2 ≤ outcome.scores.length ∧ outcome.scores.length ≤ 4) :
    frame.shown (kindFields (.resigned player outcome)) =
      { frame with scores := viewScores outcome.scores, phase := .finished } := by
  simp [ReplayFrame.shown, ReplayFrame.resigned, kindFields, text, encodeResult, record,
    playerNumbers_scores hScores]

end Reading

section Agreement

/-- Events that carry the scores after them. -/
def recordsScores : Engine.GameEventKind → Bool
  | .movePlayed .. => true
  | .resigned .. => true
  | _ => false

/-- Turns that may end a game but carry no scores. -/
def endsSilently : Engine.GameEventKind → Bool
  | .passed _ _ _ result => result.isSome
  | .exchanged _ _ _ _ _ _ result => result.isSome
  | _ => false

/-- The points of all moves, seat by seat. -/
def pointsEarned (g : Game) : List Numeral :=
  (Seat.all.take g.racks.length).map fun owner => some (g.earned owner : Int)

/-- The scores on show, except for those that no event carries: the scores of a table before its
first scored turn and the final adjustment after a last pass or exchange. -/
structure ShowsScores (scores : List Numeral) (g : Game) : Prop where
  unscored : (∀ event ∈ g.events, recordsScores event.kind = false) → scores = [some 0, some 0]
  scored : (∃ event ∈ g.events, recordsScores event.kind = true) →
    (∀ event ∈ g.events, endsSilently event.kind = false) → scores = viewScores g.state.scores
  silent : (∃ event ∈ g.events, recordsScores event.kind = true) →
    (∃ event ∈ g.events, endsSilently event.kind = true) → scores = pointsEarned g

structure Shows (frame : ReplayFrame) (g : Game) : Prop where
  sequence : frame.sequence = g.state.version.toNat
  board : frame.board = viewBoard g.state.board
  currentPlayer : frame.currentPlayer = g.state.currentPlayer
  rackCounts : frame.rackCounts = viewNumerals g.state.rackCounts
  bagCount : frame.bagCount = g.state.bagCount.toNat
  phase : frame.phase = g.state.phase
  scores : ShowsScores frame.scores g

variable {platform : Platform} {g g' : Game} {frame : ReplayFrame} {player : Seat}
  {action : Engine.Move} {event : Engine.GameEvent}

theorem scores_by_seat (h : Engine.Shape g) :
    g.state.scores.map (fun score => score.value.toInt) =
      (Seat.all.take g.racks.length).map (scoreOf g.state.scores) := by
  have hLength := h.scores
  have hPlayers := h.players
  refine List.ext_getElem ?_ fun i hi hi' => ?_
  · rw [List.length_map, List.length_map, List.length_take, hLength]
    change _ = min _ 4
    omega
  · rw [List.length_map] at hi
    have hBound : i < (Seat.all.take g.racks.length).length := by simpa using hi'
    have hIndex : (Seat.all.take g.racks.length)[i].index = i := by
      rw [List.getElem_take]
      have hFour : i < 4 := by omega
      interval_cases i <;> rfl
    rw [List.getElem_map, List.getElem_map, scoreOf, hIndex, List.getD_eq_getElem?_getD,
      List.getElem?_eq_getElem hi]
    rfl

theorem mem_table {owner : Seat} {playerCount : Nat} (hPlayers : playerCount ≤ 4) :
    owner ∈ Seat.all.take playerCount ↔ owner.index < playerCount := by
  interval_cases playerCount <;> cases owner <;> decide

/-- Scores of a game that goes on are the points of its moves. -/
theorem viewScores_active (h : Reachable platform g) (hPhase : g.state.phase = .active) :
    viewScores g.state.scores = pointsEarned g := by
  have hEarned := (h.ledger.active hPhase).2
  calc viewScores g.state.scores
      = (g.state.scores.map fun score => score.value.toInt).map some := by
        rw [viewScores, List.map_map]
        rfl
    _ = (Seat.all.take g.racks.length).map fun owner => some (scoreOf g.state.scores owner) := by
        rw [scores_by_seat h.shape, List.map_map]
        rfl
    _ = pointsEarned g := List.map_congr_left fun owner hOwner =>
        congrArg some (hEarned owner ((mem_table h.shape.players.2).mp hOwner))

/-- The phase that a turn shows is the phase that it leads to. -/
theorem Commit.shown_phase {c : Engine.Commit} (h : c.Valid g player) :
    (if c.result.isSome then GamePhase.finished else g.state.phase) = c.final.phase := by
  rcases Engine.completeWhen_eq_ok.mp h.completed with ⟨-, hFinal, hResult⟩ |
    ⟨why, outcome, -, hState, hResult⟩
  · rw [hResult, hFinal, h.frame]
    rfl
  · obtain ⟨_, _, -, -, -, hFinal⟩ := Engine.completeState_eq_ok.mp hState
    rw [hResult, hFinal]
    rfl

theorem Commit.result_none {c : Engine.Commit} (h : c.Valid g player)
    (hActive : c.final.phase = .active) : c.result = none := by
  have hShown := Commit.shown_phase h
  rw [hActive] at hShown
  cases hResult : c.result with
  | none => rfl
  | some outcome => simp [hResult] at hShown

/-- A game that goes on has not ended silently. -/
theorem silent_finished (h : Reachable platform g) :
    g.state.phase = .active → ∀ event ∈ g.events, endsSilently event.kind = false := by
  refine Engine.Reachable.invariant
    (fun g => g.state.phase = .active → ∀ event ∈ g.events, endsSilently event.kind = false)
    ?_ ?_ h
  · intro d gameId ruleset seed mode playerCount _ _ event hEvent
    rw [List.mem_singleton.mp hEvent]
    rfl
  · intro g player action g' event _ hSilent hAccepted hPhase
    have hLast : endsSilently event.kind = false := by
      cases hAccepted with
      | place d valid => rfl
      | resign d valid => rfl
      | pass d valid =>
          have hNone : d.result = none := Commit.result_none valid.commit hPhase
          rw [Engine.PassStep.event, hNone]
          rfl
      | exchange d valid =>
          have hNone : d.result = none := Commit.result_none valid.commit hPhase
          rw [Engine.ExchangeStep.event, hNone]
          rfl
    obtain ⟨c, hValid, rfl, rfl⟩ := hAccepted.commit
    intro old hOld
    rcases List.mem_append.mp hOld with hOld | hOld
    · exact hSilent hValid.phase old hOld
    · rw [List.mem_singleton.mp hOld]
      exact hLast

section

variable {c : Engine.Commit} (valid : c.Valid g player) (h : Reachable platform g)

include valid h

/-- A turn that carries its scores shows them. -/
theorem recorded_scores (hRecords : recordsScores c.kind = true)
    (hEnds : endsSilently c.kind = false) : ShowsScores (viewScores c.final.scores) (c.game g) where
  unscored hNone := by
    have hLast := hNone c.event (List.mem_append_right _ (List.mem_singleton.mpr rfl))
    cases hRecords.symm.trans hLast
  scored _ _ := rfl
  silent _ hSilent := by
    obtain ⟨event, hEvent, hEnding⟩ := hSilent
    rcases List.mem_append.mp hEvent with hOld | hLast
    · rw [silent_finished h valid.phase event hOld] at hEnding
      cases hEnding
    · rw [List.mem_singleton.mp hLast] at hEnding
      cases hEnds.symm.trans hEnding

/-- A turn without points leaves the scores on show alone. -/
theorem quiet_scores {scores : List Numeral} (hScores : ShowsScores scores g)
    (hMid : c.mid.scores = g.state.scores) (hRecords : recordsScores c.kind = false)
    (hEnds : endsSilently c.kind = c.result.isSome) (hPoints : ∀ owner, c.kind.pointsOf owner = 0) :
    ShowsScores scores (c.game g) := by
  have hBefore : (∃ event ∈ (c.game g).events, recordsScores event.kind = true) →
      scores = viewScores g.state.scores := by
    rintro ⟨event, hEvent, hScored⟩
    rcases List.mem_append.mp hEvent with hOld | hLast
    · exact hScores.scored ⟨event, hOld, hScored⟩ (silent_finished h valid.phase)
    · rw [List.mem_singleton.mp hLast] at hScored
      cases hRecords.symm.trans hScored
  refine ⟨fun hNone => hScores.unscored fun event hEvent =>
    hNone event (List.mem_append_left _ hEvent), fun hScored hLoud => ?_, fun hScored _ => ?_⟩
  · have hLast : endsSilently c.kind = false :=
      hLoud c.event (List.mem_append_right _ (List.mem_singleton.mpr rfl))
    rw [hEnds] at hLast
    rcases Engine.completeWhen_eq_ok.mp valid.completed with ⟨-, hFinal, -⟩ | ⟨_, _, -, -, hResult⟩
    · rw [hBefore hScored, ← hMid, ← hFinal]
      rfl
    · rw [hResult] at hLast
      cases hLast
  · rw [hBefore hScored, viewScores_active h valid.phase, pointsEarned, pointsEarned]
    have hEarned : ∀ owner, (c.game g).earned owner = g.earned owner := by
      intro owner
      rw [c.earned, show c.event.kind = c.kind from rfl, hPoints, Nat.add_zero]
    simp only [hEarned]
    rw [show (c.game g).racks.length = g.racks.length from valid.racks_length]

end

theorem shows_of_shown {after : ReplayFrame} (hShown : frame.shown (kindFields event.kind) = after)
    (hSequence : event.sequence = g'.state.version) (hBoard : after.board = viewBoard g'.state.board)
    (hPlayer : after.currentPlayer = g'.state.currentPlayer)
    (hCounts : after.rackCounts = viewNumerals g'.state.rackCounts)
    (hBag : after.bagCount = g'.state.bagCount.toNat) (hPhase : after.phase = g'.state.phase)
    (hScores : ShowsScores after.scores g') : Shows (frame.next (viewEvent event)) g' := by
  subst hShown
  exact ⟨congrArg (fun version => (version.toNat : Int)) hSequence, hBoard, hPlayer, hCounts, hBag,
    hPhase, hScores⟩

/-- A turn that draws no tiles leaves the counts on show alone. -/
theorem Shows.counts (hShows : Shows frame g) {c : Engine.Commit} (valid : c.Valid g player)
    (hSame : c.mid.rackCounts = g.state.rackCounts ∧ c.mid.bagCount = g.state.bagCount) :
    frame.rackCounts = viewNumerals c.final.rackCounts ∧
      frame.bagCount = c.final.bagCount.toNat := by
  rw [valid.final_counts.1, valid.final_counts.2, hSame.1, hSame.2]
  exact ⟨hShows.rackCounts, hShows.bagCount⟩

/-- Showing an event leads from the game before it to the game after it. -/
theorem shows_next (h : Reachable platform g) (hShows : Shows frame g)
    (hAccepted : Accepted platform g player action g' event) :
    Shows (frame.next (viewEvent event)) g' := by
  have hAfter := h.accept hAccepted
  have hCounts := reachable_counts hAfter
  have hFinalScores := reachable_scores hAfter
  have hSequence := hAccepted.recorded.1
  cases hAccepted with
  | place d valid =>
      obtain ⟨o, hLegal⟩ := Engine.legal_of_preparePlacement valid.prepare
      have hPhase := Commit.shown_phase valid.commit
      have hBoard := valid.commit.final_board
      rw [← hShows.phase] at hPhase
      exact shows_of_shown (shown_move hShows.board hLegal.laid.bounds hCounts hFinalScores)
        hSequence (congrArg viewBoard hBoard.symm) rfl rfl rfl hPhase
        (recorded_scores valid.commit h rfl rfl)
  | exchange d valid =>
      have hPhase := Commit.shown_phase valid.commit
      have hBoard : d.final.board = g.state.board := valid.commit.final_board
      rw [← hShows.phase] at hPhase
      exact shows_of_shown (shown_exchanged hCounts) hSequence
        (hShows.board.trans (congrArg viewBoard hBoard.symm)) rfl rfl rfl hPhase
        (quiet_scores valid.commit h hShows.scores rfl rfl rfl fun _ => rfl)
  | pass d valid =>
      have hPhase := Commit.shown_phase valid.commit
      have hBoard : d.final.board = g.state.board := valid.commit.final_board
      have hKept := hShows.counts valid.commit ⟨rfl, rfl⟩
      rw [← hShows.phase] at hPhase
      refine shows_of_shown shown_passed hSequence
        (hShows.board.trans (congrArg viewBoard hBoard.symm)) rfl hKept.1
        hKept.2 hPhase ?_
      rw [d.game_eq]
      exact quiet_scores valid.commit h hShows.scores rfl rfl rfl fun _ => rfl
  | resign d valid =>
      have hBoard : d.final.board = g.state.board := valid.commit.final_board
      have hPlayer : d.final.currentPlayer = g.state.currentPlayer := valid.commit.final_currentPlayer
      have hKept := hShows.counts valid.commit ⟨rfl, rfl⟩
      obtain ⟨_, _, -, -, hResult, hFinal⟩ := Engine.completeState_eq_ok.mp valid.completed
      have hScores : d.result.scores = d.final.scores := by
        rw [hResult, hFinal]
        rfl
      refine shows_of_shown (shown_resigned (hScores ▸ hFinalScores)) hSequence
        (hShows.board.trans (congrArg viewBoard hBoard.symm)) (hShows.currentPlayer.trans hPlayer.symm) hKept.1
        hKept.2 ?_ ?_
      · change GamePhase.finished = d.final.phase
        rw [hFinal]
      · rw [d.game_eq, hScores]
        exact recorded_scores valid.commit h rfl rfl

/-- All events of a game together show the game. -/
theorem shows_all (h : Reachable platform g) :
    Shows ((g.events.map viewEvent).foldl ReplayFrame.next ReplayFrame.initial) g := by
  refine Engine.Reachable.invariant
    (fun g => Shows ((g.events.map viewEvent).foldl ReplayFrame.next ReplayFrame.initial) g) ?_ ?_ h
  · intro d gameId ruleset seed mode playerCount hValid
    have hReachable : Reachable platform (d.game platform gameId ruleset seed mode playerCount) :=
      System.Reachable.initial ⟨_, _, _, _, _, _,
        Engine.createWithModeAndPlayers_eq_ok.mpr ⟨d, rfl, hValid, rfl⟩⟩
    have hQuiet : ∀ event ∈ (d.game platform gameId ruleset seed mode playerCount).events,
        recordsScores event.kind = false := by
      intro event hEvent
      rw [List.mem_singleton.mp hEvent]
      rfl
    refine shows_of_shown (shown_created (reachable_counts hReachable)) rfl ?_ rfl rfl rfl rfl ?_
    · change List.replicate 225 none = viewBoard (List.replicate 225 none)
      rw [viewBoard, List.map_replicate]
      rfl
    · refine ⟨fun _ => rfl, fun hScored _ => ?_, fun hScored _ => ?_⟩
      all_goals
        obtain ⟨event, hEvent, hRecords⟩ := hScored
        cases (hQuiet event hEvent).symm.trans hRecords
  · intro g player action g' event hReachable hShows hAccepted
    rw [hAccepted.recorded.2.1, List.map_append, List.foldl_append]
    exact shows_next hReachable hShows hAccepted

/-- Events beyond the last one shown are not looked at. -/
theorem through_eq_foldl {last : Int} {events later : List GameEvent}
    (hEvents : ∀ event ∈ events, event.sequence ≤ last)
    (hLater : ∀ event ∈ later, last < event.sequence) (frame : ReplayFrame) :
    frame.through last (events ++ later) = events.foldl ReplayFrame.next frame := by
  induction events generalizing frame with
  | nil =>
      cases later with
      | nil => rfl
      | cons event later => exact if_pos (hLater event List.mem_cons_self)
  | cons event events ih =>
      have hFirst := hEvents event List.mem_cons_self
      rw [List.cons_append, ReplayFrame.through, if_neg (by omega), List.foldl_cons]
      exact ih (fun other hOther => hEvents other (List.mem_cons_of_mem _ hOther)) _

/-- A game went through all its versions, and its later events are numbered beyond each. -/
theorem exists_at_version (h : Reachable platform g) : ∀ k ≤ g.state.version.toNat,
    ∃ earlier later, Reachable platform earlier ∧ (Engine.engine platform).Run earlier g ∧
      earlier.state.version.toNat = k ∧ g.events = earlier.events ++ later ∧
      ∀ event ∈ later, k < event.sequence.toNat := by
  refine Engine.Reachable.invariant (fun g => ∀ k ≤ g.state.version.toNat,
    ∃ earlier later, Reachable platform earlier ∧ (Engine.engine platform).Run earlier g ∧
      earlier.state.version.toNat = k ∧ g.events = earlier.events ++ later ∧
      ∀ event ∈ later, k < event.sequence.toNat) ?_ ?_ h
  · intro d gameId ruleset seed mode playerCount hValid k hVersion
    exact ⟨_, [], System.Reachable.initial ⟨_, _, _, _, _, _,
      Engine.createWithModeAndPlayers_eq_ok.mpr ⟨d, rfl, hValid, rfl⟩⟩, .refl,
      (Nat.le_zero.mp hVersion).symm, (List.append_nil _).symm, by simp⟩
  · intro g player action g' event hReachable hHistory hAccepted k hVersion
    rcases Nat.lt_or_eq_of_le hVersion with hBefore | rfl
    · rw [hAccepted.version] at hBefore
      obtain ⟨earlier, later, hEarlier, hRun, hk, hEvents, hLater⟩ :=
        hHistory k (Nat.lt_succ_iff.mp hBefore)
      refine ⟨earlier, later ++ [event], hEarlier,
        hRun.snoc (Engine.accepts_iff.mpr ⟨_, _, _, hAccepted⟩), hk, ?_, fun other hOther => ?_⟩
      · rw [hAccepted.recorded.2.1, hEvents, List.append_assoc]
      · rcases List.mem_append.mp hOther with hOld | hLast
        · exact hLater other hOld
        · rw [List.mem_singleton.mp hLast, hAccepted.recorded.1, hAccepted.version]
          exact hBefore
    · exact ⟨g', [], hReachable.accept hAccepted, .refl, rfl, (List.append_nil _).symm, by simp⟩

/-- At every version the viewer shows the game as it was: the board, the seat to move, the counts
of the private tiles and the phase are the engine's, and the scores are, where an event carries
them. -/
theorem replay_frames_shown (h : Reachable platform g) {replay : ReplayBundle}
    (hReplay : replay.events = g.events.map viewEvent) {k : Nat}
    (hVersion : k ≤ g.state.version.toNat) :
    ∃ earlier, Reachable platform earlier ∧ (Engine.engine platform).Run earlier g ∧
      earlier.state.version.toNat = k ∧ Shows (replayFrame replay k) earlier := by
  obtain ⟨earlier, later, hEarlier, hRun, hk, hEvents, hLater⟩ := exists_at_version h k hVersion
  refine ⟨earlier, hEarlier, hRun, hk, ?_⟩
  have hThrough : replayFrame replay k =
      (earlier.events.map viewEvent).foldl ReplayFrame.next ReplayFrame.initial := by
    rw [replayFrame, hReplay, hEvents, List.map_append]
    refine through_eq_foldl ?_ ?_ _
    · intro event hEvent
      obtain ⟨old, hOld, rfl⟩ := List.mem_map.mp hEvent
      have hPast := UInt64.le_iff_toNat_le.mp (hEarlier.annals.past old hOld)
      exact Int.ofNat_le.mpr (hk ▸ hPast)
    · intro event hEvent
      obtain ⟨new, hNew, rfl⟩ := List.mem_map.mp hEvent
      exact Int.ofNat_lt.mpr (hLater new hNew)
  rw [hThrough]
  exact shows_all hEarlier

/-- A replay of these events and nothing else. -/
def bareReplay (events : List GameEvent) : ReplayBundle where
  schemaVersion := replaySchemaVersion
  observedAt := 0
  identityVersion := 2
  rulesetId := .englishV1
  contentSha256 := ""
  ruleset := ⟨2, .englishV1, .english, ⟨"", "", 0, "", [], ""⟩, 15, 15, [], 7, 50, 7, 6, []⟩
  rulesetWire := []
  lexicon := ⟨"", "", 0, "", [], ""⟩
  rngAlgorithm := "xoshiro256-star-star-v1"
  seedReveal := []
  events := events
  eventsWire := []
  privateEvents := []

/-- A table of two after one pass. -/
theorem passed_table : ∃ g : Game, Reachable Engine.basicPlatform g ∧ g.state.version.toNat = 1 := by
  obtain ⟨start, hCreated⟩ := Engine.openTable_created .englishV1 (⟨le_refl 2, by decide⟩ : 2 ≤ 2 ∧ 2 ≤ 4)
  have hStart : Reachable Engine.basicPlatform start :=
    System.Reachable.initial ⟨_, _, _, _, _, _, hCreated⟩
  obtain ⟨creation, -, -, rfl⟩ := Engine.createWithModeAndPlayers_eq_ok.mp hCreated
  obtain ⟨d, valid⟩ := Engine.Reachable.pass_valid hStart rfl
  have hAccepted : Accepted Engine.basicPlatform _ _ .pass _ _ := .pass d valid
  exact ⟨_, hStart.accept hAccepted, hAccepted.version⟩

/-- The viewer at the first turn of a table that passed. -/
theorem passed_table_shown : ∃ g earlier : Game, earlier.state.version.toNat = 0 ∧
    Shows (replayFrame (bareReplay (g.events.map viewEvent)) 0) earlier := by
  obtain ⟨g, hReachable, -⟩ := passed_table
  obtain ⟨earlier, -, -, hVersion, hShows⟩ := replay_frames_shown hReachable
    (show (bareReplay (g.events.map viewEvent)).events = _ from rfl) (Nat.zero_le _)
  exact ⟨g, earlier, hVersion, hShows⟩

end Agreement

section Statistics

/-- The aggregate of a replay. The set of words is listed. -/
structure ReplayStatistics where
  turns : Nat
  scoringTurns : Nat
  moveScore : Int
  bingos : Nat
  passes : Nat
  exchanges : Nat
  words : List String

namespace ReplayStatistics

def initial : ReplayStatistics := ⟨0, 0, 0, 0, 0, 0, []⟩

def wordText (value : Document) : Option String :=
  (record value).bind fun word => text (field word "text")

def addMove (statistics : ReplayStatistics) (kind : List (String × Document)) : ReplayStatistics :=
  { statistics with
    scoringTurns := statistics.scoringTurns + 1
    moveScore := statistics.moveScore + (integer (field kind "score")).getD 0
    bingos := statistics.bingos + if 0 < (integer (field kind "bingo_bonus")).getD 0 then 1 else 0
    words := (((array (field kind "words")).getD []).filterMap wordText).foldl
      (fun words word => words.insert word) statistics.words }

def add (statistics : ReplayStatistics) (event : GameEvent) : ReplayStatistics :=
  let type := text (field event.kind "type")
  let counted := { statistics with turns := statistics.turns + 1 }
  if type = some "created" then statistics
  else if type = some "move_played" then counted.addMove event.kind
  else if type = some "passed" then { counted with passes := statistics.passes + 1 }
  else if type = some "exchanged" then { counted with exchanges := statistics.exchanges + 1 }
  else counted

end ReplayStatistics

def replayStatistics (replay : ReplayBundle) : ReplayStatistics :=
  replay.events.foldl ReplayStatistics.add ReplayStatistics.initial

variable {platform : Platform} {g g' : Game} {player : Seat} {action : Engine.Move}
  {event : Engine.GameEvent}

/-- The words that a move formed. -/
def formedTexts : Engine.GameEventKind → List String
  | .movePlayed _ _ words _ _ _ _ _ _ _ _ _ => words.map (·.text)
  | _ => []

/-- What the aggregate says of a game. -/
structure Sums (statistics : ReplayStatistics) (g : Game) : Prop where
  turns : statistics.turns = g.state.version.toNat
  moveScore : statistics.moveScore =
    ((Seat.all.take g.racks.length).map fun owner => (g.earned owner : Int)).sum
  words : ∀ word, word ∈ statistics.words ↔ ∃ event ∈ g.events, word ∈ formedTexts event.kind
  nodup : statistics.words.Nodup

theorem texts_encode (words : List Engine.FormedWord) :
    (words.filterMap fun word => ReplayStatistics.wordText (encodeWord word)) =
      words.map (·.text) := by
  induction words with
  | nil => rfl
  | cons word words ih =>
      rw [List.filterMap_cons, ih]
      rfl

theorem mem_foldl_insert {texts words : List String} {word : String} :
    word ∈ texts.foldl (fun words word => words.insert word) words ↔ word ∈ words ∨ word ∈ texts := by
  induction texts generalizing words with
  | nil => simp
  | cons first texts ih =>
      rw [List.foldl_cons, ih, List.mem_insert_iff, List.mem_cons]
      tauto

theorem nodup_foldl_insert {texts words : List String} (h : words.Nodup) :
    (texts.foldl (fun words word => words.insert word) words).Nodup := by
  induction texts generalizing words with
  | nil => exact h
  | cons first texts ih => exact ih (h.insert)

/-- Each event adds one turn, its points and its words. -/
theorem add_turn {statistics : ReplayStatistics} (h : event.kind.isCreated = false) :
    (statistics.add (viewEvent event)).turns = statistics.turns + 1 ∧
      (statistics.add (viewEvent event)).moveScore = statistics.moveScore + event.kind.points ∧
      (statistics.add (viewEvent event)).words =
        (formedTexts event.kind).foldl (fun words word => words.insert word) statistics.words := by
  obtain ⟨sequence, visibility, lexicon, kind⟩ := event
  cases kind with
  | created => cases h
  | movePlayed =>
      simp [ReplayStatistics.add, ReplayStatistics.addMove, viewEvent, kindFields, text,
        texts_encode, formedTexts, Engine.GameEventKind.points]
  | passed => simp [ReplayStatistics.add, viewEvent, kindFields, text, formedTexts,
      Engine.GameEventKind.points]
  | exchanged => simp [ReplayStatistics.add, viewEvent, kindFields, text, formedTexts,
      Engine.GameEventKind.points]
  | resigned => simp [ReplayStatistics.add, viewEvent, kindFields, text, formedTexts,
      Engine.GameEventKind.points]

/-- The points of an action go to a seat of the table. -/
theorem points_by_seat (h : Accepted platform g player action g' event) (hShape : Engine.Shape g) :
    ((Seat.all.take g.racks.length).map fun owner => (event.kind.pointsOf owner : Int)).sum =
      event.kind.points := by
  have hOther : (∀ owner, event.kind.pointsOf owner = 0) → event.kind.points = 0 →
      ((Seat.all.take g.racks.length).map fun owner => (event.kind.pointsOf owner : Int)).sum =
        event.kind.points := by
    intro hNone hZero
    simp [hNone, hZero]
  cases h with
  | place d valid =>
      have hTurn : player.index < g.racks.length := valid.turn ▸ hShape.turn
      have hPlayers := hShape.players
      have hPoints : ∀ owner, (d.event player).kind.pointsOf owner =
          if player = owner then d.prepared.score.toNat else 0 := fun _ => rfl
      change _ = (d.prepared.score.toNat : Int)
      simp only [hPoints]
      generalize g.racks.length = playerCount at hTurn hPlayers
      obtain ⟨hLow, hHigh⟩ := hPlayers
      interval_cases playerCount <;> cases player <;> simp_all [Seat.all, Seat.index]
  | exchange d valid => exact hOther (fun _ => rfl) rfl
  | pass d valid => exact hOther (fun _ => rfl) rfl
  | resign d valid => exact hOther (fun _ => rfl) rfl

theorem sums_next (h : Reachable platform g) {statistics : ReplayStatistics}
    (hSums : Sums statistics g) (hAccepted : Accepted platform g player action g' event) :
    Sums (statistics.add (viewEvent event)) g' := by
  obtain ⟨-, hEvents, -⟩ := hAccepted.recorded
  have hPoints := points_by_seat hAccepted h.shape
  have hVersion := hAccepted.version
  obtain ⟨c, valid, rfl, rfl⟩ := hAccepted.commit
  obtain ⟨hTurns, hScore, hWords⟩ := @add_turn c.event statistics valid.created
  refine ⟨by rw [hTurns, hSums.turns, hVersion], ?_, fun word => ?_, ?_⟩
  · have hEarned : ∀ owner, ((c.game g).earned owner : Int) =
        g.earned owner + c.event.kind.pointsOf owner := by
      intro owner
      rw [c.earned, Int.natCast_add]
    rw [hScore, hSums.moveScore, show (c.game g).racks.length = g.racks.length from
      valid.racks_length, ← hPoints]
    simp only [hEarned]
    rw [List.sum_map_add]
  · rw [hWords, mem_foldl_insert, hSums.words, hEvents]
    simp [or_and_right, exists_or]
  · rw [hWords]
    exact nodup_foldl_insert hSums.nodup

theorem sums_all (h : Reachable platform g) :
    Sums ((g.events.map viewEvent).foldl ReplayStatistics.add ReplayStatistics.initial) g := by
  refine Engine.Reachable.invariant
    (fun g => Sums ((g.events.map viewEvent).foldl ReplayStatistics.add ReplayStatistics.initial) g)
    ?_ ?_ h
  · intro d gameId ruleset seed mode playerCount hValid
    have hFirst : ((d.game platform gameId ruleset seed mode playerCount).events.map
        viewEvent).foldl ReplayStatistics.add ReplayStatistics.initial = ReplayStatistics.initial := by
      simp [Engine.Creation.game, Engine.Creation.event, viewEvent, kindFields, ReplayStatistics.add,
        text]
    rw [hFirst]
    refine ⟨rfl, ?_, fun word => ?_, List.nodup_nil⟩
    · simp [ReplayStatistics.initial, Game.earned, Engine.Creation.game, Engine.Creation.event,
        Engine.GameEventKind.pointsOf]
    · simp [ReplayStatistics.initial, Engine.Creation.game, Engine.Creation.event, formedTexts]
  · intro g player action g' event hReachable hSums hAccepted
    rw [hAccepted.recorded.2.1, List.map_append, List.foldl_append]
    exact sums_next hReachable hSums hAccepted

/-- Scores sum to the points of all moves unless a scoreless ending took the racks off. -/
theorem scores_sum (h : Reachable platform g)
    (hReason : ∀ outcome, g.state.result = some outcome → outcome.reason ≠ .scorelessTurns) :
    (g.state.scores.map fun score => score.value.toInt).sum =
      ((Seat.all.take g.racks.length).map fun owner => (g.earned owner : Int)).sum := by
  have hPlayers := h.shape.players
  have hLedger := h.ledger
  rw [scores_by_seat h.shape]
  cases hPhase : g.state.phase with
  | active =>
      exact congrArg List.sum (List.map_congr_left fun owner hOwner =>
        (hLedger.active hPhase).2 owner ((mem_table hPlayers.2).mp hOwner))
  | finished =>
      obtain ⟨active, result, hActive, hResult, -, -, hActor, hEach⟩ := hLedger.finished hPhase
      obtain ⟨-, hSeats⟩ := Engine.Seat.active_eq_some.mp hActive
      have hShares : (Seat.all.take g.racks.length).map (scoreOf g.state.scores) =
          (Seat.all.take g.racks.length).map fun owner => (g.earned owner : Int) +
            Engine.adjustment g.ruleset g.racks active result.reason owner :=
        List.map_congr_left fun owner hOwner => hEach owner ((mem_table hPlayers.2).mp hOwner)
      have hNothing : ((Seat.all.take g.racks.length).map
          (Engine.adjustment g.ruleset g.racks active result.reason)).sum = 0 := by
        cases hWhy : result.reason with
        | resignation resigned =>
            refine List.sum_eq_zero fun points hPoints => ?_
            obtain ⟨_, -, rfl⟩ := List.mem_map.mp hPoints
            rfl
        | scorelessTurns => exact absurd hWhy (hReason result hResult)
        | rackEmptied outgoing =>
            rw [← hSeats]
            exact Engine.adjustment_rackEmptied_sum g.ruleset g.racks hActive
              (hActor outgoing (.inl hWhy))
      rw [hShares, List.sum_map_add, hNothing, Int.add_zero]

/-- The aggregate of a replay counts one turn for each version, adds up what the seats have
earned, and lists each word formed once. Unless the game ended for want of points, the move score
is the sum of the scores. -/
theorem replay_statistics_sum (h : Reachable platform g) {replay : ReplayBundle}
    (hReplay : replay.events = g.events.map viewEvent) :
    Sums (replayStatistics replay) g ∧
      ((∀ outcome, g.state.result = some outcome → outcome.reason ≠ .scorelessTurns) →
        (replayStatistics replay).moveScore =
          (g.state.scores.map fun score => score.value.toInt).sum) := by
  have hSums : Sums (replayStatistics replay) g := by
    rw [replayStatistics, hReplay]
    exact sums_all h
  exact ⟨hSums, fun hReason => hSums.moveScore.trans (scores_sum h hReason).symm⟩

/-- A table that passed once has seen one turn. -/
theorem passed_table_summed : ∃ g : Game,
    (replayStatistics (bareReplay (g.events.map viewEvent))).turns = 1 := by
  obtain ⟨g, hReachable, hVersion⟩ := passed_table
  obtain ⟨hSums, -⟩ := replay_statistics_sum hReachable
    (show (bareReplay (g.events.map viewEvent)).events = _ from rfl)
  exact ⟨g, hSums.turns.trans hVersion⟩

end Statistics

end WordArena.Web
