import WordArena.Engine.Projection
import WordArena.Engine.Resume

/-! What the public view of a game depends on. Two games in which the same seats make the same
placements and exchange equally many tiles look alike from outside: they differ in the seed
commitment, in the tiles that exchanges name and in what the racks are worth at the end. -/
namespace WordArena.Engine

open Fallible

/-! The view without these. -/

/-- The result of a game. Unless somebody gave up, the racks decide the final scores. -/
def GameResult.veiled (result : GameResult) : GameResult :=
  match result.reason with
  | .resignation _ => result
  | _ => { result with scores := [], winner := none }

def veiledScores (scores : List Score) : Option GameResult → List Score
  | none => scores
  | some result => result.veiled.scores

def PublicGameState.veiled (state : PublicGameState) : PublicGameState :=
  { state with
    seedCommitment := ⟨state.rngAlgorithm, ""⟩
    scores := veiledScores state.scores state.result
    result := state.result.map GameResult.veiled }

/-- An event that names as many tiles, but not which ones. -/
def GameEventKind.veiled : GameEventKind → GameEventKind
  | .created gameId ruleset mode rngAlgorithm _ rackCounts bagCount =>
      .created gameId ruleset mode rngAlgorithm ⟨rngAlgorithm, ""⟩ rackCounts bagCount
  | .movePlayed player placements words bingoBonus score drawCount rackCountsAfter bagCountAfter
      scoresAfter scorelessTurnsAfter nextPlayer result =>
      .movePlayed player placements words bingoBonus score drawCount rackCountsAfter bagCountAfter
        (veiledScores scoresAfter result) scorelessTurnsAfter nextPlayer
        (result.map GameResult.veiled)
  | .passed player scorelessTurnsAfter nextPlayer result =>
      .passed player scorelessTurnsAfter nextPlayer (result.map GameResult.veiled)
  | .exchanged player tileIds rackCountsAfter bagCountAfter scorelessTurnsAfter nextPlayer result =>
      .exchanged player (tileIds.map fun _ => ⟨0⟩) rackCountsAfter bagCountAfter
        scorelessTurnsAfter nextPlayer (result.map GameResult.veiled)
  | .resigned player result => .resigned player result.veiled

def GameEvent.veiled (event : GameEvent) : GameEvent := { event with kind := event.kind.veiled }

def PublicProjection.veiled (projection : PublicProjection) : PublicProjection :=
  { projection with
    state := projection.state.veiled
    events := projection.events.map GameEvent.veiled }

/-- Actions that the table cannot tell apart. -/
inductive Move.Resembles : Move → Move → Prop where
  | place (placements : List Placement) : Resembles (.place placements) (.place placements)
  | exchange {tileIds tileIds' : List TileId} (count : tileIds.length = tileIds'.length) :
      Resembles (.exchange tileIds) (.exchange tileIds')
  | pass : Resembles .pass .pass
  | resign : Resembles .resign .resign

/-- Accepted actions, one after another. -/
inductive Played (platform : Platform) (start : Game) : List (Player × Move) → Game → Prop where
  | nil : Played platform start [] start
  | snoc {actions : List (Player × Move)} {g g' : Game} {player : Player} {action : Move}
      {event : GameEvent} (played : Played platform start actions g)
      (last : Accepted platform g player action g' event) :
      Played platform start (actions ++ [(player, action)]) g'

/-! Validation reads the board, the rules and the dictionary. -/

section

variable {g g' : Game}

theorem tileWithProposed_congr (hBoard : g.state.board = g'.state.board) :
    g.tileWithProposed = g'.tileWithProposed := by
  funext proposed c
  simp only [Game.tileWithProposed, PublicGameState.tileAt, hBoard]

theorem formedWordCoordinates_congr (hBoard : g.state.board = g'.state.board) :
    g.formedWordCoordinates = g'.formedWordCoordinates := by
  have hSegment : g.wordSegment = g'.wordSegment := by
    funext proposed origin rowStep columnStep
    simp only [Game.wordSegment, tileWithProposed_congr hBoard]
  funext placements o
  simp only [Game.formedWordCoordinates, Game.wordSegments, hSegment]

theorem addWord_congr (platform : Platform) (hRuleset : g.ruleset = g'.ruleset)
    (hLexicon : g.lexicon = g'.lexicon) (hBoard : g.state.board = g'.state.board) :
    g.addWord platform = g'.addWord platform := by
  have hTally : g.tallySquare = g'.tallySquare := by
    funext proposed tally c
    simp only [Game.tallySquare, tileWithProposed_congr hBoard, Game.newPremium, hRuleset]
  funext proposed sofar coordinates
  simp only [Game.addWord, Game.validateWord, hTally, Game.profile, hRuleset, hLexicon]

/-- The public part of a prepared move. -/
theorem preparePlacement_congr {platform : Platform} {player : Player} {placements : List Placement}
    {m m' : PreparedMove} (hRuleset : g.ruleset = g'.ruleset) (hLexicon : g.lexicon = g'.lexicon)
    (hBoard : g.state.board = g'.state.board)
    (h : g.preparePlacement platform player placements = .ok m)
    (h' : g'.preparePlacement platform player placements = .ok m') :
    m'.placements = m.placements ∧ m'.words = m.words ∧ m'.bingoBonus = m.bingoBonus ∧
      m'.score = m.score := by
  simp only [Game.preparePlacement, bind_eq_ok, reject_eq_ok, validateOwnedPlacements_eq_ok,
    Prod.exists, okOr_eq_ok, pure_eq_ok] at h h'
  obtain ⟨-, -, owned, ⟨hCanon, -, -⟩, -, -, o, hOriented, -, -, -, -, -, -, words, wordScore, hWords,
    score, hScore, rfl⟩ := h
  obtain ⟨-, -, owned', ⟨hCanon', -, -⟩, -, -, o', hOriented', -, -, -, -, -, -, words', wordScore',
    hWords', score', hScore', rfl⟩ := h'
  have hOwned : owned'.placements = owned.placements := by
    refine Slots.forall₂_unique (r := Canonical platform g) ?_ ?_ hCanon
    · rintro p q q' ⟨letter, hLetter, rfl⟩ ⟨letter', hLetter', rfl⟩
      rw [hLetter, Except.ok.injEq] at hLetter'
      rw [hLetter']
    · refine hCanon'.imp fun p q => ?_
      rintro ⟨letter, hLetter, rfl⟩
      rw [Game.profile, ← hRuleset] at hLetter
      exact ⟨letter, hLetter, rfl⟩
  rw [hOwned, hOriented, Except.ok.injEq] at hOriented'
  subst hOriented'
  rw [hOwned, ← formedWordCoordinates_congr hBoard, ← addWord_congr platform hRuleset hLexicon hBoard,
    hWords, Except.ok.injEq, Prod.mk.injEq] at hWords'
  obtain ⟨rfl, rfl⟩ := hWords'
  have hBonus : g'.bingoBonus (sortPlacements o owned'.placements) =
      g.bingoBonus (sortPlacements o owned.placements) := by
    rw [Game.bingoBonus, Game.bingoBonus, hOwned, hRuleset]
  rw [hBonus, hScore, Option.some.injEq] at hScore'
  exact ⟨by rw [hOwned], rfl, hBonus, hScore'.symm⟩

end

/-! Sizes. -/

theorem rackCounts_eq_mapM (racks : List Rack) :
    rackCounts racks = (racks.map fun rack => rack.tiles.length).mapM countU8 := by
  induction racks with
  | nil => rfl
  | cons rack racks ih =>
      rw [rackCounts] at ih ⊢
      rw [List.map_cons, List.mapM_cons, List.mapM_cons, ih]

/-- The sizes of the racks after a redraw. -/
theorem redraw_sizes (g : Game) (player : Player) (ids : List TileId) (count : Nat) :
    (g.redraw player ids count).racks.map (fun rack => rack.tiles.length) =
      (g.racks.map fun rack => rack.tiles.length).set player.index
        (((g.rack player).without ids).tiles.length + min count g.bag.tiles.length) := by
  rw [Game.redraw, List.map_set, Rack.extend, List.length_append, Bag.drawUpTo_length]

theorem size_getD (racks : List Rack) (i : Nat) :
    (racks.getD i ⟨[]⟩).tiles.length = (racks.map fun rack => rack.tiles.length).getD i 0 := by
  rw [List.getD_eq_getElem?_getD, List.getD_eq_getElem?_getD, List.getElem?_map]
  cases racks[i]? <;> rfl

theorem rack_size (g : Game) (player : Player) :
    (g.rack player).tiles.length =
      (g.racks.map fun rack => rack.tiles.length).getD player.index 0 := size_getD ..

theorem rackCounts_congr {racks racks' : List Rack} {counts counts' : List UInt8}
    (hSizes : (racks.map fun rack => rack.tiles.length) = racks'.map fun rack => rack.tiles.length)
    (h : rackCounts racks = .ok counts) (h' : rackCounts racks' = .ok counts') : counts' = counts := by
  rw [rackCounts_eq_mapM, ← hSizes, ← rackCounts_eq_mapM, h, Except.ok.injEq] at h'
  exact h'.symm

theorem placementReason_congr {g g' : Game} (hRuleset : g.ruleset = g'.ruleset) (player : Player)
    {bag bag' : Bag} {rack rack' : Rack} (hBag : bag.tiles.length = bag'.tiles.length)
    (hRack : rack.tiles.length = rack'.tiles.length) (turns : UInt8) :
    g.placementReason player bag rack turns = g'.placementReason player bag' rack' turns := by
  simp only [Game.placementReason, Game.scorelessReason, hRuleset, ← List.length_eq_zero_iff, hBag,
    hRack]

/-- Two games that look alike from the table. -/
structure Similar (g g' : Game) : Prop where
  ruleset : g.ruleset = g'.ruleset
  lexicon : g.lexicon = g'.lexicon
  racks : (g.racks.map fun rack => rack.tiles.length) = g'.racks.map fun rack => rack.tiles.length
  bag : g.bag.tiles.length = g'.bag.tiles.length
  state : g.state.veiled = g'.state.veiled
  events : g.events.map GameEvent.veiled = g'.events.map GameEvent.veiled

theorem Similar.players {g g' : Game} (h : Similar g g') : g.racks.length = g'.racks.length := by
  simpa using congrArg List.length h.racks

theorem Similar.rack {g g' : Game} (h : Similar g g') {player : Player} :
    (g.rack player).tiles.length = (g'.rack player).tiles.length := by
  rw [rack_size, rack_size, h.racks]

theorem Similar.next {g g' : Game} (h : Similar g g') {player next next' : Player}
    (hNext : player.next g.racks.length = some next)
    (hNext' : player.next g'.racks.length = some next') : next' = next := by
  rw [← h.players, hNext, Option.some.injEq] at hNext'
  exact hNext'.symm

theorem Similar.events_concat {g g' : Game} (h : Similar g g') {event event' : GameEvent}
    (hEvent : event.veiled = event'.veiled) :
    (g.events ++ [event]).map GameEvent.veiled = (g'.events ++ [event']).map GameEvent.veiled := by
  rw [List.map_append, List.map_append, h.events, List.map_singleton, List.map_singleton, hEvent]

/-- What an event shows of the state after it. -/
theorem shown_of_veiled {state state' : PublicGameState} (h : state.veiled = state'.veiled) :
    state.lexicon = state'.lexicon ∧ state.rackCounts = state'.rackCounts ∧
      state.bagCount = state'.bagCount ∧ state.scorelessTurns = state'.scorelessTurns ∧
      state.currentPlayer = state'.currentPlayer := by
  simp only [PublicGameState.veiled, PublicGameState.mk.injEq] at h
  simp only [h, and_self]

/-- States that differ in the seed commitment only. -/
def Recommitted (state state' : PublicGameState) : Prop :=
  state' = { state with seedCommitment := state'.seedCommitment }

theorem Recommitted.veiled {state state' : PublicGameState} (h : Recommitted state state') :
    state.veiled = state'.veiled := by
  rw [h]
  rfl

theorem recommitted_of_veiled {state state' : PublicGameState} (h : state.veiled = state'.veiled)
    (hNone : state.result = none) (hNone' : state'.result = none) : Recommitted state state' := by
  obtain ⟨⟩ := state
  obtain ⟨⟩ := state'
  simp only at hNone hNone'
  subst hNone hNone'
  simp only [PublicGameState.veiled, veiledScores, PublicGameState.mk.injEq] at h
  simp only [Recommitted, PublicGameState.mk.injEq]
  simp only [h, and_self]

theorem Recommitted.version {state state' : PublicGameState} (h : Recommitted state state')
    {version version' : UInt64} (hVersion : version.toNat = state.version.toNat + 1)
    (hVersion' : version'.toNat = state'.version.toNat + 1) : version' = version := by
  refine UInt64.toNat_inj.mp ?_
  rw [hVersion', hVersion, h]

theorem Recommitted.turns {state state' : PublicGameState} (h : Recommitted state state')
    {turns turns' : UInt8} (hTurns : turns.toNat = state.scorelessTurns.toNat + 1)
    (hTurns' : turns'.toNat = state'.scorelessTurns.toNat + 1) : turns' = turns := by
  refine UInt8.toNat_inj.mp ?_
  rw [hTurns', hTurns, h]

/-- Completion hides what the racks decide and nothing else. -/
theorem completion_veiled {g g' : Game} {mid mid' final final' : PublicGameState}
    {racks racks' : List Rack} {reason : Option TerminalReason} {result result' : Option GameResult}
    (hId : g.state.gameId = g'.state.gameId) (hMid : Recommitted mid mid')
    (hNone : mid.result = none) (hRacks : racks.length = racks'.length)
    (h : g.completeWhen mid racks reason = .ok (final, result))
    (h' : g'.completeWhen mid' racks' reason = .ok (final', result')) :
    final.veiled = final'.veiled ∧ result.map GameResult.veiled = result'.map GameResult.veiled ∧
      veiledScores final.scores result = veiledScores final'.scores result' := by
  rcases completeWhen_eq_ok.mp h with ⟨rfl, rfl, rfl⟩ | ⟨why, outcome, rfl, hState, rfl⟩
  · rcases completeWhen_eq_ok.mp h' with ⟨-, rfl, rfl⟩ | ⟨_, _, hWhy, -⟩
    · exact ⟨hMid.veiled, rfl, by rw [hMid]⟩
    · cases hWhy
  · rcases completeWhen_eq_ok.mp h' with ⟨hWhy, -⟩ | ⟨_, outcome', hWhy, hState', rfl⟩
    · cases hWhy
    · cases hWhy
      obtain ⟨active, scores, hActive, hScores, rfl, rfl⟩ := completeState_eq_ok.mp hState
      obtain ⟨active', scores', hActive', hScores', rfl, rfl⟩ := completeState_eq_ok.mp hState'
      rw [← hRacks, hActive, Option.some.injEq] at hActive'
      subst hActive'
      rw [Recommitted] at hMid
      have hResult : (g.resultOf mid active scores why).veiled =
          (g'.resultOf mid' active scores' why).veiled := by
        rw [hMid]
        cases why with
        | resignation seat =>
            simp only [finalScores, Except.ok.injEq] at hScores hScores'
            rw [hMid] at hScores'
            simp only at hScores'
            subst hScores hScores'
            simp only [GameResult.veiled, Game.resultOf, hId]
        | scorelessTurns => simp only [GameResult.veiled, Game.resultOf, hId]
        | rackEmptied seat => simp only [GameResult.veiled, Game.resultOf, hId]
      refine ⟨?_, congrArg some hResult, congrArg GameResult.scores hResult⟩
      simp only [PublicGameState.veiled, veiledScores, Option.map_some, hResult]
      rw [hMid]

/-! One action. -/

section

variable {platform : Platform} {g g' : Game} {player : Player}

/-- Games that go on differ in the seed commitment only. -/
theorem Similar.recommitted (h : Similar g g') (hReachable : Reachable platform g)
    (hReachable' : Reachable platform g') (hPhase : g.state.phase = .active)
    (hPhase' : g'.state.phase = .active) : Recommitted g.state g'.state :=
  recommitted_of_veiled h.state (hReachable.ledger.active hPhase).1
    (hReachable'.ledger.active hPhase').1

theorem PlacementStep.Valid.kept_size {d : PlacementStep} {placements : List Placement}
    (valid : d.Valid platform g player placements) (hShape : Shape g) (hConserved : Conserved g) :
    d.prepared.placements.length + ((g.rack player).without d.ids).tiles.length =
      (g.rack player).tiles.length := by
  obtain ⟨_, hLegal⟩ := legal_of_preparePlacement valid.prepare
  have hTaken : List.Forall₂ (fun id tile => tile ∈ (g.rack player).tiles ∧ tile.id = id) d.ids
      d.prepared.played := by
    rw [PlacementStep.ids, List.forall₂_map_left_iff]
    exact hLegal.owned.imp fun _ _ hOwned => ⟨hOwned.mem, hOwned.id⟩
  have hLength := hConserved.rack_length hShape hLegal.ids hTaken
  rw [← hLegal.owned.length_eq] at hLength
  exact hLength

theorem Similar.place {d d' : PlacementStep} {placements : List Placement} (h : Similar g g')
    (hReachable : Reachable platform g) (hReachable' : Reachable platform g')
    (valid : d.Valid platform g player placements) (valid' : d'.Valid platform g' player placements) :
    Similar (d.game g player) (d'.game g' player) := by
  have hState := h.recommitted hReachable hReachable' valid.phase valid'.phase
  have hBoard : g.state.board = g'.state.board := by rw [hState]
  obtain ⟨hPlacements, hWords, hBonus, hScore⟩ := preparePlacement_congr h.ruleset h.lexicon hBoard
    valid.prepare valid'.prepare
  have hIds : d'.ids = d.ids := by rw [PlacementStep.ids, PlacementStep.ids, hPlacements]
  have hKept : ((g.rack player).without d.ids).tiles.length =
      ((g'.rack player).without d'.ids).tiles.length := by
    have hSize := valid.kept_size hReachable.shape hReachable.conserved
    have hSize' := valid'.kept_size hReachable'.shape hReachable'.conserved
    rw [hPlacements, ← h.rack] at hSize'
    omega
  have hRefill : d.refill = d'.refill := by
    have hSum := valid.refill
    have hSum' := valid'.refill
    rw [← h.ruleset] at hSum'
    omega
  have hRacks : ((d.redraw g player).racks.map fun rack => rack.tiles.length) =
      (d'.redraw g' player).racks.map fun rack => rack.tiles.length := by
    rw [PlacementStep.redraw, PlacementStep.redraw, redraw_sizes, redraw_sizes, h.racks, hKept,
      hRefill, h.bag]
  have hBag : (d.redraw g player).bag.tiles.length = (d'.redraw g' player).bag.tiles.length := by
    have hRest := g.bag.drawUpTo_rest_length d.refill
    have hRest' := g'.bag.drawUpTo_rest_length d'.refill
    change (g.bag.drawUpTo d.refill).2.tiles.length = (g'.bag.drawUpTo d'.refill).2.tiles.length
    rw [← h.bag, ← hRefill] at hRest'
    rw [← hRefill]
    omega
  have hCounts := rackCounts_congr hRacks valid.counts valid'.counts
  have hVersion := hState.version valid.version valid'.version
  have hUpdated : d'.updatedScore = d.updatedScore := by
    refine (Score.mk.injEq ..).mpr (Int32.toInt_inj.mp ?_)
    rw [valid'.score, valid.score, hState, hScore]
  have hTurns : d'.turns = d.turns := by
    have hSame := valid'.turns
    rw [hState, hScore] at hSame
    exact Except.ok.inj (hSame.symm.trans valid.turns)
  have hNext := h.next valid.nextPlayer valid'.nextPlayer
  have hBagCount : d'.bagCount = d.bagCount := by
    refine UInt16.toNat_inj.mp ?_
    rw [valid'.bagCount, valid.bagCount, hBag]
  have hDrawCount : d'.drawCount = d.drawCount := by
    refine UInt8.toNat_inj.mp ?_
    rw [valid'.drawCount, valid.drawCount]
    change (g'.bag.drawUpTo d'.refill).1.length = (g.bag.drawUpTo d.refill).1.length
    rw [Bag.drawUpTo_length, Bag.drawUpTo_length, h.bag, hRefill]
  have hMid : Recommitted (d.mid g player) (d'.mid g' player) := by
    simp only [Recommitted, PlacementStep.mid]
    rw [hState, hPlacements, hUpdated, hVersion, hTurns, hNext, hCounts, hBagCount]
  have hReason : d'.reason g' player = d.reason g player := by
    rw [PlacementStep.reason, PlacementStep.reason, hTurns]
    refine (placementReason_congr h.ruleset player hBag ?_ d.turns).symm
    rw [size_getD, size_getD, hRacks]
  have hCompleted' := valid'.completed
  rw [hReason] at hCompleted'
  obtain ⟨hFinal, hResult, hScores⟩ := completion_veiled (by rw [hState]) hMid
    (hReachable.ledger.active valid.phase).1
    (by simpa using congrArg List.length hRacks) valid.completed hCompleted'
  have hEvent : (d.event player).veiled = (d'.event player).veiled := by
    simp only [GameEvent.veiled, PlacementStep.event, GameEventKind.veiled, hVersion, hPlacements,
      hWords, hBonus, hScore, hDrawCount, hResult, hScores]
    obtain ⟨hLexicon, hCountsAfter, hBagAfter, hTurnsAfter, hNextAfter⟩ := shown_of_veiled hFinal
    rw [hLexicon, hCountsAfter, hBagAfter, hTurnsAfter, hNextAfter]
  exact ⟨h.ruleset, h.lexicon, hRacks, hBag, hFinal, h.events_concat hEvent⟩

theorem Similar.exchange {d d' : ExchangeStep} {tileIds tileIds' : List TileId} (h : Similar g g')
    (hReachable : Reachable platform g) (hReachable' : Reachable platform g')
    (valid : d.Valid platform g player tileIds) (valid' : d'.Valid platform g' player tileIds')
    (hLength : tileIds.length = tileIds'.length) :
    Similar (d.game platform g player tileIds) (d'.game platform g' player tileIds') := by
  have hState := h.recommitted hReachable hReachable' valid.phase valid'.phase
  have hReturned : d.returned.length = d'.returned.length := by
    rw [valid.returned_length, valid'.returned_length, hLength]
  have hKept : ((g.rack player).without (sortIds tileIds)).tiles.length =
      ((g'.rack player).without (sortIds tileIds')).tiles.length := by
    have hSize := valid.rack_length hReachable.shape hReachable.conserved
    have hSize' := valid'.rack_length hReachable'.shape hReachable'.conserved
    rw [← h.rack] at hSize'
    omega
  have hRacks : ((d.redraw g player tileIds).racks.map fun rack => rack.tiles.length) =
      (d'.redraw g' player tileIds').racks.map fun rack => rack.tiles.length := by
    rw [ExchangeStep.redraw, ExchangeStep.redraw, redraw_sizes, redraw_sizes, h.racks, hKept,
      hReturned, h.bag]
  have hBag : (d.bag platform g player tileIds).tiles.length =
      (d'.bag platform g' player tileIds').tiles.length := by
    rw [valid.bag_length hReachable.shape hReachable.conserved hReachable.filled,
      valid'.bag_length hReachable'.shape hReachable'.conserved hReachable'.filled, h.bag]
  have hCounts := rackCounts_congr hRacks valid.counts valid'.counts
  have hVersion := hState.version valid.version valid'.version
  have hTurns := hState.turns valid.turns valid'.turns
  have hNext := h.next valid.nextPlayer valid'.nextPlayer
  have hBagCount : d'.bagCount = d.bagCount := by
    refine UInt16.toNat_inj.mp ?_
    rw [valid'.bagCount, valid.bagCount, hBag]
  have hMid : Recommitted (d.mid g) (d'.mid g') := by
    simp only [Recommitted, ExchangeStep.mid]
    rw [hState, hVersion, hTurns, hNext, hCounts, hBagCount]
  have hCompleted' := valid'.completed
  rw [Game.scorelessReason, hTurns, ← h.ruleset, ← Game.scorelessReason] at hCompleted'
  obtain ⟨hFinal, hResult, -⟩ := completion_veiled (by rw [hState]) hMid
    (hReachable.ledger.active valid.phase).1
    (by simpa using congrArg List.length hRacks) valid.completed hCompleted'
  have hEvent : (d.event player tileIds).veiled = (d'.event player tileIds').veiled := by
    have hIds : ((sortIds tileIds).map fun _ => (⟨0⟩ : TileId)) =
        (sortIds tileIds').map fun _ => ⟨0⟩ := by
      rw [List.map_const', List.map_const', (sortIds_perm tileIds).length_eq,
        (sortIds_perm tileIds').length_eq, hLength]
    obtain ⟨hLexicon, hCountsAfter, hBagAfter, hTurnsAfter, hNextAfter⟩ := shown_of_veiled hFinal
    simp only [GameEvent.veiled, ExchangeStep.event, GameEventKind.veiled, hVersion, hResult, hIds]
    rw [hLexicon, hCountsAfter, hBagAfter, hTurnsAfter, hNextAfter]
  exact ⟨h.ruleset, h.lexicon, hRacks, hBag, hFinal, h.events_concat hEvent⟩

theorem Similar.pass {d d' : PassStep} (h : Similar g g') (hReachable : Reachable platform g)
    (hReachable' : Reachable platform g') (valid : d.Valid g player) (valid' : d'.Valid g' player) :
    Similar (d.game g player) (d'.game g' player) := by
  have hState := h.recommitted hReachable hReachable' valid.phase valid'.phase
  have hVersion := hState.version valid.version valid'.version
  have hTurns := hState.turns valid.turns valid'.turns
  have hNext := h.next valid.nextPlayer valid'.nextPlayer
  have hMid : Recommitted (d.mid g) (d'.mid g') := by
    simp only [Recommitted, PassStep.mid]
    rw [hState, hVersion, hTurns, hNext]
  have hCompleted' := valid'.completed
  rw [Game.scorelessReason, hTurns, ← h.ruleset, ← Game.scorelessReason] at hCompleted'
  obtain ⟨hFinal, hResult, -⟩ := completion_veiled (by rw [hState]) hMid
    (hReachable.ledger.active valid.phase).1 h.players valid.completed hCompleted'
  have hEvent : (d.event player).veiled = (d'.event player).veiled := by
    obtain ⟨hLexicon, -, -, hTurnsAfter, hNextAfter⟩ := shown_of_veiled hFinal
    simp only [GameEvent.veiled, PassStep.event, GameEventKind.veiled, hVersion, hResult]
    rw [hLexicon, hTurnsAfter, hNextAfter]
  exact ⟨h.ruleset, h.lexicon, h.racks, h.bag, hFinal, h.events_concat hEvent⟩

theorem Similar.resign {d d' : ResignStep} (h : Similar g g') (hReachable : Reachable platform g)
    (hReachable' : Reachable platform g') (valid : d.Valid g player) (valid' : d'.Valid g' player) :
    Similar (d.game g player) (d'.game g' player) := by
  have hState := h.recommitted hReachable hReachable' valid.phase valid'.phase
  have hVersion := hState.version valid.version valid'.version
  have hMid : Recommitted (d.mid g) (d'.mid g') := by
    simp only [Recommitted, ResignStep.mid]
    rw [hState, hVersion]
  obtain ⟨hFinal, hResult, -⟩ := completion_veiled (by rw [hState]) hMid
    (hReachable.ledger.active valid.phase).1 h.players valid.commit.completed
    valid'.commit.completed
  have hEvent : (d.event player).veiled = (d'.event player).veiled := by
    have hLexicon : d.final.lexicon = d'.final.lexicon := (shown_of_veiled hFinal).1
    have hOutcome : d.result.veiled = d'.result.veiled := Option.some.inj hResult
    simp only [GameEvent.veiled, ResignStep.event, GameEventKind.veiled, hVersion, hLexicon, hOutcome]
  exact ⟨h.ruleset, h.lexicon, h.racks, h.bag, hFinal, h.events_concat hEvent⟩

/-- Actions that resemble each other keep two games alike. -/
theorem Similar.accepted {g₁ g₁' : Game} {action action' : Move} {event event' : GameEvent}
    (h : Similar g g') (hReachable : Reachable platform g) (hReachable' : Reachable platform g')
    (hMove : action.Resembles action') (hAccepted : Accepted platform g player action g₁ event)
    (hAccepted' : Accepted platform g' player action' g₁' event') : Similar g₁ g₁' := by
  cases hMove with
  | place placements =>
      cases hAccepted with
      | place d valid =>
          cases hAccepted' with
          | place d' valid' => exact h.place hReachable hReachable' valid valid'
  | exchange hLength =>
      cases hAccepted with
      | exchange d valid =>
          cases hAccepted' with
          | exchange d' valid' => exact h.exchange hReachable hReachable' valid valid' hLength
  | pass =>
      cases hAccepted with
      | pass d valid =>
          cases hAccepted' with
          | pass d' valid' => exact h.pass hReachable hReachable' valid valid'
  | resign =>
      cases hAccepted with
      | resign d valid =>
          cases hAccepted' with
          | resign d' valid' => exact h.resign hReachable hReachable' valid valid'

end

/-! Whole games. -/

section

variable {platform : Platform}

theorem Played.reachable {start g : Game} {actions : List (Player × Move)}
    (h : Played platform start actions g) (hStart : Reachable platform start) :
    Reachable platform g := by
  induction h with
  | nil => exact hStart
  | snoc _ last ih => exact ih.accept last

theorem played_nil {start g : Game} : Played platform start [] g ↔ g = start := by
  constructor
  · intro h
    generalize hActions : ([] : List (Player × Move)) = actions at h
    cases h with
    | nil => rfl
    | snoc _ _ => simp at hActions
  · rintro rfl
    exact .nil

theorem played_snoc {start g' : Game} {actions : List (Player × Move)} {player : Player}
    {action : Move} : Played platform start (actions ++ [(player, action)]) g' ↔
      ∃ g event, Played platform start actions g ∧ Accepted platform g player action g' event := by
  constructor
  · intro h
    generalize hActions : actions ++ [(player, action)] = all at h
    cases h with
    | nil => simp at hActions
    | snoc played last =>
        obtain ⟨rfl, hLast⟩ := List.append_inj' hActions rfl
        cases hLast
        exact ⟨_, _, played, last⟩
  · rintro ⟨g, event, played, last⟩
    exact played.snoc last

/-- Every deal has the same sizes. -/
theorem Creation.Valid.sizes {d : Creation} {ruleset : Ruleset} {seed : GameSeed} {playerCount : Nat}
    (h : d.Valid platform ruleset seed playerCount) :
    (d.deal.racks.map fun rack => rack.tiles.length) =
        List.replicate playerCount ruleset.game.rackCapacity.toNat ∧
      d.deal.bag.tiles.length + playerCount * ruleset.game.rackCapacity.toNat =
        (physicalTiles ruleset.game).length := by
  obtain ⟨-, seats, hSeats, hDeal⟩ := prepareInitialDealForPlayers_eq_ok.mp h.deal
  have hPlayers : d.deal.racks.length = playerCount := by
    rw [hDeal]
    exact (length_foldl_dealSeat ..).trans List.length_replicate
  have hRacks : (d.deal.racks.map fun rack => rack.tiles.length) =
      List.replicate playerCount ruleset.game.rackCapacity.toNat := by
    refine List.eq_replicate_iff.mpr ⟨(List.length_map _).trans hPlayers, fun n hn => ?_⟩
    obtain ⟨rack, hRack, rfl⟩ := List.mem_map.mp hn
    rw [hDeal] at hRack
    exact initialDeal_rack h.builtin hSeats hRack
  refine ⟨hRacks, ?_⟩
  have hPerm := (@initialDeal_perm platform ruleset seed _ _ hSeats).length_eq
  rw [← hDeal, List.length_append, List.length_flatMap, hRacks, List.sum_replicate] at hPerm
  exact hPerm

/-- Two deals of the same table look alike. -/
theorem similar_of_create {gameId : String} {ruleset : Ruleset} {lexicon : Option WordValidator}
    {seed seed' : GameSeed} {mode : GameMode} {playerCount : Nat} {g g' : Game}
    (h : Game.createWithModeAndPlayers platform gameId ruleset lexicon seed mode playerCount = .ok g)
    (h' : Game.createWithModeAndPlayers platform gameId ruleset lexicon seed' mode playerCount =
      .ok g') : Similar g g' := by
  obtain ⟨d, rfl, hValid, rfl⟩ := createWithModeAndPlayers_eq_ok.mp h
  obtain ⟨d', hLexicon, hValid', rfl⟩ := createWithModeAndPlayers_eq_ok.mp h'
  have hValidator : d.validator = d'.validator := Option.some.inj hLexicon
  obtain ⟨hRacks, hBag⟩ := hValid.sizes
  obtain ⟨hRacks', hBag'⟩ := hValid'.sizes
  have hCounts : d.counts = d'.counts := by
    have hSame := hValid'.counts
    rw [rackCounts_eq_mapM, hRacks', ← hRacks, ← rackCounts_eq_mapM, hValid.counts] at hSame
    exact Except.ok.inj hSame
  have hBagCount : d.bagCount = d'.bagCount := by
    refine UInt16.toNat_inj.mp ?_
    rw [hValid.bagCount, hValid'.bagCount]
    omega
  have hAlgorithm : d.deal.algorithm = d'.deal.algorithm := by
    obtain ⟨-, _, -, hDeal⟩ := prepareInitialDealForPlayers_eq_ok.mp hValid.deal
    obtain ⟨-, _, -, hDeal'⟩ := prepareInitialDealForPlayers_eq_ok.mp hValid'.deal
    rw [hDeal, hDeal']
  refine ⟨rfl, hValidator, hRacks.trans hRacks'.symm, ?_, ?_, ?_⟩
  · change d.deal.bag.tiles.length = d'.deal.bag.tiles.length
    omega
  · simp only [Creation.game, Creation.state, PublicGameState.veiled, hCounts, hBagCount, hAlgorithm,
      hValidator]
  · simp only [Creation.game, Creation.event, List.map_singleton, GameEvent.veiled,
      GameEventKind.veiled, hCounts, hBagCount, hAlgorithm, hValidator]

theorem forall₂_concat {α β : Type} {r : α → β → Prop} {xs : List α} {x : α} {ys : List β}
    (h : List.Forall₂ r (xs ++ [x]) ys) :
    ∃ front last, ys = front ++ [last] ∧ List.Forall₂ r xs front ∧ r x last := by
  rcases ys.eq_nil_or_concat with rfl | ⟨front, last, rfl⟩
  · have hLength := h.length_eq
    simp at hLength
  · rw [List.concat_eq_append] at h ⊢
    rw [← List.forall₂_reverse_iff, List.reverse_append, List.reverse_append] at h
    obtain ⟨hLast, hFront⟩ := List.forall₂_cons.mp h
    exact ⟨front, last, rfl, List.forall₂_reverse_iff.mp hFront, hLast⟩

theorem similar_of_played {start start' g g' : Game} {actions actions' : List (Player × Move)}
    (hStart : Reachable platform start) (hStart' : Reachable platform start')
    (hSimilar : Similar start start') (h : Played platform start actions g)
    (h' : Played platform start' actions' g')
    (hActions : List.Forall₂ (fun a b => a.1 = b.1 ∧ a.2.Resembles b.2) actions actions') :
    Similar g g' := by
  induction h generalizing actions' g' with
  | nil =>
      cases hActions
      rw [played_nil.mp h']
      exact hSimilar
  | @snoc actions g g₁ player action event played last ih =>
      obtain ⟨front, ⟨player', action'⟩, rfl, hFront, hSeat, hMove⟩ := forall₂_concat hActions
      obtain ⟨g', event', played', last'⟩ := played_snoc.mp h'
      obtain rfl : player = player' := hSeat
      exact (ih played' hFront).accepted (played.reachable hStart) (played'.reachable hStart') hMove
        last last'

/-- The public view of a game is decided by what the table saw: the placements, the seats and how
many tiles each exchange took. Only the seed commitment, the tiles an exchange names and the value
of the racks at the end depend on more. -/
theorem public_view_decided {gameId : String} {ruleset : Ruleset} {lexicon : Option WordValidator}
    {seed seed' : GameSeed} {mode : GameMode} {playerCount : Nat} {start start' g g' : Game}
    {actions actions' : List (Player × Move)}
    (hCreate : Game.createWithModeAndPlayers platform gameId ruleset lexicon seed mode playerCount =
      .ok start)
    (hCreate' : Game.createWithModeAndPlayers platform gameId ruleset lexicon seed' mode playerCount =
      .ok start')
    (hPlayed : Played platform start actions g) (hPlayed' : Played platform start' actions' g')
    (hActions : List.Forall₂ (fun a b => a.1 = b.1 ∧ a.2.Resembles b.2) actions actions') :
    g.publicProjection.veiled = g'.publicProjection.veiled := by
  have hStart : Reachable platform start :=
    System.Reachable.initial ⟨_, _, _, _, _, _, hCreate⟩
  have hStart' : Reachable platform start' :=
    System.Reachable.initial ⟨_, _, _, _, _, _, hCreate'⟩
  have hSimilar := similar_of_played hStart hStart' (similar_of_create hCreate hCreate') hPlayed
    hPlayed' hActions
  rw [PublicProjection.veiled, PublicProjection.veiled]
  simp only [Game.publicProjection, hSimilar.state, hSimilar.events]

/-- Two deals from different seeds, after a pass in each. -/
theorem passed_views_agree : ∃ g g' : Game, g.seed ≠ g'.seed ∧ g.state.version = 1 ∧
    g.publicProjection.veiled = g'.publicProjection.veiled := by
  obtain ⟨english, hLexicon⟩ : ∃ english : WordValidator,
      (Ruleset.builtin .englishV1).lexicon = english.identity := ⟨⟨_, fun _ => true⟩, rfl⟩
  have hBuiltin : Ruleset.builtin .englishV1 =
      Ruleset.builtin (Ruleset.builtin .englishV1).id := by rw [builtin_id]
  have hDealt : ∀ seed : GameSeed, ∃ start g, Game.createWithModeAndPlayers basicPlatform "game-1"
      (Ruleset.builtin .englishV1) (some english) seed .competitive 2 = .ok start ∧
      Played basicPlatform start [(.one, .pass)] g ∧ g.seed = seed ∧ g.state.version = 1 := by
    intro seed
    obtain ⟨start, hStart⟩ := @create_succeeds basicPlatform "game-1" _ _ seed .competitive 2
      hBuiltin hLexicon ⟨by omega, by omega⟩
    have hReachable : Reachable basicPlatform start :=
      System.Reachable.initial ⟨_, _, _, _, _, _, hStart⟩
    have hFresh := hStart
    obtain ⟨_, -, -, rfl⟩ := createWithModeAndPlayers_eq_ok.mp hFresh
    obtain ⟨d, valid⟩ := hReachable.pass_valid rfl
    have hPlayed := (@Played.nil basicPlatform _).snoc (.pass d valid)
    refine ⟨_, _, hStart, hPlayed, rfl, ?_⟩
    have hVersion : d.final.version = d.version := by
      rw [completeWhen_frame valid.completed]
      rfl
    refine UInt64.toNat_inj.mp ?_
    change d.final.version.toNat = 1
    rw [hVersion, valid.version]
    rfl
  obtain ⟨start, g, hCreate, hPlayed, hSeed, hVersion⟩ := hDealt ⟨Vector.replicate 32 0⟩
  obtain ⟨start', g', hCreate', hPlayed', hSeed', -⟩ := hDealt ⟨Vector.replicate 32 1⟩
  refine ⟨g, g', ?_, hVersion, public_view_decided hCreate hCreate' hPlayed hPlayed'
    (.cons ⟨rfl, .pass⟩ .nil)⟩
  intro hSame
  rw [hSeed, hSeed', GameSeed.mk.injEq] at hSame
  have hFirst := congrArg (fun bytes : Vector UInt8 32 => bytes[0]) hSame
  simp at hFirst

/-! What the table learns from an exchange. -/

/-- The faces of exchanged tiles follow from the rules and the tiles the event names. -/
def FacesTold (g : Game) : Prop :=
  ∀ event ∈ g.events, ∀ player tileIds counts bagCount turns next result,
    event.kind = .exchanged player tileIds counts bagCount turns next result →
    ∃ transition ∈ g.privateEvents, transition.sequence = event.sequence ∧
      transition.seat = player ∧ transition.removed = tileIds.filterMap fun id =>
        (physicalTiles g.ruleset.game).find? fun tile => tile.id = id

theorem returned_told {g : Game} {player : Player} {d : ExchangeStep} {tileIds : List TileId}
    (valid : d.Valid platform g player tileIds) (hShape : Shape g) (hConserved : Conserved g) :
    d.returned = (sortIds tileIds).filterMap fun id =>
      (physicalTiles g.ruleset.game).find? fun tile => tile.id = id := by
  have hSeat : player.index < g.racks.length := valid.turn ▸ hShape.turn
  have hNodup := physicalTiles_ids_nodup (builtin_size hShape.builtin)
  have hListed : List.Forall₂ (fun id tile => tile ∈ physicalTiles g.ruleset.game ∧ tile.id = id)
      (sortIds tileIds) d.returned := by
    refine valid.taken.imp fun id tile hTile => ⟨hConserved.tiles.mem_iff.mp ?_, hTile.2⟩
    exact List.mem_append_left _ (List.mem_append_right _
      (List.mem_flatMap.mpr ⟨_, rack_mem hSeat, hTile.1⟩))
  refine Slots.forall₂_unique ?_ hListed (Slots.forall₂_filterMap fun id hId => ?_)
  · rintro id a b ⟨ha, rfl⟩ ⟨hb, hSame⟩
    exact List.inj_on_of_nodup_map hNodup ha hb hSame.symm
  · obtain ⟨tile, -, hTile⟩ := Slots.exists_of_forall₂_left hListed hId
    cases hFind : (physicalTiles g.ruleset.game).find? fun tile => tile.id = id with
    | none =>
        have hNone := List.find?_eq_none.mp hFind tile hTile.1
        exact absurd hTile.2 (by simpa using hNone)
    | some found => exact ⟨found, rfl, List.mem_of_find?_eq_some hFind,
        by simpa using List.find?_some hFind⟩

/-- An exchange names its tiles to the whole table, so their faces are public. -/
theorem exchanges_tell_faces {g : Game} (h : Reachable platform g) : FacesTold g := by
  refine Reachable.invariant FacesTold ?_ ?_ h
  · intro d gameId ruleset seed mode playerCount _ event hEvent player tileIds counts bagCount turns
      next result hKind
    rw [Creation.game, List.mem_singleton] at hEvent
    rw [hEvent] at hKind
    cases hKind
  · intro g player action g' event hReachable hTold hAccepted
    have hNew : ∀ seat tileIds counts bagCount turns next result,
        event.kind = .exchanged seat tileIds counts bagCount turns next result →
        ∃ transition ∈ g'.privateEvents, transition.sequence = event.sequence ∧
          transition.seat = seat ∧ transition.removed = tileIds.filterMap fun id =>
            (physicalTiles g.ruleset.game).find? fun tile => tile.id = id := by
      intro seat tileIds counts bagCount turns next result hKind
      cases hAccepted with
      | exchange d valid =>
          cases hKind
          exact ⟨d.privateEvent g player _, List.mem_append_right _ (List.mem_singleton.mpr rfl), rfl,
            rfl, returned_told valid hReachable.shape hReachable.conserved⟩
      | place d valid => cases hKind
      | pass d valid => cases hKind
      | resign d valid => cases hKind
    obtain ⟨c, -, rfl, rfl⟩ := hAccepted.commit
    intro event hEvent seat tileIds counts bagCount turns next result hKind
    rcases List.mem_append.mp hEvent with hOld | hLast
    · obtain ⟨transition, hMem, hTransition⟩ :=
        hTold event hOld seat tileIds counts bagCount turns next result hKind
      exact ⟨transition, List.mem_append_left _ hMem, hTransition⟩
    · obtain rfl := List.mem_singleton.mp hLast
      exact hNew seat tileIds counts bagCount turns next result hKind

/-- A game with an exchange, whose faces are told. -/
theorem exchanged_faces_told : ∃ g : Game, FacesTold g ∧ ∃ event ∈ g.events,
    ∃ player tileIds counts bagCount turns next result,
      event.kind = .exchanged player tileIds counts bagCount turns next result := by
  have hBuiltin : Ruleset.builtin .englishV1 =
      Ruleset.builtin (Ruleset.builtin .englishV1).id := by rw [builtin_id]
  obtain ⟨english, hLexicon⟩ : ∃ english : WordValidator,
      (Ruleset.builtin .englishV1).lexicon = english.identity := ⟨⟨_, fun _ => true⟩, rfl⟩
  obtain ⟨start, hStart⟩ := @create_succeeds basicPlatform "game-1" _ _ ⟨Vector.replicate 32 0⟩
    .competitive 2 hBuiltin hLexicon ⟨by omega, by omega⟩
  have hReachable : Reachable basicPlatform start :=
    System.Reachable.initial ⟨_, _, _, _, _, _, hStart⟩
  obtain ⟨creation, -, hValid, rfl⟩ := createWithModeAndPlayers_eq_ok.mp hStart
  obtain ⟨tile, g, event, -, -, hExchange, hPlayed, -⟩ := hReachable.exchange_first rfl
    (Nat.le_trans (by omega) hValid.bag_length)
      (show (0 : UInt8).toNat + 1 < 6 by decide)
  obtain ⟨-, d, -, rfl, rfl⟩ := exchangeTiles_eq_ok.mp hExchange
  exact ⟨_, exchanges_tell_faces hPlayed, _, List.mem_append_right _ (List.mem_singleton.mpr rfl),
    _, _, _, _, _, _, _, rfl⟩

end

end WordArena.Engine
