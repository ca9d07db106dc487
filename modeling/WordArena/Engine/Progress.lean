import WordArena.Engine.Refill

/-! A measure that every accepted action increases. Tiles on the board never
leave it, and the scoreless counter is below its limit while the game goes on,
so a limit's worth of turns per tile bounds the version. -/
namespace WordArena.Engine

open Fallible

def Game.tilesOnBoard (g : Game) : Nat := g.state.board.reduceOption.length

/-- Points recorded by an event. -/
def GameEventKind.points : GameEventKind → Nat
  | .movePlayed _ _ _ _ score _ _ _ _ _ _ _ => score.toNat
  | _ => 0

theorem nextScoreless_eq_ok {current turns : UInt8} {score : UInt32} :
    nextScoreless current score = .ok turns ↔
      (score = 0 ∧ turns.toNat = current.toNat + 1) ∨ (score ≠ 0 ∧ turns = 0) := by
  by_cases hScore : score = 0
  · simp [nextScoreless, hScore]
  · simp [nextScoreless, hScore, eq_comm]

theorem scorelessReason_eq_none {g : Game} {turns : UInt8} :
    g.scorelessReason turns = none ↔ turns.toNat < g.ruleset.game.scorelessTurnLimit.toNat := by
  simp [Game.scorelessReason, UInt8.lt_iff_toNat_lt]

theorem placementReason_eq_none {g : Game} {player : Player} {bag : Bag} {rack : Rack}
    {turns : UInt8} (h : g.placementReason player bag rack turns = none) :
    turns.toNat < g.ruleset.game.scorelessTurnLimit.toNat := by
  unfold Game.placementReason at h
  split at h
  · cases h
  · exact scorelessReason_eq_none.mp h

/-- The board holds only tiles of the distribution. -/
theorem Conserved.tilesOnBoard_le {g : Game} (h : Conserved g) :
    g.tilesOnBoard ≤ g.ruleset.game.totalTiles := by
  have hLength := h.tiles.length_eq
  rw [physicalTiles_length, locations, List.length_append, List.length_map] at hLength
  rw [Game.tilesOnBoard]
  omega

/-- A legal placement adds one board tile per placement. -/
theorem Legal.tilesOnBoard {platform : Platform} {g : Game} {player : Player} {m : PreparedMove}
    {o : Orientation} (h : Legal platform g player m o) (hShape : Shape g) :
    (placeOnBoard g.state.board m.placements).reduceOption.length =
      m.placements.length + g.tilesOnBoard := by
  rw [(h.placeOnBoard_perm hShape).length_eq, List.length_append, List.length_map]
  rfl

/-- What one accepted action does to the measure. -/
inductive Advance (g g' : Game) (action : Move) (event : GameEvent) : Prop where
  | scored (points : 0 < event.kind.points) (board : g.tilesOnBoard < g'.tilesOnBoard)
      (turns : g'.state.scorelessTurns = 0)
  | scoreless (points : event.kind.points = 0) (board : g.tilesOnBoard ≤ g'.tilesOnBoard)
      (turns : g'.state.scorelessTurns.toNat = g.state.scorelessTurns.toNat + 1)
  | resigned (resigns : action = .resign) (points : event.kind.points = 0)
      (board : g.tilesOnBoard = g'.tilesOnBoard) (phase : g'.state.phase = .finished)

theorem Accepted.advance {platform : Platform} {g g' : Game} {player : Player} {action : Move}
    {event : GameEvent} (h : Accepted platform g player action g' event) (hShape : Shape g) :
    Advance g g' action event := by
  cases h with
  | place d valid =>
      obtain ⟨o, hLegal⟩ := legal_of_preparePlacement valid.prepare
      have hTurns : d.final.scorelessTurns = d.turns := valid.commit.final_scorelessTurns
      have hBoard : (d.game g player).tilesOnBoard =
          d.prepared.placements.length + g.tilesOnBoard := by
        rw [← hLegal.tilesOnBoard hShape]
        change d.final.board.reduceOption.length = _
        rw [show d.final.board = _ from valid.commit.final_board]
        rfl
      have hNew : 0 < d.prepared.placements.length := List.length_pos_iff.mpr hLegal.nonempty
      rcases nextScoreless_eq_ok.mp valid.turns with ⟨hScore, hNext⟩ | ⟨hScore, hNext⟩
      · refine .scoreless ?_ (by omega) ?_
        · change d.prepared.score.toNat = 0
          rw [hScore]
          rfl
        · change d.final.scorelessTurns.toNat = _
          rw [hTurns, hNext]
      · refine .scored ?_ (by omega) ?_
        · change 0 < d.prepared.score.toNat
          exact Nat.pos_of_ne_zero fun hZero => hScore (UInt32.toNat_inj.mp hZero)
        · change d.final.scorelessTurns = 0
          rw [hTurns, hNext]
  | exchange d valid =>
      have hTurns : d.final.scorelessTurns = d.turns := valid.commit.final_scorelessTurns
      have hBoard : d.final.board = g.state.board := valid.commit.final_board
      refine .scoreless rfl ?_ ?_
      · change g.state.board.reduceOption.length ≤ d.final.board.reduceOption.length
        rw [hBoard]
      · change d.final.scorelessTurns.toNat = _
        rw [hTurns, valid.turns]
  | pass d valid =>
      have hTurns : d.final.scorelessTurns = d.turns := valid.commit.final_scorelessTurns
      have hBoard : d.final.board = g.state.board := valid.commit.final_board
      refine .scoreless rfl ?_ ?_
      · change g.state.board.reduceOption.length ≤ d.final.board.reduceOption.length
        rw [hBoard]
      · change d.final.scorelessTurns.toNat = _
        rw [hTurns, valid.turns]
  | resign d valid =>
      have hBoard : d.final.board = g.state.board := valid.commit.final_board
      obtain ⟨_, _, -, -, -, hFinal⟩ := completeState_eq_ok.mp valid.completed
      refine .resigned rfl rfl ?_ ?_
      · change g.state.board.reduceOption.length = d.final.board.reduceOption.length
        rw [hBoard]
      · change d.final.phase = .finished
        rw [hFinal]

/-- The counter stays below its limit while the game goes on. -/
theorem Accepted.below_limit {platform : Platform} {g g' : Game} {player : Player} {action : Move}
    {event : GameEvent} (h : Accepted platform g player action g' event)
    (hPhase : g'.state.phase = .active) :
    g'.state.scorelessTurns.toNat < g.ruleset.game.scorelessTurnLimit.toNat := by
  cases h with
  | place d valid =>
      have hTurns : d.final.scorelessTurns = d.turns := valid.commit.final_scorelessTurns
      change d.final.scorelessTurns.toNat < _
      rw [hTurns]
      exact placementReason_eq_none (valid.commit.active_iff.mp hPhase)
  | exchange d valid =>
      have hTurns : d.final.scorelessTurns = d.turns := valid.commit.final_scorelessTurns
      change d.final.scorelessTurns.toNat < _
      rw [hTurns]
      exact scorelessReason_eq_none.mp (valid.commit.active_iff.mp hPhase)
  | pass d valid =>
      have hTurns : d.final.scorelessTurns = d.turns := valid.commit.final_scorelessTurns
      change d.final.scorelessTurns.toNat < _
      rw [hTurns]
      exact scorelessReason_eq_none.mp (valid.commit.active_iff.mp hPhase)
  | resign d valid => cases valid.commit.active_iff.mp hPhase

/-- The version is paid for by tiles on the board and by scoreless turns. -/
structure Paced (g : Game) : Prop where
  turns : g.state.phase = .active →
    g.state.scorelessTurns.toNat < g.ruleset.game.scorelessTurnLimit.toNat
  active : g.state.phase = .active →
    g.state.version.toNat ≤ g.ruleset.game.scorelessTurnLimit.toNat * g.tilesOnBoard +
      g.state.scorelessTurns.toNat
  version : g.state.version.toNat ≤
    g.ruleset.game.scorelessTurnLimit.toNat * (g.tilesOnBoard + 1)

theorem Paced.accepted {platform : Platform} {g g' : Game} {player : Player} {action : Move}
    {event : GameEvent} (h : Paced g) (hShape : Shape g)
    (hAccepted : Accepted platform g player action g' event) : Paced g' := by
  obtain ⟨c, hValid, hGame, -⟩ := hAccepted.commit
  have hVersion : g'.state.version.toNat = g.state.version.toNat + 1 := by
    rw [hGame]
    exact hValid.final_version
  have hRuleset : g'.ruleset = g.ruleset := by
    rw [hGame]
    rfl
  have hBefore := h.active hValid.phase
  have hLimit := h.turns hValid.phase
  have hAfter := hAccepted.below_limit
  rw [← hRuleset] at hBefore hLimit hAfter
  refine ⟨hAfter, fun hPhase => ?_, ?_⟩
  · rw [hVersion]
    cases hAccepted.advance hShape with
    | scored _ hBoard hTurns =>
        have := Nat.mul_le_mul_left g'.ruleset.game.scorelessTurnLimit.toNat hBoard
        rw [Nat.mul_succ] at this
        omega
    | scoreless _ hBoard hTurns =>
        have := Nat.mul_le_mul_left g'.ruleset.game.scorelessTurnLimit.toNat hBoard
        omega
    | resigned _ _ _ hFinished =>
        rw [hFinished] at hPhase
        cases hPhase
  · rw [hVersion, Nat.mul_succ]
    have hBoard : g.tilesOnBoard ≤ g'.tilesOnBoard := by
      cases hAccepted.advance hShape with
      | scored _ hBoard _ => exact hBoard.le
      | scoreless _ hBoard _ => exact hBoard
      | resigned _ _ hBoard _ => exact hBoard.le
    have := Nat.mul_le_mul_left g'.ruleset.game.scorelessTurnLimit.toNat hBoard
    omega

theorem Reachable.paced {platform : Platform} {g : Game} (h : Reachable platform g) : Paced g := by
  refine Reachable.invariant Paced ?_ ?_ h
  · intro d gameId ruleset seed mode playerCount hValid
    refine ⟨fun _ => ?_, fun _ => Nat.zero_le _, Nat.zero_le _⟩
    rw [(Shape.create hValid).scorelessTurnLimit]
    exact Nat.succ_pos 5
  · intro g player action g' event hReachable hPaced hAccepted
    exact hPaced.accepted hReachable.shape hAccepted

/-- No reachable game has seen more turns than the limit allows per tile. -/
theorem Reachable.version_le {platform : Platform} {g : Game} (h : Reachable platform g) :
    g.state.version.toNat ≤
      g.ruleset.game.scorelessTurnLimit.toNat * (g.ruleset.game.totalTiles + 1) := by
  have hTiles := h.conserved.tilesOnBoard_le
  exact h.paced.version.trans (Nat.mul_le_mul_left _ (Nat.succ_le_succ hTiles))

end WordArena.Engine
