import WordArena.Engine.Completion
import WordArena.Engine.Deal
import WordArena.Engine.Step

/-! The table of every reachable game: a built-in ruleset with its own
dictionary, two to four seats, one score per seat and a board of fixed size. -/
namespace WordArena.Engine

/-- Facts that no accepted action can disturb. -/
structure Shape (g : Game) : Prop where
  builtin : g.ruleset = Ruleset.builtin g.ruleset.id
  lexicon : g.ruleset.lexicon = g.lexicon.identity
  players : 2 ≤ g.racks.length ∧ g.racks.length ≤ 4
  scores : g.state.scores.length = g.racks.length
  turn : g.state.currentPlayer.index < g.racks.length
  board : g.state.board.length = boardSquares

namespace Shape

variable {g : Game}

/-! The limits of a built-in ruleset, as numbers. -/

theorem rackCapacity (h : Shape g) : g.ruleset.game.rackCapacity.toNat = 7 := by
  rw [h.builtin, (builtin_limits g.ruleset.id).1]
  rfl

theorem bingoBonus (h : Shape g) : g.ruleset.game.bingoBonus = 50 := by
  rw [h.builtin, (builtin_limits g.ruleset.id).2.1]

theorem exchangeMinimum (h : Shape g) : g.ruleset.game.exchangeMinimum.toNat = 7 := by
  rw [h.builtin, (builtin_limits g.ruleset.id).2.2.1]
  rfl

theorem scorelessTurnLimit (h : Shape g) : g.ruleset.game.scorelessTurnLimit.toNat = 6 := by
  rw [h.builtin, (builtin_limits g.ruleset.id).2.2.2]
  rfl

theorem totalTiles (h : Shape g) :
    100 ≤ g.ruleset.game.totalTiles ∧ g.ruleset.game.totalTiles ≤ 102 := by
  rw [h.builtin]
  exact builtin_totalTiles_bounds g.ruleset.id

end Shape

namespace Commit.Valid

variable {c : Commit} {g : Game} {player : Player}

/-- Completion changes the scores, the phase and the result only. -/
theorem final_frame (h : c.Valid g player) :
    c.final = { c.mid with
      scores := c.final.scores, phase := c.final.phase, result := c.final.result } :=
  completeWhen_frame h.completed

theorem final_board (h : c.Valid g player) : c.final.board = c.mid.board := by
  rw [h.final_frame]

theorem final_currentPlayer (h : c.Valid g player) :
    c.final.currentPlayer = c.mid.currentPlayer := by
  rw [h.final_frame]

theorem final_version (h : c.Valid g player) :
    c.final.version.toNat = g.state.version.toNat + 1 := by
  rw [h.final_frame]
  exact h.version

theorem final_scorelessTurns (h : c.Valid g player) :
    c.final.scorelessTurns = c.mid.scorelessTurns := by
  rw [h.final_frame]

theorem final_counts (h : c.Valid g player) :
    c.final.rackCounts = c.mid.rackCounts ∧ c.final.bagCount = c.mid.bagCount := by
  rw [h.final_frame]
  exact ⟨rfl, rfl⟩

/-- A game goes on unchanged, or ends with adjusted scores. -/
theorem ending (h : c.Valid g player) (hShape : Shape g) :
    (c.reason = none ∧ c.final = c.mid ∧ c.result = none) ∨
    ∃ why active outcome, c.reason = some why ∧ c.result = some outcome ∧
      Seat.active c.racks.length = some active ∧
      Shifted c.mid.scores c.final.scores (adjustment g.ruleset c.racks active why) ∧
      outcome = g.resultOf c.mid active c.final.scores why ∧
      c.final.phase = .finished ∧ c.final.result = some outcome := by
  rcases completeWhen_eq_ok.mp h.completed with h' | ⟨why, outcome, hWhy, hState, hResult⟩
  · exact .inl h'
  · obtain ⟨active, scores, hActive, hScores, hOutcome, hFinal⟩ := completeState_eq_ok.mp hState
    have hLength : c.mid.scores.length = c.racks.length := by
      rw [h.scores_length, hShape.scores, h.racks_length]
    have hShift : Shifted c.mid.scores scores (adjustment g.ruleset c.racks active why) := by
      refine finalScores_shifted (hLength ▸ hActive) (fun outgoing hOutgoing => ?_) hScores
      rw [h.actor outgoing (.inl (hOutgoing ▸ hWhy)), hLength, h.racks_length, h.turn]
      exact hShape.turn
    refine .inr ⟨why, active, outcome, hWhy, hResult, hActive, ?_, ?_, ?_, ?_⟩
    · rw [hFinal]
      exact hShift
    · rw [hFinal]
      exact hOutcome
    · rw [hFinal]
    · rw [hFinal]

theorem final_scores_length (h : c.Valid g player) (hShape : Shape g) :
    c.final.scores.length = g.state.scores.length := by
  rcases h.ending hShape with ⟨-, hFinal, -⟩ | ⟨why, active, outcome, -, -, -, hShift, -⟩
  · rw [hFinal, h.scores_length]
  · rw [hShift.1, h.scores_length]

end Commit.Valid

theorem Shape.commit {g : Game} {player : Player} {c : Commit} (hShape : Shape g)
    (h : c.Valid g player) : Shape (c.game g) where
  builtin := hShape.builtin
  lexicon := hShape.lexicon
  players := by
    have := hShape.players
    rwa [← h.racks_length] at this
  scores := by
    change c.final.scores.length = c.racks.length
    rw [h.final_scores_length hShape, h.racks_length, hShape.scores]
  turn := by
    change c.final.currentPlayer.index < c.racks.length
    rw [h.final_currentPlayer, h.racks_length]
    rcases h.nextPlayer with hSame | hNext
    · rw [hSame]
      exact hShape.turn
    · obtain ⟨next, hSome, hIndex⟩ := Seat.next_eq_some g.state.currentPlayer hShape.players
      rw [hNext, Option.some.injEq] at hSome
      rwa [hSome]
  board := by
    change c.final.board.length = boardSquares
    rw [h.final_board, h.board_length, hShape.board]

theorem Shape.create {d : Creation} {platform : Platform} {gameId : String} {ruleset : Ruleset}
    {seed : GameSeed} {mode : GameMode} {playerCount : Nat}
    (h : d.Valid platform ruleset seed playerCount) :
    Shape (d.game platform gameId ruleset seed mode playerCount) := by
  obtain ⟨-, seats, hSeats, hDeal⟩ := prepareInitialDealForPlayers_eq_ok.mp h.deal
  obtain ⟨hPlayers, -⟩ := Seat.active_eq_some.mp hSeats
  have hRacks : d.deal.racks.length = playerCount := by
    rw [hDeal]
    exact (length_foldl_dealSeat ..).trans List.length_replicate
  refine ⟨h.builtin, h.lexicon, ?_, ?_, ?_, ?_⟩
  · rwa [← hRacks] at hPlayers
  · exact List.length_replicate.trans hRacks.symm
  · change 0 < d.deal.racks.length
    omega
  · exact List.length_replicate

theorem Reachable.shape {platform : Platform} {g : Game} (h : Reachable platform g) : Shape g := by
  refine Reachable.invariant Shape ?_ ?_ h
  · intro d gameId ruleset seed mode playerCount hValid
    exact Shape.create hValid
  · intro g player action g' event _ hShape hAccepted
    obtain ⟨c, hValid, rfl, -⟩ := hAccepted.commit
    exact hShape.commit hValid

end WordArena.Engine
