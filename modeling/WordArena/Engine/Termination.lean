import WordArena.Engine.Totality

/-! Every game ends. The version grows with every accepted action and is
bounded by the measure of `Progress`, so accepted actions run out; until then
the version never reaches the end of its width. -/
namespace WordArena.Engine

/-- No reachable game has seen more turns than the built-in rules allow. -/
theorem Reachable.version_le_builtin {platform : Platform} {g : Game} (h : Reachable platform g) :
    g.state.version.toNat ≤ 6 * 103 := by
  have hVersion := h.version_le
  have hTiles := h.shape.totalTiles
  rw [h.shape.scorelessTurnLimit] at hVersion
  omega

/-- An accepted action takes the next version. -/
theorem Accepted.version {platform : Platform} {g g' : Game} {player : Player} {action : Move}
    {event : GameEvent} (h : Accepted platform g player action g' event) :
    g'.state.version.toNat = g.state.version.toNat + 1 := by
  obtain ⟨c, hValid, rfl, -⟩ := h.commit
  exact hValid.final_version

/-- Only a resignation leaves the counter alone without scoring. -/
theorem Accepted.counted {platform : Platform} {g g' : Game} {player : Player} {action : Move}
    {event : GameEvent} (h : Accepted platform g player action g' event) (hShape : Shape g)
    (hAction : action ≠ .resign) (hPoints : event.kind.points = 0) :
    g'.state.scorelessTurns.toNat = g.state.scorelessTurns.toNat + 1 := by
  cases h.advance hShape with
  | scored hScored _ _ => omega
  | scoreless _ _ hTurns => exact hTurns
  | resigned hResigns _ _ _ => exact absurd hResigns hAction

theorem Accepted.extends_board {platform : Platform} {g g' : Game} {player : Player}
    {action : Move} {event : GameEvent} (h : Accepted platform g player action g' event)
    (hShape : Shape g) (hPoints : 0 < event.kind.points) : g.tilesOnBoard < g'.tilesOnBoard := by
  cases h.advance hShape with
  | scored _ hBoard _ => exact hBoard
  | scoreless hZero _ _ => omega
  | resigned _ hZero _ _ => omega

/-- The version of a reachable game is bounded by the scoreless limit and the
tiles, the counter stays below the limit while the game goes on, scoring uses
up tiles and every other action but a resignation uses up turns. Hence no
sequence of accepted actions is endless and the version never overflows. -/
theorem reachable_games_end {platform : Platform} {g : Game} (h : Reachable platform g) :
    g.state.version.toNat ≤
      g.ruleset.game.scorelessTurnLimit.toNat * (g.ruleset.game.totalTiles + 1) ∧
    (g.state.phase = .active →
      g.state.scorelessTurns.toNat < g.ruleset.game.scorelessTurnLimit.toNat) ∧
    (∀ player version action g' event,
      g.applyMove platform player version action = .ok (g', event) →
      g'.state.version.toNat = g.state.version.toNat + 1 ∧
      (0 < event.kind.points → g.tilesOnBoard < g'.tilesOnBoard) ∧
      (event.kind.points = 0 → action ≠ .resign →
        g'.state.scorelessTurns.toNat = g.state.scorelessTurns.toNat + 1)) ∧
    (¬ ∃ run : Nat → Game, run 0 = g ∧ ∀ n, ∃ player version action event,
      (run n).applyMove platform player version action = .ok (run (n + 1), event)) ∧
    (∀ player version action,
      g.applyMove platform player version action ≠ .error .versionOverflow) := by
  refine ⟨h.version_le, h.paced.turns, ?_, ?_, ?_⟩
  · intro player version action g' event hApplied
    obtain ⟨-, hAccepted⟩ := applyMove_eq_ok.mp hApplied
    exact ⟨hAccepted.version, hAccepted.extends_board h.shape,
      fun hPoints hAction => hAccepted.counted h.shape hAction hPoints⟩
  · rintro ⟨run, hStart, hRun⟩
    have hGrows : ∀ s t, Reachable platform s → (engine platform).Accepts s t →
        s.state.version.toNat < t.state.version.toNat := by
      intro s t _ hStep
      obtain ⟨player, action, event, hAccepted⟩ := accepts_iff.mp hStep
      exact Nat.lt_of_lt_of_eq (Nat.lt_succ_self _) hAccepted.version.symm
    refine System.Reachable.not_endless hGrows (fun s hs => Reachable.version_le_builtin hs) h
      ⟨run, hStart, fun n => ?_⟩
    obtain ⟨player, version, action, event, hApplied⟩ := hRun n
    exact ⟨⟨player, version, action⟩, event, hApplied⟩
  · intro player version action hOverflow
    exact applyMove_avoids h action _ hOverflow trivial

theorem hookTable_games_end :
    ∃ g, Reachable basicPlatform g ∧ g.state.phase = .active ∧
      g.state.scorelessTurns.toNat < g.ruleset.game.scorelessTurnLimit.toNat ∧
      ¬ ∃ run : Nat → Game, run 0 = g ∧ ∀ n, ∃ player version action event,
        (run n).applyMove basicPlatform player version action = .ok (run (n + 1), event) := by
  obtain ⟨g, hReachable, -, hPhase, -⟩ := exists_played
  have hEnds := reachable_games_end hReachable
  exact ⟨g, hReachable, hPhase, hEnds.2.1 hPhase, hEnds.2.2.2.1⟩

end WordArena.Engine
