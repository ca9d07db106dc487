import WordArena.Engine.Progress

/-! Scores as a function of the event history. A seat's score is the sum of
its recorded moves and, once the game has ended, its end adjustment. -/
namespace WordArena.Engine

open Fallible

/-- Points an event records for a seat. -/
def GameEventKind.pointsOf (kind : GameEventKind) (seat : Seat) : Nat :=
  match kind with
  | .movePlayed player _ _ _ score _ _ _ _ _ _ _ => if player = seat then score.toNat else 0
  | _ => 0

/-- Points of all moves a seat has played. -/
def Game.earned (g : Game) (seat : Seat) : Nat :=
  (g.events.map fun event => event.kind.pointsOf seat).sum

/-- The seat that gave up, when one did. -/
def TerminalReason.resigned : TerminalReason → Option Seat
  | .resignation seat => some seat
  | _ => none

/-! The winner. -/

section

variable {active : List Seat} {playerCount : Nat} {scores : List Score} {winner : Seat}

/-- A resignation at a table of two names the other seat, whatever the score. -/
theorem winnerOf_two {resigned : Seat} (hActive : Seat.active 2 = some active)
    (hResigned : resigned.index < 2) :
    winnerOf active (.resignation resigned) scores = some winner ↔
      winner.index < 2 ∧ winner ≠ resigned := by
  obtain ⟨-, rfl⟩ := Seat.active_eq_some.mp hActive
  cases resigned <;> cases winner <;> simp_all [winnerOf, Seat.all, Seat.index]

/-- Otherwise the winner is strictly ahead of every seat that stayed. -/
theorem winnerOf_strict {reason : TerminalReason} (hActive : Seat.active playerCount = some active)
    (hLength : scores.length = playerCount)
    (hReason : playerCount = 2 → reason.resigned = none) :
    winnerOf active reason scores = some winner ↔
      StrictMax (scoreOf scores) (contenders playerCount reason.resigned) winner := by
  obtain ⟨⟨-, hHigh⟩, -⟩ := Seat.active_eq_some.mp hActive
  have hFour : scores.length ≤ 4 := hLength.trans_le hHigh
  rw [← hLength]
  cases reason with
  | resignation resigned =>
      have hTwo : active.length ≠ 2 := by
        rw [Seat.active_length hActive]
        intro h
        cases hReason h
      rw [winnerOf, if_neg hTwo, uniqueWinner_eq_some hFour]
      rfl
  | scorelessTurns => exact uniqueWinner_eq_some hFour
  | rackEmptied outgoing => exact uniqueWinner_eq_some hFour

end

/-- Going out only moves points between seats. -/
theorem adjustment_rackEmptied_sum (ruleset : Ruleset) (racks : List Rack) {active : List Seat}
    {playerCount : Nat} {outgoing : Seat} (hActive : Seat.active playerCount = some active)
    (hOutgoing : outgoing.index < playerCount) :
    (active.map (adjustment ruleset racks active (.rackEmptied outgoing))).sum = 0 := by
  obtain ⟨⟨hLow, hHigh⟩, rfl⟩ := Seat.active_eq_some.mp hActive
  interval_cases playerCount <;> cases outgoing <;>
    simp_all [adjustment, Seat.all, Seat.index, List.filter] <;> omega

/-! The invariant. -/

/-- Every accepted action adds the recorded points before completion. -/
theorem Accepted.commit_scored {platform : Platform} {g g' : Game} {player : Player} {action : Move}
    {event : GameEvent} (h : Accepted platform g player action g' event) (hShape : Shape g) :
    ∃ c : Commit, c.Valid g player ∧ g' = c.game g ∧ event = c.event ∧
      Shifted g.state.scores c.mid.scores fun seat => (event.kind.pointsOf seat : Int) := by
  cases h with
  | place d valid =>
      refine ⟨d.commit g player, valid.commit, rfl, rfl, List.length_set, fun seat _ => ?_⟩
      have hSeat : player.index < g.state.scores.length := by
        rw [hShape.scores, valid.turn]
        exact hShape.turn
      change scoreOf (g.state.scores.set player.index d.updatedScore) seat =
        _ + ((if player = seat then d.prepared.score.toNat else 0 : Nat) : Int)
      rw [scoreOf_set hSeat]
      by_cases hPlayer : player = seat
      · subst hPlayer
        rw [if_pos rfl, if_pos rfl, valid.score]
        rfl
      · have hOther : seat ≠ player := fun h => hPlayer h.symm
        rw [if_neg hPlayer, if_neg hOther, Int.natCast_zero, Int.add_zero]
  | exchange d valid =>
      exact ⟨d.commit platform g player _, valid.commit, rfl, rfl, Shifted.refl g.state.scores⟩
  | pass d valid =>
      exact ⟨d.commit g player, valid.commit, d.game_eq, rfl, Shifted.refl g.state.scores⟩
  | resign d valid =>
      exact ⟨d.commit g player, valid.commit, d.game_eq, rfl, Shifted.refl g.state.scores⟩

/-- Scores follow from the history, with the adjustment of a finished game. -/
structure Ledger (g : Game) : Prop where
  active : g.state.phase = .active → g.state.result = none ∧
    ∀ seat, seat.index < g.racks.length → scoreOf g.state.scores seat = g.earned seat
  finished : g.state.phase = .finished → ∃ active result,
    Seat.active g.racks.length = some active ∧ g.state.result = some result ∧
    result.scores = g.state.scores ∧ result.winner = winnerOf active result.reason result.scores ∧
    (∀ seat, result.reason = .rackEmptied seat ∨ result.reason = .resignation seat →
      seat.index < g.racks.length) ∧
    ∀ seat, seat.index < g.racks.length →
      scoreOf g.state.scores seat =
        g.earned seat + adjustment g.ruleset g.racks active result.reason seat

theorem Commit.earned (c : Commit) (g : Game) (seat : Seat) :
    (c.game g).earned seat = g.earned seat + c.event.kind.pointsOf seat := by
  simp [Game.earned, Commit.game]

theorem Ledger.accepted {platform : Platform} {g g' : Game} {player : Player} {action : Move}
    {event : GameEvent} (h : Ledger g) (hShape : Shape g)
    (hAccepted : Accepted platform g player action g' event) : Ledger g' := by
  obtain ⟨c, hValid, rfl, rfl, hScored⟩ := hAccepted.commit_scored hShape
  obtain ⟨hResult, hBefore⟩ := h.active hValid.phase
  have hMid : ∀ seat, seat.index < g.racks.length →
      scoreOf c.mid.scores seat = (c.game g).earned seat := by
    intro seat hSeat
    rw [hScored.2 seat (hShape.scores ▸ hSeat), hBefore seat hSeat, c.earned, Int.natCast_add]
  rcases hValid.ending hShape with ⟨-, hFinal, -⟩ |
    ⟨why, active, outcome, hWhy, -, hActive, hShift, hOutcome, hPhase, hState⟩
  · refine ⟨fun _ => ⟨?_, fun seat hSeat => ?_⟩, fun hPhase => ?_⟩
    · change c.final.result = none
      rw [hFinal, hValid.frame]
      exact hResult
    · change scoreOf c.final.scores seat = _
      rw [hFinal]
      exact hMid seat (hValid.racks_length ▸ hSeat)
    · change c.final.phase = .finished at hPhase
      rw [hFinal, hValid.frame] at hPhase
      cases hValid.phase.symm.trans hPhase
  · refine ⟨fun hActivePhase => ?_, fun _ => ?_⟩
    · cases hPhase.symm.trans hActivePhase
    · refine ⟨active, outcome, hActive, hState, by rw [hOutcome]; rfl, by rw [hOutcome]; rfl,
        fun seat hSeat => ?_, fun seat hSeat => ?_⟩
      · change seat.index < c.racks.length
        rw [hOutcome] at hSeat
        have hActor : seat = player := hValid.actor seat (hSeat.imp
          (fun hReason => hWhy.trans (congrArg some hReason))
          (fun hReason => hWhy.trans (congrArg some hReason)))
        rw [hActor, hValid.racks_length, hValid.turn]
        exact hShape.turn
      · change scoreOf c.final.scores seat = _
        have hIndex : seat.index < g.racks.length := hValid.racks_length ▸ hSeat
        have hLength : seat.index < c.mid.scores.length := by
          rw [hValid.scores_length, hShape.scores]
          exact hIndex
        rw [hShift.2 seat hLength, hMid seat hIndex, hOutcome]
        rfl

theorem Reachable.ledger {platform : Platform} {g : Game} (h : Reachable platform g) :
    Ledger g := by
  refine Reachable.invariant Ledger ?_ ?_ h
  · intro d gameId ruleset seed mode playerCount _
    refine ⟨fun _ => ⟨rfl, fun seat _ => ?_⟩, fun hPhase => by cases hPhase⟩
    change scoreOf (List.replicate playerCount .zero) seat = 0
    rw [scoreOf, List.getD_eq_getElem?_getD, List.getElem?_replicate]
    split <;> rfl
  · intro g player action g' event hReachable hLedger hAccepted
    exact hLedger.accepted hReachable.shape hAccepted

/-- Scores of a game that goes on are the points of the recorded moves. A
finished game adds the end adjustment of its terminal reason, publishes its
scores in the result and names a seat that is strictly ahead, except that a
resignation at a table of two names the other seat. -/
theorem reachable_scores_recorded {platform : Platform} {g : Game} (h : Reachable platform g) :
    (g.state.phase = .active →
      ∀ seat, seat.index < g.racks.length → scoreOf g.state.scores seat = g.earned seat) ∧
    (g.state.phase = .finished → ∃ active result,
      Seat.active g.racks.length = some active ∧ g.state.result = some result ∧
      result.scores = g.state.scores ∧
      (∀ seat ∈ active, scoreOf g.state.scores seat =
        g.earned seat + adjustment g.ruleset g.racks active result.reason seat) ∧
      (∀ outgoing, result.reason = .rackEmptied outgoing →
        (active.map (scoreOf g.state.scores)).sum =
          (active.map fun seat => (g.earned seat : Int)).sum) ∧
      (∀ resigned, result.reason = .resignation resigned → g.racks.length = 2 →
        ∀ winner, result.winner = some winner ↔ winner ∈ active ∧ winner ≠ resigned) ∧
      ((g.racks.length = 2 → result.reason.resigned = none) →
        ∀ winner, result.winner = some winner ↔
          StrictMax (scoreOf g.state.scores)
            (contenders g.racks.length result.reason.resigned) winner)) := by
  have hLedger := h.ledger
  have hShape := h.shape
  refine ⟨fun hPhase => (hLedger.active hPhase).2, fun hPhase => ?_⟩
  obtain ⟨active, result, hActive, hResult, hScores, hWinner, hActor, hEach⟩ :=
    hLedger.finished hPhase
  have hMember : ∀ seat ∈ active, scoreOf g.state.scores seat =
      g.earned seat + adjustment g.ruleset g.racks active result.reason seat :=
    fun seat hSeat => hEach seat ((Seat.mem_active hActive).mp hSeat)
  refine ⟨active, result, hActive, hResult, hScores, hMember, fun outgoing hReason => ?_,
    fun resigned hReason hTwo winner => ?_, fun hOther winner => ?_⟩
  · have hSum := adjustment_rackEmptied_sum g.ruleset g.racks hActive
      (hActor outgoing (.inl hReason))
    rw [hReason] at hMember
    calc (active.map (scoreOf g.state.scores)).sum
        = (active.map fun seat => (g.earned seat : Int) +
            adjustment g.ruleset g.racks active (.rackEmptied outgoing) seat).sum := by
          rw [List.map_congr_left hMember]
      _ = (active.map fun seat => (g.earned seat : Int)).sum +
            (active.map (adjustment g.ruleset g.racks active (.rackEmptied outgoing))).sum :=
          List.sum_map_add
      _ = (active.map fun seat => (g.earned seat : Int)).sum := by rw [hSum, Int.add_zero]
  · have hIndex := hActor resigned (.inr hReason)
    rw [Seat.mem_active hActive, hWinner, hReason]
    rw [hTwo] at hActive hIndex ⊢
    exact winnerOf_two hActive hIndex
  · rw [hWinner, hScores]
    exact winnerOf_strict hActive hShape.scores hOther

theorem hookTable_scores_recorded :
    ∃ g, Reachable basicPlatform g ∧ g.state.scores = [⟨20⟩, ⟨18⟩] ∧ g.state.phase = .active ∧
      ∀ seat, seat.index < g.racks.length → scoreOf g.state.scores seat = g.earned seat := by
  obtain ⟨g, hReachable, hScores, hPhase, -⟩ := exists_played
  exact ⟨g, hReachable, hScores, hPhase, (reachable_scores_recorded hReachable).1 hPhase⟩

end WordArena.Engine
