import WordArena.Engine.Conservation
import WordArena.Engine.Replay

/-! What a game remembers. Every accepted action appends one public event and
at most one private transition under the new version, and the recorded event
is enough to execute the action again with the same outcome. -/
namespace WordArena.Engine

open Fallible

/-- Runs that remember the events they recorded, in order. -/
inductive Trace (platform : Platform) (start : Game) : List GameEvent → Game → Prop where
  | refl : Trace platform start [] start
  | snoc {events : List GameEvent} {g g' : Game} {player : Player} {action : Move}
      {event : GameEvent} (prior : Trace platform start events g)
      (last : Accepted platform g player action g' event) :
      Trace platform start (events ++ [event]) g'

section

variable {platform : Platform} {start g g' : Game} {player : Player} {action : Move}
  {event : GameEvent} {events : List GameEvent}

/-! What one action records. -/

/-- The private transitions of an accepted action: one under the same sequence
when its event requires one, none otherwise. -/
theorem Accepted.recorded (h : Accepted platform g player action g' event) :
    event.sequence = g'.state.version ∧ g'.events = g.events ++ [event] ∧
      ((event.kind.expectsPrivate = none ∧ g'.privateEvents = g.privateEvents) ∨
        ∃ reason transition, event.kind.expectsPrivate = some reason ∧
          transition.sequence = event.sequence ∧
          g'.privateEvents = g.privateEvents ++ [transition]) := by
  have hSequence : event.sequence = g'.state.version := by
    obtain ⟨c, hValid, rfl, rfl⟩ := h.commit
    exact (congrArg PublicGameState.version hValid.final_frame).symm
  cases h with
  | place d valid => exact ⟨hSequence, rfl, .inr ⟨_, _, rfl, rfl, rfl⟩⟩
  | exchange d valid => exact ⟨hSequence, rfl, .inr ⟨_, _, rfl, rfl, rfl⟩⟩
  | pass d valid => exact ⟨hSequence, rfl, .inl ⟨rfl, rfl⟩⟩
  | resign d valid => exact ⟨hSequence, rfl, .inl ⟨rfl, rfl⟩⟩

/-- An action keeps what identifies the game. -/
theorem Accepted.identity (h : Accepted platform g player action g' event) :
    event.lexicon = g.state.lexicon ∧ g'.state.lexicon = g.state.lexicon ∧
      g'.state.rulesetId = g.state.rulesetId ∧ g'.state.ruleset = g.state.ruleset := by
  obtain ⟨c, hValid, rfl, rfl⟩ := h.commit
  have hFinal := hValid.final_frame
  have hFrame := hValid.frame
  have hLexicon : c.final.lexicon = g.state.lexicon := by
    rw [hFinal, hFrame]
  have hRulesetId : c.final.rulesetId = g.state.rulesetId := by
    rw [hFinal, hFrame]
  have hRuleset : c.final.ruleset = g.state.ruleset := by
    rw [hFinal, hFrame]
  exact ⟨hLexicon, hLexicon, hRulesetId, hRuleset⟩

/-! Traces and runs. -/

theorem Trace.run (h : Trace platform start events g) : (engine platform).Run start g := by
  induction h with
  | refl => exact .refl
  | snoc _ last ih => exact ih.snoc (accepts_iff.mpr ⟨_, _, _, last⟩)

theorem exists_trace (h : (engine platform).Run start g) :
    ∃ events, Trace platform start events g := by
  induction h with
  | refl => exact ⟨[], .refl⟩
  | snoc _ last ih =>
      obtain ⟨events, prior⟩ := ih
      obtain ⟨player, action, event, hAccepted⟩ := accepts_iff.mp last
      exact ⟨events ++ [event], prior.snoc hAccepted⟩

theorem Trace.reachable (h : Trace platform start events g) (hStart : Reachable platform start) :
    Reachable platform g := by
  obtain ⟨initial, hInitial, hRun⟩ := hStart
  exact ⟨initial, hInitial, hRun.trans h.run⟩

/-- A trace is the list of events its game added. -/
theorem Trace.events_eq (h : Trace platform start events g) : g.events = start.events ++ events := by
  induction h with
  | refl => rw [List.append_nil]
  | snoc _ last ih => rw [last.recorded.2.1, ih, List.append_assoc]

theorem trace_nil : Trace platform start [] g ↔ g = start := by
  constructor
  · intro h
    generalize hEvents : ([] : List GameEvent) = none at h
    cases h with
    | refl => rfl
    | snoc => simp at hEvents
  · rintro rfl
    exact .refl

theorem trace_snoc : Trace platform start (events ++ [event]) g' ↔
    ∃ g player action, Trace platform start events g ∧ Accepted platform g player action g' event := by
  constructor
  · intro h
    generalize hEvents : events ++ [event] = all at h
    cases h with
    | refl => simp at hEvents
    | snoc prior last =>
        obtain ⟨rfl, hLast⟩ := List.append_inj' hEvents rfl
        cases hLast
        exact ⟨_, _, _, prior, last⟩
  · rintro ⟨g, player, action, prior, last⟩
    exact prior.snoc last

/-- A trace keeps the identities, and so do its events. -/
theorem Trace.identity (h : Trace platform start events g) :
    g.state.lexicon = start.state.lexicon ∧ ∀ e ∈ events, e.lexicon = start.state.lexicon := by
  induction h with
  | refl => exact ⟨rfl, by simp⟩
  | snoc _ last ih =>
      obtain ⟨hEvent, hAfter, -⟩ := last.identity
      refine ⟨hAfter.trans ih.1, fun e he => ?_⟩
      rcases List.mem_append.mp he with he | he
      · exact ih.2 e he
      · rw [List.mem_singleton.mp he, hEvent, ih.1]

end

/-- The public state names the rules and the dictionary of its game. -/
structure Identified (platform : Platform) (g : Game) : Prop where
  lexicon : g.state.lexicon = g.lexicon.identity
  rulesetId : g.state.rulesetId = g.ruleset.id
  ruleset : g.state.ruleset = g.ruleset.identity platform

theorem Reachable.identified {platform : Platform} {g : Game} (h : Reachable platform g) :
    Identified platform g := by
  refine Reachable.invariant (Identified platform) ?_ ?_ h
  · intro d gameId ruleset seed mode playerCount _
    exact ⟨rfl, rfl, rfl⟩
  · intro g player action g' event _ hIdentified hAccepted
    obtain ⟨-, hLexicon, hRulesetId, hRuleset⟩ := hAccepted.identity
    obtain ⟨c, -, rfl, -⟩ := hAccepted.commit
    exact ⟨hLexicon.trans hIdentified.lexicon, hRulesetId.trans hIdentified.rulesetId,
      hRuleset.trans hIdentified.ruleset⟩

/-- A reachable game comes from a creation with its own rules, dictionary and
seed, and its events are that creation and the actions since. -/
theorem Reachable.origin {platform : Platform} {g : Game} (h : Reachable platform g) :
    ∃ (d : Creation) (gameId : String) (mode : GameMode) (playerCount : Nat)
      (events : List GameEvent), d.validator = g.lexicon ∧
      d.Valid platform g.ruleset g.seed playerCount ∧
      Trace platform (d.game platform gameId g.ruleset g.seed mode playerCount) events g := by
  obtain ⟨start, ⟨gameId, ruleset, lexicon, seed, mode, playerCount, hCreate⟩, hRun⟩ := h
  obtain ⟨d, -, hValid, rfl⟩ := createWithModeAndPlayers_eq_ok.mp hCreate
  obtain ⟨hRuleset, hLexicon, hSeed⟩ := Run.kept hRun
  obtain ⟨events, hTrace⟩ := exists_trace hRun
  rw [hRuleset, hSeed]
  exact ⟨d, gameId, mode, playerCount, events, hLexicon.symm, hValid, hTrace⟩

/-! Order of private transitions. -/

/-- Private transitions come in strictly increasing sequence order. -/
def Ordered (transitions : List PrivateGameEvent) : Prop :=
  transitions.Pairwise fun a b => a.sequence < b.sequence

instance (transitions : List PrivateGameEvent) : Decidable (Ordered transitions) :=
  inferInstanceAs (Decidable (transitions.Pairwise _))

structure Chronicle (g : Game) : Prop where
  ordered : Ordered g.privateEvents
  past : ∀ transition ∈ g.privateEvents, transition.sequence ≤ g.state.version

theorem Reachable.chronicle {platform : Platform} {g : Game} (h : Reachable platform g) :
    Chronicle g := by
  refine Reachable.invariant Chronicle ?_ ?_ h
  · intro d gameId ruleset seed mode playerCount _
    exact ⟨List.Pairwise.nil, by simp [Creation.game]⟩
  · intro g player action g' event _ hChronicle hAccepted
    obtain ⟨hSequence, -, hPrivate⟩ := hAccepted.recorded
    have hVersion : g.state.version < g'.state.version := by
      obtain ⟨c, hValid, rfl, -⟩ := hAccepted.commit
      rw [UInt64.lt_iff_toNat_lt]
      exact Nat.lt_of_lt_of_eq (Nat.lt_succ_self _) hValid.final_version.symm
    rcases hPrivate with ⟨-, hSame⟩ | ⟨reason, transition, -, hTransition, hMore⟩
    · refine ⟨hSame ▸ hChronicle.ordered, fun old hOld => ?_⟩
      rw [hSame] at hOld
      exact UInt64.le_of_lt (UInt64.lt_of_le_of_lt (hChronicle.past old hOld) hVersion)
    · have hNew : transition.sequence = g'.state.version := hTransition.trans hSequence
      refine ⟨?_, fun old hOld => ?_⟩
      · rw [hMore]
        refine List.pairwise_append.mpr ⟨hChronicle.ordered, List.pairwise_singleton _ _, ?_⟩
        intro old hOld last hLast
        rw [List.mem_singleton.mp hLast, hNew]
        exact UInt64.lt_of_le_of_lt (hChronicle.past old hOld) hVersion
      · rw [hMore] at hOld
        rcases List.mem_append.mp hOld with hOld | hOld
        · exact UInt64.le_of_lt (UInt64.lt_of_le_of_lt (hChronicle.past old hOld) hVersion)
        · rw [List.mem_singleton.mp hOld, hNew]
          exact UInt64.le_refl _

/-- Public events come in strictly increasing sequence order, the creation
first, and none is ahead of the version. -/
structure Annals (g : Game) : Prop where
  first : ∃ event created, g.events.head? = some event ∧ creationRecord event = .ok created ∧
    event.sequence = 0 ∧ created.ruleset = g.ruleset
  ordered : g.events.Pairwise fun a b => a.sequence < b.sequence
  past : ∀ event ∈ g.events, event.sequence ≤ g.state.version

theorem Reachable.annals {platform : Platform} {g : Game} (h : Reachable platform g) :
    Annals g := by
  refine Reachable.invariant Annals ?_ ?_ h
  · intro d gameId ruleset seed mode playerCount _
    refine ⟨⟨_, _, rfl, rfl, rfl, rfl⟩, List.pairwise_singleton _ _, fun event hEvent => ?_⟩
    rw [List.mem_singleton.mp hEvent]
    exact UInt64.le_refl _
  · intro g player action g' event _ hAnnals hAccepted
    obtain ⟨hSequence, hEvents, -⟩ := hAccepted.recorded
    obtain ⟨c, hValid, rfl, -⟩ := hAccepted.commit
    have hVersion : g.state.version < (c.game g).state.version := by
      rw [UInt64.lt_iff_toNat_lt]
      exact Nat.lt_of_lt_of_eq (Nat.lt_succ_self _) hValid.final_version.symm
    obtain ⟨first, created, hFirst, hCreated⟩ := hAnnals.first
    refine ⟨⟨first, created, ?_, hCreated⟩, ?_, fun old hOld => ?_⟩
    · rw [hEvents, List.head?_append, hFirst]
      rfl
    · rw [hEvents]
      refine List.pairwise_append.mpr ⟨hAnnals.ordered, List.pairwise_singleton _ _, ?_⟩
      intro old hOld last hLast
      rw [List.mem_singleton.mp hLast, hSequence]
      exact UInt64.lt_of_le_of_lt (hAnnals.past old hOld) hVersion
    · rw [hEvents] at hOld
      rcases List.mem_append.mp hOld with hOld | hOld
      · exact UInt64.le_of_lt (UInt64.lt_of_le_of_lt (hAnnals.past old hOld) hVersion)
      · rw [List.mem_singleton.mp hOld, hSequence]
        exact UInt64.le_refl _

/-! Executing a recorded event again. -/

theorem sortIds_sortIds (ids : List TileId) : sortIds (sortIds ids) = sortIds ids :=
  (sortIds_pairwise ids).insertionSort_eq

section

variable {platform : Platform} {g g' : Game} {player : Player} {event : GameEvent}

/-- Recorded placements are canonical and sorted, so preparing them again
changes nothing. -/
theorem PlacementStep.Valid.again {d : PlacementStep} {placements : List Placement}
    (valid : d.Valid platform g player placements) (hShape : Shape g) :
    d.Valid platform g player d.prepared.placements := by
  obtain ⟨o, hLegal⟩ := legal_of_preparePlacement valid.prepare
  exact { valid with
    prepare := preparePlacement_of_legal (builtin_supported hShape.builtin) hLegal }

/-- Recorded tile identities are sorted already. -/
theorem ExchangeStep.Valid.again {d : ExchangeStep} {tileIds : List TileId}
    (valid : d.Valid platform g player tileIds) :
    d.Valid platform g player (sortIds tileIds) ∧
      d.game platform g player (sortIds tileIds) = d.game platform g player tileIds ∧
      d.event player (sortIds tileIds) = d.event player tileIds := by
  have hRedraw : d.redraw g player (sortIds tileIds) = d.redraw g player tileIds := by
    rw [ExchangeStep.redraw, sortIds_sortIds]
    rfl
  have hBag : d.bag platform g player (sortIds tileIds) = d.bag platform g player tileIds := by
    rw [ExchangeStep.bag, hRedraw]
    rfl
  have hEvent : d.event player (sortIds tileIds) = d.event player tileIds := by
    rw [ExchangeStep.event, sortIds_sortIds]
    rfl
  refine ⟨⟨valid.phase, valid.turn, ?_, ?_, valid.bagFits, valid.minimum, ?_, valid.version,
    valid.nextPlayer, valid.turns, ?_, ?_, ?_, ?_⟩, ?_, hEvent⟩
  · intro hEmpty
    have hLength := (sortIds_perm tileIds).length_eq
    rw [hEmpty] at hLength
    exact valid.nonempty (List.length_eq_zero_iff.mp hLength.symm)
  · rw [sortIds_sortIds]
    exact valid.distinct
  · rw [sortIds_sortIds]
    exact valid.owned
  · rw [hRedraw]
    exact valid.counts
  · rw [hBag]
    exact valid.bagCount
  · rw [hBag, hRedraw]
    exact valid.conserved
  · rw [hRedraw]
    exact valid.completed
  · rw [ExchangeStep.game, ExchangeStep.game, hBag, hRedraw, hEvent, ExchangeStep.privateEvent,
      ExchangeStep.privateEvent, hRedraw]

/-- Whatever event is read, re-execution performs an action of the game. -/
theorem reexecute_accepted {expected : GameEvent}
    (h : g.reexecute platform expected = .ok (g', event)) :
    ∃ player action, Accepted platform g player action g' event := by
  unfold Game.reexecute at h
  split at h
  · cases h
  · obtain ⟨-, d, valid, rfl, rfl⟩ := playTiles_eq_ok.mp h
    exact ⟨_, _, .place d valid⟩
  · obtain ⟨-, d, valid, rfl, rfl⟩ := pass_eq_ok.mp h
    exact ⟨_, _, .pass d valid⟩
  · obtain ⟨-, d, valid, rfl, rfl⟩ := exchangeTiles_eq_ok.mp h
    exact ⟨_, _, .exchange d valid⟩
  · obtain ⟨-, d, valid, rfl, rfl⟩ := resign_eq_ok.mp h
    exact ⟨_, _, .resign d valid⟩

/-- A recorded event leads back to the game it was recorded in. -/
theorem Accepted.reexecute {action : Move} (h : Accepted platform g player action g' event)
    (hShape : Shape g) : g.reexecute platform event = .ok (g', event) := by
  cases h with
  | place d valid => exact playTiles_eq_ok.mpr ⟨rfl, d, valid.again hShape, rfl, rfl⟩
  | exchange d valid =>
      obtain ⟨hAgain, hGame, hEvent⟩ := valid.again
      exact exchangeTiles_eq_ok.mpr ⟨rfl, d, hAgain, hGame.symm, hEvent.symm⟩
  | pass d valid => exact pass_eq_ok.mpr ⟨rfl, d, valid, rfl, rfl⟩
  | resign d valid => exact resign_eq_ok.mpr ⟨rfl, d, valid, rfl, rfl⟩

/-- Executing an event again and finding it recorded last is one action of the
game that records it. -/
theorem reexecute_iff (hShape : Shape g) :
    (∃ actual, g.reexecute platform event = .ok (g', actual) ∧
        g'.events.getLast? = some event) ↔
      ∃ player action, Accepted platform g player action g' event := by
  constructor
  · rintro ⟨actual, hAgain, hLast⟩
    obtain ⟨player, action, hAccepted⟩ := reexecute_accepted hAgain
    rw [hAccepted.recorded.2.1, List.getLast?_concat, Option.some.injEq] at hLast
    exact ⟨player, action, hLast ▸ hAccepted⟩
  · rintro ⟨player, action, hAccepted⟩
    refine ⟨event, hAccepted.reexecute hShape, ?_⟩
    rw [hAccepted.recorded.2.1, List.getLast?_concat]

end

end WordArena.Engine
