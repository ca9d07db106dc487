import Mathlib.Data.List.Induction
import WordArena.Engine.History
import WordArena.Engine.Totality

/-! Verification by replay. A replay succeeds exactly on the recorded history of
a game that was created from the revealed seed. Private transitions are looked
up by sequence, so their order in the bundle is not checked; a checkpoint is
compared field by field and admits no such freedom. -/
namespace WordArena.Engine

open Fallible WordArena.Lexicon

/-! The creation prelude. -/

theorem creationRecord_eq_ok {created : GameEvent} {record : CreationRecord} :
    creationRecord created = .ok record ↔ ∃ bagCount, created.kind =
      .created record.gameId record.ruleset record.mode record.rngAlgorithm record.seedCommitment
        record.rackCounts bagCount := by
  unfold creationRecord
  split
  · rename_i gameId ruleset mode rngAlgorithm seedCommitment rackCounts bagCount hKind
    rw [hKind, Except.ok.injEq]
    constructor
    · rintro rfl
      exact ⟨bagCount, rfl⟩
    · rintro ⟨_, hRecord⟩
      cases hRecord
      rfl
  · rename_i hKind
    refine iff_of_false (by simp) ?_
    rintro ⟨bagCount, hRecord⟩
    exact hKind _ _ _ _ _ _ _ hRecord

/-- The creation a bundle opens with. There is only one random algorithm, so
nothing is said about it. -/
structure Opening (platform : Platform) (bundle : ReplayBundle) (d : Creation) (gameId : String)
    (mode : GameMode) (playerCount : Nat) : Prop where
  valid : d.Valid platform bundle.ruleset ⟨bundle.seedReveal⟩ playerCount
  identity : bundle.rulesetIdentity = bundle.ruleset.identity platform
  lexicon : bundle.lexicon = d.validator.identity
  created : bundle.events.head? = some (d.event gameId bundle.ruleset mode)

theorem Creation.Valid.seats {d : Creation} {platform : Platform} {ruleset : Ruleset}
    {seed : GameSeed} {playerCount : Nat} (h : d.Valid platform ruleset seed playerCount) :
    d.counts.length = playerCount ∧ d.deal.commitment = seed.commitment platform d.deal.algorithm := by
  obtain ⟨-, seats, hSeats, hDeal⟩ := prepareInitialDealForPlayers_eq_ok.mp h.deal
  have hCounts := congrArg List.length (rackCounts_eq_ok.mp h.counts)
  have hRacks : d.deal.racks.length = playerCount := by
    rw [hDeal]
    exact (length_foldl_dealSeat ..).trans List.length_replicate
  rw [List.length_map, List.length_map, hRacks] at hCounts
  exact ⟨hCounts, by rw [hDeal]; rfl⟩

/-- The prelude accepts exactly the bundles that open with a genuine creation. -/
theorem beginReplay_eq_ok {platform : Platform} {bundle : ReplayBundle}
    {lexicon : Option WordValidator} {g : Game} :
    Game.beginReplay platform bundle lexicon = .ok g ↔
      ∃ d gameId mode playerCount, lexicon = some d.validator ∧
        Opening platform bundle d gameId mode playerCount ∧
        g = d.game platform gameId bundle.ruleset ⟨bundle.seedReveal⟩ mode playerCount := by
  simp only [Game.beginReplay, bind_eq_ok, validate_eq_ok, reject_eq_ok, okOr_eq_ok,
    ensureLexicon_eq_ok, mapErr_eq_ok, ensureExactPack_eq_ok, creationRecord_eq_ok,
    createWithModeAndPlayers_eq_ok, pure_eq_ok, not_or, not_not]
  constructor
  · rintro ⟨-, -, -, hIdentity, validator, hLexicon, -, -, -, hPack, created, hHead, record,
      -, -, -, -, -, game, ⟨d, hValidator, hValid, hGame⟩, -, hFirst, rfl⟩
    cases hValidator
    have hEvent : d.event record.gameId bundle.ruleset record.mode = created := by
      rw [hGame] at hFirst
      exact Option.some.inj hFirst
    exact ⟨d, record.gameId, record.mode, record.rackCounts.length, hLexicon,
      ⟨hValid, hIdentity, hPack, hEvent ▸ hHead⟩, hGame⟩
  · rintro ⟨d, gameId, mode, playerCount, hLexicon, h, rfl⟩
    obtain ⟨hCount, hCommitment⟩ := h.valid.seats
    refine ⟨(), h.valid.builtin, (), h.identity, d.validator, hLexicon, (),
      ⟨h.valid.builtin, h.valid.lexicon⟩, (), h.lexicon, _, h.created,
      ⟨gameId, bundle.ruleset, mode, d.deal.algorithm, d.deal.commitment, d.counts⟩,
      ⟨d.bagCount, rfl⟩, (), ⟨rfl, rfl, h.lexicon.symm, trivial, trivial⟩, (), ?_, _,
      ⟨d, rfl, ?_, rfl⟩, (), rfl, ?_⟩
    · simp [hCommitment, SeedCommitment.verify, GameSeed.commitment]
    · rw [hCount]
      exact h.valid
    · rw [hCount]

/-! The loops. -/

/-- Every transition is the first of the bundle under its sequence. -/
def ReplayBundle.Lists (bundle : ReplayBundle) (transitions : List PrivateGameEvent) : Prop :=
  ∀ transition ∈ transitions,
    (bundle.privateEvents.find? fun event => event.sequence = transition.sequence) = some transition

section

variable {platform : Platform} {start g g' : Game} {player : Player} {action : Move}
  {event : GameEvent} {events : List GameEvent} {bundle : ReplayBundle}

/-- The private check of one event extends what the bundle is known to list. -/
theorem Accepted.lists_iff (h : Accepted platform g player action g' event) :
    bundle.Lists g'.privateEvents ↔
      bundle.Lists g.privateEvents ∧ g'.checkPrivate bundle event = .ok () := by
  obtain ⟨-, -, ⟨hNone, hSame⟩ | ⟨reason, transition, hSome, hSequence, hMore⟩⟩ := h.recorded
  · simp [Game.checkPrivate, hNone, hSame]
  · have hCheck : g'.checkPrivate bundle event = .ok () ↔
        (bundle.privateEvents.find? fun other => other.sequence = transition.sequence) =
          some transition := by
      simp only [Game.checkPrivate, hSome, bind_eq_ok, okOr_eq_ok, reject_eq_ok, not_not, hMore,
        List.getLast?_concat, Option.some.injEq, hSequence]
      constructor
      · rintro ⟨_, hFind, rfl⟩
        exact hFind
      · intro hFind
        exact ⟨_, hFind, rfl⟩
    rw [ReplayBundle.Lists, hMore, List.forall_mem_append, List.forall_mem_singleton, hCheck]
    rfl

theorem replayEvent_eq_ok (hShape : Shape g) :
    g.replayEvent platform bundle event = .ok g' ↔
      event.lexicon = bundle.lexicon ∧ g'.checkPrivate bundle event = .ok () ∧
        ∃ player action, Accepted platform g player action g' event := by
  rw [← reexecute_iff hShape]
  simp only [Game.replayEvent, bind_eq_ok, reject_eq_ok, not_not, Prod.exists, pure_eq_ok]
  constructor
  · rintro ⟨-, hLexicon, next, actual, hAgain, _, hPrivate, -, hLast, rfl⟩
    exact ⟨hLexicon, hPrivate, actual, hAgain, hLast⟩
  · rintro ⟨hLexicon, hPrivate, actual, hAgain, hLast⟩
    exact ⟨(), hLexicon, g', actual, hAgain, (), hPrivate, (), hLast, rfl⟩

theorem replayPublicEvent_eq_ok {lexicon : PackIdentity} (hShape : Shape g) :
    g.replayPublicEvent platform lexicon event = .ok g' ↔
      event.lexicon = lexicon ∧ ∃ player action, Accepted platform g player action g' event := by
  rw [← reexecute_iff hShape]
  simp only [Game.replayPublicEvent, bind_eq_ok, reject_eq_ok, not_not, Prod.exists, pure_eq_ok]
  constructor
  · rintro ⟨-, hLexicon, next, actual, hAgain, -, hLast, rfl⟩
    exact ⟨hLexicon, actual, hAgain, hLast⟩
  · rintro ⟨hLexicon, actual, hAgain, hLast⟩
    exact ⟨(), hLexicon, g', actual, hAgain, (), hLast, rfl⟩

/-- The public loop accepts exactly the traces of the game it starts from. -/
theorem foldlM_replayPublicEvent (hStart : Reachable platform start) :
    events.foldlM (Game.replayPublicEvent platform start.state.lexicon) start = .ok g ↔
      Trace platform start events g := by
  induction events using List.reverseRecOn generalizing g with
  | nil => rw [List.foldlM_nil, pure_eq_ok, trace_nil, eq_comm]
  | append_singleton events event ih =>
      rw [List.foldlM_append, bind_eq_ok, trace_snoc]
      simp only [List.foldlM_cons, List.foldlM_nil, bind_eq_ok, pure_eq_ok, exists_eq_right]
      constructor
      · rintro ⟨mid, hPrior, hLast⟩
        have hTrace := ih.mp hPrior
        obtain ⟨-, player, action, hAccepted⟩ :=
          (replayPublicEvent_eq_ok (hTrace.reachable hStart).shape).mp hLast
        exact ⟨mid, player, action, hTrace, hAccepted⟩
      · rintro ⟨mid, player, action, hTrace, hAccepted⟩
        have hLexicon := (hTrace.snoc hAccepted).identity.2 event (by simp)
        exact ⟨mid, ih.mpr hTrace, (replayPublicEvent_eq_ok (hTrace.reachable hStart).shape).mpr
          ⟨hLexicon, player, action, hAccepted⟩⟩

/-- The complete loop also finds every private transition of the trace. -/
theorem foldlM_replayEvent (hStart : Reachable platform start) (hFresh : start.privateEvents = [])
    (hLexicon : start.state.lexicon = bundle.lexicon) :
    events.foldlM (Game.replayEvent platform bundle) start = .ok g ↔
      Trace platform start events g ∧ bundle.Lists g.privateEvents := by
  induction events using List.reverseRecOn generalizing g with
  | nil =>
      rw [List.foldlM_nil, pure_eq_ok, trace_nil]
      constructor
      · rintro rfl
        exact ⟨rfl, by simp [ReplayBundle.Lists, hFresh]⟩
      · rintro ⟨rfl, -⟩
        rfl
  | append_singleton events event ih =>
      rw [List.foldlM_append, bind_eq_ok, trace_snoc]
      simp only [List.foldlM_cons, List.foldlM_nil, bind_eq_ok, pure_eq_ok, exists_eq_right]
      constructor
      · rintro ⟨mid, hPrior, hLast⟩
        obtain ⟨hTrace, hLists⟩ := ih.mp hPrior
        obtain ⟨-, hPrivate, player, action, hAccepted⟩ :=
          (replayEvent_eq_ok (hTrace.reachable hStart).shape).mp hLast
        exact ⟨⟨mid, player, action, hTrace, hAccepted⟩,
          hAccepted.lists_iff.mpr ⟨hLists, hPrivate⟩⟩
      · rintro ⟨⟨mid, player, action, hTrace, hAccepted⟩, hLists⟩
        obtain ⟨hBefore, hPrivate⟩ := hAccepted.lists_iff.mp hLists
        have hEvent := (hTrace.snoc hAccepted).identity.2 event (by simp)
        exact ⟨mid, ih.mpr ⟨hTrace, hBefore⟩,
          (replayEvent_eq_ok (hTrace.reachable hStart).shape).mpr
            ⟨hEvent.trans hLexicon, hPrivate, player, action, hAccepted⟩⟩

/-- Recorded transitions have distinct sequences. -/
theorem Ordered.sequences_nodup {transitions : List PrivateGameEvent} (h : Ordered transitions) :
    (transitions.map (·.sequence)).Nodup := by
  refine List.Pairwise.map _ (fun a b hLess => ?_) h
  exact fun hEqual => UInt64.lt_irrefl _ (hEqual ▸ hLess)

end

/-! Whole replays. -/

section

variable {platform : Platform} {bundle : ReplayBundle} {lexicon : Option WordValidator} {g : Game}

/-- The two preludes are copies of each other. -/
theorem replay_eq_beginReplay : Game.replay platform bundle lexicon = (do
    reject (bundle.schemaVersion ≠ replaySchemaVersion)
      (.unsupportedSchema "replay" bundle.schemaVersion replaySchemaVersion)
    let game ← Game.beginReplay platform bundle lexicon
    let game ← bundle.events.tail.foldlM (Game.replayEvent platform bundle) game
    reject (game.privateEvents.length ≠ bundle.privateEvents.length)
      (.invalidReplayEvent game.state.version "replay contains unmatched private transitions")
    return game) := by
  simp only [Game.replay, Game.beginReplay, bind_assoc, pure_bind]

theorem beginReplay_initial (h : Game.beginReplay platform bundle lexicon = .ok g) :
    (engine platform).initial g ∧ g.privateEvents = [] ∧ g.state.lexicon = bundle.lexicon := by
  obtain ⟨d, gameId, mode, playerCount, -, hOpening, rfl⟩ := beginReplay_eq_ok.mp h
  refine ⟨⟨gameId, bundle.ruleset, some d.validator, ⟨bundle.seedReveal⟩, mode, playerCount, ?_⟩, rfl,
    hOpening.lexicon.symm⟩
  exact createWithModeAndPlayers_eq_ok.mpr ⟨d, rfl, hOpening.valid, rfl⟩

/-- A replay accepts exactly the public history of a game together with its
private transitions in any order. -/
theorem replay_eq_ok : Game.replay platform bundle lexicon = .ok g ↔
    bundle.schemaVersion = replaySchemaVersion ∧
      ∃ start, Game.beginReplay platform bundle lexicon = .ok start ∧
        Trace platform start bundle.events.tail g ∧ g.privateEvents.Perm bundle.privateEvents := by
  simp only [replay_eq_beginReplay, bind_eq_ok, reject_eq_ok, not_not, pure_eq_ok]
  constructor
  · rintro ⟨-, hSchema, start, hBegin, game, hLoop, -, hLength, rfl⟩
    obtain ⟨hInitial, hFresh, hLexicon⟩ := beginReplay_initial hBegin
    have hStart := System.Reachable.initial hInitial
    obtain ⟨hTrace, hLists⟩ := (foldlM_replayEvent hStart hFresh hLexicon).mp hLoop
    have hNodup := (hTrace.reachable hStart).chronicle.ordered.sequences_nodup
    exact ⟨hSchema, start, hBegin, hTrace, (Slots.find?_all_iff_perm hNodup).mp ⟨hLists, hLength⟩⟩
  · rintro ⟨hSchema, start, hBegin, hTrace, hPerm⟩
    obtain ⟨hInitial, hFresh, hLexicon⟩ := beginReplay_initial hBegin
    have hStart := System.Reachable.initial hInitial
    have hNodup := (hTrace.reachable hStart).chronicle.ordered.sequences_nodup
    obtain ⟨hLists, hLength⟩ := (Slots.find?_all_iff_perm hNodup).mpr hPerm
    exact ⟨(), hSchema, start, hBegin, g,
      (foldlM_replayEvent hStart hFresh hLexicon).mpr ⟨hTrace, hLists⟩, (), hLength, rfl⟩

theorem replayPublic_eq_ok {bundle : PublicReplayBundle} :
    Game.replayPublic platform bundle lexicon = .ok g ↔
      bundle.schemaVersion = publicReplaySchemaVersion ∧
        ∃ start, Game.beginReplay platform bundle.completeShape lexicon = .ok start ∧
          Trace platform start bundle.events.tail g := by
  simp only [Game.replayPublic, bind_eq_ok, reject_eq_ok, not_not]
  constructor
  · rintro ⟨-, hSchema, start, hBegin, hLoop⟩
    obtain ⟨hInitial, -, hLexicon⟩ := beginReplay_initial hBegin
    have hPack : start.state.lexicon = bundle.lexicon := hLexicon
    rw [← hPack] at hLoop
    exact ⟨hSchema, start, hBegin,
      (foldlM_replayPublicEvent (System.Reachable.initial hInitial)).mp hLoop⟩
  · rintro ⟨hSchema, start, hBegin, hTrace⟩
    obtain ⟨hInitial, -, hLexicon⟩ := beginReplay_initial hBegin
    have hPack : start.state.lexicon = bundle.lexicon := hLexicon
    refine ⟨(), hSchema, start, hBegin, ?_⟩
    rw [← hPack]
    exact (foldlM_replayPublicEvent (System.Reachable.initial hInitial)).mpr hTrace

end

/-! Histories. -/

/-- The replay input a game amounts to, with its private transitions as given. -/
def Game.history (platform : Platform) (g : Game) (privateEvents : List PrivateGameEvent) :
    ReplayBundle where
  schemaVersion := replaySchemaVersion
  rulesetIdentity := g.ruleset.identity platform
  ruleset := g.ruleset
  lexicon := g.state.lexicon
  rngAlgorithm := g.state.rngAlgorithm
  seedReveal := g.seed.bytes
  events := g.events
  privateEvents := privateEvents

section

variable {platform : Platform} {bundle : ReplayBundle} {lexicon : Option WordValidator} {g : Game}

/-- The prelude of a genuine history rebuilds the game it began with. -/
theorem Reachable.beginReplay (h : Reachable platform g) (hBundle : bundle.ruleset = g.ruleset)
    (hIdentity : bundle.rulesetIdentity = g.ruleset.identity platform)
    (hLexicon : bundle.lexicon = g.state.lexicon) (hSeed : bundle.seedReveal = g.seed.bytes)
    (hEvents : bundle.events = g.events) :
    ∃ start, Game.beginReplay platform bundle (some g.lexicon) = .ok start ∧
      Trace platform start bundle.events.tail g := by
  obtain ⟨d, gameId, mode, playerCount, events, hValidator, hValid, hTrace⟩ := h.origin
  have hAll := hTrace.events_eq
  rw [← hBundle, show g.seed = ⟨bundle.seedReveal⟩ by rw [hSeed]] at hValid hTrace
  refine ⟨_, beginReplay_eq_ok.mpr ⟨d, gameId, mode, playerCount, by rw [hValidator],
    ⟨hValid, by rw [hIdentity, hBundle], ?_, ?_⟩, rfl⟩, ?_⟩
  · rw [hLexicon, hValidator]
    exact h.identified.lexicon
  · rw [hEvents, hAll, hBundle]
    rfl
  · rw [hEvents, hAll]
    exact hTrace

/-- Only the history of a reachable game gets through the prelude and a trace. -/
theorem history_of_trace {start : Game}
    (hBegin : Game.beginReplay platform bundle lexicon = .ok start)
    (hTrace : Trace platform start bundle.events.tail g) :
    Reachable platform g ∧ lexicon = some g.lexicon ∧
      { bundle with schemaVersion := replaySchemaVersion } =
        g.history platform bundle.privateEvents := by
  have hStart := System.Reachable.initial (beginReplay_initial hBegin).1
  have hReachable := hTrace.reachable hStart
  obtain ⟨d, gameId, mode, playerCount, hLexicon, hOpening, rfl⟩ := beginReplay_eq_ok.mp hBegin
  obtain ⟨hRuleset, hValidator, hSeed⟩ := Run.kept hTrace.run
  refine ⟨hReachable, by rw [hLexicon, hValidator]; rfl, ?_⟩
  have hEvents : g.events = bundle.events := by
    rw [hTrace.events_eq]
    exact List.cons_head?_tail hOpening.created
  have hPack : g.state.lexicon = bundle.lexicon :=
    hTrace.identity.1.trans hOpening.lexicon.symm
  rw [Game.history, hRuleset, hSeed, hEvents, hPack]
  congr 1
  exact hOpening.identity

/-- A replay succeeds exactly on the history of a reachable game, up to the
order of the private transitions, and returns that game. -/
theorem replay_iff_history : Game.replay platform bundle lexicon = .ok g ↔
    Reachable platform g ∧ lexicon = some g.lexicon ∧
      g.privateEvents.Perm bundle.privateEvents ∧
      bundle = g.history platform bundle.privateEvents := by
  rw [replay_eq_ok]
  constructor
  · rintro ⟨hSchema, start, hBegin, hTrace, hPerm⟩
    obtain ⟨hReachable, hLexicon, hHistory⟩ := history_of_trace hBegin hTrace
    rw [← hSchema] at hHistory
    exact ⟨hReachable, hLexicon, hPerm, hHistory⟩
  · rintro ⟨hReachable, hLexicon, hPerm, hHistory⟩
    obtain ⟨start, hBegin, hTrace⟩ := hReachable.beginReplay
      (congrArg ReplayBundle.ruleset hHistory) (congrArg ReplayBundle.rulesetIdentity hHistory)
      (congrArg ReplayBundle.lexicon hHistory) (congrArg ReplayBundle.seedReveal hHistory)
      (congrArg ReplayBundle.events hHistory)
    rw [hLexicon]
    exact ⟨congrArg ReplayBundle.schemaVersion hHistory, start, hBegin, hTrace, hPerm⟩

theorem replayPublic_iff_history {bundle : PublicReplayBundle} :
    Game.replayPublic platform bundle lexicon = .ok g ↔
      Reachable platform g ∧ lexicon = some g.lexicon ∧
        bundle = .ofReplayBundle (g.history platform g.privateEvents) := by
  rw [replayPublic_eq_ok]
  constructor
  · rintro ⟨hSchema, start, hBegin, hTrace⟩
    obtain ⟨hReachable, hLexicon, hHistory⟩ := history_of_trace hBegin hTrace
    refine ⟨hReachable, hLexicon, ?_⟩
    calc bundle
        = .ofReplayBundle bundle.completeShape := by
          rw [PublicReplayBundle.ofReplayBundle, ← hSchema]
          rfl
      _ = .ofReplayBundle (g.history platform []) :=
          congrArg PublicReplayBundle.ofReplayBundle hHistory
  · rintro ⟨hReachable, hLexicon, rfl⟩
    obtain ⟨start, hBegin, hTrace⟩ := @Reachable.beginReplay platform
      (PublicReplayBundle.ofReplayBundle (g.history platform g.privateEvents)).completeShape g
      hReachable rfl rfl rfl rfl rfl
    rw [hLexicon]
    exact ⟨rfl, start, hBegin, hTrace⟩

/-- A finished game exports its own history. -/
theorem Reachable.replayBundle (h : Reachable platform g) (hPhase : g.state.phase = .finished) :
    g.replayBundle platform = some (g.history platform g.privateEvents) := by
  obtain ⟨d, gameId, mode, playerCount, events, -, -, hTrace⟩ := h.origin
  have hCreated : g.events.head?.map (·.kind.isCreated) = some true := by
    rw [hTrace.events_eq]
    rfl
  exact if_pos ⟨hPhase, hCreated⟩

end

theorem Ordered.eq_of_perm {left right : List PrivateGameEvent} (hLeft : Ordered left)
    (hRight : Ordered right) (hPerm : left.Perm right) : left = right := by
  refine hPerm.eq_of_pairwise (fun a b _ _ hLess hGreater => ?_) hLeft hRight
  exact absurd (UInt64.lt_trans hLess hGreater) (UInt64.lt_irrefl _)

/-! A finished game with two private transitions. -/

/-- The current player can return the first tile of the rack. -/
theorem Reachable.exchange_first {platform : Platform} {g : Game} (h : Reachable platform g)
    (hPhase : g.state.phase = .active) (hBag : 7 ≤ g.bag.tiles.length)
    (hTurns : g.state.scorelessTurns.toNat + 1 < 6) :
    ∃ tile g' event transition, (g.rack g.state.currentPlayer).tiles.head? = some tile ∧
      g.exchangeTiles platform g.state.currentPlayer g.state.version [tile.id] = .ok (g', event) ∧
      Reachable platform g' ∧ g'.state.phase = .active ∧
      g'.bag.tiles.length = g.bag.tiles.length ∧
      g'.state.scorelessTurns.toNat = g.state.scorelessTurns.toNat + 1 ∧
      g'.privateEvents = g.privateEvents ++ [transition] := by
  have hShape := h.shape
  obtain ⟨tile, rest, hRack⟩ := List.exists_cons_of_ne_nil
    (h.filled.playable hPhase _ (rack_mem hShape.turn))
  have hTile : tile ∈ (g.rack g.state.currentPlayer).tiles := by
    rw [hRack]
    exact List.mem_cons_self
  obtain ⟨d, valid⟩ := h.exchange_valid hPhase (List.cons_ne_nil tile.id [])
    (List.nodup_singleton tile.id) (fun id hId => ⟨tile, hTile, (List.mem_singleton.mp hId).symm⟩)
    (by rw [hShape.exchangeMinimum]; exact hBag)
  have hCount : d.final.scorelessTurns = d.turns := valid.commit.final_scorelessTurns
  refine ⟨tile, _, _, _, by rw [hRack]; rfl, exchangeTiles_eq_ok.mpr ⟨rfl, d, valid, rfl, rfl⟩,
    h.accept (.exchange d valid), ?_, valid.bag_length hShape h.conserved h.filled, ?_, rfl⟩
  · refine valid.commit.active_iff.mpr (scorelessReason_eq_none.mpr ?_)
    rw [valid.turns, hShape.scorelessTurnLimit]
    exact hTurns
  · change d.final.scorelessTurns.toNat = _
    rw [hCount, valid.turns]

/-- Two exchanges and a resignation at a fresh table. -/
structure ShortGame where
  start : Game
  first : Game × GameEvent
  second : Game × GameEvent
  last : Game × GameEvent
  tiles : PhysicalTile × PhysicalTile
  transitions : PrivateGameEvent × PrivateGameEvent

/-- Each player returns the first tile of the rack, then the first one resigns. -/
structure ShortGame.Valid (s : ShortGame) : Prop where
  created : Game.createWithModeAndPlayers basicPlatform "table" (Ruleset.builtin .englishV1)
    (some (openValidator .englishV1)) zeroSeed .practice 2 = .ok s.start
  firstTile : (s.start.rack s.start.state.currentPlayer).tiles.head? = some s.tiles.1
  firstExchange : s.start.exchangeTiles basicPlatform s.start.state.currentPlayer
    s.start.state.version [s.tiles.1.id] = .ok s.first
  secondTile : (s.first.1.rack s.first.1.state.currentPlayer).tiles.head? = some s.tiles.2
  secondExchange : s.first.1.exchangeTiles basicPlatform s.first.1.state.currentPlayer
    s.first.1.state.version [s.tiles.2.id] = .ok s.second
  resigned : s.second.1.resign s.second.1.state.currentPlayer s.second.1.state.version = .ok s.last
  reachable : Reachable basicPlatform s.last.1
  finished : s.last.1.state.phase = .finished
  privateEvents : s.last.1.privateEvents = [s.transitions.1, s.transitions.2]

theorem exists_shortGame : ∃ s : ShortGame, s.Valid := by
  obtain ⟨start, hCreated⟩ := openTable_created .englishV1 (⟨le_refl 2, by decide⟩ : 2 ≤ 2 ∧ 2 ≤ 4)
  have hStart : Reachable basicPlatform start := System.Reachable.initial ⟨_, _, _, _, _, _, hCreated⟩
  obtain ⟨d, -, hValid, rfl⟩ := createWithModeAndPlayers_eq_ok.mp hCreated
  obtain ⟨tile, first, event, transition, hTile, hFirst, hReachable, hPhase, hBag, hTurns,
    hPrivate⟩ := hStart.exchange_first rfl (Nat.le_trans (by decide) hValid.bag_length)
      (show 0 + 1 < 6 by decide)
  obtain ⟨tile', second, event', transition', hTile', hSecond, hReachable', hPhase', -, -,
    hPrivate'⟩ := hReachable.exchange_first hPhase
      (hBag ▸ Nat.le_trans (by decide) hValid.bag_length) (hTurns ▸ show 0 + 1 + 1 < 6 by decide)
  obtain ⟨last, valid⟩ := hReachable'.resign_valid hPhase'
  obtain ⟨_, _, -, -, -, hFinal⟩ := completeState_eq_ok.mp valid.completed
  refine ⟨⟨_, (first, event), (second, event'),
    (last.game second second.state.currentPlayer, last.event second.state.currentPlayer),
    (tile, tile'), (transition, transition')⟩, hCreated, hTile, hFirst, hTile', hSecond,
    resign_eq_ok.mpr ⟨rfl, last, valid, rfl, rfl⟩, hReachable'.accept (.resign last valid), ?_, ?_⟩
  · change last.final.phase = .finished
    rw [hFinal]
  · change second.privateEvents = [transition, transition']
    rw [hPrivate', hPrivate]
    rfl

/-- The order of its private transitions is strict, so swapping them shows. -/
theorem ShortGame.Valid.swapped {s : ShortGame} (h : s.Valid) :
    ¬ Ordered [s.transitions.2, s.transitions.1] := by
  have hOrdered := h.reachable.chronicle.ordered
  rw [h.privateEvents, Ordered, List.pairwise_pair] at hOrdered
  rw [Ordered, List.pairwise_pair]
  exact fun hGreater => UInt64.lt_irrefl _ (UInt64.lt_trans hOrdered hGreater)

/-! The two replay paths. -/

/-- A complete replay and the public replay of the same history return the same
game; a public replay is a complete one with the private transitions of the
game it returns. -/
theorem public_replay_agrees (platform : Platform) (lexicon : Option WordValidator) :
    (∀ bundle g, Game.replay platform bundle lexicon = .ok g →
      Game.replayPublic platform (.ofReplayBundle bundle) lexicon = .ok g) ∧
    (∀ bundle g, Game.replayPublic platform bundle lexicon = .ok g →
      Game.replay platform { bundle.completeShape with privateEvents := g.privateEvents } lexicon =
        .ok g) := by
  constructor
  · intro bundle g h
    obtain ⟨hReachable, hLexicon, -, hHistory⟩ := replay_iff_history.mp h
    refine replayPublic_iff_history.mpr ⟨hReachable, hLexicon, ?_⟩
    rw [hHistory]
    rfl
  · intro bundle g h
    obtain ⟨hReachable, hLexicon, rfl⟩ := replayPublic_iff_history.mp h
    exact replay_iff_history.mpr ⟨hReachable, hLexicon, List.Perm.refl _, rfl⟩

theorem shortGame_public_replay : ∃ bundle g lexicon,
    Game.replay basicPlatform bundle lexicon = .ok g ∧ g.state.phase = .finished ∧
      bundle.privateEvents ≠ [] ∧
      Game.replayPublic basicPlatform (.ofReplayBundle bundle) lexicon = .ok g := by
  obtain ⟨s, h⟩ := exists_shortGame
  have hReplay : Game.replay basicPlatform
      (s.last.1.history basicPlatform s.last.1.privateEvents) (some s.last.1.lexicon) =
      .ok s.last.1 := replay_iff_history.mpr ⟨h.reachable, rfl, List.Perm.refl _, rfl⟩
  refine ⟨_, s.last.1, _, hReplay, h.finished, ?_, (public_replay_agrees _ _).1 _ _ hReplay⟩
  change s.last.1.privateEvents ≠ []
  rw [h.privateEvents]
  exact List.cons_ne_nil _ _

/-! Exported bundles. -/

/-- A replayed and finished game exports the bundle it was replayed from exactly
when the private transitions of that bundle come in sequence order. -/
theorem replay_exports_iff {platform : Platform} {bundle : ReplayBundle}
    {lexicon : Option WordValidator} {g : Game}
    (hReplay : Game.replay platform bundle lexicon = .ok g)
    (hFinished : g.state.phase = .finished) :
    g.replayBundle platform = some bundle ↔ Ordered bundle.privateEvents := by
  obtain ⟨hReachable, -, hPerm, hHistory⟩ := replay_iff_history.mp hReplay
  have hOrdered := hReachable.chronicle.ordered
  rw [hReachable.replayBundle hFinished, Option.some.injEq]
  constructor
  · intro hSame
    rw [← hSame]
    exact hOrdered
  · intro hBundle
    rw [hHistory, hOrdered.eq_of_perm hBundle hPerm]

theorem shortGame_exports : ∃ bundle g lexicon,
    Game.replay basicPlatform bundle lexicon = .ok g ∧ g.state.phase = .finished ∧
      g.replayBundle basicPlatform = some bundle := by
  obtain ⟨s, h⟩ := exists_shortGame
  have hReplay : Game.replay basicPlatform
      (s.last.1.history basicPlatform s.last.1.privateEvents) (some s.last.1.lexicon) =
      .ok s.last.1 := replay_iff_history.mpr ⟨h.reachable, rfl, List.Perm.refl _, rfl⟩
  exact ⟨_, _, _, hReplay, h.finished,
    (replay_exports_iff hReplay h.finished).mpr h.reachable.chronicle.ordered⟩

/-- The bundle of the short game with its two private transitions swapped is
accepted although the game exports another one. -/
theorem shortGame_swapped_accepted : ∃ s : ShortGame, s.Valid ∧
    ∃ bundle, s.last.1.replayBundle basicPlatform = some bundle ∧
      bundle.privateEvents = [s.transitions.1, s.transitions.2] ∧
      Game.replay basicPlatform
        { bundle with privateEvents := [s.transitions.2, s.transitions.1] }
        (some s.last.1.lexicon) = .ok s.last.1 ∧
      s.last.1.state.phase = .finished ∧
      s.last.1.replayBundle basicPlatform ≠
        some { bundle with privateEvents := [s.transitions.2, s.transitions.1] } := by
  obtain ⟨s, h⟩ := exists_shortGame
  have hBundle := h.reachable.replayBundle h.finished
  refine ⟨s, h, _, hBundle, h.privateEvents, ?_, h.finished, ?_⟩
  · refine replay_iff_history.mpr ⟨h.reachable, rfl, ?_, rfl⟩
    rw [h.privateEvents]
    exact List.Perm.swap ..
  · rw [hBundle]
    intro hSame
    have hOrder : s.last.1.privateEvents = [s.transitions.2, s.transitions.1] :=
      congrArg ReplayBundle.privateEvents (Option.some.inj hSame)
    exact h.swapped (hOrder ▸ h.reachable.chronicle.ordered)

/-! Checkpoints. -/

/-- The checkpoint of a reachable game can be resumed. -/
theorem Reachable.resume {platform : Platform} {g : Game} (h : Reachable platform g) :
    Game.resume platform (g.snapshot platform) g.ruleset (some g.lexicon) = .ok g := by
  simp only [Game.resume, bind_eq_ok, reject_eq_ok, validate_eq_ok, pure_eq_ok, not_or, not_not]
  have hIdentified := h.identified
  have hReplay : Game.replay platform ((g.snapshot platform).bundle platform g.ruleset)
      (some g.lexicon) = .ok g :=
    replay_iff_history.mpr ⟨h, rfl, List.Perm.refl _, rfl⟩
  exact ⟨(), rfl, (), h.shape.builtin, (),
    ⟨hIdentified.rulesetId, hIdentified.ruleset, rfl⟩, (), h.shape.board, (), ⟨trivial, trivial⟩, g,
    hReplay, (), ⟨rfl, rfl, rfl, rfl, rfl⟩, rfl⟩

/-- Resuming the checkpoint of a reachable game returns that game, and nothing
but the checkpoint of a game reachable from its seed can be resumed. -/
theorem resume_iff_checkpoint (platform : Platform) :
    (∀ g, Reachable platform g →
      Game.resume platform (g.snapshot platform) g.ruleset (some g.lexicon) = .ok g) ∧
    (∀ snapshot ruleset lexicon g, Game.resume platform snapshot ruleset lexicon = .ok g →
      g.snapshot platform = snapshot ∧
      ∃ start gameId mode playerCount,
        Game.createWithModeAndPlayers platform gameId ruleset lexicon ⟨snapshot.seed⟩ mode
          playerCount = .ok start ∧
        (engine platform).Run start g) := by
  refine ⟨fun g h => h.resume, ?_⟩
  simp only [Game.resume, bind_eq_ok, reject_eq_ok, validate_eq_ok, pure_eq_ok, not_or, not_not]
  rintro snapshot ruleset lexicon g ⟨-, hSchema, -, -, -, ⟨-, -, hIdentity⟩, -, -, -, -, game,
    hReplay, -, ⟨hState, hBag, hRacks, hEvents, hPrivate⟩, rfl⟩
  obtain ⟨hReachable, hLexicon, -, hHistory⟩ := replay_iff_history.mp hReplay
  have hRuleset : ruleset = game.ruleset := congrArg ReplayBundle.ruleset hHistory
  have hSeed : snapshot.seed = game.seed.bytes := congrArg ReplayBundle.seedReveal hHistory
  constructor
  · rw [Game.snapshot, hState, hBag, hRacks, hEvents, hPrivate, ← hSeed, ← hRuleset, ← hIdentity,
      ← hSchema]
  · obtain ⟨d, gameId, mode, playerCount, events, hValidator, hValid, hTrace⟩ := hReachable.origin
    refine ⟨_, gameId, mode, playerCount, createWithModeAndPlayers_eq_ok.mpr
      ⟨d, by rw [hLexicon, hValidator], ?_, rfl⟩, ?_⟩
    · rw [hRuleset, hSeed]
      exact hValid
    · rw [hRuleset, hSeed]
      exact hTrace.run

theorem shortGame_resumes : ∃ g, Reachable basicPlatform g ∧ g.privateEvents ≠ [] ∧
    Game.resume basicPlatform (g.snapshot basicPlatform) g.ruleset (some g.lexicon) = .ok g := by
  obtain ⟨s, h⟩ := exists_shortGame
  refine ⟨s.last.1, h.reachable, ?_, (resume_iff_checkpoint basicPlatform).1 _ h.reachable⟩
  rw [h.privateEvents]
  exact List.cons_ne_nil _ _

end WordArena.Engine
