import WordArena.Engine.Actions

/-! Snapshots, replay bundles and their verification by deterministic replay.
The two replay paths keep their own loops, as in the source. -/
namespace WordArena.Engine

open Fallible WordArena.Lexicon

def Game.snapshot (platform : Platform) (g : Game) : GameSnapshot where
  schemaVersion := snapshotSchemaVersion
  ruleset := g.ruleset.identity platform
  rngAlgorithm := g.state.rngAlgorithm
  state := g.state
  bag := g.bag
  racks := g.racks
  seed := g.seed.bytes
  events := g.events
  privateEvents := g.privateEvents

/-- Available only after completion. -/
def Game.replayBundle (platform : Platform) (g : Game) : Option ReplayBundle :=
  if g.state.phase = .finished ∧ (g.events.head?.map (·.kind.isCreated)) = some true then
    some {
      schemaVersion := replaySchemaVersion
      rulesetIdentity := g.ruleset.identity platform
      ruleset := g.ruleset
      lexicon := g.state.lexicon
      rngAlgorithm := g.state.rngAlgorithm
      seedReveal := g.seed.bytes
      events := g.events
      privateEvents := g.privateEvents }
  else none

/-- The creation data of a first event, as a replay reads it. -/
structure CreationRecord where
  gameId : String
  ruleset : Ruleset
  mode : GameMode
  rngAlgorithm : RngAlgorithm
  seedCommitment : SeedCommitment
  rackCounts : List UInt8
deriving DecidableEq

def creationRecord (created : GameEvent) : Except GameError CreationRecord :=
  match created.kind with
  | .created gameId ruleset mode rngAlgorithm seedCommitment rackCounts _ =>
      .ok ⟨gameId, ruleset, mode, rngAlgorithm, seedCommitment, rackCounts⟩
  | _ => .error (.invalidReplayEvent created.sequence "first event must create the game")

/-- The creation prelude of the public path. -/
def Game.beginReplay (platform : Platform) (bundle : ReplayBundle)
    (lexicon : Option WordValidator) : Except GameError Game := do
  bundle.ruleset.validate
  reject (bundle.rulesetIdentity ≠ bundle.ruleset.identity platform)
    (.invalidTileState "replay ruleset identity differs from embedded ruleset")
  let lexicon ← okOr lexicon (.missingLexicon bundle.ruleset.id bundle.lexicon)
  bundle.ruleset.ensureLexicon .replay lexicon.identity
  mapErr .incompatibleLexicon (ensureExactPack .replay bundle.lexicon lexicon.identity)
  let created ← okOr bundle.events.head? (.invalidReplayEvent 0 "creation event is required")
  let record ← creationRecord created
  reject (created.sequence ≠ 0 ∨ record.ruleset ≠ bundle.ruleset ∨
      created.lexicon ≠ bundle.lexicon ∨ record.rngAlgorithm ≠ bundle.rngAlgorithm ∨
      record.seedCommitment.algorithm ≠ bundle.rngAlgorithm)
    (.replayEventMismatch created.sequence)
  let seed : GameSeed := ⟨bundle.seedReveal⟩
  reject (record.seedCommitment.verify platform seed = false) .seedCommitmentMismatch
  let game ← Game.createWithModeAndPlayers platform record.gameId bundle.ruleset (some lexicon) seed
    record.mode record.rackCounts.length
  reject (game.events.head? ≠ some created) (.replayEventMismatch 0)
  return game

/-- Re-execute the action recorded by one event at the current version. -/
def Game.reexecute (platform : Platform) (g : Game) (expected : GameEvent) :
    Except GameError (Game × GameEvent) :=
  match expected.kind with
  | .created .. => .error (.invalidReplayEvent expected.sequence "creation may occur only once")
  | .movePlayed player placements _ _ _ _ _ _ _ _ _ _ =>
      g.playTiles platform player g.state.version placements
  | .passed player _ _ _ => g.pass player g.state.version
  | .exchanged player tileIds _ _ _ _ _ =>
      g.exchangeTiles platform player g.state.version tileIds
  | .resigned player _ => g.resign player g.state.version

/-- The diagnostic for a missing private transition, when one is required. -/
def GameEventKind.expectsPrivate : GameEventKind → Option String
  | .movePlayed .. => some "placement requires one private transition"
  | .exchanged .. => some "exchange requires one private transition"
  | _ => none

/-- The private transition with the event's sequence must be the last one the
game recorded. It is found by search, not by position. -/
def Game.checkPrivate (g : Game) (bundle : ReplayBundle) (expected : GameEvent) :
    Except GameError Unit :=
  match expected.kind.expectsPrivate with
  | none => .ok ()
  | some reason => do
      let expectedPrivate ←
        okOr (bundle.privateEvents.find? fun event => event.sequence = expected.sequence)
          (.invalidReplayEvent expected.sequence reason)
      reject (g.privateEvents.getLast? ≠ some expectedPrivate)
        (.replayEventMismatch expected.sequence)

def Game.replayEvent (platform : Platform) (bundle : ReplayBundle) (g : Game)
    (expected : GameEvent) : Except GameError Game := do
  reject (expected.lexicon ≠ bundle.lexicon) (.replayEventMismatch expected.sequence)
  let (next, _) ← g.reexecute platform expected
  next.checkPrivate bundle expected
  reject (next.events.getLast? ≠ some expected) (.replayEventMismatch expected.sequence)
  return next

def Game.replay (platform : Platform) (bundle : ReplayBundle) (lexicon : Option WordValidator) :
    Except GameError Game := do
  reject (bundle.schemaVersion ≠ replaySchemaVersion)
    (.unsupportedSchema "replay" bundle.schemaVersion replaySchemaVersion)
  bundle.ruleset.validate
  reject (bundle.rulesetIdentity ≠ bundle.ruleset.identity platform)
    (.invalidTileState "replay ruleset identity differs from embedded ruleset")
  let lexicon ← okOr lexicon (.missingLexicon bundle.ruleset.id bundle.lexicon)
  bundle.ruleset.ensureLexicon .replay lexicon.identity
  mapErr .incompatibleLexicon (ensureExactPack .replay bundle.lexicon lexicon.identity)
  let created ← okOr bundle.events.head? (.invalidReplayEvent 0 "creation event is required")
  let record ← creationRecord created
  reject (created.sequence ≠ 0 ∨ record.ruleset ≠ bundle.ruleset ∨
      created.lexicon ≠ bundle.lexicon ∨ record.rngAlgorithm ≠ bundle.rngAlgorithm ∨
      record.seedCommitment.algorithm ≠ bundle.rngAlgorithm)
    (.replayEventMismatch created.sequence)
  let seed : GameSeed := ⟨bundle.seedReveal⟩
  reject (record.seedCommitment.verify platform seed = false) .seedCommitmentMismatch
  let game ← Game.createWithModeAndPlayers platform record.gameId bundle.ruleset (some lexicon) seed
    record.mode record.rackCounts.length
  reject (game.events.head? ≠ some created) (.replayEventMismatch 0)
  let game ← bundle.events.tail.foldlM (Game.replayEvent platform bundle) game
  reject (game.privateEvents.length ≠ bundle.privateEvents.length)
    (.invalidReplayEvent game.state.version "replay contains unmatched private transitions")
  return game

def Game.replayPublicEvent (platform : Platform) (lexicon : PackIdentity) (g : Game)
    (expected : GameEvent) : Except GameError Game := do
  reject (expected.lexicon ≠ lexicon) (.replayEventMismatch expected.sequence)
  let (next, _) ← g.reexecute platform expected
  reject (next.events.getLast? ≠ some expected) (.replayEventMismatch expected.sequence)
  return next

/-- A public bundle read as a complete one without private transitions. -/
def PublicReplayBundle.completeShape (bundle : PublicReplayBundle) : ReplayBundle where
  schemaVersion := replaySchemaVersion
  rulesetIdentity := bundle.rulesetIdentity
  ruleset := bundle.ruleset
  lexicon := bundle.lexicon
  rngAlgorithm := bundle.rngAlgorithm
  seedReveal := bundle.seedReveal
  events := bundle.events
  privateEvents := []

def Game.replayPublic (platform : Platform) (bundle : PublicReplayBundle)
    (lexicon : Option WordValidator) : Except GameError Game := do
  reject (bundle.schemaVersion ≠ publicReplaySchemaVersion)
    (.unsupportedSchema "public replay" bundle.schemaVersion publicReplaySchemaVersion)
  let game ← Game.beginReplay platform bundle.completeShape lexicon
  bundle.events.tail.foldlM (Game.replayPublicEvent platform bundle.lexicon) game

/-- The bundle a snapshot is checked with. -/
def GameSnapshot.bundle (platform : Platform) (snapshot : GameSnapshot) (ruleset : Ruleset) :
    ReplayBundle where
  schemaVersion := replaySchemaVersion
  rulesetIdentity := ruleset.identity platform
  ruleset
  lexicon := snapshot.state.lexicon
  rngAlgorithm := snapshot.rngAlgorithm
  seedReveal := snapshot.seed
  events := snapshot.events
  privateEvents := snapshot.privateEvents

def Game.resume (platform : Platform) (snapshot : GameSnapshot) (ruleset : Ruleset)
    (lexicon : Option WordValidator) : Except GameError Game := do
  reject (snapshot.schemaVersion ≠ snapshotSchemaVersion)
    (.unsupportedSchema "snapshot" snapshot.schemaVersion snapshotSchemaVersion)
  ruleset.validate
  reject (snapshot.state.rulesetId ≠ ruleset.id ∨
      snapshot.state.ruleset ≠ ruleset.identity platform ∨
      snapshot.ruleset ≠ ruleset.identity platform)
    (.rulesetMismatch snapshot.state.rulesetId ruleset.id)
  reject (snapshot.state.board.length ≠ boardSquares)
    (.invalidSnapshotBoard snapshot.state.board.length boardSquares)
  reject (snapshot.rngAlgorithm ≠ snapshot.state.rngAlgorithm ∨
      snapshot.rngAlgorithm ≠ snapshot.state.seedCommitment.algorithm)
    (.invalidTileState "snapshot RNG identities differ")
  let replayed ← Game.replay platform (snapshot.bundle platform ruleset) lexicon
  reject (replayed.state ≠ snapshot.state ∨ replayed.bag ≠ snapshot.bag ∨
      replayed.racks ≠ snapshot.racks ∨ replayed.events ≠ snapshot.events ∨
      replayed.privateEvents ≠ snapshot.privateEvents)
    (.invalidTileState "snapshot state differs from deterministic event replay")
  return replayed

end WordArena.Engine
