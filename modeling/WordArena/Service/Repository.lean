import WordArena.Library.Table
import WordArena.Library.Fallible
import WordArena.Service.Model

/-! The game repository. Rows of tables whose key starts with the game are kept
with their game; the other tables stand beside them. Every operation is one
transaction, and a refused one changes nothing. -/
namespace WordArena.Service

open Fallible WordArena.Engine WordArena.Lexicon WordArena.Application

structure RulesetRow where
  rulesetId : RulesetId
  contentSha256 : String
  definition : Ruleset
deriving DecidableEq

structure LexiconRow where
  packId : String
  packVersion : String
  contentSha256 : String
  identity : PackIdentity
deriving DecidableEq

structure ReplayRow where
  version : UInt64
  bundle : ReplayBundle
deriving DecidableEq

/-- One game with the rows that belong to it. -/
structure GameRecord where
  gameId : GameId
  status : GamePhase
  version : UInt64
  rulesetId : RulesetId
  rulesetSha256 : String
  lexiconPackId : String
  lexiconPackVersion : String
  lexiconContentSha256 : String
  createdAt : UnixMillis
  updatedAt : UnixMillis
  publicEvents : List GameEvent
  privateEvents : List PrivateGameEvent
  snapshots : List GameSnapshot
  deadlines : List TurnDeadline
  attempts : List InvalidAttemptState
  replays : List ReplayRow
  idempotency : List IdempotencyRecord
deriving DecidableEq

structure Store where
  rulesets : List RulesetRow
  lexicons : List LexiconRow
  games : List GameRecord
  creations : List CreationIdempotencyRecord
deriving DecidableEq

def Store.empty : Store := ⟨[], [], [], []⟩

def Store.game (s : Store) (gameId : GameId) : Option GameRecord :=
  s.games.find? fun record => record.gameId = gameId

def Store.ruleset (s : Store) (rulesetId : RulesetId) (contentSha256 : String) :
    Option RulesetRow :=
  s.rulesets.find? fun row => row.rulesetId = rulesetId ∧ row.contentSha256 = contentSha256

def Store.lexicon (s : Store) (packId packVersion contentSha256 : String) : Option LexiconRow :=
  s.lexicons.find? fun row =>
    row.packId = packId ∧ row.packVersion = packVersion ∧ row.contentSha256 = contentSha256

def Store.creation (s : Store) (keyDigest : Digest) : Option CreationIdempotencyRecord :=
  s.creations.find? fun row => row.keyDigest = keyDigest

/-- Write back one game. -/
def Store.put (s : Store) (record : GameRecord) : Store :=
  { s with games := Table.update (fun old => old.gameId = record.gameId) (fun _ => record) s.games }

def GameRecord.snapshot (record : GameRecord) (version : UInt64) : Option GameSnapshot :=
  record.snapshots.find? fun snapshot => snapshot.state.version = version

def GameRecord.attempt (record : GameRecord) (turn : UInt64) (seat : Seat) :
    Option InvalidAttemptState :=
  record.attempts.find? fun attempt => attempt.turn = turn ∧ attempt.seat = seat

def GameRecord.cached (record : GameRecord) (keyDigest : Digest) : Option IdempotencyRecord :=
  record.idempotency.find? fun row => row.keyDigest = keyDigest

/-- Stored integers are `i64`. -/
def ensureI64 (value : UInt64) : Except RepositoryError Unit :=
  reject (2 ^ 63 ≤ value.toNat) .corrupt

/-! Single inserts. -/

def GameRecord.insertPublicEvent (record : GameRecord) (event : GameEvent) :
    Except RepositoryError GameRecord := do
  ensureI64 event.sequence
  let rows ← okOr (Table.insert (fun _ => true) (fun a b => a.sequence = b.sequence) event
    record.publicEvents) .corrupt
  return { record with publicEvents := rows }

def GameRecord.insertPrivateEvent (record : GameRecord) (event : PrivateGameEvent) :
    Except RepositoryError GameRecord := do
  ensureI64 event.sequence
  let rows ← okOr (Table.insert (fun row => 0 < row.sequence)
    (fun a b => a.sequence = b.sequence ∧ a.seat = b.seat) event record.privateEvents) .corrupt
  return { record with privateEvents := rows }

def GameRecord.insertSnapshot (record : GameRecord) (snapshot : GameSnapshot) :
    Except RepositoryError GameRecord := do
  ensureI64 snapshot.state.version
  let rows ← okOr (Table.insert (fun row => 0 < row.schemaVersion)
    (fun a b => a.state.version = b.state.version) snapshot record.snapshots) .corrupt
  return { record with snapshots := rows }

def GameRecord.insertDeadline (record : GameRecord) :
    Option TurnDeadline → Except RepositoryError GameRecord
  | none => .ok record
  | some deadline => do
      ensureI64 deadline.turn
      let rows ← okOr (Table.insert (fun row => 0 ≤ row.deadlineAt ∧ 0 < row.policyVersion)
        (fun a b => a.turn = b.turn) deadline record.deadlines) .corrupt
      return { record with deadlines := rows }

def insertIdempotency (s : Store) (row : IdempotencyRecord) : Except RepositoryError Store := do
  let record ← okOr (s.game row.gameId) .corrupt
  reject (row.digestVersion = 0 ∨ row.commandKind = "" ∨ validSha256 row.payloadSha256 = false ∨
    row.createdAt < 0) .corrupt
  let rows ← okOr (Table.insert (fun _ => true) (fun a b => a.keyDigest = b.keyDigest) row
    record.idempotency) .conflict
  return s.put { record with idempotency := rows }

def insertCreationIdempotency (s : Store) (row : CreationIdempotencyRecord) :
    Except RepositoryError Store := do
  reject (row.digestVersion = 0 ∨ validSha256 row.payloadSha256 = false ∨
    row.result.createdAt < 0) .corrupt
  let rows ← okOr (Table.insert (fun _ => true)
    (fun a b => a.keyDigest = b.keyDigest ∨ a.result.gameId = b.result.gameId) row
    s.creations) .conflict
  return { s with creations := rows }

/-! Creation. -/

def initialRuleset (platform : Platform) (record : StoredGame) :
    Except RepositoryError Ruleset := do
  reject (record.snapshot.schemaVersion ≠ snapshotSchemaVersion ∨
    record.snapshot.state.version ≠ 0 ∨ record.snapshot.state.phase ≠ .active ∨
    record.snapshot.state.gameId ≠ record.gameId.asStr ∨ record.createdAt ≠ record.updatedAt ∨
    record.snapshot.events.length ≠ 1 ∨ record.snapshot.privateEvents ≠ []) .corrupt
  let event ← okOr record.snapshot.events.head? .corrupt
  let created ← mapErr (fun _ => .corrupt) (creationRecord event)
  reject (event.sequence ≠ 0 ∨ created.ruleset.identity platform ≠ record.snapshot.ruleset ∨
    record.snapshot.state.ruleset ≠ record.snapshot.ruleset ∨
    created.ruleset.lexicon ≠ record.snapshot.state.lexicon) .corrupt
  return created.ruleset

/-- Keep the row that is there; it must be the same definition. -/
def registerRuleset (platform : Platform) (s : Store) (ruleset : Ruleset) (createdAt : UnixMillis) :
    Except RepositoryError Store := do
  let identity := ruleset.identity platform
  reject (identity.schemaVersion = 0 ∨ validSha256 identity.contentSha256 = false ∨ createdAt < 0)
    .corrupt
  match s.ruleset ruleset.id identity.contentSha256 with
  | some stored => do
      reject (stored.definition ≠ ruleset) .corrupt
      return s
  | none =>
      return { s with rulesets := s.rulesets ++ [⟨ruleset.id, identity.contentSha256, ruleset⟩] }

def registerLexicon (s : Store) (identity : PackIdentity) (installedAt : UnixMillis) :
    Except RepositoryError Store := do
  reject (validSha256 identity.contentSha256 = false ∨ identity.formatVersion = 0 ∨
    identity.normalization.version = 0 ∨ identity.locale.length < 2 ∨ 35 < identity.locale.length ∨
    installedAt < 0) .corrupt
  match s.lexicon identity.packId identity.packVersion identity.contentSha256 with
  | some stored => do
      reject (stored.identity ≠ identity) .incompatiblePack
      return s
  | none =>
      return { s with lexicons := s.lexicons ++
        [⟨identity.packId, identity.packVersion, identity.contentSha256, identity⟩] }

/-- The row of a new game before its events, snapshot and deadline. -/
def GameRecord.fresh (record : StoredGame) : GameRecord where
  gameId := record.gameId
  status := .active
  version := 0
  rulesetId := record.snapshot.state.rulesetId
  rulesetSha256 := record.snapshot.state.ruleset.contentSha256
  lexiconPackId := record.snapshot.state.lexicon.packId
  lexiconPackVersion := record.snapshot.state.lexicon.packVersion
  lexiconContentSha256 := record.snapshot.state.lexicon.contentSha256
  createdAt := record.createdAt
  updatedAt := record.updatedAt
  publicEvents := []
  privateEvents := []
  snapshots := []
  deadlines := []
  attempts := []
  replays := []
  idempotency := []

def insertGame (platform : Platform) (s : Store) (record : StoredGame)
    (creation : CreationIdempotencyRecord) : Except RepositoryError Store := do
  reject (creation.result.gameId ≠ record.gameId ∨ creation.result.createdAt ≠ record.createdAt ∨
    creation.result.publicView.state ≠ record.snapshot.state ∨
    creation.result.publicView.events ≠ record.snapshot.events) .corrupt
  let ruleset ← initialRuleset platform record
  let s ← registerRuleset platform s ruleset record.createdAt
  let s ← registerLexicon s record.snapshot.state.lexicon record.createdAt
  reject (record.createdAt < 0 ∨ record.updatedAt < record.createdAt) .corrupt
  reject ((s.game record.gameId).isSome = true) .alreadyExists
  let event ← okOr record.snapshot.events.head? .corrupt
  let game ← (GameRecord.fresh record).insertPublicEvent event
  let game ← game.insertSnapshot record.snapshot
  let game ← game.insertDeadline record.turnDeadline
  insertCreationIdempotency { s with games := s.games ++ [game] } creation

/-! Loading. -/

def validateLoadedMetadata (row : GameRecord) (gameId : GameId) (snapshot : GameSnapshot) :
    Except RepositoryError Unit := do
  reject (snapshot.state.gameId ≠ gameId.asStr ∨ snapshot.state.version ≠ row.version ∨
    row.status ≠ snapshot.state.phase ∨ row.rulesetId ≠ snapshot.state.rulesetId ∨
    row.rulesetSha256 ≠ snapshot.state.ruleset.contentSha256) .corrupt
  reject (row.lexiconPackId ≠ snapshot.state.lexicon.packId ∨
    row.lexiconPackVersion ≠ snapshot.state.lexicon.packVersion ∨
    row.lexiconContentSha256 ≠ snapshot.state.lexicon.contentSha256) .incompatiblePack

def validateRuleset (platform : Platform) (ruleset : Ruleset) (snapshot : GameSnapshot) :
    Except RepositoryError Unit := do
  let event ← okOr snapshot.events.head? .corrupt
  let created ← mapErr (fun _ => .corrupt) (creationRecord event)
  reject (ruleset ≠ created.ruleset ∨ ruleset.identity platform ≠ snapshot.ruleset) .corrupt

def loadDeadline (row : GameRecord) (version : UInt64) :
    Except RepositoryError (Option TurnDeadline) := do
  ensureI64 version
  match row.deadlines.find? fun deadline => deadline.turn = version with
  | none => return none
  | some deadline => do
      reject (deadline.deadlineAt < 0) .corrupt
      return some deadline

def loadGame (platform : Platform) (s : Store) (gameId : GameId) :
    Except RepositoryError StoredGame := do
  let row ← okOr (s.game gameId) .notFound
  let snapshot ← okOr (row.snapshot row.version) .notFound
  let ruleset ← okOr (s.ruleset row.rulesetId row.rulesetSha256) .notFound
  let lexicon ← okOr (s.lexicon row.lexiconPackId row.lexiconPackVersion row.lexiconContentSha256)
    .notFound
  reject (snapshot.schemaVersion ≠ snapshotSchemaVersion) .incompatibleSchema
  reject (row.createdAt < 0 ∨ row.updatedAt < 0) .corrupt
  validateLoadedMetadata row gameId snapshot
  validateRuleset platform ruleset.definition snapshot
  reject (lexicon.identity ≠ snapshot.state.lexicon) .incompatiblePack
  reject (row.publicEvents.mergeSort (fun a b => a.sequence ≤ b.sequence) ≠ snapshot.events ∨
    row.privateEvents.mergeSort (fun a b => a.sequence < b.sequence ∨
      a.sequence = b.sequence ∧ a.seat.index ≤ b.seat.index) ≠ snapshot.privateEvents) .corrupt
  let turnDeadline ← loadDeadline row row.version
  return ⟨gameId, row.createdAt, row.updatedAt, snapshot, turnDeadline⟩

def lookupIdempotency (s : Store) (gameId : GameId) (keyDigest : Digest) (payloadSha256 : String) :
    IdempotencyLookup :=
  match (s.game gameId).bind fun record => record.cached keyDigest with
  | none => .missing
  | some row => if row.payloadSha256 ≠ payloadSha256 then .payloadConflict else .found row.outcome

def loadCreationIdempotency (s : Store) (keyDigest : Digest) (payloadSha256 : String) :
    CreationIdempotencyLookup :=
  match s.creation keyDigest with
  | none => .missing
  | some row => if row.payloadSha256 ≠ payloadSha256 then .payloadConflict else .found row.result

def loadInvalidAttempt (s : Store) (gameId : GameId) (turn : UInt64) (seat : Seat) :
    Except RepositoryError (Option InvalidAttemptState) := do
  ensureI64 turn
  return (s.game gameId).bind fun record => record.attempt turn seat

/-- Only a finished game has a replay row for its version. -/
def loadRecovery (s : Store) (gameId : GameId) : Except RepositoryError RecoveryRecord := do
  let row ← okOr (s.game gameId) .corrupt
  let replay ← okOr (row.replays.find? fun replay => replay.version = row.version) .corrupt
  reject (row.status ≠ .finished) .corrupt
  reject (row.createdAt < 0 ∨ row.updatedAt < 0) .corrupt
  return ⟨gameId, row.createdAt, row.updatedAt, .finished, replay.bundle⟩

/-- Active games with a due deadline for their version, the oldest first. -/
def dueTimeouts (s : Store) (now : UnixMillis) (limit : UInt32) : List TimeoutCommand :=
  let due := s.games.flatMap fun record =>
    (record.deadlines.filter fun deadline => deadline.turn = record.version ∧
      record.status = .active ∧ deadline.deadlineAt ≤ now).map fun deadline =>
        (deadline.deadlineAt, record.gameId, deadline.turn)
  ((due.mergeSort fun a b => a.1 < b.1 ∨ a.1 = b.1 ∧ ¬ b.2.1.asStr < a.2.1.asStr).take
    limit.toNat).map fun entry => ⟨entry.2.1, entry.2.2⟩

/-! Committing an action. -/

/-- The next snapshot adds one event and at most one private transition. -/
def validateSuccessor (previous next : GameSnapshot) :
    Except RepositoryError (GameEvent × List PrivateGameEvent) := do
  reject (previous.schemaVersion ≠ snapshotSchemaVersion ∨
    next.schemaVersion ≠ snapshotSchemaVersion ∨ next.ruleset ≠ previous.ruleset ∨
    next.rngAlgorithm ≠ previous.rngAlgorithm ∨ next.state.lexicon ≠ previous.state.lexicon ∨
    next.state.version.toNat ≠ min (previous.state.version.toNat + 1) (2 ^ 64 - 1) ∨
    next.events.length ≠ previous.events.length + 1 ∨
    previous.events.isPrefixOf next.events = false ∨
    previous.privateEvents.isPrefixOf next.privateEvents = false) .corrupt
  let addedPrivate := next.privateEvents.drop previous.privateEvents.length
  reject (1 < addedPrivate.length ∨
    addedPrivate.any (fun event => event.sequence ≠ next.state.version) = true) .corrupt
  let event ← okOr next.events.getLast? .corrupt
  reject (event.sequence ≠ next.state.version) .corrupt
  return (event, addedPrivate)

def replaceInTransaction (s : Store) (expectedVersion : UInt64) (record : StoredGame) :
    Except RepositoryError Store := do
  let nextVersion ← okOr (Checked.addU64 expectedVersion 1) .corrupt
  reject (record.snapshot.state.version ≠ nextVersion ∨ record.updatedAt < record.createdAt ∨
    record.snapshot.state.gameId ≠ record.gameId.asStr) .corrupt
  ensureI64 nextVersion
  let row ← okOr (s.game record.gameId) .notFound
  reject (row.version ≠ expectedVersion) .conflict
  reject (record.updatedAt < row.createdAt) .corrupt
  let previous ← okOr (row.snapshot expectedVersion) .corrupt
  let (event, privateEvents) ← validateSuccessor previous record.snapshot
  let row := { row with
    version := nextVersion
    status := record.snapshot.state.phase
    updatedAt := record.updatedAt }
  let row ← row.insertPublicEvent event
  let row ← privateEvents.foldlM GameRecord.insertPrivateEvent row
  let row ← row.insertSnapshot record.snapshot
  let row ← row.insertDeadline record.turnDeadline
  return s.put row

/-- A rejection writes no game row; the game only has to exist. -/
def commitSuccessor (s : Store) (commit : ActionCommit) : Except RepositoryError Store :=
  match commit.successor with
  | some successor => replaceInTransaction s commit.expectedVersion successor
  | none => do
      reject (s.game commit.idempotency.gameId = none) .notFound
      return s

/-- Counters move by compare and set: the stored count is one below. -/
def commitAttempt (s : Store) (commit : ActionCommit) : Except RepositoryError Store :=
  match commit.invalidAttempt with
  | none => .ok s
  | some attempt => do
      ensureI64 attempt.turn
      let record ← okOr (s.game commit.idempotency.gameId) .corrupt
      reject (attempt.policyVersion = 0 ∨ attempt.count = 0 ∨ commit.idempotency.createdAt < 0)
        .corrupt
      match record.attempt attempt.turn attempt.seat with
      | none => return s.put { record with attempts := record.attempts ++ [attempt] }
      | some prior => do
          reject (prior.count.toNat + 1 ≠ attempt.count.toNat) .conflict
          return s.put { record with
            attempts := Table.update (fun old => old.turn = attempt.turn ∧ old.seat = attempt.seat)
              (fun _ => attempt) record.attempts }

def commitReplay (s : Store) (commit : ActionCommit) : Except RepositoryError Store :=
  match commit.replay with
  | none => .ok s
  | some replay => do
      let successor ← okOr commit.successor .corrupt
      let record ← okOr (s.game successor.gameId) .corrupt
      ensureI64 successor.snapshot.state.version
      reject (replay.schemaVersion = 0 ∨ successor.updatedAt < 0) .corrupt
      let rows ← okOr (Table.insert (fun _ => true) (fun a b => a.version = b.version)
        ⟨successor.snapshot.state.version, replay⟩ record.replays) .corrupt
      return s.put { record with replays := rows }

def commitActionRecord (s : Store) (commit : ActionCommit) : Except RepositoryError Store := do
  let s ← commitSuccessor s commit
  let s ← commitAttempt s commit
  let s ← commitReplay s commit
  insertIdempotency s commit.idempotency

end WordArena.Service
