import Std.Data.TreeSet
import WordArena.Agent.Workspace
import WordArena.Rating.Model
import WordArena.Statistics.Aggregate

/-! Export envelopes: the records that are published, the policy for their audience, the
checks that a record and its checksum have to pass and the key that orders records. The
JSON texts that a serializer makes of these values are a parameter. -/
namespace WordArena.Export

open Fallible WordArena.Engine WordArena.Application WordArena.Rating WordArena.Statistics

def exportSchemaVersion : Nat := 1

def publicReplayExportSchemaVersion : Nat := 1

def operatorReplayExportSchemaVersion : Nat := 1

def tournamentResultExportSchemaVersion : Nat := 1

def standingsExportSchemaVersion : Nat := 1

def ratingExportSchemaVersion : Nat := 1

def analyticsExportSchemaVersion : Nat := 1

def exportPolicyVersion : Nat := 1

inductive ExportError where
  | invalidInput
  | incompatibleSchema
  | privacyViolation
  | checksumMismatch
  | outOfOrder
  | recordTooLarge
  | totalTooLarge
  | serialization
  | io
deriving DecidableEq

section Records

inductive ExportAudience where
  | publicAudience
  | operator
deriving DecidableEq

structure ExportProvenance where
  producer : String
  generatedAt : UnixMillis
  sourceIds : List String
  sourceSha256s : List String
deriving DecidableEq

structure ExportPolicy where
  policyVersion : Nat
  audience : ExportAudience
  redacted : Bool
  omittedFields : List String
deriving DecidableEq

structure PublicReplayExport where
  schemaVersion : Nat
  gameId : String
  replay : PublicReplayBundle

structure OperatorReplayExport where
  schemaVersion : Nat
  gameId : String
  replay : ReplayBundle

structure TournamentMatchExport where
  sequence : Nat
  matchId : String
  seriesId : String
  seriesGameNumber : Nat
  seatOneEntrantId : String
  seatTwoEntrantId : String
  result : GameResult
  publicReplaySha256 : String

structure TournamentResultExport where
  schemaVersion : Nat
  tournamentId : String
  formatIdentitySha256 : String
  results : List TournamentMatchExport

structure StandingRowExport where
  rank : Nat
  entrantId : String
  played : Nat
  wins : Nat
  losses : Nat
  ties : Nat
  spread : Int

structure StandingsExport where
  schemaVersion : Nat
  tournamentId : String
  rows : List StandingRowExport

structure RatingRowExport where
  entrantId : String
  value : RatingValue

structure RatingExport where
  schemaVersion : Nat
  periodSequence : Nat
  pool : RatingPool
  rows : List RatingRowExport

structure PublicAnalyticsExport where
  schemaVersion : Nat
  statistics : PublicStatistics

structure OperatorAnalyticsExport where
  schemaVersion : Nat
  statistics : OperatorStatistics

inductive ExportRecord where
  | publicReplay (payload : PublicReplayExport)
  | operatorReplay (payload : OperatorReplayExport)
  | tournamentResult (payload : TournamentResultExport)
  | standings (payload : StandingsExport)
  | ratings (payload : RatingExport)
  | publicAnalytics (payload : PublicAnalyticsExport)
  | operatorAnalytics (payload : OperatorAnalyticsExport)

structure ExportEnvelope where
  schemaVersion : Nat
  contentType : String
  provenance : ExportProvenance
  policy : ExportPolicy
  contentSha256 : String
  record : ExportRecord

/-- What the checksum of an envelope covers. -/
structure ChecksummedContent where
  schemaVersion : Nat
  contentType : String
  provenance : ExportProvenance
  policy : ExportPolicy
  record : ExportRecord

/-- The texts and the values that a serializer makes of the data. -/
structure Serializer where
  content : ChecksummedContent → Option (List UInt8)
  envelope : ExportEnvelope → Option (List UInt8)
  filter : StatisticsFilter → Option (List UInt8)
  value : ExportEnvelope → Option Agent.JsonValue

end Records

section Texts

/-- A text occurs in another one. -/
def hasText (text part : String) : Bool := decide (part.toList <:+: text.toList)

def asciiLower (text : String) : String := String.ofList (text.toList.map Char.toLower)

/-- An identifier that cannot be taken for a credential. -/
def validExportId (value : String) : Bool :=
  validId value 512 && !hasText value "wa_cap_v1" && !hasText (asciiLower value) "bearer "

/-- Every text is below the next one. -/
def isIncreasing (values : List String) : Bool :=
  (values.zip values.tail).all fun pair => decide (pair.1 < pair.2)

def isSortedUnique (values : List String) : Bool :=
  values.all validExportId && isIncreasing values

/-- Twenty decimal digits. -/
def twentyDigits (n : Nat) : String :=
  String.ofList (List.replicate (20 - (Nat.toDigits 10 n).length) '0' ++ Nat.toDigits 10 n)

end Texts

section Replays

def isTerminal : GameEventKind → Bool
  | .movePlayed _ _ _ _ _ _ _ _ _ _ _ result => result.isSome
  | .passed _ _ _ result => result.isSome
  | .exchanged _ _ _ _ _ _ result => result.isSome
  | .resigned .. => true
  | .created .. => false

/-- The game that a complete public history is about. -/
def replayGameId (events : List GameEvent) : Except ExportError String := do
  let first ← okOr events.head? .invalidInput
  let (gameId, _) ← mapErr (fun _ => ExportError.invalidInput) (createdBy first.kind)
  reject (first.sequence ≠ 0 ∨ validExportId gameId = false) .invalidInput
  events.zipIdx.forM fun entry => reject (entry.1.sequence.toNat ≠ entry.2 ∨
    entry.1.visibility ≠ .publicEvent) .invalidInput
  let last ← okOr events.getLast? .invalidInput
  reject (isTerminal last.kind = false) .invalidInput
  return gameId

variable (platform : Platform)

def validatePublicReplay (e : PublicReplayExport) : Except ExportError Unit := do
  reject (e.schemaVersion ≠ publicReplayExportSchemaVersion ∨
    e.replay.schemaVersion ≠ publicReplaySchemaVersion) .incompatibleSchema
  let gameId ← replayGameId e.replay.events
  reject (e.gameId ≠ gameId ∨ e.replay.rulesetIdentity ≠ e.replay.ruleset.identity platform ∨
    e.replay.lexicon ≠ e.replay.ruleset.lexicon ∨
    e.replay.events.any (fun event => event.lexicon ≠ e.replay.lexicon) = true) .incompatibleSchema

def validateOperatorReplay (e : OperatorReplayExport) : Except ExportError Unit := do
  reject (e.schemaVersion ≠ operatorReplayExportSchemaVersion ∨
    e.replay.schemaVersion ≠ replaySchemaVersion) .incompatibleSchema
  let gameId ← replayGameId e.replay.events
  reject (e.gameId ≠ gameId ∨ e.replay.rulesetIdentity ≠ e.replay.ruleset.identity platform ∨
    e.replay.lexicon ≠ e.replay.ruleset.lexicon ∨
    e.replay.events.any (fun event => event.lexicon ≠ e.replay.lexicon) = true) .incompatibleSchema

end Replays

section Validation

def validateMatch (identities : Std.TreeSet String) (entry : TournamentMatchExport × Nat) :
    Except ExportError (Std.TreeSet String) := do
  let game := entry.1
  reject (game.sequence ≠ entry.2 ∨ validExportId game.matchId = false ∨
    validExportId game.seriesId = false ∨ game.seriesGameNumber = 0 ∨
    validExportId game.seatOneEntrantId = false ∨ validExportId game.seatTwoEntrantId = false ∨
    game.seatOneEntrantId = game.seatTwoEntrantId ∨ validSha256 game.publicReplaySha256 = false ∨
    game.matchId ∈ identities) .invalidInput
  return identities.insert game.matchId

def validateTournament (e : TournamentResultExport) : Except ExportError Unit := do
  reject (e.schemaVersion ≠ tournamentResultExportSchemaVersion ∨
    validExportId e.tournamentId = false ∨ validSha256 e.formatIdentitySha256 = false)
    .incompatibleSchema
  let _ ← e.results.zipIdx.foldlM validateMatch ∅
  return ()

/-- The `u64` number of games that a row accounts for. -/
def accountedGames (row : StandingRowExport) : Option Nat :=
  if row.wins + row.losses + row.ties < 2 ^ 64 then some (row.wins + row.losses + row.ties)
  else none

/-- A row comes after another one by its rank and then by its entrant. -/
def comesAfter (row other : StandingRowExport) : Bool :=
  other.rank < row.rank || (other.rank == row.rank && decide (other.entrantId < row.entrantId))

def validateRow (rows : List StandingRowExport) (entrants : Std.TreeSet String)
    (entry : StandingRowExport × Nat) : Except ExportError (Std.TreeSet String) := do
  let row := entry.1
  let previous := if entry.2 = 0 then none else rows[entry.2 - 1]?
  reject (row.rank = 0 ∨ validExportId row.entrantId = false ∨ row.entrantId ∈ entrants ∨
    accountedGames row ≠ some row.played ∨ previous.any (comesAfter · row) = true) .invalidInput
  return entrants.insert row.entrantId

def validateStandings (e : StandingsExport) : Except ExportError Unit := do
  reject (e.schemaVersion ≠ standingsExportSchemaVersion ∨ validExportId e.tournamentId = false)
    .incompatibleSchema
  let _ ← e.rows.zipIdx.foldlM (validateRow e.rows) ∅
  return ()

variable (platform : Platform)

def validateRatings (e : RatingExport) : Except ExportError Unit := do
  reject (e.schemaVersion ≠ ratingExportSchemaVersion ∨
    (e.pool.key platform).toOption = none) .incompatibleSchema
  reject (e.rows.any (fun row => !validExportId row.entrantId || row.value.deviationMilli == 0 ||
    row.value.volatilityNano == 0) = true ∨ isIncreasing (e.rows.map (·.entrantId)) = false)
    .invalidInput

def validateRecord : ExportRecord → Except ExportError Unit
  | .publicReplay e => validatePublicReplay platform e
  | .operatorReplay e => validateOperatorReplay platform e
  | .tournamentResult e => validateTournament e
  | .standings e => validateStandings e
  | .ratings e => validateRatings platform e
  | .publicAnalytics e => reject (e.schemaVersion ≠ analyticsExportSchemaVersion ∨
      e.statistics.schemaVersion ≠ statisticsSchemaVersion) .incompatibleSchema
  | .operatorAnalytics e => reject (e.schemaVersion ≠ analyticsExportSchemaVersion ∨
      e.statistics.publicStatistics.schemaVersion ≠ statisticsSchemaVersion ∨
      isSortedUnique e.statistics.sourceIds = false) .incompatibleSchema

def validateProvenance (p : ExportProvenance) : Except ExportError Unit :=
  reject (validExportId p.producer = false ∨ p.generatedAt < 0 ∨
    isSortedUnique p.sourceIds = false ∨ isSortedUnique p.sourceSha256s = false ∨
    p.sourceSha256s.all validSha256 = false) .invalidInput

def validateAudience (record : ExportRecord) (audience : ExportAudience) :
    Except ExportError Unit :=
  match audience, record with
  | .publicAudience, .operatorReplay _ => .error .privacyViolation
  | .publicAudience, .operatorAnalytics _ => .error .privacyViolation
  | _, _ => .ok ()

def omittedFields : ExportAudience → List String
  | .publicAudience => ["capabilities", "diagnostics", "lexicon_contents", "private_events",
      "racks", "tool_arguments", "tool_results", "transcripts", "word_frequencies"]
  | .operator => ["capabilities", "hidden_reasoning", "provider_credentials"]

def policy (audience : ExportAudience) : ExportPolicy :=
  ⟨exportPolicyVersion, audience, audience == .publicAudience, omittedFields audience⟩

def recordContentType : ExportRecord → ExportAudience → String
  | .publicReplay _, .publicAudience => "application/vnd.word-arena.public-replay+json;version=1"
  | .operatorReplay _, .operator => "application/vnd.word-arena.operator-replay+json;version=1"
  | .publicReplay _, .operator => "application/vnd.word-arena.operator-replay+json;version=1"
  | .tournamentResult _, _ => "application/vnd.word-arena.tournament-result+json;version=1"
  | .standings _, _ => "application/vnd.word-arena.standings+json;version=1"
  | .ratings _, _ => "application/vnd.word-arena.ratings+json;version=1"
  | .publicAnalytics _, .publicAudience =>
      "application/vnd.word-arena.public-analytics+json;version=1"
  | .operatorAnalytics _, .operator =>
      "application/vnd.word-arena.operator-analytics+json;version=1"
  | .publicAnalytics _, .operator =>
      "application/vnd.word-arena.operator-analytics+json;version=1"
  | .operatorReplay _, .publicAudience => "invalid"
  | .operatorAnalytics _, .publicAudience => "invalid"

end Validation

section Privacy

def forbiddenKeys : List String :=
  ["capability", "credentials", "diagnostics", "private_events", "provider_secret", "rack",
    "rack_after", "tool_arguments", "tool_results", "transcript", "visible_input",
    "visible_output"]

mutual

/-- No field of a public value has a private name and no text holds a credential. -/
def validatePublicValue : Agent.JsonValue → Except ExportError Unit
  | .object fields => validatePublicFields fields
  | .array values => validatePublicValues values
  | .string text => reject (hasText text "wa_cap_v1" = true ∨
      hasText (asciiLower text) "bearer " = true) .privacyViolation
  | .null => .ok ()
  | .bool _ => .ok ()
  | .number _ => .ok ()

def validatePublicValues : List Agent.JsonValue → Except ExportError Unit
  | [] => .ok ()
  | value :: values => do
      validatePublicValue value
      validatePublicValues values

def validatePublicFields : List (String × Agent.JsonValue) → Except ExportError Unit
  | [] => .ok ()
  | (key, value) :: fields => do
      reject (forbiddenKeys.contains (asciiLower key) = true) .privacyViolation
      validatePublicValue value
      validatePublicFields fields

end

end Privacy

section Envelope

variable (platform : Platform) (serializer : Serializer)

def sha256Text (bytes : List UInt8) : String := Bytes.hexLower (platform.sha256 bytes).toList

/-- The key by which records are ordered in a stream. -/
def recordSortKey : ExportRecord → Except ExportError String
  | .publicReplay e => .ok ("01:public-replay:" ++ e.gameId)
  | .operatorReplay e => .ok ("02:operator-replay:" ++ e.gameId)
  | .tournamentResult e => .ok ("03:tournament-result:" ++ e.tournamentId)
  | .standings e => .ok ("04:standings:" ++ e.tournamentId)
  | .ratings e => do
      let key ← mapErr (fun _ => ExportError.invalidInput) (e.pool.key platform)
      return "05:ratings:" ++ key ++ ":" ++ twentyDigits e.periodSequence
  | .publicAnalytics e => do
      let filter ← okOr (serializer.filter e.statistics.filter) .serialization
      return "06:public-analytics:" ++ sha256Text platform filter
  | .operatorAnalytics e => do
      let filter ← okOr (serializer.filter e.statistics.publicStatistics.filter) .serialization
      return "07:operator-analytics:" ++ sha256Text platform filter

def contentDigest (content : ChecksummedContent) : Except ExportError String := do
  let bytes ← okOr (serializer.content content) .serialization
  return sha256Text platform bytes

def ExportEnvelope.content (e : ExportEnvelope) : ChecksummedContent :=
  ⟨e.schemaVersion, e.contentType, e.provenance, e.policy, e.record⟩

/-- A public envelope is checked once more as the value that readers will see. -/
def ExportEnvelope.verifyPublic (e : ExportEnvelope) : Except ExportError Unit :=
  if e.policy.audience = .publicAudience then do
    let value ← okOr (serializer.value e) .serialization
    validatePublicValue value
  else .ok ()

def ExportEnvelope.verify (e : ExportEnvelope) : Except ExportError Unit := do
  reject (e.schemaVersion ≠ exportSchemaVersion) .incompatibleSchema
  validateProvenance e.provenance
  validateRecord platform e.record
  validateAudience e.record e.policy.audience
  reject (e.policy ≠ Export.policy e.policy.audience ∨
    e.contentType ≠ recordContentType e.record e.policy.audience) .invalidInput
  let expected ← contentDigest platform serializer e.content
  reject (e.contentSha256 ≠ expected) .checksumMismatch
  e.verifyPublic serializer

def ExportEnvelope.sortKey (e : ExportEnvelope) : Except ExportError String :=
  recordSortKey platform serializer e.record

end Envelope

end WordArena.Export
