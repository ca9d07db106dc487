import Mathlib.Data.String.Basic
import WordArena.Application.Text
import WordArena.Engine.State

/-! Match statistics and how they are derived from public events. An index outside
the two observations stops the program, so a derivation has three outcomes: a value,
one of its errors, and a panic. -/
namespace WordArena.Statistics

open Fallible WordArena.Engine WordArena.Application WordArena.Lexicon

def statisticsSchemaVersion : Nat := 1

inductive StatisticsError where
  | invalidInput
  | overflow
  | conflict
deriving DecidableEq

/-- How a derivation ends without a value. -/
inductive StatisticsFault where
  | error (e : StatisticsError)
  | panicked
deriving DecidableEq

section Inputs

inductive StatisticAvailability where
  | exact
  | estimated
  | unavailable
deriving DecidableEq

structure SourcedStatistic where
  availability : StatisticAvailability
  value : Option Nat
deriving DecidableEq

def SourcedStatistic.exact (value : Nat) : SourcedStatistic := ⟨.exact, some value⟩

def SourcedStatistic.unavailable : SourcedStatistic := ⟨.unavailable, none⟩

def SourcedStatistic.validate (s : SourcedStatistic) : Except StatisticsError Unit :=
  match s.availability, s.value with
  | .exact, some _ => .ok ()
  | .estimated, some _ => .ok ()
  | .unavailable, none => .ok ()
  | _, _ => .error .invalidInput

structure NormalizedRunStatistics where
  turnDurationsMs : Option (List Nat)
  toolCalls : SourcedStatistic
  inputTokens : SourcedStatistic
  outputTokens : SourcedStatistic
  costMicrousd : SourcedStatistic
deriving DecidableEq

def NormalizedRunStatistics.validate (t : NormalizedRunStatistics) :
    Except StatisticsError Unit := do
  t.toolCalls.validate
  t.inputTokens.validate
  t.outputTokens.validate
  t.costMicrousd.validate
  reject (t.turnDurationsMs.any (fun durations => 1000000 < durations.length) = true) .invalidInput

structure StatisticsParticipant where
  entrantId : String
  agentManifestSha256 : Option String
deriving DecidableEq

structure MatchStatisticsInput where
  schemaVersion : Nat
  sourceId : String
  tournamentId : Option String
  matchId : String
  gameId : String
  finishedAt : UnixMillis
  participants : Vector StatisticsParticipant 2
  events : List GameEvent
  invalidAttempts : Vector Nat 2
  telemetry : Vector NormalizedRunStatistics 2
deriving DecidableEq

end Inputs

section Outputs

structure StatisticsScope where
  language : String
  rulesetId : String
  rulesetSha256 : String
  packId : String
  packVersion : String
  packSha256 : String
  agentManifestSha256 : Option String
  tournamentId : Option String
  matchId : String
  gameId : String
  entrantId : String
  seatNumber : Nat
  finishedAt : UnixMillis
deriving DecidableEq

structure PremiumUse where
  doubleLetter : Nat
  tripleLetter : Nat
  doubleWord : Nat
  tripleWord : Nat
deriving DecidableEq

/-- The statistics of one seat. Word frequencies are kept in the order of the words. -/
structure StatisticsObservation where
  schemaVersion : Nat
  sourceId : String
  scope : StatisticsScope
  games : Nat
  wins : Nat
  losses : Nat
  ties : Nat
  scoreFor : Int
  scoreAgainst : Int
  spread : Int
  scoringMoves : Nat
  moveScore : Nat
  bingos : Nat
  invalidActions : Nat
  passes : Nat
  exchanges : Nat
  premiumUse : PremiumUse
  wordFrequencies : List (String × Nat)
  turnLatencyTotalMs : SourcedStatistic
  turnLatencySamples : SourcedStatistic
  toolCalls : SourcedStatistic
  inputTokens : SourcedStatistic
  outputTokens : SourcedStatistic
  costMicrousd : SourcedStatistic
deriving DecidableEq

end Outputs

section Events

def eventResult : GameEventKind → Option GameResult
  | .movePlayed _ _ _ _ _ _ _ _ _ _ _ result => result
  | .passed _ _ _ result => result
  | .exchanged _ _ _ _ _ _ result => result
  | .resigned _ result => some result
  | .created .. => none

def eventResultIsConsistent : GameEventKind → Bool
  | .created .. => true
  | .resigned player result => result.reason == .resignation player
  | .passed _ _ _ result => result.all (·.reason == .scorelessTurns)
  | .exchanged _ _ _ _ _ _ result => result.all (·.reason == .scorelessTurns)
  | .movePlayed _ _ _ _ _ _ _ _ _ _ _ result => result.all fun result =>
      match result.reason with
      | .scorelessTurns => true
      | .rackEmptied _ => true
      | .resignation _ => false

def validWord (value : String) : Bool :=
  validId value 256 && value.toList.all (·.isUpper)

/-- A `u64` sum. -/
def checkedAdd (left right : Nat) : Except StatisticsError Nat :=
  if left + right < 2 ^ 64 then .ok (left + right) else .error .overflow

def addPremium (use : PremiumUse) : Premium → Except StatisticsError PremiumUse
  | .normal => .ok use
  | .doubleLetter => do return { use with doubleLetter := ← checkedAdd use.doubleLetter 1 }
  | .tripleLetter => do return { use with tripleLetter := ← checkedAdd use.tripleLetter 1 }
  | .doubleWord => do return { use with doubleWord := ← checkedAdd use.doubleWord 1 }
  | .tripleWord => do return { use with tripleWord := ← checkedAdd use.tripleWord 1 }

/-- One more use of a word in a table that is ordered by its words. -/
def addWord (word : String) : List (String × Nat) → Except StatisticsError (List (String × Nat))
  | [] => do return [(word, ← checkedAdd 0 1)]
  | entry :: rest =>
      if word < entry.1 then do return (word, ← checkedAdd 0 1) :: entry :: rest
      else if word = entry.1 then do return (word, ← checkedAdd entry.2 1) :: rest
      else do return entry :: (← addWord word rest)

end Events

section Validate

def validParticipant (participant : StatisticsParticipant) : Bool :=
  validId participant.entrantId 256 && participant.agentManifestSha256.all validSha256

/-- The result of the history so far, which only its last event may hold. -/
def nextTerminal (length : Nat) (terminal : Option GameResult) (entry : GameEvent × Nat) :
    Except StatisticsError (Option GameResult) :=
  match eventResult entry.1.kind with
  | some result => do
      reject (terminal.isSome = true ∨ entry.2 + 1 ≠ length) .invalidInput
      return some result
  | none => .ok terminal

def checkEvent (lexicon : PackIdentity) (length : Nat) (terminal : Option GameResult)
    (entry : GameEvent × Nat) : Except StatisticsError (Option GameResult) := do
  reject (entry.1.sequence.toNat ≠ entry.2 ∨ entry.1.visibility ≠ .publicEvent ∨
    entry.1.lexicon ≠ lexicon) .invalidInput
  let next ← nextTerminal length terminal entry
  reject (eventResultIsConsistent entry.1.kind = false) .invalidInput
  return next

/-- The winner that a result of two seats must name. -/
def expectedWinner (reason : TerminalReason) (scoreOne scoreTwo : Int) :
    Except StatisticsError (Option Seat) :=
  match reason with
  | .resignation .one => .ok (some .two)
  | .resignation .two => .ok (some .one)
  | .resignation _ => .error .invalidInput
  | _ => .ok (if scoreTwo < scoreOne then some .one else if scoreOne < scoreTwo then some .two
      else none)

/-- The identifier and the rules that the first event declares. -/
def createdBy (kind : GameEventKind) : Except StatisticsError (String × Ruleset) :=
  match kind with
  | .created gameId ruleset .. => .ok (gameId, ruleset)
  | _ => .error .invalidInput

def MatchStatisticsInput.validate (platform : Platform) (input : MatchStatisticsInput) :
    Except StatisticsError (Ruleset × GameResult) := do
  reject (input.schemaVersion ≠ statisticsSchemaVersion ∨ validId input.sourceId 256 = false ∨
    validId input.matchId 256 = false ∨ validId input.gameId 256 = false ∨ input.finishedAt < 0 ∨
    input.tournamentId.any (fun identity => !validId identity 256) = true ∨
    input.participants[0].entrantId = input.participants[1].entrantId) .invalidInput
  reject (input.participants.all validParticipant = false) .invalidInput
  input.telemetry.toList.forM NormalizedRunStatistics.validate
  let first ← okOr input.events.head? .invalidInput
  let (gameId, ruleset) ← createdBy first.kind
  reject (gameId ≠ input.gameId ∨ ruleset.lexicon ≠ first.lexicon) .invalidInput
  let terminal ← input.events.zipIdx.foldlM (checkEvent ruleset.lexicon input.events.length) none
  let result ← okOr terminal .invalidInput
  reject (result.gameId ≠ input.gameId ∨ result.rulesetId ≠ ruleset.id ∨
    result.lexicon ≠ ruleset.lexicon ∨ result.finalVersion.toNat ≠ input.events.length - 1 ∨
    (ruleset.identity platform).rulesetId ≠ result.rulesetId) .invalidInput
  reject (result.scores.length ≠ 2) .invalidInput
  let winner ← expectedWinner result.reason (result.scores.getD 0 .zero).value.toInt
    (result.scores.getD 1 .zero).value.toInt
  reject (result.winner ≠ winner) .invalidInput
  return (ruleset, result)

end Validate

section Derive

/-- The observation of a seat before its events are counted. -/
def emptyObservation (platform : Platform) (input : MatchStatisticsInput) (ruleset : Ruleset)
    (result : GameResult) (index : Fin 2) : StatisticsObservation :=
  let own := (result.scores.getD index .zero).value.toInt
  let other := (result.scores.getD (1 - index) .zero).value.toInt
  let winner := result.winner.map Seat.index
  { schemaVersion := statisticsSchemaVersion
    sourceId := input.sourceId ++ ":seat-" ++ toString (index.val + 1)
    scope :=
      { language := ruleset.language.code
        rulesetId := ruleset.id.asStr
        rulesetSha256 := (ruleset.identity platform).contentSha256
        packId := ruleset.lexicon.packId
        packVersion := ruleset.lexicon.packVersion
        packSha256 := ruleset.lexicon.contentSha256
        agentManifestSha256 := (input.participants.get index).agentManifestSha256
        tournamentId := input.tournamentId
        matchId := input.matchId
        gameId := input.gameId
        entrantId := (input.participants.get index).entrantId
        seatNumber := index.val + 1
        finishedAt := input.finishedAt }
    games := 1
    wins := if winner = some index.val then 1 else 0
    losses := if winner.any (· != index.val) then 1 else 0
    ties := if winner.isNone then 1 else 0
    scoreFor := own
    scoreAgainst := other
    spread := own - other
    scoringMoves := 0
    moveScore := 0
    bingos := 0
    invalidActions := 0
    passes := 0
    exchanges := 0
    premiumUse := ⟨0, 0, 0, 0⟩
    wordFrequencies := []
    turnLatencyTotalMs := .unavailable
    turnLatencySamples := .unavailable
    toolCalls := .unavailable
    inputTokens := .unavailable
    outputTokens := .unavailable
    costMicrousd := .unavailable }

def countBingo (bingoBonus : UInt32) (bingos : Nat) : Except StatisticsError Nat :=
  if 0 < bingoBonus then checkedAdd bingos 1 else .ok bingos

def countPremium (board : BoardDefinition) (use : PremiumUse) (placement : Placement) :
    Except StatisticsError PremiumUse := do
  let square ← okOr (board.square placement.coordinate) .invalidInput
  addPremium use square.premium

def countWord (counts : List (String × Nat)) (word : FormedWord) :
    Except StatisticsError (List (String × Nat)) := do
  reject (validWord word.normalized = false) .invalidInput
  addWord word.normalized counts

/-- A placement counts its points, its bingo, its premiums and its words. -/
def countMove (board : BoardDefinition) (placements : List Placement) (words : List FormedWord)
    (bingoBonus score : UInt32) (o : StatisticsObservation) :
    Except StatisticsError StatisticsObservation := do
  let scoringMoves ← checkedAdd o.scoringMoves 1
  let moveScore ← checkedAdd o.moveScore score.toNat
  let bingos ← countBingo bingoBonus o.bingos
  let premiumUse ← placements.foldlM (countPremium board) o.premiumUse
  let wordFrequencies ← words.foldlM countWord o.wordFrequencies
  return { o with scoringMoves, moveScore, bingos, premiumUse, wordFrequencies }

def countPass (o : StatisticsObservation) : Except StatisticsError StatisticsObservation := do
  return { o with passes := ← checkedAdd o.passes 1 }

def countExchange (o : StatisticsObservation) : Except StatisticsError StatisticsObservation := do
  return { o with exchanges := ← checkedAdd o.exchanges 1 }

/-- A change of the observation at an index, which must be one of the two. -/
def updateObservation (index : Nat)
    (change : StatisticsObservation → Except StatisticsError StatisticsObservation)
    (observations : Vector StatisticsObservation 2) :
    Except StatisticsFault (Vector StatisticsObservation 2) :=
  if h : index < 2 then do
    let next ← mapErr .error (change observations[index])
    return observations.set index next
  else .error .panicked

def countEvent (ruleset : Ruleset) (observations : Vector StatisticsObservation 2)
    (event : GameEvent) : Except StatisticsFault (Vector StatisticsObservation 2) :=
  match event.kind with
  | .movePlayed player placements words bingoBonus score .. =>
      updateObservation player.index
        (countMove ruleset.game.board placements words bingoBonus score) observations
  | .passed player .. => updateObservation player.index countPass observations
  | .exchanged player .. => updateObservation player.index countExchange observations
  | .created .. => .ok observations
  | .resigned .. => .ok observations

/-- The total and the number of the turn durations, when they were measured. -/
def turnLatency (durations : Option (List Nat)) (o : StatisticsObservation) :
    Except StatisticsError (SourcedStatistic × SourcedStatistic) :=
  match durations with
  | some durations => do
      let total ← durations.foldlM checkedAdd 0
      return (.exact total, .exact durations.length)
  | none => .ok (o.turnLatencyTotalMs, o.turnLatencySamples)

def applyTelemetry (telemetry : NormalizedRunStatistics) (o : StatisticsObservation) :
    Except StatisticsError StatisticsObservation := do
  let latency ← turnLatency telemetry.turnDurationsMs o
  return { o with
    turnLatencyTotalMs := latency.1
    turnLatencySamples := latency.2
    toolCalls := telemetry.toolCalls
    inputTokens := telemetry.inputTokens
    outputTokens := telemetry.outputTokens
    costMicrousd := telemetry.costMicrousd }

/-- What no event tells: rejected attempts and the telemetry of the run. -/
def finishObservation (input : MatchStatisticsInput) (index : Fin 2) (o : StatisticsObservation) :
    Except StatisticsError StatisticsObservation :=
  applyTelemetry (input.telemetry.get index)
    { o with invalidActions := input.invalidAttempts.get index }

def MatchStatisticsInput.derive (platform : Platform) (input : MatchStatisticsInput) :
    Except StatisticsFault (Vector StatisticsObservation 2) := do
  let (ruleset, result) ← mapErr .error (input.validate platform)
  let start := #v[emptyObservation platform input ruleset result 0,
    emptyObservation platform input ruleset result 1]
  let counted ← input.events.foldlM (countEvent ruleset) start
  let one ← mapErr .error (finishObservation input 0 counted[0])
  let two ← mapErr .error (finishObservation input 1 counted[1])
  return #v[one, two]

/-- The two observations a derivation starts from. -/
def emptyObservations (platform : Platform) (input : MatchStatisticsInput) (ruleset : Ruleset)
    (result : GameResult) : Vector StatisticsObservation 2 :=
  #v[emptyObservation platform input ruleset result 0,
    emptyObservation platform input ruleset result 1]

end Derive

end WordArena.Statistics
