import Std.Data.ExtTreeMap
import WordArena.Statistics.Model

/-! Aggregates over the observations of many seats: the filter that selects them, the
accumulator that keeps one observation for each source and the checked sums, rates and
sourced metrics that are read off it. -/
namespace WordArena.Statistics

open Fallible WordArena.Application

def rateScale : Nat := 1000000

def SourcedStatistic.estimated (value : Nat) : SourcedStatistic := ⟨.estimated, some value⟩

section Filter

structure StatisticsFilter where
  language : Option String
  rulesetId : Option String
  rulesetSha256 : Option String
  packId : Option String
  packVersion : Option String
  packSha256 : Option String
  agentManifestSha256 : Option String
  tournamentId : Option String
  entrantId : Option String
  seatNumber : Option Nat
  finishedFromMs : Option Int
  finishedBeforeMs : Option Int
deriving DecidableEq

/-- A window whose two ends are given and out of order. -/
def emptyWindow : Option Int → Option Int → Bool
  | some start, some before => before ≤ start
  | _, _ => false

def StatisticsFilter.validate (f : StatisticsFilter) : Except StatisticsError Unit := do
  [f.language, f.rulesetId, f.packId, f.packVersion, f.tournamentId, f.entrantId].reduceOption.forM
    fun identity => reject (validId identity 256 = false) .invalidInput
  [f.rulesetSha256, f.packSha256, f.agentManifestSha256].reduceOption.forM
    fun digest => reject (validSha256 digest = false) .invalidInput
  reject (f.seatNumber.any (fun seat => !(1 ≤ seat && seat ≤ 2)) = true ∨
    f.finishedFromMs.any (· < 0) = true ∨ f.finishedBeforeMs.any (· < 0) = true ∨
    emptyWindow f.finishedFromMs f.finishedBeforeMs = true) .invalidInput

def optionalMatches (expected : Option String) (actual : String) : Bool :=
  expected.all (· == actual)

def optionalOptionMatches (expected actual : Option String) : Bool :=
  expected.all (fun value => actual == some value)

def StatisticsFilter.matches (f : StatisticsFilter) (scope : StatisticsScope) : Bool :=
  optionalMatches f.language scope.language &&
  optionalMatches f.rulesetId scope.rulesetId &&
  optionalMatches f.rulesetSha256 scope.rulesetSha256 &&
  optionalMatches f.packId scope.packId &&
  optionalMatches f.packVersion scope.packVersion &&
  optionalMatches f.packSha256 scope.packSha256 &&
  optionalOptionMatches f.agentManifestSha256 scope.agentManifestSha256 &&
  optionalOptionMatches f.tournamentId scope.tournamentId &&
  optionalMatches f.entrantId scope.entrantId &&
  f.seatNumber.all (· == scope.seatNumber) &&
  f.finishedFromMs.all (· ≤ scope.finishedAt) &&
  f.finishedBeforeMs.all (scope.finishedAt < ·)

end Filter

section Observation

def validScope (scope : StatisticsScope) : Bool :=
  validId scope.language 256 &&
  validId scope.rulesetId 256 &&
  validSha256 scope.rulesetSha256 &&
  validId scope.packId 256 &&
  validId scope.packVersion 256 &&
  validSha256 scope.packSha256 &&
  scope.agentManifestSha256.all validSha256 &&
  scope.tournamentId.all (validId · 256) &&
  validId scope.matchId 256 &&
  validId scope.gameId 256 &&
  validId scope.entrantId 256 &&
  decide (0 ≤ scope.finishedAt)

/-- A game of one seat is won, lost or tied once. -/
def outcomes (o : StatisticsObservation) : Except StatisticsError Nat := do
  let decided ← checkedAdd o.wins o.losses
  checkedAdd decided o.ties

def validateObservation (o : StatisticsObservation) : Except StatisticsError Unit := do
  reject (o.schemaVersion ≠ statisticsSchemaVersion ∨ validId o.sourceId 256 = false ∨
    o.games ≠ 1 ∨ (outcomes o).toOption ≠ some 1 ∨
    ¬ (1 ≤ o.scope.seatNumber ∧ o.scope.seatNumber ≤ 2) ∨ validScope o.scope = false ∨
    o.wordFrequencies.any (fun entry => !validWord entry.1 || entry.2 == 0) = true) .invalidInput
  [o.turnLatencyTotalMs, o.turnLatencySamples, o.toolCalls, o.inputTokens, o.outputTokens,
    o.costMicrousd].forM SourcedStatistic.validate
  reject (o.turnLatencyTotalMs.availability ≠ o.turnLatencySamples.availability) .invalidInput

end Observation

section Metrics

/-- One more value of a metric, which must be there. -/
def addMetric (sum : Nat) (metric : SourcedStatistic) : Except StatisticsError Nat := do
  let value ← okOr metric.value .invalidInput
  checkedAdd sum value

/-- The metric of a group is unavailable when one part is, and else estimated when one
part is. -/
def combineMetrics (metrics : List SourcedStatistic) : Except StatisticsError SourcedStatistic :=
  if metrics = [] ∨ metrics.any (·.availability == .unavailable) = true then .ok .unavailable
  else do
    let value ← metrics.foldlM addMetric 0
    return if metrics.any (·.availability == .estimated) then .estimated value else .exact value

/-- A quotient rounded to the nearest `u64`, computed with `u128` numbers. -/
def ratio (numerator denominator scale : Nat) : Except StatisticsError (Option Nat) :=
  if denominator = 0 then .ok none
  else do
    reject (2 ^ 128 ≤ numerator * scale ∨ 2 ^ 128 ≤ numerator * scale + denominator / 2) .overflow
    let rounded := (numerator * scale + denominator / 2) / denominator
    reject (2 ^ 64 ≤ rounded) .overflow
    return some rounded

def averageMetric (total samples : SourcedStatistic) : Except StatisticsError SourcedStatistic :=
  if total.availability = .unavailable ∨ samples.availability = .unavailable ∨
      samples.value = some 0 then .ok .unavailable
  else do
    let numerator ← okOr total.value .invalidInput
    let denominator ← okOr samples.value .invalidInput
    let quotient ← ratio numerator denominator 1
    let value ← okOr quotient .invalidInput
    return if total.availability = .estimated ∨ samples.availability = .estimated
      then .estimated value else .exact value

end Metrics

section Values

structure PublicStatistics where
  schemaVersion : Nat
  filter : StatisticsFilter
  games : Nat
  wins : Nat
  losses : Nat
  ties : Nat
  winRateMillionths : Option Nat
  scoreFor : Int
  scoreAgainst : Int
  spread : Int
  scoringMoves : Nat
  averageMoveScoreMilli : Option Nat
  bingos : Nat
  invalidActions : Nat
  passes : Nat
  exchanges : Nat
  premiumUse : PremiumUse
  vocabularySize : Nat
  averageTurnLatencyMs : SourcedStatistic
  toolCalls : SourcedStatistic
  inputTokens : SourcedStatistic
  outputTokens : SourcedStatistic
  costMicrousd : SourcedStatistic
deriving DecidableEq

structure AggregateValues where
  publicStatistics : PublicStatistics
  words : Std.ExtTreeMap String Nat

/-- The sums of the loop over the observations. -/
structure Totals where
  games : Nat
  wins : Nat
  losses : Nat
  ties : Nat
  scoreFor : Int
  scoreAgainst : Int
  spread : Int
  scoringMoves : Nat
  moveScore : Nat
  bingos : Nat
  invalidActions : Nat
  passes : Nat
  exchanges : Nat
  premiumUse : PremiumUse
  words : Std.ExtTreeMap String Nat
  latencyTotal : List SourcedStatistic
  latencySamples : List SourcedStatistic
  tools : List SourcedStatistic
  inputTokens : List SourcedStatistic
  outputTokens : List SourcedStatistic
  costs : List SourcedStatistic

def Totals.zero : Totals :=
  ⟨0, 0, 0, 0, 0, 0, 0, 0, 0, 0, 0, 0, 0, ⟨0, 0, 0, 0⟩, ∅, [], [], [], [], [], []⟩

/-- An `i64` sum. -/
def checkedAddSigned (left right : Int) : Except StatisticsError Int :=
  okOr (Checked.addI64 left right) .overflow

def addPremiumCounts (target value : PremiumUse) : Except StatisticsError PremiumUse := do
  let doubleLetter ← checkedAdd target.doubleLetter value.doubleLetter
  let tripleLetter ← checkedAdd target.tripleLetter value.tripleLetter
  let doubleWord ← checkedAdd target.doubleWord value.doubleWord
  let tripleWord ← checkedAdd target.tripleWord value.tripleWord
  return ⟨doubleLetter, tripleLetter, doubleWord, tripleWord⟩

def addFrequency (words : Std.ExtTreeMap String Nat) (entry : String × Nat) :
    Except StatisticsError (Std.ExtTreeMap String Nat) := do
  let count ← checkedAdd (words.getD entry.1 0) entry.2
  return words.insert entry.1 count

def Totals.add (t : Totals) (o : StatisticsObservation) : Except StatisticsError Totals := do
  let games ← checkedAdd t.games o.games
  let wins ← checkedAdd t.wins o.wins
  let losses ← checkedAdd t.losses o.losses
  let ties ← checkedAdd t.ties o.ties
  let scoreFor ← checkedAddSigned t.scoreFor o.scoreFor
  let scoreAgainst ← checkedAddSigned t.scoreAgainst o.scoreAgainst
  let spread ← checkedAddSigned t.spread o.spread
  let scoringMoves ← checkedAdd t.scoringMoves o.scoringMoves
  let moveScore ← checkedAdd t.moveScore o.moveScore
  let bingos ← checkedAdd t.bingos o.bingos
  let invalidActions ← checkedAdd t.invalidActions o.invalidActions
  let passes ← checkedAdd t.passes o.passes
  let exchanges ← checkedAdd t.exchanges o.exchanges
  let premiumUse ← addPremiumCounts t.premiumUse o.premiumUse
  let words ← o.wordFrequencies.foldlM addFrequency t.words
  return {
    games, wins, losses, ties, scoreFor, scoreAgainst, spread, scoringMoves, moveScore, bingos,
    invalidActions, passes, exchanges, premiumUse, words
    latencyTotal := t.latencyTotal ++ [o.turnLatencyTotalMs]
    latencySamples := t.latencySamples ++ [o.turnLatencySamples]
    tools := t.tools ++ [o.toolCalls]
    inputTokens := t.inputTokens ++ [o.inputTokens]
    outputTokens := t.outputTokens ++ [o.outputTokens]
    costs := t.costs ++ [o.costMicrousd] }

def aggregateValues (filter : StatisticsFilter) (observations : List StatisticsObservation) :
    Except StatisticsError AggregateValues := do
  let t ← observations.foldlM Totals.add .zero
  let latencyTotal ← combineMetrics t.latencyTotal
  let latencySamples ← combineMetrics t.latencySamples
  let averageTurnLatencyMs ← averageMetric latencyTotal latencySamples
  let winRateMillionths ← ratio t.wins t.games rateScale
  let averageMoveScoreMilli ← ratio t.moveScore t.scoringMoves 1000
  reject (2 ^ 64 ≤ t.words.size) .overflow
  let toolCalls ← combineMetrics t.tools
  let inputTokens ← combineMetrics t.inputTokens
  let outputTokens ← combineMetrics t.outputTokens
  let costMicrousd ← combineMetrics t.costs
  return {
    publicStatistics := {
      schemaVersion := statisticsSchemaVersion
      filter, games := t.games, wins := t.wins, losses := t.losses, ties := t.ties
      winRateMillionths, scoreFor := t.scoreFor, scoreAgainst := t.scoreAgainst
      spread := t.spread, scoringMoves := t.scoringMoves, averageMoveScoreMilli
      bingos := t.bingos, invalidActions := t.invalidActions, passes := t.passes
      exchanges := t.exchanges, premiumUse := t.premiumUse, vocabularySize := t.words.size
      averageTurnLatencyMs, toolCalls, inputTokens, outputTokens, costMicrousd }
    words := t.words }

end Values

section Accumulator

structure OperatorStatistics where
  publicStatistics : PublicStatistics
  wordFrequencies : Std.ExtTreeMap String Nat
  sourceIds : List String

/-- The observations that match the filter, one for each source. -/
structure StatisticsAccumulator where
  filter : StatisticsFilter
  observations : Std.ExtTreeMap String StatisticsObservation

def StatisticsAccumulator.new (filter : StatisticsFilter) :
    Except StatisticsError StatisticsAccumulator := do
  filter.validate
  return ⟨filter, ∅⟩

def StatisticsAccumulator.add (a : StatisticsAccumulator) (o : StatisticsObservation) :
    Except StatisticsError StatisticsAccumulator := do
  validateObservation o
  if a.filter.matches o.scope = false then return a
  match a.observations[o.sourceId]? with
  | some existing => if existing = o then return a else .error .conflict
  | none => return { a with observations := a.observations.insert o.sourceId o }

/-- The observations in the order of their sources. -/
def StatisticsAccumulator.values (a : StatisticsAccumulator) : List StatisticsObservation :=
  a.observations.toList.map Prod.snd

def StatisticsAccumulator.operator (a : StatisticsAccumulator) :
    Except StatisticsError OperatorStatistics := do
  let aggregate ← aggregateValues a.filter a.values
  return ⟨aggregate.publicStatistics, aggregate.words, a.observations.keys⟩

def aggregateStatistics (filter : StatisticsFilter) (observations : List StatisticsObservation) :
    Except StatisticsError OperatorStatistics := do
  let accumulator ← StatisticsAccumulator.new filter
  let accumulator ← observations.foldlM StatisticsAccumulator.add accumulator
  accumulator.operator

end Accumulator

end WordArena.Statistics
