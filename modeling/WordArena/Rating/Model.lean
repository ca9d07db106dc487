import Mathlib.Data.List.Sort
import Mathlib.Data.Prod.Lex
import Mathlib.Order.Defs.LinearOrder
import WordArena.Application.Text
import WordArena.Engine.Ruleset
import WordArena.Library.Json

/-! Rating periods and what they derive. The numerical update is a parameter: a
period only fixes to which ratings and results it is applied. -/
namespace WordArena.Rating

open Fallible WordArena.Engine WordArena.Application

inductive RatingError where
  | invalidInput
  | numericalFailure
deriving DecidableEq

def ratingSchemaVersion : Nat := 1

def scoreScale : Nat := 1000000

/-- A fixed-point rating, in an `i32` and two `u32` of the source. -/
structure RatingValue where
  ratingMilli : Int
  deviationMilli : Nat
  volatilityNano : Nat
deriving DecidableEq

/-- The bounds on a rating. The source divides by the scales and compares the
quotients with decimal bounds; both are rounded in the same way. -/
def validateRating (value : RatingValue) : Except RatingError Unit :=
  reject (value.ratingMilli < -1000000 ∨ 5000000 < value.ratingMilli ∨
    value.deviationMilli < 1 ∨ 350000 < value.deviationMilli ∨
    value.volatilityNano < 1000 ∨ 1000000000 < value.volatilityNano) .invalidInput

structure RatingOpponent where
  rating : RatingValue
  scoreMillionths : Nat
deriving DecidableEq

structure RatingPool where
  language : String
  rulesetId : String
  rulesetSha256 : String
  ratedFormatPolicy : String
deriving DecidableEq

structure RatedMatchInput where
  matchId : String
  seriesId : String
  seriesGameNumber : Nat
  entrantOne : String
  entrantTwo : String
  scoreOneMillionths : Nat
deriving DecidableEq

structure RatingUpdateInput where
  entrantId : String
  previous : RatingValue
  opponents : List RatingOpponent
deriving DecidableEq

structure RatingPeriod where
  schemaVersion : Nat
  periodId : String
  sequence : Nat
  pool : RatingPool
  games : List RatedMatchInput
  updates : List RatingUpdateInput
deriving DecidableEq

/-- The digest and the numerical update that ratings are computed with. -/
structure RatingSystem where
  platform : Platform
  updateRating : RatingValue → List RatingOpponent → Except RatingError RatingValue

section Pool

def RatingPool.valid (pool : RatingPool) : Bool :=
  validId pool.language 256 && validId pool.rulesetId 256 && validSha256 pool.rulesetSha256 &&
    validId pool.ratedFormatPolicy 256

def RatingPool.json (pool : RatingPool) : String :=
  Json.object [("language", Json.text pool.language), ("ruleset_id", Json.text pool.rulesetId),
    ("ruleset_sha256", Json.text pool.rulesetSha256),
    ("rated_format_policy", Json.text pool.ratedFormatPolicy)]

/-- The digest that identifies a pool. -/
def RatingPool.key (platform : Platform) (pool : RatingPool) : Except RatingError String := do
  reject (pool.valid = false) .invalidInput
  return Bytes.hexLower (platform.sha256 (Bytes.utf8 pool.json)).toList

end Pool

section Period

/-- The checks of identities, digests and ratings that a period is validated with. -/
structure PeriodChecks where
  validId : String → Bool
  validSha256 : String → Bool
  validateRating : RatingValue → Except RatingError Unit

/-- The checks of the source. -/
def PeriodChecks.standard : PeriodChecks :=
  ⟨fun value => Application.validId value 256, Application.validSha256, Rating.validateRating⟩

variable (checks : PeriodChecks)

def PeriodChecks.validPool (pool : RatingPool) : Bool :=
  checks.validId pool.language && checks.validId pool.rulesetId &&
    checks.validSha256 pool.rulesetSha256 && checks.validId pool.ratedFormatPolicy

def PeriodChecks.validGame (game : RatedMatchInput) : Bool :=
  checks.validId game.matchId && checks.validId game.seriesId && game.seriesGameNumber != 0 &&
    checks.validId game.entrantOne && checks.validId game.entrantTwo &&
    game.entrantOne != game.entrantTwo && decide (game.scoreOneMillionths ≤ scoreScale)

def PeriodChecks.validOpponent (opponent : RatingOpponent) : Bool :=
  decide (opponent.scoreMillionths ≤ scoreScale) && (checks.validateRating opponent.rating).isOk

/-- The turn of the loop over the games: the set of the match identities seen. -/
def PeriodChecks.checkGame (seen : Std.TreeSet String) (game : RatedMatchInput) :
    Except RatingError (Std.TreeSet String) := do
  reject (checks.validGame game = false ∨ seen.contains game.matchId = true) .invalidInput
  return seen.insert game.matchId

/-- The turn of the loop over the updates: the set of the entrants seen. -/
def PeriodChecks.checkUpdate (seen : Std.TreeSet String) (update : RatingUpdateInput) :
    Except RatingError (Std.TreeSet String) := do
  checks.validateRating update.previous
  reject (checks.validId update.entrantId = false ∨ seen.contains update.entrantId = true ∨
    update.opponents.all checks.validOpponent = false) .invalidInput
  return seen.insert update.entrantId

/-- The opponents that the games give to each entrant. -/
abbrev ExpectedOpponents := Std.TreeMap String (List RatingOpponent)

def ExpectedOpponents.push (expected : ExpectedOpponents) (entrantId : String)
    (opponent : RatingOpponent) : ExpectedOpponents :=
  expected.insert entrantId (expected.getD entrantId [] ++ [opponent])

def expectGame (previous : Std.TreeMap String RatingValue) (expected : ExpectedOpponents)
    (game : RatedMatchInput) : Except RatingError ExpectedOpponents := do
  let one ← okOr (previous.get? game.entrantOne) .invalidInput
  let two ← okOr (previous.get? game.entrantTwo) .invalidInput
  return (expected.push game.entrantOne ⟨two, game.scoreOneMillionths⟩).push
    game.entrantTwo ⟨one, scoreScale - game.scoreOneMillionths⟩

/-- The derived order of opponents, field by field. -/
def RatingOpponent.orderKey (opponent : RatingOpponent) : Int ×ₗ Nat ×ₗ Nat ×ₗ Nat :=
  toLex (opponent.rating.ratingMilli, toLex (opponent.rating.deviationMilli,
    toLex (opponent.rating.volatilityNano, opponent.scoreMillionths)))

def sortOpponents (opponents : List RatingOpponent) : List RatingOpponent :=
  opponents.insertionSort fun left right => left.orderKey ≤ right.orderKey

/-- The turn of the last loop: an entrant's opponents are compared and taken out. -/
def takeExpected (expected : ExpectedOpponents) (update : RatingUpdateInput) :
    Except RatingError ExpectedOpponents := do
  reject (sortOpponents update.opponents ≠ sortOpponents (expected.getD update.entrantId []))
    .invalidInput
  return expected.erase update.entrantId

def RatingPeriod.previousRatings (period : RatingPeriod) : Std.TreeMap String RatingValue :=
  .ofList (period.updates.map fun update => (update.entrantId, update.previous))

/-- Identities, distinct games and entrants, and opponents that are exactly those of
the games. -/
def RatingPeriod.validateWith (period : RatingPeriod) : Except RatingError Unit := do
  reject (period.schemaVersion ≠ ratingSchemaVersion ∨ checks.validId period.periodId = false ∨
    checks.validPool period.pool = false ∨ period.updates = []) .invalidInput
  let _ ← period.games.foldlM checks.checkGame ∅
  let _ ← period.updates.foldlM checks.checkUpdate ∅
  let expected ← period.games.foldlM (expectGame period.previousRatings) ∅
  let _ ← period.updates.foldlM takeExpected expected
  return ()

def RatingPeriod.validate (period : RatingPeriod) : Except RatingError Unit :=
  period.validateWith .standard

def RatingPeriod.sortedUpdates (period : RatingPeriod) : List RatingUpdateInput :=
  period.updates.insertionSort fun left right => left.entrantId ≤ right.entrantId

/-- Every derived rating, in the order of the entrants. -/
def RatingPeriod.derive (system : RatingSystem) (period : RatingPeriod) :
    Except RatingError (List (String × RatingValue)) := do
  period.validate
  period.sortedUpdates.mapM fun input => do
    let next ← system.updateRating input.previous input.opponents
    return (input.entrantId, next)

end Period

end WordArena.Rating
