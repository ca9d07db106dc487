import Mathlib.Data.Finset.Card
import Mathlib.Data.List.Sort
import WordArena.Library.Json
import WordArena.Library.Fallible
import WordArena.Application.Text
import WordArena.Engine.Ruleset

/-! Tournament specifications, generated schedules and the immutable identity of
a format. Counters that the source keeps in machine words are natural numbers;
every place where a word can overflow checks its bound. -/
namespace WordArena.Tournament

open Fallible WordArena.Lexicon WordArena.Application WordArena.Engine

def formatSchemaVersion : Nat := 1

def scheduleSchemaVersion : Nat := 1

def lifecycleSchemaVersion : Nat := 1

structure TournamentEntrant where
  entrantId : String
  seedNumber : Nat
  manifestSha256 : Option String
deriving DecidableEq

structure TournamentGameProfile where
  language : String
  rulesetId : String
  rulesetSha256 : String
  lexicon : PackIdentity
deriving DecidableEq

instance : Inhabited TournamentGameProfile :=
  ⟨⟨"", "", "", ⟨"", "", 0, "", ⟨"", 0, ""⟩, ""⟩⟩⟩

inductive SeriesSeatPolicy where
  | alternate
  | pairedSwap
deriving DecidableEq

inductive SwissRematchPolicy where
  | avoid
  | allowWhenRequired
deriving DecidableEq

inductive TournamentFormat where
  | roundRobin (cycles : Nat)
  | pairedSeatSwap (cycles : Nat)
  | swiss (rounds gamesPerSeries : Nat) (rematches : SwissRematchPolicy)
  | series (cycles gamesPerSeries : Nat) (seatPolicy : SeriesSeatPolicy)
deriving DecidableEq

def TournamentFormat.kind : TournamentFormat → String
  | .roundRobin _ => "round_robin"
  | .pairedSeatSwap _ => "paired_seat_swap"
  | .swiss .. => "swiss"
  | .series .. => "series"

def TournamentFormat.gamesPerSeries : TournamentFormat → Nat
  | .roundRobin _ => 1
  | .pairedSeatSwap _ => 2
  | .swiss _ games _ => games
  | .series _ games _ => games

def TournamentFormat.staticCycles : TournamentFormat → Option Nat
  | .roundRobin cycles => some cycles
  | .pairedSeatSwap cycles => some cycles
  | .series cycles _ _ => some cycles
  | .swiss .. => none

structure TournamentSpec where
  schemaVersion : Nat
  tournamentId : String
  format : TournamentFormat
  entrants : List TournamentEntrant
  profiles : List TournamentGameProfile
  gameSeedCommitments : List String
deriving DecidableEq

structure TournamentFormatIdentity where
  schemaVersion : Nat
  sha256 : String
deriving DecidableEq

structure ScheduledSeries where
  seriesId : String
  roundNumber : Nat
  tableNumber : Nat
  entrantA : String
  entrantB : String
  matchIds : List String
deriving DecidableEq

structure ScheduledMatch where
  matchId : String
  seriesId : String
  sequence : Nat
  roundNumber : Nat
  tableNumber : Nat
  seriesGameNumber : Nat
  seatOneEntrantId : String
  seatTwoEntrantId : String
  profile : TournamentGameProfile
  gameSeedCommitmentSha256 : String
deriving DecidableEq

structure TournamentBye where
  roundNumber : Nat
  entrantId : String
deriving DecidableEq

structure TournamentSchedule where
  schemaVersion : Nat
  tournamentId : String
  formatIdentity : TournamentFormatIdentity
  series : List ScheduledSeries
  scheduledMatches : List ScheduledMatch
  byes : List TournamentBye
deriving DecidableEq

structure EntrantPairing where
  entrantA : String
  entrantB : String
deriving DecidableEq

def EntrantPairing.new (first second : String) : EntrantPairing :=
  if first ≤ second then ⟨first, second⟩ else ⟨second, first⟩

structure SwissStanding where
  entrantId : String
  matchPoints : Int
  spread : Int
  wins : Nat
deriving DecidableEq

structure SeatBalance where
  entrantId : String
  seatOneGames : Nat
  seatTwoGames : Nat
deriving DecidableEq

structure SwissProgress where
  completedRounds : Nat
  standings : List SwissStanding
  priorPairings : Finset EntrantPairing
  priorByes : Finset String
  seatBalance : List SeatBalance
  nextSeedIndex : Nat
  nextMatchSequence : Nat
deriving DecidableEq

inductive TournamentError where
  | invalidSpec
  | swissProgressRequired
  | invalidSwissProgress
  | swissPairingUnavailable
  | missingGameSeeds
  | extraGameSeeds
  | overflow
  | serialization
deriving DecidableEq

section Validation

def validEntrant (entrant : TournamentEntrant) : Bool :=
  validId entrant.entrantId 256 && decide (0 < entrant.seedNumber) &&
    entrant.manifestSha256.all validSha256

def validProfile (profile : TournamentGameProfile) : Bool :=
  validId profile.language 256 && validId profile.rulesetId 256 &&
    validSha256 profile.rulesetSha256 && validId profile.lexicon.packId 256 &&
    validId profile.lexicon.packVersion 256 && validSha256 profile.lexicon.contentSha256

def TournamentFormat.validate : TournamentFormat → Bool
  | .roundRobin cycles => cycles != 0
  | .pairedSeatSwap cycles => cycles != 0
  | .swiss rounds games _ => rounds != 0 && games != 0
  | .series cycles games policy =>
      cycles != 0 && games != 0 && !(policy == .pairedSwap && games % 2 != 0)

def TournamentSpec.validate (spec : TournamentSpec) : Except TournamentError Unit := do
  reject (spec.schemaVersion ≠ formatSchemaVersion ∨
    validId spec.tournamentId 256 = false ∨
    spec.entrants.length < 2 ∨
    spec.profiles = [] ∨
    spec.entrants.any (fun entrant => !validEntrant entrant) = true ∨
    spec.profiles.any (fun profile => !validProfile profile) = true ∨
    spec.gameSeedCommitments.any (fun value => !validSha256 value) = true) .invalidSpec
  -- both sets are as large as the list they are collected from
  reject (¬ (spec.entrants.map (·.entrantId)).Nodup ∨
    ¬ (spec.entrants.map (·.seedNumber)).Nodup) .invalidSpec
  reject (spec.format.validate = false) .invalidSpec

end Validation

section FormatIdentity

def NormalizationDescriptor.json (n : NormalizationDescriptor) : String :=
  Json.object [("algorithm", Json.text n.algorithm), ("version", Json.number n.version.toNat),
    ("profile", Json.text n.profile)]

def PackIdentity.json (pack : PackIdentity) : String :=
  Json.object [("pack_id", Json.text pack.packId), ("pack_version", Json.text pack.packVersion),
    ("format_version", Json.number pack.formatVersion.toNat), ("locale", Json.text pack.locale),
    ("normalization", NormalizationDescriptor.json pack.normalization),
    ("content_sha256", Json.text pack.contentSha256)]

def TournamentGameProfile.json (profile : TournamentGameProfile) : String :=
  Json.object [("language", Json.text profile.language),
    ("ruleset_id", Json.text profile.rulesetId),
    ("ruleset_sha256", Json.text profile.rulesetSha256),
    ("lexicon", PackIdentity.json profile.lexicon)]

def SwissRematchPolicy.json : SwissRematchPolicy → String
  | .avoid => Json.text "avoid"
  | .allowWhenRequired => Json.text "allow_when_required"

def SeriesSeatPolicy.json : SeriesSeatPolicy → String
  | .alternate => Json.text "alternate"
  | .pairedSwap => Json.text "paired_swap"

def TournamentFormat.json (format : TournamentFormat) : String :=
  Json.object (("kind", Json.text format.kind) :: match format with
    | .roundRobin cycles => [("cycles", Json.number cycles)]
    | .pairedSeatSwap cycles => [("cycles", Json.number cycles)]
    | .swiss rounds games rematches => [("rounds", Json.number rounds),
        ("games_per_series", Json.number games), ("rematches", rematches.json)]
    | .series cycles games seatPolicy => [("cycles", Json.number cycles),
        ("games_per_series", Json.number games), ("seat_policy", seatPolicy.json)])

def TournamentSpec.formatIdentityInput (spec : TournamentSpec) : String :=
  Json.object [("schema_version", Json.number formatSchemaVersion),
    ("format", spec.format.json),
    ("profiles", Json.array (spec.profiles.map (·.json)))]

/-- The immutable identity of format and game-profile policy. -/
def TournamentSpec.formatIdentity (platform : Platform) (spec : TournamentSpec) :
    Except TournamentError TournamentFormatIdentity := do
  spec.validate
  return ⟨formatSchemaVersion,
    Bytes.hexLower (platform.sha256 (Bytes.utf8 spec.formatIdentityInput)).toList⟩

end FormatIdentity

section Entrants

/-- Entrants are ranked by seed, and by identifier among equal seeds. -/
def seedOrder (left right : TournamentEntrant) : Prop :=
  left.seedNumber < right.seedNumber ∨
    left.seedNumber = right.seedNumber ∧ left.entrantId ≤ right.entrantId

instance : DecidableRel seedOrder := fun left right =>
  inferInstanceAs (Decidable (left.seedNumber < right.seedNumber ∨
    left.seedNumber = right.seedNumber ∧ left.entrantId ≤ right.entrantId))

def TournamentSpec.orderedEntrantIds (spec : TournamentSpec) : List String :=
  (spec.entrants.insertionSort seedOrder).map (·.entrantId)

end Entrants

/-- What a spec that passes validation satisfies. -/
structure TournamentSpec.Valid (spec : TournamentSpec) : Prop where
  schemaVersion : spec.schemaVersion = formatSchemaVersion
  tournamentId : validId spec.tournamentId 256 = true
  entrantCount : 2 ≤ spec.entrants.length
  profiles : spec.profiles ≠ []
  entrants : ∀ entrant ∈ spec.entrants, validEntrant entrant = true
  eachProfile : ∀ profile ∈ spec.profiles, validProfile profile = true
  seeds : ∀ value ∈ spec.gameSeedCommitments, validSha256 value = true
  distinctIds : (spec.entrants.map (·.entrantId)).Nodup
  distinctSeeds : (spec.entrants.map (·.seedNumber)).Nodup
  format : spec.format.validate = true

theorem TournamentSpec.validate_eq_ok {spec : TournamentSpec} {u : Unit} :
    spec.validate = .ok u ↔ spec.Valid := by
  simp only [TournamentSpec.validate, bind_eq_ok, reject_eq_ok, not_or, not_not]
  constructor
  · rintro ⟨_, ⟨hVersion, hId, hCount, hProfiles, hEntrants, hEach, hSeeds⟩, _, ⟨hIds, hNumbers⟩,
      hFormat⟩
    refine ⟨hVersion, by simpa using hId, by omega, hProfiles, ?_, ?_, ?_, hIds, hNumbers,
      by simpa using hFormat⟩
    · simpa using hEntrants
    · simpa using hEach
    · simpa using hSeeds
  · intro h
    exact ⟨(), ⟨h.schemaVersion, by simp [h.tournamentId], by have := h.entrantCount; omega,
      h.profiles, by simpa using h.entrants, by simpa using h.eachProfile, by simpa using h.seeds⟩,
      (), ⟨h.distinctIds, h.distinctSeeds⟩, by simp [h.format]⟩

theorem TournamentSpec.formatIdentity_eq_ok {platform : Platform} {spec : TournamentSpec}
    {identity : TournamentFormatIdentity} (h : spec.formatIdentity platform = .ok identity) :
    spec.Valid := by
  obtain ⟨_, hValid, -⟩ := bind_eq_ok.mp h
  exact validate_eq_ok.mp hValid

section Ordered

variable {spec : TournamentSpec}

theorem TournamentSpec.orderedEntrantIds_perm (spec : TournamentSpec) :
    spec.orderedEntrantIds.Perm (spec.entrants.map (·.entrantId)) :=
  (List.perm_insertionSort seedOrder spec.entrants).map _

@[simp] theorem TournamentSpec.length_orderedEntrantIds (spec : TournamentSpec) :
    spec.orderedEntrantIds.length = spec.entrants.length := by
  simpa using (orderedEntrantIds_perm spec).length_eq

theorem TournamentSpec.Valid.nodup_orderedEntrantIds (h : spec.Valid) :
    spec.orderedEntrantIds.Nodup :=
  (orderedEntrantIds_perm spec).nodup_iff.mpr h.distinctIds

end Ordered

end WordArena.Tournament
