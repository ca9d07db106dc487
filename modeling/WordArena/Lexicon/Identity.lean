import Mathlib.Data.List.Basic

/-! Immutable pack identities and the exact-match rule that binds rulesets,
replays and active games to one pack. No field is ever compared loosely. -/
namespace WordArena.Lexicon

def normalizationAlgorithm : String := "word-arena-board-key"

def normalizationVersion : UInt32 := 1

def englishNormalizationProfile : String := "en-basic-latin-v1"

def frenchNormalizationProfile : String := "fr-basic-latin-fold-v1"

def germanNormalizationProfile : String := "de-basic-latin-fold-v1"

def spanishNormalizationProfile : String := "es-basic-latin-fold-v1"

structure NormalizationDescriptor where
  algorithm : String
  version : UInt32
  profile : String
deriving DecidableEq, Repr

/-- Identity recorded by rulesets, games and replays. -/
structure PackIdentity where
  packId : String
  packVersion : String
  formatVersion : UInt32
  locale : String
  normalization : NormalizationDescriptor
  contentSha256 : String
deriving DecidableEq, Repr

/-- Consumer whose pin is being checked. -/
inductive CompatibilityContext where
  | ruleset
  | replay
  | activeGame
deriving DecidableEq, Repr

inductive CompatibilityError where
  | exactPackRequired (context : CompatibilityContext) (expected actual : PackIdentity)
  | conflictingPackVersion (installed candidate : PackIdentity)
deriving DecidableEq, Repr

def ensureExactPack (context : CompatibilityContext) (expected actual : PackIdentity) :
    Except CompatibilityError Unit :=
  if expected = actual then .ok ()
  else .error (.exactPackRequired context expected actual)

@[simp] theorem ensureExactPack_eq_ok {context : CompatibilityContext}
    {expected actual : PackIdentity} {u : Unit} :
    ensureExactPack context expected actual = .ok u ↔ expected = actual := by
  by_cases h : expected = actual <;> simp [ensureExactPack, h]

end WordArena.Lexicon
