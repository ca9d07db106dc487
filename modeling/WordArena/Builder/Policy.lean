import WordArena.Lexicon.Key

/-! The policy of the English import: what of the source lists is read, and which of their rows
become keys. -/
namespace WordArena.Builder

open Fallible
open WordArena.Lexicon (isControl englishNormalizationProfile)

inductive BuilderError where
  | invalidPolicy (field value reason : String)
  | accountingInvariant (message : String)
deriving DecidableEq, Repr

structure EnglishPolicy where
  schemaVersion : UInt32
  id : String
  version : UInt32
  packId : String
  sourceId : String
  sourceRevision : String
  sourceArchiveSha256 : String
  sourceArchiveSizeBytes : UInt64
  sourceArchiveRoot : String
  sourceEncoding : String
  maxScowlLevel : UInt8
  sourceSubcategory : String
  spellingCategories : List String
  normalizationProfile : String
  alphabet : String
  minWordLength : Nat
  maxWordLength : Nat

def policySchemaVersion : UInt32 := 1

def supportedScowlLevels : List UInt8 := [10, 20, 35, 40, 50, 55, 60, 70, 80]

def knownSpellingCategories : List String :=
  ["english", "american", "british", "british_z", "canadian", "australian", "variant_1",
    "variant_2", "variant_3", "british_variant_1", "british_variant_2", "canadian_variant_1",
    "canadian_variant_2", "australian_variant_1", "australian_variant_2"]

def basicAlphabet : String := "ABCDEFGHIJKLMNOPQRSTUVWXYZ"

def requireNonempty (field value : String) : Except BuilderError Unit :=
  reject (value = "" ∨ value.toList.any isControl)
    (.invalidPolicy field value "value must be non-empty and contain no control characters")

def requireSha256 (field value : String) : Except BuilderError Unit :=
  reject (¬ (value.utf8ByteSize = 64 ∧
      value.toList.all fun c => c.isDigit || ('a'.toNat ≤ c.toNat && c.toNat ≤ 'f'.toNat)))
    (.invalidPolicy field value "use exactly 64 lowercase hexadecimal SHA-256 characters")

def requireEqual {T : Type} [DecidableEq T] [ToString T] (field : String) (actual expected : T)
    (reason : String) : Except BuilderError Unit :=
  reject (actual ≠ expected) (.invalidPolicy field (toString actual) reason)

def requireStringEqual (field actual expected reason : String) : Except BuilderError Unit :=
  reject (actual ≠ expected) (.invalidPolicy field actual reason)

/-- One more category, which is known and not there yet. -/
def requireCategory (categories : List String) (category : String) :
    Except BuilderError (List String) := do
  reject (category ∉ knownSpellingCategories) (.invalidPolicy "spelling_categories" category
    "category is not defined by the pinned SCOWLv1 naming contract")
  reject (category ∈ categories) (.invalidPolicy "spelling_categories" category
    "categories must be unique")
  return categories ++ [category]

/-- Texts as a list is shown. The texts shown are known categories. -/
def debugList (values : List String) : String :=
  "[" ++ ", ".intercalate (values.map fun value => "\"" ++ value ++ "\"") ++ "]"

def EnglishPolicy.validate (policy : EnglishPolicy) : Except BuilderError Unit := do
  requireEqual "schema_version" policy.schemaVersion policySchemaVersion
    "only policy schema version 1 is supported"
  requireNonempty "id" policy.id
  reject (policy.version = 0)
    (.invalidPolicy "version" (toString policy.version) "version must be greater than zero")
  requireNonempty "pack_id" policy.packId
  requireNonempty "source_id" policy.sourceId
  requireNonempty "source_revision" policy.sourceRevision
  requireSha256 "source_archive_sha256" policy.sourceArchiveSha256
  reject (policy.sourceArchiveSizeBytes = 0) (.invalidPolicy "source_archive_size_bytes"
    (toString policy.sourceArchiveSizeBytes) "archive size must be greater than zero")
  requireNonempty "source_archive_root" policy.sourceArchiveRoot
  requireStringEqual "source_encoding" policy.sourceEncoding "iso-8859-1"
    "SCOWLv1 V1 final lists are decoded as ISO-8859-1"
  reject (policy.maxScowlLevel ∉ supportedScowlLevels) (.invalidPolicy "max_scowl_level"
    (toString policy.maxScowlLevel) "use one of 10, 20, 35, 40, 50, 55, 60, 70, or 80")
  requireStringEqual "source_subcategory" policy.sourceSubcategory "words"
    "English V1 imports only SCOWL normal-word files"
  requireStringEqual "normalization_profile" policy.normalizationProfile
    englishNormalizationProfile "English V1 requires the pinned board-key profile"
  requireStringEqual "alphabet" policy.alphabet basicAlphabet
    "English V1 uses exactly the 26 uppercase basic Latin board tokens"
  reject (policy.minWordLength = 0 ∨ policy.maxWordLength < policy.minWordLength)
    (.invalidPolicy "min_word_length" (toString policy.minWordLength)
      "minimum must be greater than zero and no larger than the maximum")
  reject (15 < policy.maxWordLength) (.invalidPolicy "max_word_length"
    (toString policy.maxWordLength) "maximum cannot exceed the 15-square board dimension")
  let categories ← policy.spellingCategories.foldlM requireCategory []
  reject ("english" ∉ categories) (.invalidPolicy "spelling_categories"
    (debugList policy.spellingCategories) "the common \x60english\x60 category is required")

def EnglishPolicy.selectsSpellingCategory (policy : EnglishPolicy) (category : String) : Bool :=
  policy.spellingCategories.any (· == category)

end WordArena.Builder
