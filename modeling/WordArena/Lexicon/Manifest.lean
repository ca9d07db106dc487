import Mathlib.Data.Finset.Lattice.Lemmas
import Mathlib.Data.List.Infix
import Mathlib.Data.String.Basic
import WordArena.Application.Text

/-! Manifests of unpacked lexicon packs. Every rule of the schema is checked before a
payload byte is trusted. Host paths in failures are left out; the path below the pack
root stays. -/
namespace WordArena.Lexicon

open Fallible WordArena.Application

def currentFormatVersion : UInt32 := 1

def manifestFile : String := "manifest.toml"

def indexFile : String := "lexicon.fst"

def requiredPayloadFiles : List String :=
  [indexFile, "curation/additions.toml", "curation/removals.toml", "LICENSE", "SOURCE.md",
    "THIRD_PARTY_NOTICES"]

structure SourceDescriptor where
  id : String
  revision : String
  archiveSha256 : String
  licenseId : String
deriving DecidableEq

structure PolicyDescriptor where
  id : String
  version : UInt32
deriving DecidableEq

structure BuilderDescriptor where
  name : String
  version : String
deriving DecidableEq

/-- Integrity of one payload file. -/
structure FileDescriptor where
  path : String
  sizeBytes : UInt64
  sha256 : String
deriving DecidableEq

structure PackManifest where
  formatVersion : UInt32
  packId : String
  packVersion : String
  locale : String
  wordCount : UInt64
  contentSha256 : String
  normalization : NormalizationDescriptor
  source : SourceDescriptor
  policy : PolicyDescriptor
  builder : BuilderDescriptor
  files : List FileDescriptor
deriving DecidableEq

inductive PackError where
  | missingManifest
  | manifestSyntax
  | unsupportedFormatVersion (found supported : UInt32)
  | unsupportedNormalizationAlgorithm (found supported : String)
  | unsupportedNormalizationVersion (found supported : UInt32)
  | unsupportedNormalizationProfile (locale profile : String)
  | invalidManifestField (field value reason : String)
  | duplicateFileRecord (path : String)
  | missingRequiredFileRecord (path : String)
  | unsafeFilePath (path reason : String)
  | missingPayloadFile (relativePath : String)
  | payloadNotRegularFile (relativePath : String)
  | unexpectedPayloadFile (path : String)
  | nonUtf8Path
  | fileSizeMismatch (path : String) (expected : UInt64) (actual : Nat)
  | fileChecksumMismatch (path expected actual : String)
  | contentChecksumMismatch (expected actual : String)
  | io
deriving DecidableEq

def PackManifest.identity (manifest : PackManifest) : PackIdentity where
  packId := manifest.packId
  packVersion := manifest.packVersion
  formatVersion := manifest.formatVersion
  locale := manifest.locale
  normalization := manifest.normalization
  contentSha256 := manifest.contentSha256

/-- Libraries below the pack reader: the digest, the manifest syntax and the syntax of
semantic versions. -/
structure PackTools where
  sha256 : List UInt8 → Vector UInt8 32
  parseManifest : String → Option PackManifest
  validVersion : String → Bool

def PackTools.digestHex (tools : PackTools) (bytes : List UInt8) : String :=
  Bytes.hexLower (tools.sha256 bytes).toList

section Fields

/-- Check one field of the manifest. -/
def checkField (field value : String) (valid : Bool) (reason : String) : Except PackError Unit :=
  reject (valid = false) (.invalidManifestField field value reason)

def isAsciiAlphanumeric (c : Char) : Bool := c.isLower || c.isUpper || c.isDigit

/-- Bounded, of allowed characters, and with a letter or digit at both ends. -/
def validName (allowed : Char → Bool) (value : String) : Bool :=
  value ≠ "" && decide (value.utf8ByteSize ≤ 128) && value.toList.all allowed &&
    value.toList.head?.any isAsciiAlphanumeric && value.toList.getLast?.any isAsciiAlphanumeric

def contains (value part : String) : Bool := decide (part.toList <:+: value.toList)

def validateSlug (field value : String) : Except PackError Unit :=
  checkField field value
    (validName (fun c => c.isLower || c.isDigit || c == '-') value && !contains value "--")
    "use 1-128 lowercase ASCII letters, digits, or single hyphens, beginning and ending with a letter or digit"

def validateSourceId (value : String) : Except PackError Unit :=
  checkField "source.id" value
    (validName (fun c => c.isLower || c.isDigit || c == '-' || c == '.') value &&
      !contains value "--" && !contains value ".." && !contains value "-." && !contains value ".-")
    "use the exact lowercase source registry ID with ASCII letters, digits, dots, or single hyphens"

def validateSemver (tools : PackTools) (field value : String) : Except PackError Unit :=
  checkField field value (tools.validVersion value)
    "use a valid Semantic Version such as `1.0.0`"

def validateNonempty (field value : String) : Except PackError Unit :=
  checkField field value (value ≠ "" && !value.toList.any isControl)
    "value must be non-empty and contain no control characters"

def validateSha256 (field value : String) : Except PackError Unit :=
  checkField field value (validSha256 value)
    "use exactly 64 lowercase hexadecimal SHA-256 characters"

def validateNormalization (locale : String) (normalization : NormalizationDescriptor) :
    Except PackError Unit := do
  reject (normalization.algorithm ≠ normalizationAlgorithm)
    (.unsupportedNormalizationAlgorithm normalization.algorithm normalizationAlgorithm)
  reject (normalization.version ≠ normalizationVersion)
    (.unsupportedNormalizationVersion normalization.version normalizationVersion)
  reject ((locale, normalization.profile) ∉ [("en", englishNormalizationProfile),
      ("fr", frenchNormalizationProfile), ("de", germanNormalizationProfile),
      ("es", spanishNormalizationProfile)])
    (.unsupportedNormalizationProfile locale normalization.profile)

end Fields

section Paths

/-- The parts of a path between its separators. -/
def components (path : String) : List String := (path.toList.splitOn '/').map String.ofList

def validateFilePath (path : String) : Except PackError Unit := do
  reject (path = manifestFile)
    (.unsafeFilePath path "manifest.toml cannot list or checksum itself")
  reject (path = "") (.unsafeFilePath path "path cannot be empty")
  reject (path.toList.head? = some '/' ∨ '\\' ∈ path.toList)
    (.unsafeFilePath path "use a relative path with canonical `/` separators")
  reject ((components path).any (fun part => part = "" ∨ part = "." ∨ part = "..") = true)
    (.unsafeFilePath path "empty, `.` and `..` components are forbidden")
  reject (path.toList.any isControl = true)
    (.unsafeFilePath path "control characters are forbidden")

/-- Add the path of a record that passes its check, once. -/
def recordPath (check : FileDescriptor → Except PackError Unit) (paths : Finset String)
    (file : FileDescriptor) : Except PackError (Finset String) := do
  check file
  reject (file.path ∈ paths) (.duplicateFileRecord file.path)
  return insert file.path paths

def checkRecord (file : FileDescriptor) : Except PackError Unit := do
  validateFilePath file.path
  validateSha256 "files.sha256" file.sha256

def PackManifest.validateSchema (tools : PackTools) (manifest : PackManifest) :
    Except PackError Unit := do
  reject (manifest.formatVersion ≠ currentFormatVersion)
    (.unsupportedFormatVersion manifest.formatVersion currentFormatVersion)
  validateSlug "pack_id" manifest.packId
  validateSemver tools "pack_version" manifest.packVersion
  validateNormalization manifest.locale manifest.normalization
  validateSourceId manifest.source.id
  validateNonempty "source.revision" manifest.source.revision
  validateSha256 "source.archive_sha256" manifest.source.archiveSha256
  validateNonempty "source.license_id" manifest.source.licenseId
  validateSlug "policy.id" manifest.policy.id
  checkField "policy.version" s!"{manifest.policy.version}" (manifest.policy.version != 0)
    "version must be greater than zero"
  validateSlug "builder.name" manifest.builder.name
  validateSemver tools "builder.version" manifest.builder.version
  validateSha256 "content_sha256" manifest.contentSha256
  let paths ← manifest.files.foldlM (recordPath checkRecord) ∅
  requiredPayloadFiles.forM fun required =>
    reject (required ∉ paths) (.missingRequiredFileRecord required)

theorem recordPath_eq_ok {check : FileDescriptor → Except PackError Unit} {paths paths' : Finset String}
    {file : FileDescriptor} : recordPath check paths file = .ok paths' ↔
      (check file = .ok () ∧ file.path ∉ paths) ∧ paths' = insert file.path paths := by
  simp only [recordPath, bind_eq_ok, reject_eq_ok, pure_eq_ok]
  constructor
  · rintro ⟨_, hCheck, _, hNew, rfl⟩
    exact ⟨⟨hCheck, hNew⟩, rfl⟩
  · rintro ⟨⟨hCheck, hNew⟩, rfl⟩
    exact ⟨(), hCheck, (), hNew, rfl⟩

/-- Records are accepted when each passes its check and no path comes twice. -/
theorem recordPaths_eq_ok {check : FileDescriptor → Except PackError Unit}
    {files : List FileDescriptor} {paths paths' : Finset String} :
    files.foldlM (recordPath check) paths = .ok paths' ↔
      ((∀ file ∈ files, check file = .ok () ∧ file.path ∉ paths) ∧ (files.map (·.path)).Nodup) ∧
        paths' = paths ∪ (files.map (·.path)).toFinset := by
  induction files generalizing paths with
  | nil =>
      rw [List.foldlM_nil, pure_eq_ok]
      simp [eq_comm]
  | cons file files ih =>
      rw [List.foldlM_cons, bind_eq_ok]
      simp only [recordPath_eq_ok, List.map_cons, List.nodup_cons, List.forall_mem_cons,
        List.toFinset_cons]
      constructor
      · rintro ⟨_, ⟨⟨hCheck, hNew⟩, rfl⟩, h⟩
        obtain ⟨⟨hAll, hNodup⟩, rfl⟩ := ih.mp h
        refine ⟨⟨⟨⟨hCheck, hNew⟩, fun other hOther => ?_⟩, fun hMem => ?_, hNodup⟩, ?_⟩
        · have hFresh := (hAll other hOther).2
          rw [Finset.mem_insert, not_or] at hFresh
          exact ⟨(hAll other hOther).1, hFresh.2⟩
        · obtain ⟨other, hOther, hSame⟩ := List.mem_map.mp hMem
          exact (hAll other hOther).2 (hSame ▸ Finset.mem_insert_self _ _)
        · rw [Finset.insert_union, Finset.union_insert]
      · rintro ⟨⟨⟨⟨hCheck, hNew⟩, hAll⟩, hOnce, hNodup⟩, rfl⟩
        refine ⟨_, ⟨⟨hCheck, hNew⟩, rfl⟩, ih.mpr ⟨⟨fun other hOther => ?_, hNodup⟩, ?_⟩⟩
        · refine ⟨(hAll other hOther).1, ?_⟩
          rw [Finset.mem_insert, not_or]
          exact ⟨fun hSame => hOnce (hSame ▸ List.mem_map_of_mem hOther), (hAll other hOther).2⟩
        · rw [Finset.insert_union, Finset.union_insert]

end Paths

end WordArena.Lexicon
