import Std.Data.ExtTreeMap.Lemmas
import Std.Data.ExtTreeSet.Lemmas
import WordArena.Builder.Policy

/-! The English import. One pass over the rows of all source files keeps a set of keys, counters
and an audit record for each row. A file is known by its contents instead of its path. -/
namespace WordArena.Builder

open Fallible
open WordArena.Lexicon (CharacterTables normalizeKey isWhitespace)

section Rows

inductive SourceClass where
  | words
  | abbreviations
  | contractions
  | properNames
  | upper
  | affixes
  | special
deriving DecidableEq, Repr

inductive RejectReason where
  | aboveScowlLevel
  | unselectedSpellingCategory
  | abbreviationClass
  | contractionClass
  | properNameClass
  | upperClass
  | affixClass
  | specialClass
  | empty
  | uppercaseSource
  | apostrophe
  | hyphen
  | whitespace
  | digit
  | punctuation
  | unsupportedCharacter
  | tooShort
  | tooLong
deriving DecidableEq, Repr

def RejectReason.asStr : RejectReason → String
  | .aboveScowlLevel => "above_scowl_level"
  | .unselectedSpellingCategory => "unselected_spelling_category"
  | .abbreviationClass => "abbreviation_class"
  | .contractionClass => "contraction_class"
  | .properNameClass => "proper_name_class"
  | .upperClass => "upper_class"
  | .affixClass => "affix_class"
  | .specialClass => "special_class"
  | .empty => "empty"
  | .uppercaseSource => "uppercase_source"
  | .apostrophe => "apostrophe"
  | .hyphen => "hyphen"
  | .whitespace => "whitespace"
  | .digit => "digit"
  | .punctuation => "punctuation"
  | .unsupportedCharacter => "unsupported_character"
  | .tooShort => "too_short"
  | .tooLong => "too_long"

structure ScowlInput where
  sourceFile : String
  spellingCategory : String
  sourceClass : SourceClass
  level : UInt8
  contents : List UInt8
deriving DecidableEq

inductive RowOutcome where
  | accepted (key : String)
  | rejected (reason : RejectReason) (normalizedKey : Option String)
deriving DecidableEq

/-- The bytes up to a delimiter, with it, and the bytes behind it. -/
def readUntil (delimiter : UInt8) : List UInt8 → List UInt8 × List UInt8
  | [] => ([], [])
  | b :: rest =>
      if b = delimiter then ([b], rest)
      else
        let (bytes, left) := readUntil delimiter rest
        (b :: bytes, left)

theorem readUntil_append (delimiter : UInt8) (bytes : List UInt8) :
    (readUntil delimiter bytes).1 ++ (readUntil delimiter bytes).2 = bytes := by
  induction bytes with
  | nil => rfl
  | cons b rest ih =>
      rw [readUntil]
      split_ifs
      · rfl
      · exact congrArg (b :: ·) ih

/-- A row without its line end. -/
def stripEnd (bytes : List UInt8) : List UInt8 :=
  let bytes := if bytes.getLast? = some 10 then bytes.dropLast else bytes
  if bytes.getLast? = some 13 then bytes.dropLast else bytes

/-- The rows that are read from a file, until nothing is read. -/
def readRows (reader : List UInt8) : List (List UInt8) :=
  match hRead : readUntil 10 reader with
  | ([], _) => []
  | (b :: bytes, left) =>
      have : left.length < reader.length := by
        have hAll := congrArg List.length (readUntil_append 10 reader)
        rw [hRead] at hAll
        simp only [List.length_append, List.length_cons] at hAll
        omega
      stripEnd (b :: bytes) :: readRows left
termination_by reader.length

def decodeIso88591 (bytes : List UInt8) : String :=
  String.ofList (bytes.map fun b => Char.ofNat b.toNat)

/-- Uppercase letters of ISO-8859-1. -/
def isUppercase (c : Char) : Bool :=
  (0x41 ≤ c.toNat && c.toNat ≤ 0x5a) || (0xc0 ≤ c.toNat && c.toNat ≤ 0xd6) ||
    (0xd8 ≤ c.toNat && c.toNat ≤ 0xde)

/-- Numeric characters of ISO-8859-1: digits, superscripts and fractions. -/
def isNumeric (c : Char) : Bool :=
  (0x30 ≤ c.toNat && c.toNat ≤ 0x39) || c.toNat == 0xb2 || c.toNat == 0xb3 || c.toNat == 0xb9 ||
    (0xbc ≤ c.toNat && c.toNat ≤ 0xbe)

def isAsciiPunctuation (c : Char) : Bool :=
  (0x21 ≤ c.toNat && c.toNat ≤ 0x2f) || (0x3a ≤ c.toNat && c.toNat ≤ 0x40) ||
    (0x5b ≤ c.toNat && c.toNat ≤ 0x60) || (0x7b ≤ c.toNat && c.toNat ≤ 0x7e)

/-- A straight apostrophe, a typographic one, or its code in a common extension of ISO-8859-1. -/
def isApostrophe (c : Char) : Bool := c.toNat == 0x27 || c.toNat == 0x2019 || c.toNat == 0x92

def SourceClass.reason : SourceClass → Option RejectReason
  | .words => none
  | .abbreviations => some .abbreviationClass
  | .contractions => some .contractionClass
  | .properNames => some .properNameClass
  | .upper => some .upperClass
  | .affixes => some .affixClass
  | .special => some .specialClass

def rejected (reason : RejectReason) : RowOutcome := .rejected reason none

def classifyRow (tables : CharacterTables) (policy : EnglishPolicy) (input : ScowlInput)
    (source : String) : RowOutcome :=
  if policy.maxScowlLevel < input.level then rejected .aboveScowlLevel
  else
    match input.sourceClass.reason with
    | some reason => rejected reason
    | none =>
        if !policy.selectsSpellingCategory input.spellingCategory then
          rejected .unselectedSpellingCategory
        else if source = "" then rejected .empty
        else if source.toList.any isUppercase then rejected .uppercaseSource
        else if source.toList.any isApostrophe then rejected .apostrophe
        else if source.toList.any (· == '-') then rejected .hyphen
        else if source.toList.any isWhitespace then rejected .whitespace
        else if source.toList.any isNumeric then rejected .digit
        else if source.toList.any isAsciiPunctuation then rejected .punctuation
        else
          match normalizeKey tables policy.normalizationProfile source with
          | .error _ => rejected .unsupportedCharacter
          | .ok key =>
              if !key.value.toList.all fun c => policy.alphabet.toList.contains c then
                rejected .unsupportedCharacter
              else if key.value.length < policy.minWordLength then
                .rejected .tooShort (some key.value)
              else if policy.maxWordLength < key.value.length then
                .rejected .tooLong (some key.value)
              else .accepted key.value

end Rows

section Build

inductive AuditDecision where
  | accepted
  | rejected
deriving DecidableEq, Repr

structure AuditRecord where
  sourceFile : String
  sourceLine : Nat
  spellingCategory : String
  sourceClass : SourceClass
  scowlLevel : UInt8
  originalForm : String
  normalizedKey : Option String
  decision : AuditDecision
  reason : Option RejectReason
  duplicateKey : Bool
deriving DecidableEq

structure SourceFileReport where
  sourceRows : Nat
  acceptedRows : Nat
  rejectedRows : Nat
deriving DecidableEq

/-- Counters are `u64` in the source; they are only ever increased by `increment`. -/
structure BuildReport where
  schemaVersion : UInt32
  packId : String
  policyId : String
  policyVersion : UInt32
  sourceId : String
  sourceRevision : String
  maxScowlLevel : UInt8
  sourceFiles : Nat
  sourceRows : Nat
  acceptedRows : Nat
  rejectedRows : Nat
  uniqueKeys : Nat
  duplicateAcceptedRows : Nat
  rejectionReasons : Std.ExtTreeMap String Nat
  sourceFileCounts : Std.ExtTreeMap String SourceFileReport

/-- What the pass keeps. -/
structure EnglishBuild where
  keys : Std.ExtTreeSet String
  report : BuildReport
  audit : List AuditRecord

def increment (value : Nat) (label : String) : Except BuilderError Nat :=
  if value + 1 < 2 ^ 64 then .ok (value + 1)
  else .error (.accountingInvariant (label ++ " exceeds u64"))

/-- The key set and the report after the outcome of a row, and whether its key was known. -/
def countOutcome (keys : Std.ExtTreeSet String) (report : BuildReport) :
    RowOutcome → Except BuilderError (Std.ExtTreeSet String × BuildReport × Bool)
  | .accepted key => do
      let acceptedRows ← increment report.acceptedRows "accepted row count"
      if keys.contains key then
        let duplicates ← increment report.duplicateAcceptedRows "duplicate accepted row count"
        return (keys, { report with acceptedRows, duplicateAcceptedRows := duplicates }, true)
      else return (keys.insert key, { report with acceptedRows }, false)
  | .rejected reason _ => do
      let rejectedRows ← increment report.rejectedRows "rejected row count"
      let count ← increment (report.rejectionReasons.getD reason.asStr 0) "rejection reason count"
      return (keys, { report with
        rejectedRows
        rejectionReasons := report.rejectionReasons.insert reason.asStr count }, false)

/-- The report of one file after the outcome of one of its rows. -/
def countFile (fileReport : SourceFileReport) : RowOutcome → Except BuilderError SourceFileReport
  | .accepted _ => do
      let sourceRows ← increment fileReport.sourceRows "source file row count"
      let acceptedRows ← increment fileReport.acceptedRows "source file accepted count"
      return { fileReport with sourceRows, acceptedRows }
  | .rejected _ _ => do
      let sourceRows ← increment fileReport.sourceRows "source file row count"
      let rejectedRows ← increment fileReport.rejectedRows "source file rejected count"
      return { fileReport with sourceRows, rejectedRows }

def auditRecord (input : ScowlInput) (sourceLine : Nat) (originalForm : String)
    (outcome : RowOutcome) (duplicateKey : Bool) : AuditRecord where
  sourceFile := input.sourceFile
  sourceLine := sourceLine
  spellingCategory := input.spellingCategory
  sourceClass := input.sourceClass
  scowlLevel := input.level
  originalForm := originalForm
  normalizedKey := match outcome with
    | .accepted key => some key
    | .rejected _ key => key
  decision := match outcome with
    | .accepted _ => .accepted
    | .rejected _ _ => .rejected
  reason := match outcome with
    | .accepted _ => none
    | .rejected reason _ => some reason
  duplicateKey := duplicateKey

/-- One row of a file, read after `sourceLine` others. -/
def processRow (tables : CharacterTables) (policy : EnglishPolicy) (input : ScowlInput)
    (state : EnglishBuild × Nat) (bytes : List UInt8) : Except BuilderError (EnglishBuild × Nat) := do
  let (build, sourceLine) := state
  reject (2 ^ 64 ≤ sourceLine + 1)
    (.accountingInvariant ("line count overflow in " ++ input.sourceFile))
  let originalForm := decodeIso88591 bytes
  let outcome := classifyRow tables policy input originalForm
  let (keys, report, duplicate) ← countOutcome build.keys build.report outcome
  let sourceRows ← increment report.sourceRows "source row count"
  let fileReport ← okOr report.sourceFileCounts[input.sourceFile]?
    (.accountingInvariant ("missing report entry for " ++ input.sourceFile))
  let fileReport ← countFile fileReport outcome
  return (⟨keys, { report with
      sourceRows
      sourceFileCounts := report.sourceFileCounts.insert input.sourceFile fileReport },
    build.audit ++ [auditRecord input (sourceLine + 1) originalForm outcome duplicate]⟩,
    sourceLine + 1)

def processInput (tables : CharacterTables) (policy : EnglishPolicy) (build : EnglishBuild)
    (input : ScowlInput) : Except BuilderError EnglishBuild := do
  let counts := build.report.sourceFileCounts.insertIfNew input.sourceFile ⟨0, 0, 0⟩
  let started := { build with report := { build.report with sourceFileCounts := counts } }
  let (build, _) ← (readRows input.contents).foldlM (processRow tables policy input) (started, 0)
  return build

def validateAccounting (report : BuildReport) : Except BuilderError Unit := do
  reject (2 ^ 64 ≤ report.acceptedRows + report.rejectedRows)
    (.accountingInvariant "accepted + rejected row count overflow")
  reject (report.acceptedRows + report.rejectedRows ≠ report.sourceRows)
    (.accountingInvariant (toString report.sourceRows ++ " source rows != " ++
      toString report.acceptedRows ++ " accepted + " ++ toString report.rejectedRows ++
      " rejected"))
  reject (report.acceptedRows < report.uniqueKeys)
    (.accountingInvariant "unique keys exceed accepted source rows")
  reject (report.duplicateAcceptedRows ≠ report.acceptedRows - report.uniqueKeys)
    (.accountingInvariant (toString report.duplicateAcceptedRows ++
      " duplicate rows != accepted rows minus unique keys (" ++
      toString (report.acceptedRows - report.uniqueKeys) ++ ")"))
  report.sourceFileCounts.toList.forM fun (sourceFile, counts) =>
    reject ((counts.acceptedRows + counts.rejectedRows) % 2 ^ 64 ≠ counts.sourceRows)
      (.accountingInvariant ("per-file counts do not balance for " ++ sourceFile))

/-- The file of keys, one on each line. -/
def writeKeys (keys : Std.ExtTreeSet String) : List UInt8 :=
  keys.toList.flatMap fun key => Bytes.utf8 key ++ [10]

def emptyReport (policy : EnglishPolicy) (inputs : List ScowlInput) : BuildReport where
  schemaVersion := 1
  packId := policy.packId
  policyId := policy.id
  policyVersion := policy.version
  sourceId := policy.sourceId
  sourceRevision := policy.sourceRevision
  maxScowlLevel := policy.maxScowlLevel
  sourceFiles := inputs.length
  sourceRows := 0
  acceptedRows := 0
  rejectedRows := 0
  uniqueKeys := 0
  duplicateAcceptedRows := 0
  rejectionReasons := ∅
  sourceFileCounts := ∅

/-- The import of files that were found and named. Counts of files and keys fit in `u64`, being
lengths. -/
def buildEnglish (tables : CharacterTables) (policy : EnglishPolicy) (inputs : List ScowlInput) :
    Except BuilderError EnglishBuild := do
  policy.validate
  let build ← inputs.foldlM (processInput tables policy) ⟨∅, emptyReport policy inputs, []⟩
  let report := { build.report with uniqueKeys := build.keys.size }
  validateAccounting report
  return { build with report }

end Build

end WordArena.Builder
