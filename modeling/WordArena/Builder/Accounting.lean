import WordArena.Builder.English
import WordArena.Engine.Fresh
import WordArena.Library.Lines

/-! The import as a filter of its rows. What the pass has after some rows is determined by them:
the counters add up, the keys are those of the accepted rows, and each row has its record. -/
namespace WordArena.Builder

open Fallible
open WordArena.Lexicon (CharacterTables normalizeKey isWhitespace isUpper_of_normalizeKey)

section Rows

/-- A row of a file, with its number. -/
structure SourceRow where
  input : ScowlInput
  line : Nat
  text : String

def rowsFrom (input : ScowlInput) (line : Nat) : List (List UInt8) → List SourceRow
  | [] => []
  | bytes :: rest => ⟨input, line + 1, decodeIso88591 bytes⟩ :: rowsFrom input (line + 1) rest

/-- All rows in the order in which they are processed. -/
def sourceRows (inputs : List ScowlInput) : List SourceRow :=
  inputs.flatMap fun input => rowsFrom input 0 (readRows input.contents)

/-- What the outcome of a row depends on. -/
def SourceRow.tag (row : SourceRow) : SourceClass × String × UInt8 × String :=
  (row.input.sourceClass, row.input.spellingCategory, row.input.level, row.text)

def SourceRow.outcome (tables : CharacterTables) (policy : EnglishPolicy) (row : SourceRow) :
    RowOutcome :=
  classifyRow tables policy row.input row.text

variable {tables : CharacterTables} {policy : EnglishPolicy}

theorem outcome_eq_of_tag {a b : SourceRow} (h : a.tag = b.tag) :
    a.outcome tables policy = b.outcome tables policy := by
  simp only [SourceRow.tag, Prod.mk.injEq] at h
  obtain ⟨hClass, hCategory, hLevel, hText⟩ := h
  simp only [SourceRow.outcome, classifyRow, hClass, hCategory, hLevel, hText]

/-- The rows that become keys. -/
structure Playable (tables : CharacterTables) (policy : EnglishPolicy) (row : SourceRow)
    (key : String) : Prop where
  level : row.input.level ≤ policy.maxScowlLevel
  words : row.input.sourceClass = .words
  category : policy.selectsSpellingCategory row.input.spellingCategory = true
  nonempty : row.text ≠ ""
  plain : ∀ c ∈ row.text.toList, isUppercase c = false ∧ isApostrophe c = false ∧ c ≠ '-' ∧
    isWhitespace c = false ∧ isNumeric c = false ∧ isAsciiPunctuation c = false
  normalized : ∃ normal, normalizeKey tables policy.normalizationProfile row.text = .ok normal ∧
    normal.value = key
  alphabet : ∀ c ∈ key.toList, c ∈ policy.alphabet.toList
  bounds : policy.minWordLength ≤ key.length ∧ key.length ≤ policy.maxWordLength

theorem reason_eq_none {sourceClass : SourceClass} : sourceClass.reason = none ↔
    sourceClass = .words := by cases sourceClass <;> simp [SourceClass.reason]

theorem any_eq_false {text : String} {p : Char → Bool} :
    ¬ text.toList.any p = true ↔ ∀ c ∈ text.toList, p c = false := by simp

/-- A check that a row does not pass rejects it. -/
theorem accepted_ite {p : Prop} [Decidable p] {reason : RejectReason} {normal : Option String}
    {outcome : RowOutcome} {key : String} :
    (if p then .rejected reason normal else outcome) = .accepted key ↔
      ¬ p ∧ outcome = .accepted key := by
  by_cases h : p
  · rw [if_pos h]
    exact ⟨nofun, fun hBoth => absurd h hBoth.1⟩
  · rw [if_neg h]
    exact ⟨fun hSame => ⟨h, hSame⟩, And.right⟩

theorem outcome_accepted_iff {row : SourceRow} {key : String} :
    row.outcome tables policy = .accepted key ↔ Playable tables policy row key := by
  rw [SourceRow.outcome, classifyRow]
  simp only [rejected, accepted_ite]
  cases hReason : row.input.sourceClass.reason with
  | some reason =>
      constructor
      · exact fun h => absurd h.2 nofun
      · intro h
        rw [reason_eq_none.mpr h.words] at hReason
        cases hReason
  | none =>
      cases hKey : normalizeKey tables policy.normalizationProfile row.text with
      | error e =>
          simp only [accepted_ite]
          constructor
          · exact fun h => absurd h.2.2.2.2.2.2.2.2.2 nofun
          · intro h
            obtain ⟨normal, hNormal, -⟩ := h.normalized
            rw [hKey] at hNormal
            cases hNormal
      | ok normal =>
          simp only [accepted_ite]
          constructor
          · intro ⟨hLevel, hCategory, hEmpty, hUpper, hApostrophe, hHyphen, hSpace, hDigit,
              hPunctuation, hAlphabet, hShort, hLong, hSame⟩
            cases hSame
            rw [any_eq_false] at hUpper hApostrophe hHyphen hSpace hDigit hPunctuation
            refine ⟨UInt8.not_lt.mp hLevel, reason_eq_none.mp hReason, by simpa using hCategory,
              hEmpty, ?_, ⟨normal, hKey, rfl⟩, by simpa using hAlphabet, Nat.not_lt.mp hShort,
              Nat.not_lt.mp hLong⟩
            intro c hMem
            exact ⟨hUpper c hMem, hApostrophe c hMem, by simpa using hHyphen c hMem, hSpace c hMem,
              hDigit c hMem, hPunctuation c hMem⟩
          · intro ⟨hLevel, _, hCategory, hEmpty, hPlain, ⟨other, hOther, hValue⟩, hAlphabet, hBounds⟩
            obtain rfl := Except.ok.inj (hKey.symm.trans hOther)
            rw [← hValue] at hAlphabet hBounds
            simp only [any_eq_false]
            exact ⟨UInt8.not_lt.mpr hLevel, by simp [hCategory], hEmpty, fun c h => (hPlain c h).1,
              fun c h => (hPlain c h).2.1, fun c h => by simpa using (hPlain c h).2.2.1,
              fun c h => (hPlain c h).2.2.2.1, fun c h => (hPlain c h).2.2.2.2.1,
              fun c h => (hPlain c h).2.2.2.2.2, by simpa using hAlphabet,
              Nat.not_lt.mpr hBounds.1, Nat.not_lt.mpr hBounds.2, congrArg _ hValue⟩

end Rows

section Pass

variable {tables : CharacterTables} {policy : EnglishPolicy} {build : EnglishBuild}
  {done : List SourceRow} {input : ScowlInput} {line : Nat}

/-- A row with this key was accepted among these. -/
def Known (tables : CharacterTables) (policy : EnglishPolicy) (rows : List SourceRow)
    (key : String) : Prop :=
  ∃ row ∈ rows, row.outcome tables policy = .accepted key

/-- The record of a row behind these rows. -/
def RecordOf (tables : CharacterTables) (policy : EnglishPolicy) (earlier : List SourceRow)
    (row : SourceRow) (record : AuditRecord) : Prop :=
  ∃ duplicate : Bool, record = auditRecord row.input row.line row.text (row.outcome tables policy)
      duplicate ∧
    (duplicate = true ↔ ∃ key, row.outcome tables policy = .accepted key ∧
      Known tables policy earlier key)

/-- What the pass keeps after some rows. -/
structure Accounted (tables : CharacterTables) (policy : EnglishPolicy) (done : List SourceRow)
    (build : EnglishBuild) : Prop where
  keys : ∀ key, key ∈ build.keys ↔ Known tables policy done key
  total : build.report.sourceRows = done.length
  decided : build.report.acceptedRows + build.report.rejectedRows = done.length
  unique : build.keys.size + build.report.duplicateAcceptedRows = build.report.acceptedRows
  reasons : ∀ reason, build.report.rejectionReasons.getD reason 0 ≤ build.report.rejectedRows
  files : ∀ (name : String) (counts : SourceFileReport),
    build.report.sourceFileCounts[name]? = some counts →
      counts.acceptedRows + counts.rejectedRows = counts.sourceRows ∧
        counts.sourceRows ≤ done.length
  records : build.audit.length = done.length
  audit : ∀ (i : Nat) (row : SourceRow) (record : AuditRecord), done[i]? = some row →
    build.audit[i]? = some record → RecordOf tables policy (done.take i) row record

theorem accounted_start (inputs : List ScowlInput) :
    Accounted tables policy [] ⟨∅, emptyReport policy inputs, []⟩ := by
  constructor
  · intro key
    simp [Known]
  · rfl
  · rfl
  · rfl
  · intro reason
    simp [emptyReport]
  · intro name counts hCounts
    simp [emptyReport] at hCounts
  · rfl
  · intro i row record hRow
    simp at hRow

theorem increment_ok {value : Nat} (label : String) (h : value + 1 < 2 ^ 64) :
    increment value label = .ok (value + 1) := if_pos h

/-- A file that is opened again, or for the first time, changes no counter. -/
theorem Accounted.opened (input : ScowlInput) (h : Accounted tables policy done build) :
    Accounted tables policy done { build with report := { build.report with
      sourceFileCounts := build.report.sourceFileCounts.insertIfNew input.sourceFile ⟨0, 0, 0⟩ } } := by
  refine ⟨h.keys, h.total, h.decided, h.unique, h.reasons, ?_, h.records, h.audit⟩
  intro name counts hCounts
  rw [Std.ExtTreeMap.getElem?_insertIfNew] at hCounts
  split_ifs at hCounts with hNew
  · cases hCounts
    exact ⟨rfl, Nat.zero_le _⟩
  · exact h.files name counts hCounts

theorem known_append {rows : List SourceRow} {row : SourceRow} {key : String} :
    Known tables policy (rows ++ [row]) key ↔
      Known tables policy rows key ∨ row.outcome tables policy = .accepted key := by
  simp [Known, or_and_right, exists_or]

/-- What counting the outcome of a row leaves. -/
structure Counts (build : EnglishBuild) (outcome : RowOutcome) (keys : Std.ExtTreeSet String)
    (report : BuildReport) (duplicate : Bool) : Prop where
  known : ∀ key, key ∈ keys ↔ key ∈ build.keys ∨ outcome = .accepted key
  decided : report.acceptedRows + report.rejectedRows =
    build.report.acceptedRows + build.report.rejectedRows + 1
  unique : build.keys.size + build.report.duplicateAcceptedRows = build.report.acceptedRows →
    keys.size + report.duplicateAcceptedRows = report.acceptedRows
  reasons : (∀ reason, build.report.rejectionReasons.getD reason 0 ≤ build.report.rejectedRows) →
    ∀ reason, report.rejectionReasons.getD reason 0 ≤ report.rejectedRows
  rows : report.sourceRows = build.report.sourceRows
  files : report.sourceFileCounts = build.report.sourceFileCounts
  duplicate : duplicate = true ↔ ∃ key, outcome = .accepted key ∧ key ∈ build.keys

/-- An accepted row whose key is known is a duplicate. -/
theorem counts_known {key : String} (hMem : key ∈ build.keys) :
    Counts build (.accepted key) build.keys { build.report with
      acceptedRows := build.report.acceptedRows + 1
      duplicateAcceptedRows := build.report.duplicateAcceptedRows + 1 } true := by
  constructor
  · intro other
    constructor
    · exact .inl
    · intro hEither
      rcases hEither with hOld | hNew
      · exact hOld
      · cases hNew
        exact hMem
  · exact Nat.add_right_comm _ _ _
  · exact congrArg (· + 1)
  · exact fun h => h
  · rfl
  · rfl
  · exact ⟨fun _ => ⟨key, rfl, hMem⟩, fun _ => rfl⟩

/-- An accepted row with another key adds it. -/
theorem counts_fresh {key : String} (hFresh : key ∉ build.keys) :
    Counts build (.accepted key) (build.keys.insert key) { build.report with
      acceptedRows := build.report.acceptedRows + 1 } false := by
  constructor
  · intro other
    rw [Std.ExtTreeSet.mem_insert, Std.LawfulEqCmp.compare_eq_iff_eq, RowOutcome.accepted.injEq]
    exact or_comm
  · exact Nat.add_right_comm _ _ _
  · intro hUnique
    rw [Std.ExtTreeSet.size_insert, if_neg (by rwa [← Std.ExtTreeSet.mem_iff_contains])]
    show build.keys.size + 1 + build.report.duplicateAcceptedRows = build.report.acceptedRows + 1
    omega
  · exact fun h => h
  · rfl
  · rfl
  · constructor
    · exact nofun
    · intro ⟨other, hSame, hMem⟩
      cases hSame
      exact absurd hMem hFresh

theorem counts_rejected (reason : RejectReason) (normal : Option String) :
    Counts build (.rejected reason normal) build.keys { build.report with
      rejectedRows := build.report.rejectedRows + 1
      rejectionReasons := build.report.rejectionReasons.insert reason.asStr
        (build.report.rejectionReasons.getD reason.asStr 0 + 1) } false := by
  constructor
  · intro other
    simp
  · exact (Nat.add_assoc _ _ _).symm
  · exact fun h => h
  · intro hReasons other
    rw [Std.ExtTreeMap.getD_insert]
    split_ifs
    · exact Nat.succ_le_succ (hReasons reason.asStr)
    · exact Nat.le_succ_of_le (hReasons other)
  · rfl
  · rfl
  · simp

theorem Accounted.countOutcome (h : Accounted tables policy done build)
    (hBound : done.length + 1 < 2 ^ 64) (outcome : RowOutcome) :
    ∃ keys report duplicate, countOutcome build.keys build.report outcome =
      .ok (keys, report, duplicate) ∧ Counts build outcome keys report duplicate := by
  have hDecided := h.decided
  have hUnique := h.unique
  cases outcome with
  | accepted key =>
      have hAccepted := increment_ok "accepted row count"
        (show build.report.acceptedRows + 1 < 2 ^ 64 by omega)
      have hDuplicates := increment_ok "duplicate accepted row count"
        (show build.report.duplicateAcceptedRows + 1 < 2 ^ 64 by omega)
      by_cases hKnown : key ∈ build.keys
      · refine ⟨_, _, _, ?_, counts_known hKnown⟩
        rw [Builder.countOutcome, hAccepted, ok_bind,
          if_pos (Std.ExtTreeSet.mem_iff_contains.mp hKnown), hDuplicates]
        rfl
      · refine ⟨_, _, _, ?_, counts_fresh hKnown⟩
        rw [Builder.countOutcome, hAccepted, ok_bind,
          if_neg (by rwa [← Std.ExtTreeSet.mem_iff_contains])]
        rfl
  | rejected reason normal =>
      have hReason := h.reasons reason.asStr
      have hRejected := increment_ok "rejected row count"
        (show build.report.rejectedRows + 1 < 2 ^ 64 by omega)
      have hCount := increment_ok "rejection reason count"
        (show build.report.rejectionReasons.getD reason.asStr 0 + 1 < 2 ^ 64 by omega)
      refine ⟨_, _, _, ?_, counts_rejected reason normal⟩
      rw [Builder.countOutcome, hRejected, ok_bind, hCount]
      rfl

/-- The counters of a file stay balanced. -/
theorem countFile_ok {counts : SourceFileReport}
    (hBalanced : counts.acceptedRows + counts.rejectedRows = counts.sourceRows)
    (hBound : counts.sourceRows + 1 < 2 ^ 64) (outcome : RowOutcome) :
    ∃ next, countFile counts outcome = .ok next ∧
      next.acceptedRows + next.rejectedRows = next.sourceRows ∧
      next.sourceRows = counts.sourceRows + 1 := by
  have hRows := increment_ok "source file row count" hBound
  cases outcome with
  | accepted key =>
      have hAccepted := increment_ok "source file accepted count"
        (show counts.acceptedRows + 1 < 2 ^ 64 by omega)
      refine ⟨⟨counts.sourceRows + 1, counts.acceptedRows + 1, counts.rejectedRows⟩, ?_, ?_, rfl⟩
      · rw [countFile, hRows, ok_bind, hAccepted]
        rfl
      · show counts.acceptedRows + 1 + counts.rejectedRows = counts.sourceRows + 1
        omega
  | rejected reason normal =>
      have hRejected := increment_ok "source file rejected count"
        (show counts.rejectedRows + 1 < 2 ^ 64 by omega)
      refine ⟨⟨counts.sourceRows + 1, counts.acceptedRows, counts.rejectedRows + 1⟩, ?_, ?_, rfl⟩
      · rw [countFile, hRows, ok_bind, hRejected]
        rfl
      · show counts.acceptedRows + (counts.rejectedRows + 1) = counts.sourceRows + 1
        omega

/-- One row: everything that the pass keeps is brought up to date. -/
theorem Accounted.row (bytes : List UInt8) (h : Accounted tables policy done build) (hBound : done.length + 1 < 2 ^ 64)
    (hLine : line ≤ done.length) {counts : SourceFileReport}
    (hFile : build.report.sourceFileCounts[input.sourceFile]? = some counts) :
    ∃ next, processRow tables policy input (build, line) bytes = .ok (next, line + 1) ∧
      Accounted tables policy (done ++ [⟨input, line + 1, decodeIso88591 bytes⟩]) next ∧
      ∃ counts, next.report.sourceFileCounts[input.sourceFile]? = some counts := by
  let row : SourceRow := ⟨input, line + 1, decodeIso88591 bytes⟩
  have hLength : (done ++ [row]).length = done.length + 1 := by simp
  obtain ⟨keys, report, duplicate, hOutcome, hCounts⟩ :=
    h.countOutcome hBound (row.outcome tables policy)
  have hTotal : report.sourceRows = done.length := hCounts.rows.trans h.total
  have hRows := increment_ok "source row count" (show report.sourceRows + 1 < 2 ^ 64 by omega)
  obtain ⟨hBalanced, hSmall⟩ := h.files input.sourceFile counts hFile
  obtain ⟨nextCounts, hNext, hNextBalanced, hNextRows⟩ :=
    countFile_ok hBalanced (by omega) (row.outcome tables policy)
  have hFound : report.sourceFileCounts[input.sourceFile]? = some counts := hCounts.files ▸ hFile
  refine ⟨⟨keys, { report with
      sourceRows := report.sourceRows + 1
      sourceFileCounts := report.sourceFileCounts.insert input.sourceFile nextCounts },
    build.audit ++ [auditRecord input (line + 1) (decodeIso88591 bytes) (row.outcome tables policy)
      duplicate]⟩, ?_, ?_, nextCounts, Std.ExtTreeMap.getElem?_insert_self⟩
  · rw [processRow]
    dsimp only
    rw [reject, if_neg (by omega), ok_bind]
    show (Builder.countOutcome build.keys build.report (row.outcome tables policy) >>= _) = _
    rw [hOutcome, ok_bind]
    dsimp only
    rw [hRows, ok_bind, hFound]
    show (countFile counts (row.outcome tables policy) >>= _) = _
    rw [hNext, ok_bind]
    rfl
  · constructor
    · intro key
      rw [hCounts.known, h.keys]
      exact known_append.symm
    · show report.sourceRows + 1 = _
      rw [hLength, hTotal]
    · show report.acceptedRows + report.rejectedRows = _
      rw [hLength, hCounts.decided, h.decided]
    · exact hCounts.unique h.unique
    · exact hCounts.reasons h.reasons
    · intro name other hOther
      rw [hLength]
      rw [Std.ExtTreeMap.getElem?_insert] at hOther
      split_ifs at hOther with hSame
      · cases hOther
        exact ⟨hNextBalanced, by omega⟩
      · rw [hCounts.files] at hOther
        obtain ⟨hOld, hOldSmall⟩ := h.files name other hOther
        exact ⟨hOld, Nat.le_succ_of_le hOldSmall⟩
    · simp [h.records]
    · intro i other record hRow hRecord
      by_cases hOld : i < done.length
      · rw [List.getElem?_append_left hOld] at hRow
        rw [List.getElem?_append_left (by rw [h.records]; exact hOld)] at hRecord
        rw [List.take_append_of_le_length (Nat.le_of_lt hOld)]
        exact h.audit i other record hRow hRecord
      · have hAt := (List.getElem?_eq_some_iff.mp hRow).1
        rw [hLength] at hAt
        obtain rfl : i = done.length := by omega
        rw [List.getElem?_concat_length] at hRow
        rw [← h.records, List.getElem?_concat_length] at hRecord
        cases hRow
        cases hRecord
        rw [List.take_left]
        refine ⟨duplicate, rfl, hCounts.duplicate.trans ?_⟩
        simp only [h.keys]
        rfl

/-- The rows of a file, one after another. -/
theorem Accounted.rows {rows : List (List UInt8)} (h : Accounted tables policy done build)
    (hBound : done.length + rows.length < 2 ^ 64) (hLine : line ≤ done.length)
    {counts : SourceFileReport}
    (hFile : build.report.sourceFileCounts[input.sourceFile]? = some counts) :
    ∃ next, rows.foldlM (processRow tables policy input) (build, line) =
        .ok (next, line + rows.length) ∧
      Accounted tables policy (done ++ rowsFrom input line rows) next := by
  induction rows generalizing build done line counts with
  | nil => exact ⟨build, rfl, by rwa [rowsFrom, List.append_nil]⟩
  | cons bytes rows ih =>
      rw [List.length_cons] at hBound
      obtain ⟨next, hRow, hNext, nextCounts, hNextFile⟩ := h.row bytes (by omega) hLine hFile
      let row : SourceRow := ⟨input, line + 1, decodeIso88591 bytes⟩
      have hLength : (done ++ [row]).length = done.length + 1 := by simp
      have hNextLine : line + 1 ≤ (done ++ [row]).length := by omega
      obtain ⟨last, hRows, hLast⟩ := ih hNext (by rw [hLength]; omega) hNextLine hNextFile
      refine ⟨last, ?_, ?_⟩
      · rw [List.foldlM_cons, hRow, ok_bind, hRows, List.length_cons, Nat.add_right_comm,
          Nat.add_assoc]
      · rwa [rowsFrom, List.append_cons]

theorem length_rowsFrom (input : ScowlInput) (line : Nat) (rows : List (List UInt8)) :
    (rowsFrom input line rows).length = rows.length := by
  induction rows generalizing line with
  | nil => rfl
  | cons bytes rows ih => exact congrArg (· + 1) (ih (line + 1))

theorem Accounted.file (input : ScowlInput) (h : Accounted tables policy done build)
    (hBound : done.length + (readRows input.contents).length < 2 ^ 64) :
    ∃ next, processInput tables policy build input = .ok next ∧
      Accounted tables policy (done ++ rowsFrom input 0 (readRows input.contents)) next := by
  have hOpened := h.opened input
  have hFile : ∃ counts, (build.report.sourceFileCounts.insertIfNew input.sourceFile
      ⟨0, 0, 0⟩)[input.sourceFile]? = some counts := by
    rw [← Option.isSome_iff_exists, ← Std.ExtTreeMap.mem_iff_isSome_getElem?]
    exact Std.ExtTreeMap.mem_insertIfNew_self
  obtain ⟨counts, hCounts⟩ := hFile
  obtain ⟨next, hRows, hNext⟩ := hOpened.rows hBound (Nat.zero_le _) hCounts
  refine ⟨next, ?_, hNext⟩
  rw [processInput]
  dsimp only
  rw [hRows]
  rfl

/-- The whole pass. -/
theorem Accounted.inputs {inputs : List ScowlInput} (h : Accounted tables policy done build)
    (hBound : done.length + (sourceRows inputs).length < 2 ^ 64) :
    ∃ next, inputs.foldlM (processInput tables policy) build = .ok next ∧
      Accounted tables policy (done ++ sourceRows inputs) next := by
  induction inputs generalizing build done with
  | nil => exact ⟨build, rfl, by rwa [sourceRows, List.flatMap_nil, List.append_nil]⟩
  | cons input inputs ih =>
      have hSplit : sourceRows (input :: inputs) =
          rowsFrom input 0 (readRows input.contents) ++ sourceRows inputs := List.flatMap_cons
      rw [hSplit, List.length_append, length_rowsFrom] at hBound
      obtain ⟨next, hInput, hNext⟩ := h.file input (by omega)
      obtain ⟨last, hInputs, hLast⟩ := ih hNext (by
        rw [List.length_append, length_rowsFrom]
        omega)
      refine ⟨last, ?_, ?_⟩
      · rw [List.foldlM_cons, hInput, ok_bind, hInputs]
      · rwa [hSplit, ← List.append_assoc]

/-- The totals of a pass balance. -/
theorem Accounted.validate (h : Accounted tables policy done build) (hBound : done.length < 2 ^ 64) :
    validateAccounting { build.report with uniqueKeys := build.keys.size } = .ok () := by
  have hDecided := h.decided
  have hTotal := h.total
  have hUnique := h.unique
  rw [validateAccounting]
  dsimp only
  rw [reject, if_neg (by omega), ok_bind, reject, if_neg (by omega), ok_bind, reject,
    if_neg (by omega), ok_bind, reject, if_neg (by omega), ok_bind, forM_eq_ok]
  rintro ⟨name, counts⟩ hMem
  rw [Std.ExtTreeMap.mem_toList_iff_getElem?_eq_some] at hMem
  obtain ⟨hBalanced, hSmall⟩ := h.files name counts hMem
  rw [reject_eq_ok, not_not, hBalanced]
  exact Nat.mod_eq_of_lt (by omega)

end Pass

section Exactness

variable {tables : CharacterTables} {policy : EnglishPolicy} {inputs : List ScowlInput}
  {build : EnglishBuild}

/-- Files with the same rows under the same class, category and level, in any order. -/
def SameRows (inputs others : List ScowlInput) : Prop :=
  ∀ tag, tag ∈ (sourceRows inputs).map SourceRow.tag ↔ tag ∈ (sourceRows others).map SourceRow.tag

/-- A key of some rows is a key of the same rows elsewhere. -/
theorem Known.of_tags {rows others : List SourceRow} {key : String}
    (hTags : ∀ tag ∈ rows.map SourceRow.tag, tag ∈ others.map SourceRow.tag)
    (h : Known tables policy rows key) : Known tables policy others key := by
  obtain ⟨row, hMem, hAccepted⟩ := h
  obtain ⟨other, hOther, hTag⟩ := List.mem_map.mp (hTags row.tag (List.mem_map_of_mem hMem))
  exact ⟨other, hOther, (outcome_eq_of_tag hTag).trans hAccepted⟩

/-- No key contains a line end. -/
theorem Playable.noLineEnd {row : SourceRow} {key : String} (h : Playable tables policy row key) :
    (10 : UInt8) ∉ Bytes.utf8 key := by
  intro hMem
  obtain ⟨normal, hNormal, rfl⟩ := h.normalized
  obtain ⟨c, hChar, hCode⟩ := Bytes.basic_mem_utf8 hMem (by decide)
  have hLow := (Ascii.isUpper_iff.mp (isUpper_of_normalizeKey hNormal c hChar)).1
  rw [hCode] at hLow
  exact absurd hLow (by decide)

/-- The import is an exact filter of its rows. -/
structure ExactImport (tables : CharacterTables) (policy : EnglishPolicy) (inputs : List ScowlInput)
    (build : EnglishBuild) : Prop where
  accepted : ∀ key, key ∈ build.keys ↔
    ∃ row ∈ sourceRows inputs, row.outcome tables policy = .accepted key
  playable : ∀ key, key ∈ build.keys ↔ ∃ row ∈ sourceRows inputs, Playable tables policy row key
  written : (writeKeys build.keys).splitOn 10 = build.keys.toList.map Bytes.utf8 ++ [[]]
  records : build.audit.length = (sourceRows inputs).length
  audit : ∀ (i : Nat) (row : SourceRow) (record : AuditRecord), (sourceRows inputs)[i]? = some row →
    build.audit[i]? = some record → RecordOf tables policy ((sourceRows inputs).take i) row record
  accounting : validateAccounting build.report = .ok ()
  unordered : ∀ others : List ScowlInput, SameRows inputs others →
    (sourceRows others).length < 2 ^ 64 →
    ∃ other, buildEnglish tables policy others = .ok other ∧ other.keys = build.keys

/-- The build of files whose rows can be counted. -/
theorem buildEnglish_ok (tables : CharacterTables) (hPolicy : policy.validate = .ok ())
    (hRows : (sourceRows inputs).length < 2 ^ 64) :
    ∃ build, buildEnglish tables policy inputs = .ok build ∧
      validateAccounting build.report = .ok () ∧
      Accounted tables policy (sourceRows inputs) build := by
  have hStart : Accounted tables policy [] ⟨∅, emptyReport policy inputs, []⟩ :=
    accounted_start inputs
  obtain ⟨build, hPass, hBuild⟩ := hStart.inputs (by simpa using hRows)
  have hValid := hBuild.validate (by simpa using hRows)
  refine ⟨{ build with report := { build.report with uniqueKeys := build.keys.size } }, ?_, hValid,
    hBuild.keys, hBuild.total, hBuild.decided, hBuild.unique, hBuild.reasons, hBuild.files,
    hBuild.records, hBuild.audit⟩
  rw [buildEnglish, hPolicy, ok_bind, hPass, ok_bind]
  dsimp only
  rw [hValid]
  rfl

theorem written_keys (h : ∀ key ∈ build.keys, (10 : UInt8) ∉ Bytes.utf8 key) :
    (writeKeys build.keys).splitOn 10 = build.keys.toList.map Bytes.utf8 ++ [[]] := by
  have hCut : Lines.Cut 10 (writeKeys build.keys) (build.keys.toList.map Bytes.utf8) [] := by
    constructor
    · rw [writeKeys, List.flatMap_map, List.append_nil]
    · intro line hLine
      obtain ⟨key, hKey, rfl⟩ := List.mem_map.mp hLine
      exact h key (Std.ExtTreeSet.mem_toList.mp hKey)
    · exact List.not_mem_nil
  exact hCut.splitOn

/-- The import keeps exactly the playable rows, records every row once, and does not depend on the
order of files and rows. -/
theorem english_import_exact (tables : CharacterTables) {policy : EnglishPolicy}
    (hPolicy : policy.validate = .ok ()) {inputs : List ScowlInput}
    (hRows : (sourceRows inputs).length < 2 ^ 64) :
    ∃ build, buildEnglish tables policy inputs = .ok build ∧
      ExactImport tables policy inputs build := by
  obtain ⟨build, hBuild, hValid, h⟩ := buildEnglish_ok tables hPolicy hRows
  refine ⟨build, hBuild, h.keys, ?_, ?_, h.records, h.audit, hValid, ?_⟩
  · intro key
    rw [h.keys]
    simp only [Known, outcome_accepted_iff]
  · apply written_keys
    intro key hMem hLine
    obtain ⟨row, -, hAccepted⟩ := (h.keys key).mp hMem
    exact (outcome_accepted_iff.mp hAccepted).noLineEnd hLine
  · intro others hSame hOthers
    obtain ⟨other, hOther, -, h'⟩ := buildEnglish_ok tables hPolicy hOthers
    refine ⟨other, hOther, Std.ExtTreeSet.ext_mem fun key => ?_⟩
    rw [h'.keys, h.keys]
    constructor
    · exact Known.of_tags fun tag => (hSame tag).mpr
    · exact Known.of_tags fun tag => (hSame tag).mp

/-- A policy for small words of two categories. -/
def smallPolicy : EnglishPolicy where
  schemaVersion := 1
  id := "small"
  version := 1
  packId := "small-en"
  sourceId := "scowl"
  sourceRevision := "2020.12.07"
  sourceArchiveSha256 := "0000000000000000000000000000000000000000000000000000000000000000"
  sourceArchiveSizeBytes := 1
  sourceArchiveRoot := "scowl"
  sourceEncoding := "iso-8859-1"
  maxScowlLevel := 50
  sourceSubcategory := "words"
  spellingCategories := ["english", "american"]
  normalizationProfile := Lexicon.englishNormalizationProfile
  alphabet := basicAlphabet
  minWordLength := 2
  maxWordLength := 15

/-- The words cat, a blank line, it's and cat again, without an end of the last line. -/
def smallFile : ScowlInput where
  sourceFile := "english-words.10"
  spellingCategory := "english"
  sourceClass := .words
  level := 10
  contents := Bytes.utf8 "cat\n\nit's\r\ncat"

theorem smallPolicy_valid : smallPolicy.validate = .ok () := by decide +kernel

theorem smallFile_rows : (sourceRows [smallFile]).length < 2 ^ 64 := by decide +kernel

theorem english_import_small : smallPolicy.validate = .ok () ∧
    (sourceRows [smallFile]).length < 2 ^ 64 ∧
    ∃ build, buildEnglish Engine.basicTables smallPolicy [smallFile] = .ok build ∧
      ExactImport Engine.basicTables smallPolicy [smallFile] build :=
  ⟨smallPolicy_valid, smallFile_rows,
    english_import_exact Engine.basicTables smallPolicy_valid smallFile_rows⟩

end Exactness

end WordArena.Builder
