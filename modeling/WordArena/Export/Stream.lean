import WordArena.Engine.Fresh
import WordArena.Export.Model
import WordArena.Library.Lines
import WordArena.Library.Lines

/-! The JSON lines exporter. It writes verified envelopes in the order of their keys and
counts and digests the bytes of every line it has written. A writer may fail in the middle
of a line, and then the exporter does not know how much of it arrived. -/
namespace WordArena.Export

open Fallible WordArena.Engine

def defaultMaxExportRecordBytes : Nat := 16 * 1024 * 1024

def defaultMaxExportTotalBytes : Nat := 1024 * 1024 * 1024

def jsonlExportContentType : String := "application/vnd.word-arena.export+jsonl;version=1"

section Exporter

/-- The exporter. The bytes that its writer received stand for the writer, and the bytes
that its digest absorbed stand for the digest. -/
structure JsonlExporter where
  writer : List UInt8
  maxRecordBytes : Nat
  maxTotalBytes : Nat
  totalBytes : Nat
  recordCount : Nat
  lastSortKey : Option String
  digest : List UInt8

def JsonlExporter.new (maxRecordBytes maxTotalBytes : Nat) : Except ExportError JsonlExporter := do
  reject (maxRecordBytes = 0 ∨ defaultMaxExportRecordBytes < maxRecordBytes ∨
    maxTotalBytes = 0 ∨ defaultMaxExportTotalBytes < maxTotalBytes) .invalidInput
  return ⟨[], maxRecordBytes, maxTotalBytes, 0, 0, none, []⟩

/-- What the writer does with a line: it takes all of it, or it fails after some bytes. -/
inductive Delivery where
  | complete
  | failed (delivered : Nat)
deriving DecidableEq

structure WriteCall where
  envelope : ExportEnvelope
  delivery : Delivery

structure ExportSummary where
  schemaVersion : Nat
  contentType : String
  recordCount : Nat
  byteCount : Nat
  checksumSha256 : String
deriving DecidableEq

def newline : UInt8 := 10

/-- A line that passed every check, with the key of its record and the new total. -/
structure Line where
  sortKey : String
  bytes : List UInt8
  total : Nat

variable (platform : Platform) (serializer : Serializer)

/-- What happens before the writer is called. -/
def JsonlExporter.line (x : JsonlExporter) (e : ExportEnvelope) : Except ExportError Line := do
  e.verify platform serializer
  let sortKey ← e.sortKey platform serializer
  reject (x.lastSortKey.any (fun previous => !decide (previous < sortKey)) = true) .outOfOrder
  let text ← okOr (serializer.envelope e) .serialization
  reject (x.maxRecordBytes < text.length) .recordTooLarge
  let bytes := text ++ [newline]
  reject (2 ^ 64 ≤ bytes.length) .totalTooLarge
  let total := x.totalBytes + bytes.length
  reject (2 ^ 64 ≤ total) .totalTooLarge
  reject (x.maxTotalBytes < total) .totalTooLarge
  return ⟨sortKey, bytes, total⟩

/-- What happens after the writer took a whole line. -/
def JsonlExporter.commit (x : JsonlExporter) (line : Line) :
    JsonlExporter × Except ExportError Unit :=
  let x := { x with
    writer := x.writer ++ line.bytes
    digest := x.digest ++ line.bytes
    totalBytes := line.total }
  if x.recordCount + 1 < 2 ^ 64 then
    ({ x with recordCount := x.recordCount + 1, lastSortKey := some line.sortKey }, .ok ())
  else (x, .error .totalTooLarge)

def JsonlExporter.write (x : JsonlExporter) (call : WriteCall) :
    JsonlExporter × Except ExportError Unit :=
  match x.line platform serializer call.envelope with
  | .error e => (x, .error e)
  | .ok line =>
      match call.delivery with
      | .failed delivered =>
          ({ x with writer := x.writer ++ line.bytes.take delivered }, .error .io)
      | .complete => x.commit line

/-- The bytes that the writer received and the summary, when the writer can be flushed. -/
def JsonlExporter.finish (x : JsonlExporter) (flushed : Bool) :
    Except ExportError (List UInt8 × ExportSummary) := do
  reject (flushed = false) .io
  return (x.writer,
    { schemaVersion := exportSchemaVersion
      contentType := jsonlExportContentType
      recordCount := x.recordCount
      byteCount := x.totalBytes
      checksumSha256 := sha256Text platform x.digest })

end Exporter

section Runs

/-- An exporter and the envelopes that it reported as written. -/
structure Session where
  exporter : JsonlExporter
  written : List ExportEnvelope

variable (platform : Platform) (serializer : Serializer)

def Session.step (s : Session) (call : WriteCall) : Session :=
  match s.exporter.write platform serializer call with
  | (next, .ok ()) => ⟨next, s.written ++ [call.envelope]⟩
  | (next, .error _) => ⟨next, s.written⟩

def JsonlExporter.run (x : JsonlExporter) (calls : List WriteCall) : Session :=
  calls.foldl (Session.step platform serializer) ⟨x, []⟩

/-- The writer fails in a call after it received a part of the line. -/
def JsonlExporter.Interrupted (x : JsonlExporter) (call : WriteCall) : Prop :=
  (∃ line, x.line platform serializer call.envelope = .ok line) ∧
    ∃ delivered, call.delivery = .failed delivered ∧ 0 < delivered

/-- The key of an envelope is below the key of another one. -/
def Precedes (a b : ExportEnvelope) : Prop :=
  ∃ k l, a.sortKey platform serializer = .ok k ∧ b.sortKey platform serializer = .ok l ∧ k < l

/-- The summary describes exactly the bytes that the writer received, which keep to the
limits, and the written records came in the order of their keys. -/
structure StreamIntact (maxRecordBytes maxTotalBytes : Nat) (received : List UInt8)
    (summary : ExportSummary) (written : List ExportEnvelope) : Prop where
  byteCount : summary.byteCount = received.length
  checksum : summary.checksumSha256 = sha256Text platform received
  recordCount : summary.recordCount = received.count newline
  lineBytes : ∀ line ∈ received.splitOn newline, line.length ≤ maxRecordBytes
  totalBytes : received.length ≤ maxTotalBytes
  increasing : written.Pairwise (Precedes platform serializer)

end Runs

section Steps

variable {platform : Platform} {serializer : Serializer} {x : JsonlExporter} {call : WriteCall}

/-- What the checks before a write establish. -/
structure Ready (platform : Platform) (serializer : Serializer) (x : JsonlExporter)
    (e : ExportEnvelope) (line : Line) : Prop where
  sortKey : e.sortKey platform serializer = .ok line.sortKey
  increases : ∀ previous ∈ x.lastSortKey, previous < line.sortKey
  text : ∃ text, serializer.envelope e = some text ∧ text.length ≤ x.maxRecordBytes ∧
    line.bytes = text ++ [newline]
  total : line.total = x.totalBytes + line.bytes.length
  fits : line.total ≤ x.maxTotalBytes

theorem ready_of_line {e : ExportEnvelope} {line : Line}
    (h : x.line platform serializer e = .ok line) : Ready platform serializer x e line := by
  simp only [JsonlExporter.line, bind_eq_ok, reject_eq_ok, okOr_eq_ok, pure_eq_ok] at h
  obtain ⟨_, -, sortKey, hKey, _, hOrder, text, hText, _, hRecord, _, -, _, -, _, hTotal, rfl⟩ := h
  constructor
  case sortKey => exact hKey
  case increases =>
    intro previous hPrevious
    rw [Option.mem_def.mp hPrevious, Option.any_some, Bool.not_eq_true, Bool.not_eq_false',
      decide_eq_true_iff] at hOrder
    exact hOrder
  case text => exact ⟨text, hText, Nat.le_of_not_lt hRecord, rfl⟩
  case total => rfl
  case fits => exact Nat.le_of_not_lt hTotal

theorem Ready.length_pos {e : ExportEnvelope} {line : Line}
    (h : Ready platform serializer x e line) : 0 < line.bytes.length := by
  obtain ⟨text, -, -, hBytes⟩ := h.text
  simp [hBytes]

/-- A write is refused with nothing done, breaks off in the writer, or takes a line. -/
theorem write_cases (x : JsonlExporter) (call : WriteCall) :
    (∃ e, x.write platform serializer call = (x, .error e)) ∨
    (∃ line delivered, x.line platform serializer call.envelope = .ok line ∧
      call.delivery = .failed delivered ∧
      x.write platform serializer call =
        ({ x with writer := x.writer ++ line.bytes.take delivered }, .error .io)) ∨
    ∃ line, x.line platform serializer call.envelope = .ok line ∧
      x.write platform serializer call = x.commit line := by
  unfold JsonlExporter.write
  cases hLine : x.line platform serializer call.envelope with
  | error e => exact .inl ⟨e, rfl⟩
  | ok line =>
      cases hDelivery : call.delivery with
      | failed delivered => exact .inr (.inl ⟨line, delivered, rfl, rfl, rfl⟩)
      | complete => exact .inr (.inr ⟨line, rfl, rfl⟩)

/-- One write that completes. -/
theorem run_complete {e : ExportEnvelope} {line : Line}
    (hLine : x.line platform serializer e = .ok line) (hCount : x.recordCount + 1 < 2 ^ 64) :
    (x.run platform serializer [⟨e, .complete⟩]).exporter.recordCount = x.recordCount + 1 ∧
      (x.run platform serializer [⟨e, .complete⟩]).exporter.totalBytes = line.total := by
  simp only [JsonlExporter.run, List.foldl_cons, List.foldl_nil, Session.step,
    JsonlExporter.write, hLine, JsonlExporter.commit, if_pos hCount, and_self]

/-- One write that breaks off. -/
theorem run_failed {e : ExportEnvelope} {line : Line}
    (hLine : x.line platform serializer e = .ok line) (delivered : Nat) :
    (x.run platform serializer [⟨e, .failed delivered⟩]).exporter.writer =
        x.writer ++ line.bytes.take delivered ∧
      (x.run platform serializer [⟨e, .failed delivered⟩]).exporter.totalBytes = x.totalBytes := by
  simp [JsonlExporter.run, Session.step, JsonlExporter.write, hLine]

theorem contentDigest_eq {content : ChecksummedContent} {bytes : List UInt8}
    (h : serializer.content content = some bytes) :
    contentDigest platform serializer content = .ok (sha256Text platform bytes) := by
  rw [contentDigest, h]
  rfl

theorem finish_flushed (platform : Platform) (x : JsonlExporter) : ∃ summary,
    x.finish platform true = .ok (x.writer, summary) ∧ summary.recordCount = x.recordCount ∧
      summary.byteCount = x.totalBytes := ⟨_, rfl, rfl, rfl⟩

end Steps

section Behind

variable {platform : Platform} {serializer : Serializer} {s : Session} {call : WriteCall}

/-- The bytes that the writer received and the exporter did not count. -/
def Session.uncounted (s : Session) : Int := s.exporter.writer.length - s.exporter.totalBytes

theorem step_uncounted (s : Session) (call : WriteCall) :
    s.uncounted ≤ (s.step platform serializer call).uncounted := by
  unfold Session.step Session.uncounted
  obtain ⟨e, hWrite⟩ | ⟨line, delivered, -, -, hWrite⟩ | ⟨line, hLine, hWrite⟩ :=
    @write_cases platform serializer s.exporter call
  · simp [hWrite]
  · simp only [hWrite, List.length_append]
    omega
  · have hTotal := (ready_of_line hLine).total
    by_cases hCount : s.exporter.recordCount + 1 < 2 ^ 64
    all_goals
      simp only [hWrite, JsonlExporter.commit, hCount, if_true, if_false, List.length_append]
      omega

theorem run_uncounted (calls : List WriteCall) (s : Session) :
    s.uncounted ≤ (calls.foldl (Session.step platform serializer) s).uncounted := by
  induction calls generalizing s with
  | nil => exact Int.le_refl _
  | cons call calls ih => exact Int.le_trans (step_uncounted s call) (ih _)

/-- After an interrupted call, the writer holds bytes that were never counted. -/
theorem step_interrupted
    (h : s.exporter.Interrupted platform serializer call) :
    s.uncounted < (s.step platform serializer call).uncounted := by
  obtain ⟨⟨line, hLine⟩, delivered, hDelivery, hPos⟩ := h
  have hLength := (ready_of_line hLine).length_pos
  simp only [Session.uncounted, Session.step, JsonlExporter.write, hLine, hDelivery,
    List.length_append, List.length_take]
  omega

end Behind

section Intact

variable {platform : Platform} {serializer : Serializer} {s : Session} {call : WriteCall}

/-- The serializer writes compact texts, which have no line ends. -/
def Compact (serializer : Serializer) : Prop :=
  ∀ e text, serializer.envelope e = some text → newline ∉ text

/-- While no line was broken off, the exporter knows every byte of the stream. -/
structure Exact (platform : Platform) (serializer : Serializer) (s : Session) : Prop where
  digest : s.exporter.digest = s.exporter.writer
  totalBytes : s.exporter.totalBytes = s.exporter.writer.length
  fits : s.exporter.totalBytes ≤ s.exporter.maxTotalBytes
  bounded : s.exporter.maxTotalBytes ≤ defaultMaxExportTotalBytes
  lines : ∃ lines, Lines.Cut newline s.exporter.writer lines [] ∧
    lines.length = s.exporter.recordCount ∧
    ∀ line ∈ lines, line.length ≤ s.exporter.maxRecordBytes
  increasing : s.written.Pairwise (Precedes platform serializer)
  last : ∀ e ∈ s.written, ∃ key last, e.sortKey platform serializer = .ok key ∧
    s.exporter.lastSortKey = some last ∧ key ≤ last

theorem exact_new (platform : Platform) (serializer : Serializer) {maxRecordBytes maxTotalBytes : Nat} {x : JsonlExporter}
    (h : JsonlExporter.new maxRecordBytes maxTotalBytes = .ok x) :
    Exact platform serializer ⟨x, []⟩ ∧ x.maxRecordBytes = maxRecordBytes ∧
      x.maxTotalBytes = maxTotalBytes := by
  simp only [JsonlExporter.new, bind_eq_ok, reject_eq_ok, pure_eq_ok] at h
  obtain ⟨_, hLimits, rfl⟩ := h
  have hBounded : maxTotalBytes ≤ defaultMaxExportTotalBytes := by omega
  refine ⟨?_, rfl, rfl⟩
  constructor
  case digest => rfl
  case totalBytes => rfl
  case fits => exact Nat.zero_le _
  case bounded => exact hBounded
  case lines => exact ⟨[], Lines.cut_nil _, rfl, (by simp)⟩
  case increasing => exact .nil
  case last => exact fun _ hNone => absurd hNone List.not_mem_nil

/-- No more records than bytes. -/
theorem Exact.recordCount_le (h : Exact platform serializer s) :
    s.exporter.recordCount ≤ s.exporter.totalBytes := by
  obtain ⟨lines, hCut, hCount, -⟩ := h.lines
  rw [← hCount, ← hCut.count, h.totalBytes]
  exact List.count_le_length

theorem Exact.commit (hCompact : Compact serializer) (h : Exact platform serializer s)
    {e : ExportEnvelope} {line : Line} (hLine : Ready platform serializer s.exporter e line) :
    ∃ next, s.exporter.commit line = (next, .ok ()) ∧
      Exact platform serializer ⟨next, s.written ++ [e]⟩ ∧
      next.maxRecordBytes = s.exporter.maxRecordBytes ∧
      next.maxTotalBytes = s.exporter.maxTotalBytes := by
  have hRecords := h.recordCount_le
  have hCount : s.exporter.recordCount + 1 < 2 ^ 64 := by
    have hFits := h.fits
    have hBounded := h.bounded
    unfold defaultMaxExportTotalBytes at hBounded
    omega
  simp only [JsonlExporter.commit, hCount, if_true]
  refine ⟨_, rfl, ?_, rfl, rfl⟩
  obtain ⟨text, hText, hLength, hBytes⟩ := hLine.text
  obtain ⟨lines, hCut, hLines, hBounds⟩ := h.lines
  constructor
  case digest => simp only [h.digest]
  case totalBytes => simp only [hLine.total, h.totalBytes, List.length_append]
  case fits => exact hLine.fits
  case bounded => exact h.bounded
  case lines =>
    refine ⟨lines ++ [text], ?_, by simp [hLines], ?_⟩
    · apply hCut.append
      exact ⟨by simp [hBytes], by simpa using hCompact e text hText, nofun⟩
    · intro other hOther
      rcases List.mem_append.mp hOther with hOld | hNew
      · exact hBounds other hOld
      · rwa [List.mem_singleton.mp hNew]
  case increasing =>
    rw [List.pairwise_append]
    refine ⟨h.increasing, List.pairwise_singleton _ _, ?_⟩
    intro a ha b hb
    obtain ⟨key, last, hKey, hLast, hLe⟩ := h.last a ha
    rw [List.mem_singleton.mp hb]
    exact ⟨key, line.sortKey, hKey, hLine.sortKey, lt_of_le_of_lt hLe (hLine.increases last hLast)⟩
  case last =>
    intro a ha
    rcases List.mem_append.mp ha with hOld | hNew
    · obtain ⟨key, last, hKey, hLast, hLe⟩ := h.last a hOld
      exact ⟨key, line.sortKey, hKey, rfl, le_of_lt (lt_of_le_of_lt hLe (hLine.increases last hLast))⟩
    · rw [List.mem_singleton.mp hNew]
      exact ⟨line.sortKey, line.sortKey, hLine.sortKey, rfl, le_rfl⟩

/-- A call that is not interrupted keeps the exporter exact. -/
theorem Exact.step (hCompact : Compact serializer) (h : Exact platform serializer s)
    (hCall : ¬ s.exporter.Interrupted platform serializer call) :
    Exact platform serializer (s.step platform serializer call) ∧
      (s.step platform serializer call).exporter.maxRecordBytes = s.exporter.maxRecordBytes ∧
      (s.step platform serializer call).exporter.maxTotalBytes = s.exporter.maxTotalBytes := by
  unfold Session.step
  obtain ⟨e, hWrite⟩ | ⟨line, delivered, hLine, hDelivery, hWrite⟩ | ⟨line, hLine, hWrite⟩ :=
    @write_cases platform serializer s.exporter call
  · rw [hWrite]
    exact ⟨h, rfl, rfl⟩
  · obtain rfl : delivered = 0 := by
      by_contra hSome
      exact hCall ⟨⟨line, hLine⟩, delivered, hDelivery, Nat.pos_of_ne_zero hSome⟩
    rw [hWrite, List.take_zero, List.append_nil]
    exact ⟨h, rfl, rfl⟩
  · obtain ⟨next, hCommit, hExact, hLimits⟩ := h.commit hCompact (ready_of_line hLine)
    simp only [hWrite, hCommit]
    exact ⟨hExact, hLimits⟩

/-- A run without interrupted calls keeps the exporter exact. -/
theorem Exact.run (hCompact : Compact serializer) {x : JsonlExporter}
    (h : Exact platform serializer ⟨x, []⟩) {calls : List WriteCall}
    (hCalls : ∀ before call rest, calls = before ++ call :: rest →
      ¬ (x.run platform serializer before).exporter.Interrupted platform serializer call) :
    Exact platform serializer (x.run platform serializer calls) ∧
      (x.run platform serializer calls).exporter.maxRecordBytes = x.maxRecordBytes ∧
      (x.run platform serializer calls).exporter.maxTotalBytes = x.maxTotalBytes := by
  induction calls using List.reverseRecOn with
  | nil => exact ⟨h, rfl, rfl⟩
  | append_singleton calls call ih =>
      obtain ⟨hExact, hRecord, hTotal⟩ := ih fun before other rest hSplit =>
        hCalls before other (rest ++ [call]) (by simp [hSplit])
      have hStep := hExact.step hCompact (hCalls calls call [] rfl)
      rw [hRecord, hTotal] at hStep
      simpa [JsonlExporter.run] using hStep

theorem Exact.intact (h : Exact platform serializer s) {flushed : Bool} {received : List UInt8}
    {summary : ExportSummary}
    (hFinish : s.exporter.finish platform flushed = .ok (received, summary)) :
    StreamIntact platform serializer s.exporter.maxRecordBytes s.exporter.maxTotalBytes received
      summary s.written := by
  simp only [JsonlExporter.finish, bind_eq_ok, pure_eq_ok, Prod.mk.injEq] at hFinish
  obtain ⟨_, -, rfl, rfl⟩ := hFinish
  obtain ⟨lines, hCut, hCount, hBounds⟩ := h.lines
  constructor
  case byteCount => exact h.totalBytes
  case checksum => rw [h.digest]
  case recordCount => rw [hCut.count, hCount]
  case lineBytes =>
    rw [hCut.splitOn]
    intro line hLine
    rcases List.mem_append.mp hLine with hWhole | hRest
    · exact hBounds line hWhole
    · simp [List.mem_singleton.mp hRest]
  case totalBytes => rw [← h.totalBytes]; exact h.fits
  case increasing => exact h.increasing

end Intact

section Integrity

variable (platform : Platform) (serializer : Serializer)

/-- The summary of a stream is right exactly when no call was interrupted. -/
theorem stream_intact_iff (hCompact : Compact serializer) {maxRecordBytes maxTotalBytes : Nat}
    {x : JsonlExporter} (hNew : JsonlExporter.new maxRecordBytes maxTotalBytes = .ok x)
    (calls : List WriteCall) {flushed : Bool} {received : List UInt8} {summary : ExportSummary}
    (hFinish : (x.run platform serializer calls).exporter.finish platform flushed =
      .ok (received, summary)) :
    StreamIntact platform serializer maxRecordBytes maxTotalBytes received summary
        (x.run platform serializer calls).written ↔
      ∀ before call rest, calls = before ++ call :: rest →
        ¬ (x.run platform serializer before).exporter.Interrupted platform serializer call := by
  obtain ⟨hStart, rfl, rfl⟩ := exact_new platform serializer hNew
  constructor
  · intro hIntact before call rest hSplit hInterrupted
    have hEnd : (x.run platform serializer calls).uncounted = 0 := by
      simp only [JsonlExporter.finish, bind_eq_ok, pure_eq_ok, Prod.mk.injEq] at hFinish
      obtain ⟨_, -, rfl, rfl⟩ := hFinish
      have hBytes : (x.run platform serializer calls).exporter.totalBytes =
        (x.run platform serializer calls).exporter.writer.length := hIntact.byteCount
      rw [Session.uncounted, hBytes, Int.sub_self]
    have hLost := step_interrupted hInterrupted
    have hBefore := @run_uncounted platform serializer before ⟨x, []⟩
    have hAfter := @run_uncounted platform serializer rest
      ((x.run platform serializer before).step platform serializer call)
    have hZero : (⟨x, []⟩ : Session).uncounted = 0 := by
      rw [Session.uncounted, hStart.totalBytes, Int.sub_self]
    simp only [JsonlExporter.run, hSplit, List.foldl_append, List.foldl_cons] at *
    omega
  · intro hCalls
    obtain ⟨hExact, hRecord, hTotal⟩ := hStart.run hCompact hCalls
    have hIntact := hExact.intact hFinish
    rwa [hRecord, hTotal] at hIntact

/-- The JSON text of a record, up to its checksum and from there on. -/
def demoFront : List String :=
  ["\x7b\"schema_version\":1,",
    "\"content_type\":\"application/vnd.word-arena.standings+json;version=1\",",
    "\"provenance\":\x7b\"producer\":\"arena\",\"generated_at\":0,",
    "\"source_ids\":[],\"source_sha256s\":[]\x7d,",
    "\"policy\":\x7b\"policy_version\":1,\"audience\":\"operator\",\"redacted\":false,",
    "\"omitted_fields\":[\"capabilities\",\"hidden_reasoning\",",
    "\"provider_credentials\"]\x7d,"]

def demoBack : List String :=
  ["\"record\":\x7b\"type\":\"standings\",",
    "\"payload\":\x7b\"schema_version\":1,\"tournament_id\":\"t\",\"rows\":[]\x7d\x7d\x7d"]

def demoChecksum : List String :=
  ["\"content_sha256\":",
    "\"41c7b14a70bc620b810f13422e57c85bcd0f8a745f72a1d37a7cdc1c7423a847\","]

def demoText : List UInt8 := (demoFront ++ demoChecksum ++ demoBack).flatMap Bytes.utf8

/-- What the serializer makes of the standings of a tournament before its first game. -/
def demoSerializer : Serializer where
  content _ := some ((demoFront ++ demoBack).flatMap Bytes.utf8)
  envelope _ := some demoText
  filter _ := none
  value _ := none

def demoEnvelope : ExportEnvelope where
  schemaVersion := 1
  contentType := "application/vnd.word-arena.standings+json;version=1"
  provenance := ⟨"arena", 0, [], []⟩
  policy := policy .operator
  contentSha256 := sha256Text basicPlatform ((demoFront ++ demoBack).flatMap Bytes.utf8)
  record := .standings ⟨1, "t", []⟩

def demoExporter : JsonlExporter := ⟨[], 4096, 8192, 0, 0, none, []⟩

theorem demo_exporter_new : JsonlExporter.new 4096 8192 = .ok demoExporter := rfl

/-- The text of the record is one line that starts with a brace and fits. -/
theorem demo_text : demoText.length = 496 ∧ demoText.head? = some 123 ∧ newline ∉ demoText := by
  rw [demoText, funext Bytes.utf8_eq]
  decide +kernel

theorem demo_compact : Compact demoSerializer := by
  intro e text h
  have hText : some demoText = some text := h
  obtain ⟨-, -, hLine⟩ := demo_text
  generalize demoText = line at hText hLine
  rw [← Option.some.inj hText]
  exact hLine

theorem demo_verify : demoEnvelope.verify basicPlatform demoSerializer = .ok () := by
  have hProvenance : validateProvenance demoEnvelope.provenance = .ok () := by decide +kernel
  have hRecord : validateRecord basicPlatform demoEnvelope.record = .ok () := by decide +kernel
  have hDigest : contentDigest basicPlatform demoSerializer demoEnvelope.content =
    .ok demoEnvelope.contentSha256 := contentDigest_eq rfl
  have hPolicy : ¬ (demoEnvelope.policy ≠ policy demoEnvelope.policy.audience ∨
      demoEnvelope.contentType ≠
        recordContentType demoEnvelope.record demoEnvelope.policy.audience) := by
    rintro (hOther | hOther) <;> exact hOther rfl
  simp only [ExportEnvelope.verify, bind_eq_ok, reject_eq_ok]
  exact ⟨(), not_not.mpr rfl, (), hProvenance, (), hRecord, (), rfl, (), hPolicy, _, hDigest, (),
    not_not.mpr rfl, rfl⟩

theorem demo_line : demoExporter.line basicPlatform demoSerializer demoEnvelope =
    .ok ⟨"04:standings:t", demoText ++ [newline], 497⟩ := by
  have hText : demoSerializer.envelope demoEnvelope = some demoText := rfl
  have hKey : demoEnvelope.sortKey basicPlatform demoSerializer = .ok "04:standings:t" := by
    decide +kernel
  rw [JsonlExporter.line, demo_verify, hKey, hText]
  simp [reject, ok_bind, okOr, demo_text.1, demoExporter, pure, Except.pure]

/-- A complete write of one record. -/
theorem demo_stream_intact : ∃ received summary,
    (demoExporter.run basicPlatform demoSerializer
      [⟨demoEnvelope, .complete⟩]).exporter.finish basicPlatform true = .ok (received, summary) ∧
    summary.recordCount = 1 ∧ summary.byteCount = 497 ∧
    StreamIntact basicPlatform demoSerializer 4096 8192 received summary
      (demoExporter.run basicPlatform demoSerializer [⟨demoEnvelope, .complete⟩]).written := by
  obtain ⟨hCount, hTotal⟩ := run_complete demo_line (by decide)
  obtain ⟨summary, hFinish, hRecords, hBytes⟩ := finish_flushed basicPlatform
    (demoExporter.run basicPlatform demoSerializer [⟨demoEnvelope, .complete⟩]).exporter
  refine ⟨_, summary, hFinish, hRecords.trans hCount, hBytes.trans hTotal, (stream_intact_iff
    basicPlatform demoSerializer demo_compact demo_exporter_new _ hFinish).mpr ?_⟩
  intro before call rest hSplit ⟨_, delivered, hFailed, _⟩
  have hCall : call ∈ [(⟨demoEnvelope, .complete⟩ : WriteCall)] := by
    rw [hSplit]
    simp
  rw [List.mem_singleton.mp hCall] at hFailed
  cases hFailed

/-- A writer that fails after the first byte of a record leaves a byte in the stream that
the summary does not count. -/
theorem broken_line_uncounted : ∃ received summary,
    (demoExporter.run basicPlatform demoSerializer
      [⟨demoEnvelope, .failed 1⟩]).exporter.finish basicPlatform true = .ok (received, summary) ∧
    received = [123] ∧ summary.byteCount = 0 ∧
    ¬ StreamIntact basicPlatform demoSerializer 4096 8192 received summary
      (demoExporter.run basicPlatform demoSerializer [⟨demoEnvelope, .failed 1⟩]).written := by
  have hFirst : (demoText ++ [newline]).take 1 = [123] := by
    have hHead := demo_text.2.1
    generalize demoText = text at hHead
    cases text with
    | nil => cases hHead
    | cons byte text => simpa using hHead
  obtain ⟨hWriter, hTotal⟩ := run_failed demo_line 1
  rw [hFirst] at hWriter
  obtain ⟨summary, hFinish, -, hBytes⟩ := finish_flushed basicPlatform
    (demoExporter.run basicPlatform demoSerializer [⟨demoEnvelope, .failed 1⟩]).exporter
  refine ⟨_, summary, hFinish, hWriter, hBytes.trans hTotal, ?_⟩
  intro hIntact
  have hSame := hIntact.byteCount
  rw [hBytes, hTotal, hWriter] at hSame
  cases hSame

end Integrity

end WordArena.Export
