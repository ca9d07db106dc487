import WordArena.Agent.Frames

/-! Turns of the native driver and the chunks of a process. Its output is gathered before it
is read, but what it writes to its error stream is classified chunk by chunk. -/
namespace WordArena.Agent.Native

open Async

section Classification

/-- The texts that a chunk of the error stream is classified by. -/
def telltales : List String :=
  ["Operation not permitted", "UnknownIssuer", "HTTP 401", "AuthorizationRequired",
    "authentication failed", "required MCP servers failed to initialize"]

/-- Output that is classified when it is seen at once. -/
def Telling (bytes : List UInt8) : Prop := ∃ text ∈ telltales, Bytes.utf8 text <:+: bytes

variable {bytes : List UInt8}

theorem containsBytes_eq_true {needle : String} :
    containsBytes bytes needle = true ↔ Bytes.utf8 needle <:+: bytes := by
  simp [containsBytes]

theorem observe_unclassified :
    NativeStderrClassification.unclassified.observe bytes = .unclassified ↔ ¬ Telling bytes := by
  simp only [Telling, telltales, List.mem_cons, List.not_mem_nil, or_false, exists_eq_or_imp,
    exists_eq_left, ← containsBytes_eq_true, NativeStderrClassification.observe]
  cases containsBytes bytes "Operation not permitted"
  · cases containsBytes bytes "UnknownIssuer"
    · cases containsBytes bytes "HTTP 401" <;> cases containsBytes bytes "AuthorizationRequired" <;>
        cases containsBytes bytes "authentication failed" <;>
        cases containsBytes bytes "required MCP servers failed to initialize" <;>
        simp [NativeStderrClassification.rank]
    · simp [NativeStderrClassification.rank]
  · simp [NativeStderrClassification.rank]

theorem telling_length {text : String} (h : text ∈ telltales) : 1 < (Bytes.utf8 text).length := by
  have hAll : ∀ text ∈ telltales, 1 < text.utf8ByteSize := by decide
  rw [Bytes.utf8_eq]
  exact hAll text h

/-- A single byte tells nothing. -/
theorem not_telling_singleton (byte : UInt8) : ¬ Telling [byte] := by
  intro ⟨text, hMem, hFound⟩
  have hLong := telling_length hMem
  have hShort := hFound.length_le
  rw [List.length_singleton] at hShort
  omega

theorem Telling.mono {all : List UInt8} (h : Telling bytes) (hPart : bytes <:+: all) :
    Telling all := by
  obtain ⟨text, hMem, hFound⟩ := h
  exact ⟨text, hMem, hFound.trans hPart⟩

/-- One chunk of a process. -/
def classify (current : NativeStderrClassification) :
    Stream × List UInt8 → NativeStderrClassification
  | (.stdout, _) => current
  | (.stderr, bytes) => current.observe bytes

/-- All of what a process writes to a stream. -/
def written (stream : Stream) (chunks : List (Stream × List UInt8)) : List UInt8 :=
  (chunks.map fun chunk => chunk.1.event chunk.2).flatMap stream.bytes

@[simp] theorem written_nil (stream : Stream) : written stream [] = [] := rfl

@[simp] theorem written_cons (stream : Stream) (chunk : Stream × List UInt8)
    (chunks : List (Stream × List UInt8)) :
    written stream (chunk :: chunks) =
      stream.bytes (chunk.1.event chunk.2) ++ written stream chunks := rfl

/-- An error stream that tells nothing is not classified, however it is cut. -/
theorem foldl_classify {chunks : List (Stream × List UInt8)}
    (h : ¬ Telling (written .stderr chunks)) :
    chunks.foldl classify .unclassified = .unclassified := by
  induction chunks with
  | nil => rfl
  | cons chunk chunks ih =>
      rw [written_cons] at h
      have hRest : ¬ Telling (written .stderr chunks) := fun hTelling =>
        h (hTelling.mono (List.suffix_append _ _).isInfix)
      have hChunk : classify .unclassified chunk = .unclassified := by
        obtain ⟨stream, bytes⟩ := chunk
        cases stream with
        | stdout => rfl
        | stderr =>
            apply observe_unclassified.mpr
            exact fun hTelling => h (hTelling.mono (List.prefix_append bytes _).isInfix)
      rw [List.foldl_cons, hChunk, ih hRest]

/-- Byte by byte no stream is classified. -/
theorem foldl_classify_bytes (bytes : List UInt8) :
    (bytes.map fun byte => (Stream.stderr, [byte])).foldl classify .unclassified =
      .unclassified := by
  induction bytes with
  | nil => rfl
  | cons byte bytes ih =>
      rw [List.map_cons, List.foldl_cons, classify,
        observe_unclassified.mpr (not_telling_singleton byte), ih]

theorem written_stderr_bytes (bytes : List UInt8) :
    written .stderr (bytes.map fun byte => (Stream.stderr, [byte])) = bytes := by
  induction bytes with
  | nil => rfl
  | cons byte bytes ih =>
      rw [List.map_cons, written_cons, ih]
      rfl

theorem written_stdout_bytes (bytes : List UInt8) :
    written .stdout (bytes.map fun byte => (Stream.stderr, [byte])) = [] := by
  induction bytes with
  | nil => rfl
  | cons byte bytes ih =>
      rw [List.map_cons, written_cons, ih]
      rfl

end Classification

section Captures

/-- A diagnostic without its place and its time. -/
abbrev Note := DiagnosticStream × String × String

def notes (w : NativeHarnessDriver) : List Note :=
  w.core.telemetry.diagnostics.map fun record => (record.stream, record.code, record.visibleText)

/-- A script on which a process starts, shows two streams in some chunks, and exits. -/
structure Cut (stdout stderr : List UInt8) (exit : ExitStatus) (answers : List Moment) : Prop where
  split : ∃ spawned closed chunks moments exited later,
    answers = spawned :: closed :: (moments ++ exited :: later) ∧
    spawned.cancelled = false ∧ spawned.spawned = .ok () ∧ closed.inputClosed = .ok () ∧
    List.Forall₂ (fun moment (chunk : Stream × List UInt8) => Shows moment chunk.1 chunk.2)
      moments chunks ∧
    exited.cancelled = false ∧ exited.event = .ok (.exited exit) ∧
    written .stdout chunks = stdout ∧ written .stderr chunks = stderr

variable {w : NativeHarnessDriver} {process : ProcessInstance} {moment : Moment}
  {answers : List Moment}

@[simp] theorem notes_process (process : Option ProcessInstance) :
    notes (w.withCore { w.core with process := process }) = notes w := rfl

@[simp] theorem notes_diagnostic (stream : DiagnosticStream) (code text : String) :
    notes (w.withCore (w.core.diagnostic stream code text)) = notes w ++ [(stream, code, text)] := by
  simp [notes, World.withCore, DriverCore.diagnostic]

/-- The next event of the process in hand, at a moment that nobody cancels. -/
theorem ensures_event {β : Type} {event : ProcessEvent}
    {g : Option (Except ProcessError ProcessEvent) → Op NativeOwn β}
    {post : NativeHarnessDriver → List Moment → Except DriverError β → Prop}
    (hProcess : w.core.process = some process) (hCancelled : moment.cancelled = false)
    (hEvent : moment.event = .ok event)
    (hNext : ∀ t : NativeHarnessDriver, t.core = w.core → Ensures (g (some (.ok event))) steady t answers
      (fun _ => False) (fun _ _ => False) post) :
    Ensures (race (withProcess (nextEvent .plain)) >>= g) steady w (moment :: answers)
      (fun _ => False) (fun _ _ => False) post := by
  rw [ensures_bind, race, ensures_select, withProcess, ensures_bind, ensures_get]
  dsimp only
  rw [hProcess]
  dsimp only
  rw [nextEvent, ensures_bind, ensures_await_cons, hCancelled, if_neg Bool.false_ne_true]
  dsimp only
  rw [hEvent]
  cases event with
  | stdout bytes => exact hNext w rfl
  | stderr bytes => exact hNext w rfl
  | exited exit => exact hNext (w.did (.exited process)) rfl

/-- A process that shows too much is told to end, and nothing is noted. -/
theorem dropOversized_noted {α : Type} (hProcess : w.core.process = some process)
    (hAnswers : answers ≠ []) :
    Ensures (dropOversized : Op NativeOwn α) steady w answers (fun _ => False) (fun _ _ => False)
      fun t _ result => notes t = notes w ∧ result = .error .frameTooLarge := by
  obtain ⟨moment, rest, rfl⟩ := List.exists_cons_of_ne_nil hAnswers
  rw [dropOversized, ensures_bind, terminateQuietly, ensures_bind, ensures_get]
  dsimp only
  rw [hProcess]
  dsimp only
  simp only [terminateProcess, record, ensures_bind, ensures_modify, ensures_await_cons,
    ensures_pure, steady_apply, Bool.false_eq_true, if_false]
  exact ⟨rfl, rfl⟩

/-- What is captured of a process by its exit. -/
def Capture.close (capture : Capture) (chunks : List (Stream × List UInt8)) (exit : ExitStatus) :
    CapturedProcess where
  stdout := capture.stdout ++ written .stdout chunks
  stderrBytes := min (capture.stderrBytes + (written .stderr chunks).length) (2 ^ 64 - 1)
  stderrClassification := chunks.foldl classify capture.stderrClassification
  exit := exit

theorem readCapture_ends {moments : List Moment} (later : List Moment)
    {chunks : List (Stream × List UInt8)} {exited : Moment} {exit : ExitStatus}
    (hShown : List.Forall₂ (fun moment (chunk : Stream × List UInt8) =>
      Shows moment chunk.1 chunk.2) moments chunks)
    (hCancelled : exited.cancelled = false) (hExited : exited.event = .ok (.exited exit))
    (hProcess : w.core.process = some process) (capture : Capture)
    (hBytes : capture.stderrBytes ≤ 2 ^ 64 - 1) (hOutput : capture.stdout.length ≤ maxNativeStdoutBytes)
    {n : Nat} (hn : moments.length < n) :
    Ensures (rounds (readCapture .plain) n capture) steady w (moments ++ exited :: later)
      (fun _ => False) (fun _ _ => False) fun t _ result => notes t = notes w ∧
        result = if maxNativeStdoutBytes < (capture.stdout ++ written .stdout chunks).length then
          .error .frameTooLarge else .ok (capture.close chunks exit) := by
  induction hShown generalizing w n capture with
  | nil =>
      cases n with
      | zero => omega
      | succ n =>
          rw [rounds, ensures_bind, List.nil_append, readCapture]
          apply ensures_event hProcess hCancelled hExited
          intro t hCore
          rw [ensures_bind]
          show notes (t.withCore { t.core with process := none }) = notes w ∧ _
          constructor
          · rw [notes_process, notes, hCore, notes]
          · have hFits : ¬ maxNativeStdoutBytes < (capture.stdout ++ []).length := by
              rw [List.append_nil]
              omega
            rw [written_nil, if_neg hFits, Capture.close, written_nil, written_nil, List.append_nil,
              List.length_nil, Nat.add_zero, Nat.min_eq_left hBytes]
            rfl
  | @cons moment chunk moments chunks hShows _ ih =>
      cases n with
      | zero => omega
      | succ n =>
          rw [List.length_cons, Nat.add_lt_add_iff_right] at hn
          rw [rounds, ensures_bind, List.cons_append, readCapture]
          apply ensures_event hProcess hShows.cancelled hShows.event
          intro t hCore
          have hHeld : t.core.process = some process := by rw [hCore, hProcess]
          have hSame : notes t = notes w := by rw [notes, hCore, notes]
          obtain ⟨stream, bytes⟩ := chunk
          cases stream with
          | stderr =>
              have hCount : saturatingAdd capture.stderrBytes bytes.length ≤ 2 ^ 64 - 1 :=
                Nat.min_le_right _ _
              have hStep := ih (w := t) hHeld { capture with
                stderrBytes := saturatingAdd capture.stderrBytes bytes.length
                stderrClassification := capture.stderrClassification.observe bytes } hCount
                hOutput hn
              refine hStep.mono ?_
              rintro u rest result ⟨hNotes, hResult⟩
              refine ⟨hNotes.trans hSame, ?_⟩
              have hLength : min (saturatingAdd capture.stderrBytes bytes.length +
                  (written .stderr chunks).length) (2 ^ 64 - 1) =
                  min (capture.stderrBytes + (bytes ++ written .stderr chunks).length)
                    (2 ^ 64 - 1) := by
                rw [saturatingAdd, List.length_append]
                omega
              rw [hResult]
              simp only [Capture.close, hLength]
              rfl
          | stdout =>
              show Ensures (if maxNativeStdoutBytes < capture.stdout.length + bytes.length then
                dropOversized else return .inl { capture with stdout := capture.stdout ++ bytes } :
                  Op NativeOwn (Capture ⊕ CapturedProcess)) _ _ _ _ _ _
              have hWritten : capture.stdout ++ written .stdout ((.stdout, bytes) :: chunks) =
                  (capture.stdout ++ bytes) ++ written .stdout chunks :=
                (List.append_assoc ..).symm
              by_cases hLarge : maxNativeStdoutBytes < capture.stdout.length + bytes.length
              · have hOver : maxNativeStdoutBytes <
                    (capture.stdout ++ written .stdout ((.stdout, bytes) :: chunks)).length := by
                  rw [hWritten, List.length_append, List.length_append]
                  omega
                rw [if_pos hLarge, if_pos hOver]
                refine (dropOversized_noted hHeld (by simp)).mono ?_
                rintro u rest result ⟨hNotes, hResult⟩
                rw [hResult]
                exact ⟨hNotes.trans hSame, rfl⟩
              · have hFits : (capture.stdout ++ bytes).length ≤ maxNativeStdoutBytes := by
                  rw [List.length_append]
                  omega
                rw [if_neg hLarge]
                have hStep := ih (w := t) hHeld { capture with stdout := capture.stdout ++ bytes }
                  hBytes hFits hn
                refine hStep.mono ?_
                rintro u rest result ⟨hNotes, hResult⟩
                refine ⟨hNotes.trans hSame, ?_⟩
                rw [hResult, hWritten]
                simp only [Capture.close, hWritten]
                rfl

end Captures

section Judgement

/-- What a captured turn comes to: its result, and what it leaves in the diagnostics. -/
def judgement (tools : Tools) (kind : NativeHarnessKind) (request : TurnRequest)
    (captured : CapturedProcess) : Except DriverError VisibleTurnOutput × List Note :=
  if captured.exit.success = false then
    (.error (.harnessExit kind.name captured.exit),
      if captured.stderrBytes = 0 then [] else
        [(.driver, captured.stderrClassification.summary.1,
          s!"{kind.name} {captured.stderrClassification.summary.2}; " ++
            s!"{captured.stderrBytes} stderr bytes were redacted")])
  else
    match tools.normalizeOutput kind captured.stdout with
    | none => (.error (.harnessOutput kind.name), [(.driver, "structured_output_rejected",
        s!"{kind.name} output was rejected without persisting raw bytes")])
    | some normalized => (.ok ⟨turnProtocolSchemaVersion, request.turnId,
        normalized.visibleOutput, normalized.toolCalls⟩,
      if 0 < captured.stderrBytes then [(.driver, "harness_stderr_redacted",
        s!"{kind.name} emitted {captured.stderrBytes} redacted stderr bytes")] else [])

variable {w : NativeHarnessDriver} {answers : List Moment} {tools : Tools}
  {kind : NativeHarnessKind} {request : TurnRequest} {started : Int}

theorem judgeTurn_concludes (captured : CapturedProcess) :
    Ensures (judgeTurn tools kind request started captured) steady w answers (fun _ => False)
      (fun _ _ => False) fun t _ result =>
        result = (judgement tools kind request captured).1 ∧
        notes t = notes w ++ (judgement tools kind request captured).2 := by
  rw [judgeTurn, judgement]
  by_cases hExit : captured.exit.success = false
  · rw [if_pos hExit, if_pos hExit, failedExit, ensures_bind, failedProcessDiagnostic]
    by_cases hBytes : captured.stderrBytes = 0
    · rw [if_pos hBytes, if_pos hBytes]
      exact ⟨rfl, (List.append_nil _).symm⟩
    · rw [if_neg hBytes, if_neg hBytes]
      exact ⟨rfl, notes_diagnostic ..⟩
  · rw [if_neg hExit, if_neg hExit]
    cases tools.normalizeOutput kind captured.stdout with
    | none => exact ⟨rfl, notes_diagnostic ..⟩
    | some normalized =>
        dsimp only
        rw [completeTurn, ensures_bind, stderrDiagnostic]
        by_cases hBytes : 0 < captured.stderrBytes
        · rw [if_pos hBytes, if_pos hBytes]
          exact ⟨rfl, notes_diagnostic ..⟩
        · rw [if_neg hBytes, if_neg hBytes]
          exact ⟨rfl, (List.append_nil _).symm⟩

/-- What a turn comes to on a script: its result, and what it leaves in the diagnostics. -/
def outcome (tools : Tools) (request : TurnRequest) (cancelled : Bool) (w : NativeHarnessDriver)
    (answers : List Moment) : Option (Except DriverError VisibleTurnOutput × List Note) :=
  ((requestTurn .plain tools request cancelled) steady w answers).completed.map fun ended =>
    (ended.2, (notes ended.1).drop (notes w).length)

theorem outcome_eq {cancelled : Bool}
    {verdict : Except DriverError VisibleTurnOutput × List Note}
    (h : Ensures (requestTurn .plain tools request cancelled) steady w answers (fun _ => False)
      (fun _ _ => False) fun t _ result =>
        result = verdict.1 ∧ notes t = notes w ++ verdict.2) :
    outcome tools request cancelled w answers = some verdict := by
  obtain ⟨t, result, rest, hRun, rfl, hNotes⟩ := h.completes
  rw [outcome, hRun, Option.map_some, hNotes, List.drop_left]

/-- A turn that is asked for starts a process. -/
structure Starts (w : NativeHarnessDriver) (request : TurnRequest) (cancelled : Bool) : Prop where
  probed : w.own.needsProbe = false
  named : validRunId request.turnId = true
  wanted : cancelled = false

/-- A turn that starts no process comes to the same on every script. -/
theorem outcome_refused {cancelled : Bool} (hReady : w.core.state = .ready)
    (hProcess : w.core.process = none) (h : ¬ Starts w request cancelled) :
    outcome tools request cancelled w answers = some (.error (
      if w.own.needsProbe = true then .invalidTransition "request_turn" .ready
      else if validRunId request.turnId = false then .invalidFrame else .cancelled), []) := by
  apply outcome_eq
  rw [requestTurn, ensures_bind, ensures_get]
  dsimp only
  by_cases hProbe : w.own.needsProbe = true
  · rw [if_pos (Or.inr hProbe), if_pos hProbe, hReady]
    exact ⟨rfl, (List.append_nil _).symm⟩
  · have hOpen : ¬ (w.core.state ≠ .ready ∨ w.own.needsProbe = true) := by simp [hReady, hProbe]
    rw [if_neg hOpen, if_neg hProbe, requestNativeTurn]
    by_cases hNamed : validRunId request.turnId = false
    · rw [if_pos hNamed, if_pos hNamed]
      exact ⟨rfl, (List.append_nil _).symm⟩
    · have hCancelled : cancelled = true := by
        by_contra hWanted
        exact h ⟨Bool.eq_false_of_not_eq_true hProbe, Bool.eq_true_of_not_eq_false hNamed,
          Bool.eq_false_of_not_eq_true hWanted⟩
      rw [if_neg hNamed, if_neg hNamed, if_pos hCancelled, giveUp, ensures_bind, cancellationError,
        ensures_bind, terminateHeld, ensures_bind, ensures_get]
      dsimp only
      rw [hProcess]
      exact ⟨rfl, (List.append_nil _).symm⟩

/-- A process on a script that reads it to its exit. -/
theorem runProcess_ends {spec : ProcessSpec} {spawned closed exited : Moment}
    {moments later : List Moment} {chunks : List (Stream × List UInt8)} {exit : ExitStatus}
    (hSpawned : spawned.cancelled = false) (hGiven : spawned.spawned = .ok ())
    (hClosed : closed.inputClosed = .ok ())
    (hShown : List.Forall₂ (fun moment (chunk : Stream × List UInt8) =>
      Shows moment chunk.1 chunk.2) moments chunks)
    (hCancelled : exited.cancelled = false) (hExited : exited.event = .ok (.exited exit)) :
    Ensures (runProcess .plain spec) steady w (spawned :: closed :: (moments ++ exited :: later))
      (fun _ => False) (fun _ _ => False) fun t _ result => notes t = notes w ∧
        result = if maxNativeStdoutBytes < (written .stdout chunks).length then
          .error .frameTooLarge
        else .ok (Capture.close ⟨[], 0, .unclassified⟩ chunks exit) := by
  have hPlain : ¬ (Backend.plain = .budgeted ∧ spawned.deadline = true) := by simp
  rw [runProcess, ensures_bind, race, ensures_select, spawn, ensures_bind, ensures_await_cons,
    hSpawned, if_neg Bool.false_ne_true]
  dsimp only
  rw [if_neg hPlain, settle, ensures_bind, ensures_get]
  dsimp only
  rw [hGiven]
  dsimp only
  rw [record, ensures_bind, ensures_modify]
  dsimp only
  rw [ensures_pure]
  dsimp only [Except.map]
  rw [hold, update, ensures_bind, ensures_modify]
  dsimp only
  generalize hHeld : World.withCore _ _ = held
  have hProcess : held.core.process = some ⟨w.acts.length⟩ := by rw [← hHeld]; rfl
  have hNotes : notes held = notes w := by rw [← hHeld]; rfl
  rw [ensures_bind, withProcess, ensures_bind, ensures_get]
  dsimp only
  rw [hProcess]
  dsimp only
  rw [closeInput, ensures_bind, ensures_await_cons, steady_apply, if_neg Bool.false_ne_true]
  dsimp only
  rw [hClosed]
  have hEnough : moments.length < (moments ++ exited :: later).length + 1 := by
    rw [List.length_append]
    omega
  have hRead := readCapture_ends later hShown hCancelled hExited hProcess ⟨[], 0, .unclassified⟩
    (Nat.zero_le _) (Nat.zero_le _) hEnough
  refine hRead.mono ?_
  rintro t rest result ⟨hKept, hResult⟩
  exact ⟨hKept.trans hNotes, hResult⟩

/-- A turn on a script whose process is read to its exit. -/
theorem requestTurn_concludes {cancelled : Bool} {spawned closed exited : Moment}
    {moments later : List Moment} {chunks : List (Stream × List UInt8)} {exit : ExitStatus}
    (hReady : w.core.state = .ready) (hStarts : Starts w request cancelled)
    (hSpawned : spawned.cancelled = false) (hGiven : spawned.spawned = .ok ())
    (hClosed : closed.inputClosed = .ok ())
    (hShown : List.Forall₂ (fun moment (chunk : Stream × List UInt8) =>
      Shows moment chunk.1 chunk.2) moments chunks)
    (hCancelled : exited.cancelled = false) (hExited : exited.event = .ok (.exited exit)) :
    outcome tools request cancelled w (spawned :: closed :: (moments ++ exited :: later)) =
      some (if maxNativeStdoutBytes < (written .stdout chunks).length then
        (.error .frameTooLarge, [])
      else judgement tools w.own.kind request (Capture.close ⟨[], 0, .unclassified⟩ chunks exit)) := by
  have hOpen : ¬ (w.core.state ≠ .ready ∨ w.own.needsProbe = true) := by
    simp [hReady, hStarts.probed]
  have hNamed : ¬ validRunId request.turnId = false := by simp [hStarts.named]
  have hWanted : ¬ cancelled = true := by simp [hStarts.wanted]
  apply outcome_eq
  generalize hVerdict : (if maxNativeStdoutBytes < (written .stdout chunks).length then _ else _ :
    Except DriverError VisibleTurnOutput × List Note) = verdict
  rw [requestTurn, ensures_bind, ensures_get]
  dsimp only
  rw [if_neg hOpen, requestNativeTurn, if_neg hNamed, if_neg hWanted, runTurn, ensures_bind,
    ensures_readClock]
  dsimp only
  rw [ensures_bind, ensures_transition]
  dsimp only
  rw [ensures_bind, ensures_get]
  dsimp only
  rw [ensures_bind, ensures_attempt]
  refine (runProcess_ends hSpawned hGiven hClosed hShown hCancelled hExited).mono ?_
  rintro t rest result ⟨hNotes, hResult⟩
  have hSame : notes t = notes w := hNotes
  rw [hResult]
  by_cases hLarge : maxNativeStdoutBytes < (written .stdout chunks).length
  · rw [if_pos hLarge] at hVerdict ⊢
    rw [← hVerdict]
    exact ⟨rfl, hSame.trans (List.append_nil _).symm⟩
  · rw [if_neg hLarge] at hVerdict ⊢
    rw [← hVerdict, ← hSame]
    exact judgeTurn_concludes _

end Judgement

section Chunks

variable {w : NativeHarnessDriver} {answers : List Moment} {tools : Tools} {request : TurnRequest}
  {cancelled : Bool} {stdout stderr : List UInt8} {exit : ExitStatus}

/-- What a process that is cut in some way comes to depends on its chunks only through the
classification. -/
theorem Cut.outcome (hReady : w.core.state = .ready) (hStarts : Starts w request cancelled)
    (h : Cut stdout stderr exit answers) : ∃ chunks : List (Stream × List UInt8),
      written .stdout chunks = stdout ∧ written .stderr chunks = stderr ∧
      outcome tools request cancelled w answers =
        some (if maxNativeStdoutBytes < stdout.length then (.error .frameTooLarge, [])
        else judgement tools w.own.kind request ⟨stdout, min stderr.length (2 ^ 64 - 1),
          chunks.foldl classify .unclassified, exit⟩) := by
  obtain ⟨spawned, closed, chunks, moments, exited, later, rfl, hSpawned, hGiven, hClosed, hShown,
    hCancelled, hExited, rfl, rfl⟩ := h.split
  refine ⟨chunks, rfl, rfl, ?_⟩
  rw [requestTurn_concludes hReady hStarts hSpawned hGiven hClosed hShown hCancelled hExited,
    Capture.close, List.nil_append, Nat.zero_add]

/-- The classification is read only of a process that failed. -/
theorem judgement_classification (h : exit.success = true ∨ first = second) {kind : NativeHarnessKind}
    {bytes : Nat} :
    judgement tools kind request ⟨stdout, bytes, first, exit⟩ =
      judgement tools kind request ⟨stdout, bytes, second, exit⟩ := by
  rcases h with hSuccess | rfl
  · simp [judgement, hSuccess]
  · rfl

/-- A script on which a process shows some chunks. -/
def chunkMoments (moment : Moment) (chunks : List (Stream × List UInt8)) (exit : ExitStatus) :
    List Moment :=
  moment :: moment :: (chunks.map (fun chunk => { moment with event := .ok (chunk.1.event chunk.2) }) ++
    [{ moment with event := .ok (.exited exit) }])

theorem shows_chunks {moment : Moment} (hCancelled : moment.cancelled = false)
    (chunks : List (Stream × List UInt8)) :
    List.Forall₂ (fun moment (chunk : Stream × List UInt8) => Shows moment chunk.1 chunk.2)
      (chunks.map fun chunk => { moment with event := .ok (chunk.1.event chunk.2) }) chunks := by
  induction chunks with
  | nil => exact .nil
  | cons chunk chunks ih => exact .cons ⟨hCancelled, rfl⟩ ih

theorem chunkMoments_cut {moment : Moment} (hCancelled : moment.cancelled = false)
    (hSpawned : moment.spawned = .ok ()) (hClosed : moment.inputClosed = .ok ())
    (chunks : List (Stream × List UInt8)) :
    Cut (written .stdout chunks) (written .stderr chunks) exit (chunkMoments moment chunks exit) :=
  ⟨moment, moment, chunks, _, _, [], rfl, hCancelled, hSpawned, hClosed,
    shows_chunks hCancelled chunks, hCancelled, rfl, rfl, rfl⟩

/-- A note of a process that failed names its classification. -/
theorem judgement_telling {kind : NativeHarnessKind} {bytes : Nat} (hExit : exit.success = false)
    (hBytes : bytes ≠ 0) {first : NativeStderrClassification} (hFirst : first ≠ .unclassified) :
    judgement tools kind request ⟨stdout, bytes, first, exit⟩ ≠
      judgement tools kind request ⟨stdout, bytes, .unclassified, exit⟩ := by
  intro hSame
  simp only [judgement, if_pos hExit, if_neg hBytes, Prod.mk.injEq, List.cons.injEq] at hSame
  have hCode : first.summary.1 = NativeStderrClassification.unclassified.summary.1 := hSame.2.1.2.1
  cases first with
  | unclassified => exact hFirst rfl
  | mcpInitializationFailed => exact absurd hCode (by decide)
  | authenticationFailed => exact absurd hCode (by decide)
  | tlsTrustFailed => exact absurd hCode (by decide)
  | sandboxDenied => exact absurd hCode (by decide)

/-- A turn of a driver that is ready comes to the same for all ways of cutting what its
process writes, except where the process fails and its error stream tells why. -/
theorem turn_cut_iff (tools : Tools) (backend : Backend) (manifest : ValidatedAgentManifest)
    (w₀ w : NativeHarnessDriver) (hCreated : NativeHarnessDriver.Created manifest w₀)
    (hReach : Reaches (NativeHarnessDriver.call backend tools) anyCall w₀ w)
    (hReady : w.core.state = .ready) (request : TurnRequest) (cancelled : Bool)
    (stdout stderr : List UInt8) (exit : ExitStatus) :
    (∀ answers answers', Cut stdout stderr exit answers → Cut stdout stderr exit answers' →
      ∃ verdict, outcome tools request cancelled w answers = some verdict ∧
        outcome tools request cancelled w answers' = some verdict) ↔
    ¬ (Starts w request cancelled ∧ stdout.length ≤ maxNativeStdoutBytes ∧ exit.success = false ∧
      Telling stderr) := by
  obtain ⟨kind, version, -, hSound₀, hIdle₀⟩ := created_sound hCreated
  have hProcess := (native_reaches hReach hSound₀ hIdle₀).2.process
  constructor
  · intro hSame ⟨hStarts, hFits, hExit, hTelling⟩
    -- The error stream at once, and byte by byte.
    have hFailed : ∀ rest : List (Stream × List UInt8), written .stdout rest = [] →
        written .stderr rest = stderr →
        Cut stdout stderr exit (chunkMoments demoMoment ((.stdout, stdout) :: rest) exit) ∧
        outcome tools request cancelled w
            (chunkMoments demoMoment ((.stdout, stdout) :: rest) exit) =
          some (judgement tools w.own.kind request ⟨stdout, min stderr.length (2 ^ 64 - 1),
            rest.foldl classify .unclassified, exit⟩) := by
      intro rest hOut hErr
      have hStdout : written .stdout ((.stdout, stdout) :: rest) = stdout := by
        rw [written_cons, hOut, List.append_nil]
        rfl
      have hStderr : written .stderr ((.stdout, stdout) :: rest) = stderr := by
        rw [written_cons, hErr]
        rfl
      constructor
      · have hCut : Cut (written .stdout ((.stdout, stdout) :: rest))
            (written .stderr ((.stdout, stdout) :: rest)) exit
            (chunkMoments demoMoment ((.stdout, stdout) :: rest) exit) :=
          chunkMoments_cut rfl rfl rfl _
        rwa [hStdout, hStderr] at hCut
      · rw [chunkMoments, requestTurn_concludes hReady hStarts rfl rfl rfl
          (shows_chunks rfl ((.stdout, stdout) :: rest)) rfl rfl, hStdout,
          if_neg (Nat.not_lt.mpr hFits), Capture.close, hStdout, hStderr, List.nil_append,
          Nat.zero_add]
        rfl
    have hWhole := hFailed [(.stderr, stderr)] rfl (by simp [written, Stream.bytes, Stream.event])
    have hBytes := hFailed (stderr.map fun byte => (.stderr, [byte])) (written_stdout_bytes stderr)
      (written_stderr_bytes stderr)
    obtain ⟨verdict, hFirst, hSecond⟩ := hSame _ _ hWhole.1 hBytes.1
    rw [hWhole.2] at hFirst
    rw [hBytes.2, foldl_classify_bytes] at hSecond
    have hSome : stderr ≠ [] := by
      rintro rfl
      obtain ⟨text, hMem, hFound⟩ := hTelling
      have hLong := telling_length hMem
      rw [List.infix_nil.mp hFound] at hLong
      exact absurd hLong (by decide)
    have hCount : min stderr.length (2 ^ 64 - 1) ≠ 0 := by
      have hPos := List.length_pos_of_ne_nil hSome
      omega
    have hClassified : [(Stream.stderr, stderr)].foldl classify .unclassified ≠ .unclassified :=
      fun hNone => observe_unclassified.mp hNone hTelling
    exact judgement_telling hExit hCount hClassified
      (Option.some.inj (hFirst.trans hSecond.symm))
  · intro hNot answers answers' hCut hCut'
    by_cases hStarts : Starts w request cancelled
    · obtain ⟨chunks, hOut, hErr, hRun⟩ := Cut.outcome hReady hStarts hCut
      obtain ⟨chunks', hOut', hErr', hRun'⟩ := Cut.outcome hReady hStarts hCut'
      refine ⟨_, hRun, ?_⟩
      rw [hRun']
      by_cases hLarge : maxNativeStdoutBytes < stdout.length
      · rw [if_pos hLarge, if_pos hLarge]
      · rw [if_neg hLarge, if_neg hLarge]
        congr 1
        apply judgement_classification
        by_cases hExit : exit.success = true
        · exact .inl hExit
        · right
          have hQuiet : ¬ Telling stderr := fun hTelling =>
            hNot ⟨hStarts, Nat.le_of_not_lt hLarge, Bool.eq_false_of_not_eq_true hExit, hTelling⟩
          rw [foldl_classify (hErr' ▸ hQuiet), foldl_classify (hErr ▸ hQuiet)]
    · exact ⟨_, outcome_refused hReady hProcess hStarts, outcome_refused hReady hProcess hStarts⟩

end Chunks

section Demonstration

/-- Readers that know the version of a harness. -/
def knowingTools : Tools := { demoTools with
  parseReportedVersion := fun _ => some ()
  text := fun _ => "0.144.0" }

/-- The script of a harness that reports its version. -/
def demoProbe : Invocation := ⟨.start, false, [demoMoment, demoMoment, demoMoment]⟩

def demoReady : NativeHarnessDriver :=
  ((NativeHarnessDriver.call .plain knowingTools demoNative demoProbe).map (·.1)).getD demoNative

theorem demo_ready : Reaches (NativeHarnessDriver.call .plain knowingTools) anyCall demoNative
    demoReady ∧ demoReady.core.state = .ready := by
  have hStart : NativeHarnessDriver.call .plain knowingTools demoNative demoProbe =
      some (demoReady, .ok none) := rfl
  exact ⟨(Reaches.refl demoNative).tail trivial hStart, rfl⟩

def demoFailure : ExitStatus := ⟨false, some 1, none⟩

/-- The eight bytes of a status, at once and in two chunks. -/
def wholeStatus : List Moment :=
  chunkMoments demoMoment [(.stderr, [72, 84, 84, 80, 32, 52, 48, 49])] demoFailure

def cutStatus : List Moment :=
  chunkMoments demoMoment [(.stderr, [72, 84, 84, 80]), (.stderr, [32, 52, 48, 49])] demoFailure

theorem demo_cut (chunks : List (Stream × List UInt8)) :
    Cut (written .stdout chunks) (written .stderr chunks) demoFailure
      (chunkMoments demoMoment chunks demoFailure) :=
  chunkMoments_cut rfl rfl rfl chunks

theorem demo_turn_cut :
    ∃ verdict, outcome knowingTools ⟨"turn-1", "play"⟩ false demoReady
        (chunkMoments demoMoment [(.stderr, [33])] demoFailure) = some verdict ∧
      outcome knowingTools ⟨"turn-1", "play"⟩ false demoReady
        (chunkMoments demoMoment [(.stderr, []), (.stderr, [33])] demoFailure) = some verdict := by
  have hQuiet : ¬ (Starts demoReady ⟨"turn-1", "play"⟩ false ∧
      ([] : List UInt8).length ≤ maxNativeStdoutBytes ∧ demoFailure.success = false ∧
      Telling [33]) := fun h => not_telling_singleton 33 h.2.2.2
  exact (turn_cut_iff knowingTools .plain demoHarness demoNative demoReady demo_native_created
    demo_ready.1 demo_ready.2 ⟨"turn-1", "play"⟩ false [] [33] demoFailure).mpr hQuiet _ _
    (demo_cut [(.stderr, [33])]) (demo_cut [(.stderr, []), (.stderr, [33])])

theorem demo_outcome (chunks : List (Stream × List UInt8)) (hStdout : written .stdout chunks = []) :
    outcome knowingTools ⟨"turn-1", "play"⟩ false demoReady
        (chunkMoments demoMoment chunks demoFailure) =
      some (judgement knowingTools .codex ⟨"turn-1", "play"⟩
        (Capture.close ⟨[], 0, .unclassified⟩ chunks demoFailure)) := by
  have hStarts : Starts demoReady ⟨"turn-1", "play"⟩ false := ⟨rfl, rfl, rfl⟩
  rw [chunkMoments, requestTurn_concludes demo_ready.2 hStarts rfl rfl rfl (shows_chunks rfl chunks)
    rfl rfl, hStdout]
  rfl

/-- A status in two chunks is not recognised. -/
theorem cut_status_unclassified :
    NativeHarnessDriver.Created demoHarness demoNative ∧
    Reaches (NativeHarnessDriver.call .plain knowingTools) anyCall demoNative demoReady ∧
    demoReady.core.state = .ready ∧
    Cut [] [72, 84, 84, 80, 32, 52, 48, 49] demoFailure wholeStatus ∧
    Cut [] [72, 84, 84, 80, 32, 52, 48, 49] demoFailure cutStatus ∧
    (∃ text, outcome knowingTools ⟨"turn-1", "play"⟩ false demoReady wholeStatus =
      some (.error (.harnessExit "codex" demoFailure),
        [(.driver, "harness_authentication_failed", text)])) ∧
    ∃ text, outcome knowingTools ⟨"turn-1", "play"⟩ false demoReady cutStatus =
      some (.error (.harnessExit "codex" demoFailure),
        [(.driver, "harness_stderr_redacted", text)]) := by
  have hWhole : NativeStderrClassification.unclassified.observe [72, 84, 84, 80, 32, 52, 48, 49] =
      .authenticationFailed := by decide +kernel
  have hFirst : NativeStderrClassification.unclassified.observe [72, 84, 84, 80] = .unclassified := by
    decide +kernel
  have hSecond : NativeStderrClassification.unclassified.observe [32, 52, 48, 49] = .unclassified := by
    decide +kernel
  refine ⟨demo_native_created, demo_ready.1, demo_ready.2,
    demo_cut [(.stderr, [72, 84, 84, 80, 32, 52, 48, 49])],
    demo_cut [(.stderr, [72, 84, 84, 80]), (.stderr, [32, 52, 48, 49])], ?_, ?_⟩
  · constructor
    rw [wholeStatus, demo_outcome _ rfl, Capture.close, List.foldl_cons, List.foldl_nil, classify,
      hWhole]
    rfl
  · constructor
    rw [cutStatus, demo_outcome _ rfl, Capture.close, List.foldl_cons, List.foldl_cons,
      List.foldl_nil, classify, classify, hFirst, hSecond]
    rfl

end Demonstration

end WordArena.Agent.Native
