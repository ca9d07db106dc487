import WordArena.Agent.Redaction

/-! The redactor as a stream. However a process cuts its output into chunks, what is
shown of a stream is the redaction of all of it at once. -/
namespace WordArena.Agent

section Following

/-- A capability does not repeat its first byte. -/
theorem SeatCapability.borderless (capability : SeatCapability) :
    Replace.Borderless capability.raw := by
  obtain ⟨id, value, hId, hValue, hRaw⟩ := capability.shape
  rw [hRaw, capabilityTag, List.cons_append]
  apply Replace.borderless_cons
  have hDigits : 119 ∉ id ∧ 119 ∉ value :=
    ⟨isLowerHex_notMem hId rfl, isLowerHex_notMem hValue rfl⟩
  simpa using hDigits

/-- One pass, for a single secret. -/
theorem redactBytes_singleton {secret : List UInt8} (hSecret : secret ≠ []) (bytes : List UInt8) :
    redactBytes bytes [secret] = Replace.scan secret redactedMarker 0 bytes := by
  have hFilter : [secret].filter (fun secret => !secret.isEmpty) = [secret] := by
    cases secret with
    | nil => exact absurd rfl hSecret
    | cons byte rest => rfl
  rw [redactBytes, hFilter]
  rfl

/-- A secret of one line that does not repeat its beginning and that is shorter than the
chunks of a stream. -/
structure Streamable (secret : List UInt8) : Prop where
  redactable : Redactable secret
  borderless : Replace.Borderless secret
  newline : 10 ∉ secret
  short : secret.length ≤ redactionStreamChunkBytes

theorem SeatCapability.streamable (capability : SeatCapability) : Streamable capability.raw := by
  refine ⟨capability.plain.1, capability.borderless, capability.notMem_raw.2.2, ?_⟩
  rw [capability.length_raw]
  decide

/-- What was shown of a stream and what is kept of it follow its input. -/
abbrev Relayed (secret input written buffer : List UInt8) : Prop :=
  Replace.Follows secret redactedMarker input written buffer

variable {secret input written buffer : List UInt8}

theorem Streamable.ne_nil (h : Streamable secret) : secret ≠ [] := h.redactable.plain.nonempty

theorem Relayed.kept (hSecret : Streamable secret) (h : Relayed secret input written buffer) :
    redactBytes buffer [secret] = buffer := by
  rw [redactBytes_singleton hSecret.ne_nil]
  exact Replace.scan_eq_of_absent (Replace.Follows.absent marker_fenced hSecret.redactable.plain h)

theorem Relayed.append (hSecret : Streamable secret) (h : Relayed secret input written buffer)
    (bytes : List UInt8) :
    Relayed secret (input ++ bytes) written (appendRedacted buffer bytes [secret]) := by
  rw [appendRedacted, redactBytes_singleton hSecret.ne_nil]
  exact Replace.Follows.append marker_fenced hSecret.redactable.plain hSecret.borderless h bytes

/-- No beginning of the secret reaches back over a line end. -/
theorem Relayed.line (hSecret : Streamable secret) (h : Relayed secret input written buffer)
    {line rest : List UInt8} (hLine : takeLine buffer [secret] = some (line, rest)) :
    Relayed secret input (written ++ line) rest ∧ rest.length < buffer.length := by
  obtain ⟨front, rfl, rfl⟩ := takeLine_eq hLine
  have hSplit : front ++ 10 :: rest = (front ++ [10]) ++ rest := by simp
  have hAbsent := Replace.Follows.absent marker_fenced hSecret.redactable.plain h
  have hFront : redactBytes (front ++ [10]) [secret] = front ++ [10] := by
    rw [redactBytes_singleton hSecret.ne_nil]
    apply Replace.scan_eq_of_absent
    rw [hSplit] at hAbsent
    exact fun hFound => hAbsent (hFound.trans (List.prefix_append _ rest).isInfix)
  rw [hFront]
  constructor
  · rw [hSplit] at h
    apply Replace.Follows.show h
    intro text hPrefix _ hSuffix
    rcases Replace.suffix_append_cases hSuffix with hRest | ⟨part, hPart, hEnd, rfl⟩
    · exact hRest
    · rcases List.suffix_concat_iff.mp hEnd with hNil | ⟨start, rfl, -⟩
      · exact absurd hNil hPart
      · exact absurd (hPrefix.subset (by simp)) hSecret.newline
  · rw [List.length_append, List.length_cons]
    omega

/-- A chunk leaves room for every beginning of the secret. -/
theorem Relayed.chunk (hSecret : Streamable secret) (h : Relayed secret input written buffer)
    {chunk rest : List UInt8} (hChunk : takeBoundedChunk buffer [secret] = some (chunk, rest)) :
    Relayed secret input (written ++ chunk) rest ∧ rest.length < buffer.length := by
  rw [takeBoundedChunk] at hChunk
  split_ifs at hChunk with hShort
  obtain ⟨rfl, rfl⟩ := Prod.mk.inj (Option.some.inj hChunk)
  have hRetained : ([secret].map List.length).max?.getD 0 - 1 = secret.length - 1 := rfl
  have hSmall := hSecret.short
  have hSome := List.length_pos_of_ne_nil hSecret.ne_nil
  rw [hRetained]
  constructor
  · apply Replace.Follows.show
    · rw [List.take_append_drop]
      exact h
    · intro text hPrefix hProper hSuffix
      rw [List.take_append_drop] at hSuffix
      apply List.suffix_of_suffix_length_le hSuffix (List.drop_suffix _ _)
      have hLess : text.length < secret.length :=
        lt_of_le_of_ne hPrefix.length_le fun hSame => hProper (hPrefix.eq_of_length hSame)
      rw [List.length_drop]
      omega
  · rw [List.length_drop]
    omega

end Following

section Runs

variable {secret : List UInt8} {input written : Stream → List UInt8} {p q : RedactingProcess}
  {event : ProcessEvent}

/-- A process that has not exited, with both streams relayed. -/
structure Relays (secret : List UInt8) (input written : Stream → List UInt8)
    (p : RedactingProcess) : Prop where
  known : p.secrets = [secret]
  queued : p.queued = []
  relayed : ∀ stream : Stream, Relayed secret (input stream) (written stream) (stream.buffer p)

/-- The bytes that a process keeps. -/
def RedactingProcess.kept (p : RedactingProcess) : Nat := p.stdout.length + p.stderr.length

theorem relays_new (secret : List UInt8) :
    Relays secret (fun _ => []) (fun _ => []) (.new [secret]) := by
  refine ⟨rfl, rfl, fun stream => ?_⟩
  cases stream with
  | stdout => exact Replace.follows_nil secret redactedMarker
  | stderr => exact Replace.follows_nil secret redactedMarker

/-- What can be shown at once is output, and less is kept. -/
theorem Relays.ready (hSecret : Streamable secret) (h : Relays secret input written p)
    (hReady : p.ready = some (event, q)) :
    Relays secret input (Stream.also written event) q ∧ q.kept < p.kept ∧
      ∀ exit, event ≠ .exited exit := by
  obtain ⟨known, stdout, stderr, queued⟩ := p
  obtain ⟨rfl, rfl, hRelayed⟩ := h
  have hOut : Relayed secret (input .stdout) (written .stdout) stdout := hRelayed .stdout
  have hErr : Relayed secret (input .stderr) (written .stderr) stderr := hRelayed .stderr
  have hStdout : ∀ {bytes rest},
      Relayed secret (input .stdout) (written .stdout ++ bytes) rest ∧
        rest.length < stdout.length →
      Relays secret input (Stream.also written (.stdout bytes)) ⟨[secret], rest, stderr, []⟩ ∧
        rest.length + stderr.length < stdout.length + stderr.length ∧
        ∀ exit, ProcessEvent.stdout bytes ≠ .exited exit := by
    rintro bytes rest ⟨hNext, hLess⟩
    refine ⟨⟨rfl, rfl, fun stream => ?_⟩, by omega, (by simp)⟩
    cases stream with
    | stdout => exact hNext
    | stderr =>
        rw [Stream.also]
        exact (List.append_nil (written .stderr)).symm ▸ hErr
  have hStderr : ∀ {bytes rest},
      Relayed secret (input .stderr) (written .stderr ++ bytes) rest ∧
        rest.length < stderr.length →
      Relays secret input (Stream.also written (.stderr bytes)) ⟨[secret], stdout, rest, []⟩ ∧
        stdout.length + rest.length < stdout.length + stderr.length ∧
        ∀ exit, ProcessEvent.stderr bytes ≠ .exited exit := by
    rintro bytes rest ⟨hNext, hLess⟩
    refine ⟨⟨rfl, rfl, fun stream => ?_⟩, by omega, (by simp)⟩
    cases stream with
    | stdout =>
        rw [Stream.also]
        exact (List.append_nil (written .stdout)).symm ▸ hOut
    | stderr => exact hNext
  rw [RedactingProcess.ready] at hReady
  dsimp only at hReady
  split at hReady
  · rename_i line rest hLine
    cases hReady
    exact hStdout (hOut.line hSecret hLine)
  · rename_i line rest _ hLine
    cases hReady
    exact hStderr (hErr.line hSecret hLine)
  · rename_i chunk rest _ _ hChunk
    cases hReady
    exact hStdout (hOut.chunk hSecret hChunk)
  · rename_i chunk rest _ _ _ hChunk
    cases hReady
    exact hStderr (hErr.chunk hSecret hChunk)
  · cases hReady

/-- Output of the process is taken in. -/
theorem Relays.absorb (hSecret : Streamable secret) (h : Relays secret input written p)
    (stream : Stream) (bytes : List UInt8) :
    Relays secret (Stream.also input (stream.event bytes)) written
      (p.absorb (stream.event bytes)) := by
  obtain ⟨known, stdout, stderr, queued⟩ := p
  obtain ⟨rfl, rfl, hRelayed⟩ := h
  have hOut : Relayed secret (input .stdout) (written .stdout) stdout := hRelayed .stdout
  have hErr : Relayed secret (input .stderr) (written .stderr) stderr := hRelayed .stderr
  cases stream with
  | stdout =>
      refine ⟨rfl, rfl, fun stream => ?_⟩
      cases stream with
      | stdout => exact hOut.append hSecret bytes
      | stderr =>
          rw [Stream.also]
          exact (List.append_nil (input .stderr)).symm ▸ hErr
  | stderr =>
      refine ⟨rfl, rfl, fun stream => ?_⟩
      cases stream with
      | stdout =>
          rw [Stream.also]
          exact (List.append_nil (input .stdout)).symm ▸ hOut
      | stderr => exact hErr.append hSecret bytes

/-- What an exited process still shows. -/
theorem shown_queued (secrets : List (List UInt8)) (queued : List ProcessEvent) {m : Nat}
    (hLong : queued.length ≤ m) :
    RedactingProcess.shown ⟨secrets, [], [], queued⟩ [] m = queued := by
  induction queued generalizing m with
  | nil =>
      cases m with
      | zero => rfl
      | succ m => rfl
  | cons event queued ih =>
      cases m with
      | zero => simp at hLong
      | succ m =>
          rw [List.length_cons, Nat.add_le_add_iff_right] at hLong
          show event :: RedactingProcess.shown ⟨secrets, [], [], queued⟩ [] m = _
          rw [ih hLong]

/-- Without anything to show, the process is read. -/
theorem shown_absorb (hReady : p.ready = none) (events : List ProcessEvent) (m : Nat) :
    p.shown (event :: events) m = (p.absorb event).shown events m := by
  cases m with
  | zero => rfl
  | succ m =>
      rw [RedactingProcess.shown, RedactingProcess.shown, RedactingProcess.nextEvent, hReady]

/-- What a process shows, when all of its input is followed by the exit. -/
structure Completes (secret : List UInt8) (input written : Stream → List UInt8)
    (p : RedactingProcess) (events : List ProcessEvent) (exit : ExitStatus)
    (front : List ProcessEvent) : Prop where
  exited : ∀ event ∈ front, ∀ status, event ≠ .exited status
  shown : ∃ n, ∀ m, n ≤ m → p.shown events m = front ++ [.exited exit]
  bytes : ∀ stream : Stream, written stream ++ front.flatMap stream.bytes =
    redactBytes (input stream ++ events.flatMap stream.bytes) [secret]

/-- At the exit the rest of both streams is shown. -/
theorem Relays.exit (hSecret : Streamable secret) (h : Relays secret input written p)
    (exit : ExitStatus) (hReady : p.ready = none) :
    ∃ front, Completes secret input written p [.exited exit] exit front := by
  have hKept : ∀ stream : Stream, redactBytes (stream.buffer p) [secret] = stream.buffer p :=
    fun stream => (h.relayed stream).kept hSecret
  refine ⟨RedactingProcess.flush .stdout p.stdout [secret] ++
    RedactingProcess.flush .stderr p.stderr [secret], ?_, ?_, fun stream => ?_⟩
  · intro event hEvent status
    simp only [RedactingProcess.flush, List.mem_append] at hEvent
    rcases hEvent with hEvent | hEvent
    · split_ifs at hEvent with hEmpty
      · cases hEvent
      · rw [List.mem_singleton.mp hEvent]
        simp
    · split_ifs at hEvent with hEmpty
      · cases hEvent
      · rw [List.mem_singleton.mp hEvent]
        simp
  · have hQueue : (p.absorb (.exited exit)) = ⟨[secret], [], [],
        RedactingProcess.flush .stdout p.stdout [secret] ++
          RedactingProcess.flush .stderr p.stderr [secret] ++ [.exited exit]⟩ := by
      rw [RedactingProcess.absorb, RedactingProcess.queueExit, h.known, h.queued, List.nil_append]
    have hShown : ∀ m, p.shown [.exited exit] m = RedactingProcess.shown _ [] m := fun m =>
      hQueue ▸ shown_absorb hReady [] m
    exact ⟨_, fun m hLong => (hShown m).trans (shown_queued [secret] _ hLong)⟩
  · have hEq := (h.relayed stream).eq
    rw [← redactBytes_singleton hSecret.ne_nil] at hEq
    have hBytes : [ProcessEvent.exited exit].flatMap stream.bytes = [] := rfl
    rw [hBytes, List.append_nil, ← hEq]
    have hOut := hKept .stdout
    have hErr := hKept .stderr
    simp only [Stream.buffer] at hOut hErr
    rw [RedactingProcess.flush, RedactingProcess.flush, hOut, hErr]
    cases stream with
    | stdout => by_cases hEmpty : p.stdout = [] <;> by_cases hOther : p.stderr = [] <;>
        simp [hEmpty, hOther, Stream.bytes, Stream.buffer]
    | stderr => by_cases hEmpty : p.stdout = [] <;> by_cases hOther : p.stderr = [] <;>
        simp [hEmpty, hOther, Stream.bytes, Stream.buffer]

theorem Completes.absorb {stream : Stream} {bytes : List UInt8} {events front : List ProcessEvent}
    {exit : ExitStatus} (hReady : p.ready = none)
    (h : Completes secret (Stream.also input (stream.event bytes)) written
      (p.absorb (stream.event bytes)) events exit front) :
    Completes secret input written p (stream.event bytes :: events) exit front := by
  refine ⟨h.exited, ?_, fun other => ?_⟩
  · obtain ⟨n, hShown⟩ := h.shown
    exact ⟨n, fun m hm => (shown_absorb hReady events m).trans (hShown m hm)⟩
  · rw [h.bytes other, Stream.also, List.flatMap_cons, List.append_assoc]

theorem Completes.show {events front : List ProcessEvent} {exit : ExitStatus}
    (hReady : p.ready = some (event, q)) (hEvent : ∀ status, event ≠ .exited status)
    (h : Completes secret input (Stream.also written event) q events exit front) :
    Completes secret input written p events exit (event :: front) := by
  refine ⟨?_, ?_, fun stream => ?_⟩
  · intro other hOther
    rcases List.mem_cons.mp hOther with rfl | hOther
    · exact hEvent
    · exact h.exited other hOther
  · obtain ⟨n, hShown⟩ := h.shown
    refine ⟨n + 1, fun m hm => ?_⟩
    cases m with
    | zero => omega
    | succ m =>
        rw [shown_succ (nextEvent_of_ready hReady events), hShown m (by omega), List.cons_append]
  · rw [← h.bytes stream, Stream.also, List.flatMap_cons, List.append_assoc]

/-- A process that completes whenever it has nothing to show completes in any case: with
each event less is kept. -/
theorem Relays.drain (hSecret : Streamable secret) {events : List ProcessEvent} {exit : ExitStatus}
    (hQuiet : ∀ {written p}, Relays secret input written p → p.ready = none →
      ∃ front, Completes secret input written p events exit front)
    (h : Relays secret input written p) :
    ∃ front, Completes secret input written p events exit front := by
  induction hKept : p.kept using Nat.strong_induction_on generalizing p written with
  | _ kept ih =>
      cases hReady : p.ready with
      | none => exact hQuiet h hReady
      | some shown =>
          obtain ⟨event, q⟩ := shown
          obtain ⟨hNext, hLess, hEvent⟩ := h.ready hSecret hReady
          obtain ⟨front, hFront⟩ := ih q.kept (hKept ▸ hLess) hNext rfl
          exact ⟨event :: front, hFront.show hReady hEvent⟩

/-- Whatever is still to come, the process shows the redaction of all of its output. -/
theorem Relays.completes (hSecret : Streamable secret) (h : Relays secret input written p)
    (chunks : List (Stream × List UInt8)) (exit : ExitStatus) :
    ∃ front, Completes secret input written p (chunked chunks exit) exit front := by
  induction chunks generalizing p input written with
  | nil => exact h.drain hSecret fun hQuiet hReady => hQuiet.exit hSecret exit hReady
  | cons chunk chunks ih =>
      apply h.drain hSecret
      intro written p hQuiet hReady
      obtain ⟨front, hFront⟩ := ih (hQuiet.absorb hSecret chunk.1 chunk.2)
      exact ⟨front, hFront.absorb hReady⟩

end Runs

/-- However the output of a process is cut and mixed, a redactor that knows one seat
capability shows of each stream what redacting it as a whole gives, and then the exit. -/
theorem streams_redacted (capability : SeatCapability) (chunks : List (Stream × List UInt8))
    (exit : ExitStatus) :
    ∃ n front, (∀ event ∈ front, ∀ status, event ≠ ProcessEvent.exited status) ∧
      (∀ m, n ≤ m → (RedactingProcess.new (SeatWorkspaceLease.new capability).redactions).shown
        (chunked chunks exit) m = front ++ [.exited exit]) ∧
      ∀ stream : Stream, (front ++ [.exited exit]).flatMap stream.bytes =
        redactBytes ((chunked chunks exit).flatMap stream.bytes)
          (SeatWorkspaceLease.new capability).redactions := by
  obtain ⟨front, hExited, ⟨n, hShown⟩, hBytes⟩ :=
    (relays_new capability.raw).completes capability.streamable chunks exit
  refine ⟨n, front, hExited, hShown, fun stream => ?_⟩
  have hNothing : [ProcessEvent.exited exit].flatMap stream.bytes = [] := rfl
  rw [List.flatMap_append, hNothing, List.append_nil]
  exact hBytes stream

end WordArena.Agent
