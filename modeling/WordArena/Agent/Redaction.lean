import WordArena.Agent.Workspace

/-! What the redactor lets through. A secret is shown exactly when it can be divided at a
line end, and nothing in it is redacted on its own. -/
namespace WordArena.Agent

open Fallible

section Buffers

/-- A line ends inside of the secret. -/
def Divided (secret : List UInt8) : Prop := 10 ∈ secret.dropLast

/-- Secrets without square brackets that are not part of the marker. -/
structure Redactable (secret : List UInt8) : Prop where
  opening : 91 ∉ secret
  closing : 93 ∉ secret
  marker : ¬ secret <:+: redactedMarker

def markerBody : List UInt8 := [82, 69, 68, 65, 67, 84, 69, 68]

theorem marker_fenced : Replace.Fenced 91 93 markerBody redactedMarker := ⟨rfl⟩

variable {secrets : List (List UInt8)} {secret written buffer bytes : List UInt8}

theorem Redactable.plain (h : Redactable secret) : Replace.Plain 91 93 markerBody secret := by
  refine ⟨?_, h.opening, h.closing, fun hBody => h.marker (hBody.trans ?_)⟩
  · rintro rfl
    exact h.marker List.nil_infix
  · exact ⟨[91], [93], rfl⟩

theorem mem_nonempty (h : Redactable secret) (hMem : secret ∈ secrets) :
    secret ∈ secrets.filter fun secret => !secret.isEmpty := by
  refine List.mem_filter.mpr ⟨hMem, ?_⟩
  have hNonempty := h.plain.nonempty
  cases secret with
  | nil => exact absurd rfl hNonempty
  | cons byte rest => rfl

/-- No secret is left in a redacted text. -/
theorem redactBytes_absent (hSecrets : ∀ secret ∈ secrets, Redactable secret)
    (hMem : secret ∈ secrets) : ¬ secret <:+: redactBytes bytes secrets := fun hFound =>
  (Replace.infix_replaceAll marker_fenced (hSecrets secret hMem).plain hFound).2
    (mem_nonempty (hSecrets secret hMem) hMem)

/-- Redacting a second time changes nothing. -/
theorem redactBytes_eq (h : ∀ secret ∈ secrets, ¬ secret <:+: bytes) :
    redactBytes bytes secrets = bytes :=
  Replace.replaceAll_eq_of_absent fun secret hMem => h secret (List.mem_filter.mp hMem).1

/-- What was shown of a stream, and what is kept of it: together they hold no undivided
secret, none can come to begin before the buffer and end after it, and the buffer is
redacted. -/
structure Guarded (secrets : List (List UInt8)) (written buffer : List UInt8) : Prop where
  absent : ∀ secret ∈ secrets, ¬ Divided secret → ¬ secret <:+: written ++ buffer
  closed : ∀ secret ∈ secrets, ¬ Divided secret → ∀ before after, before ≠ [] → after ≠ [] →
    before <:+ written → secret ≠ before ++ buffer ++ after
  redacted : ∀ secret ∈ secrets, ¬ secret <:+: buffer

theorem guarded_nil (hSecrets : ∀ secret ∈ secrets, Redactable secret) : Guarded secrets [] [] := by
  refine ⟨fun secret hMem _ hFound => ?_, fun secret _ _ before after hBefore _ hSuffix => ?_,
    fun secret hMem hFound => ?_⟩
  · exact (hSecrets secret hMem).plain.nonempty (List.infix_nil.mp hFound)
  · exact absurd (List.suffix_nil.mp hSuffix) hBefore
  · exact (hSecrets secret hMem).plain.nonempty (List.infix_nil.mp hFound)

/-- What arrives is redacted together with what was kept. -/
theorem Guarded.append (hSecrets : ∀ secret ∈ secrets, Redactable secret)
    (h : Guarded secrets written buffer) :
    Guarded secrets written (appendRedacted buffer bytes secrets) := by
  refine ⟨fun secret hMem hWhole hFound => ?_, ?_, fun secret hMem => redactBytes_absent hSecrets hMem⟩
  · rcases List.infix_append_iff_ne_nil.mp hFound with hOld | hNew |
      ⟨before, after, hBefore, hAfter, hEq, hSuffix, hPrefix⟩
    · exact h.absent secret hMem hWhole (hOld.trans (List.prefix_append written buffer).isInfix)
    · exact redactBytes_absent hSecrets hMem hNew
    · -- A secret across the end of what was shown has no bracket, so its end arrived as it is.
      have hOpening : 91 ∉ after := fun hByte => (hSecrets secret hMem).opening
        (by rw [hEq]; exact List.mem_append_right before hByte)
      have hArrived : after <+: buffer ++ bytes :=
        Replace.prefix_replaceAll marker_fenced hOpening hPrefix
      rcases List.prefix_or_prefix_of_prefix hArrived (List.prefix_append buffer bytes) with
        hShort | ⟨rest, rfl⟩
      · refine h.absent secret hMem hWhole ?_
        rw [hEq, List.infix_append_iff]
        exact .inr (.inr ⟨before, after, rfl, hSuffix, hShort⟩)
      · by_cases hRest : rest = []
        · refine h.absent secret hMem hWhole ?_
          rw [hEq, hRest, List.append_nil, List.infix_append_iff]
          exact .inr (.inr ⟨before, buffer, rfl, hSuffix, List.prefix_refl buffer⟩)
        · refine h.closed secret hMem hWhole before rest hBefore hRest hSuffix ?_
          rw [hEq, List.append_assoc]
  · intro secret hMem hWhole before after hBefore hAfter hSuffix hEq
    -- Without a bracket nothing was redacted.
    have hOpening : 91 ∉ appendRedacted buffer bytes secrets := fun hByte =>
      (hSecrets secret hMem).opening (by
        rw [hEq]
        exact List.mem_append_left after (List.mem_append_right before hByte))
    have hSame : appendRedacted buffer bytes secrets = buffer ++ bytes :=
      Replace.replaceAll_eq_of_fence marker_fenced hOpening
    refine h.closed secret hMem hWhole before (bytes ++ after) hBefore (by simp [hAfter]) hSuffix ?_
    rw [hEq, hSame]
    simp only [List.append_assoc]

/-- The front of a buffer may be shown when no undivided secret can begin in it and end
after the rest. -/
theorem Guarded.show {front rest : List UInt8} (h : Guarded secrets written (front ++ rest))
    (hClosed : ∀ secret ∈ secrets, ¬ Divided secret → ∀ before after, before ≠ [] → after ≠ [] →
      before <:+ written ++ front → secret ≠ before ++ rest ++ after) :
    Guarded secrets (written ++ front) rest := by
  refine ⟨fun secret hMem hWhole => ?_, hClosed, fun secret hMem hFound => ?_⟩
  · rw [List.append_assoc]
    exact h.absent secret hMem hWhole
  · exact h.redacted secret hMem (hFound.trans (List.suffix_append front rest).isInfix)

/-- The first line of a buffer ends with its first line end. -/
theorem takeLine_eq {line rest : List UInt8} (h : takeLine buffer secrets = some (line, rest)) :
    ∃ front, buffer = front ++ 10 :: rest ∧ line = redactBytes (front ++ [10]) secrets := by
  rw [takeLine] at h
  cases hIndex : buffer.idxOf? 10 with
  | none =>
      rw [hIndex] at h
      cases h
  | some newline =>
      rw [hIndex] at h
      obtain ⟨rfl, rfl⟩ := Prod.mk.inj (Option.some.inj h)
      obtain ⟨hLength, hByte, -⟩ := List.findIdx?_eq_some_iff_getElem.mp hIndex
      have hTen : buffer[newline] = 10 := by simpa using hByte
      have hTake : buffer.take (newline + 1) = buffer.take newline ++ [10] := by
        rw [List.take_succ_eq_append_getElem hLength, hTen]
      refine ⟨buffer.take newline, ?_, by rw [hTake]⟩
      rw [← List.singleton_append, ← List.append_assoc, ← hTake, List.take_append_drop]

theorem takeLine_append {front rest : List UInt8} (h : 10 ∉ front) :
    takeLine (front ++ 10 :: rest) secrets = some (redactBytes (front ++ [10]) secrets, rest) := by
  have hIndex : (front ++ 10 :: rest).idxOf? 10 = some front.length := by
    refine List.idxOf?_eq_some_iff.mpr ⟨by simp, by simp, fun i hi => ?_⟩
    rw [List.getElem_append_left hi]
    exact fun hByte => h (by rw [← hByte]; exact List.getElem_mem hi)
  have hTake : (front ++ 10 :: rest).take (front.length + 1) = front ++ [10] := by
    rw [List.take_append]
    simp
  rw [takeLine, hIndex]
  simp [hTake]

theorem Guarded.line {line rest : List UInt8} (h : Guarded secrets written buffer)
    (hLine : takeLine buffer secrets = some (line, rest)) :
    Guarded secrets (written ++ line) rest := by
  obtain ⟨front, rfl, rfl⟩ := takeLine_eq hLine
  have hSplit : front ++ 10 :: rest = (front ++ [10]) ++ rest := by simp
  rw [hSplit] at h
  rw [redactBytes_eq fun secret hMem hFound =>
    h.redacted secret hMem (hFound.trans (List.prefix_append _ _).isInfix)]
  refine h.show fun secret hMem hWhole before after hBefore hAfter hSuffix hEq => hWhole ?_
  -- What was shown ends with a line end, which would be inside of the secret.
  have hLast : (10 : UInt8) ∈ before := by
    rw [← List.append_assoc] at hSuffix
    rcases List.suffix_concat_iff.mp hSuffix with hNil | ⟨tail, rfl, -⟩
    · exact absurd hNil hBefore
    · exact List.mem_append_right tail List.mem_cons_self
  rw [Divided, hEq, List.dropLast_append_of_ne_nil hAfter]
  exact List.mem_append_left _ (List.mem_append_left _ hLast)

theorem Guarded.chunk {chunk rest : List UInt8} (h : Guarded secrets written buffer)
    (hChunk : takeBoundedChunk buffer secrets = some (chunk, rest)) :
    Guarded secrets (written ++ chunk) rest := by
  rw [takeBoundedChunk] at hChunk
  split_ifs at hChunk with hShort
  obtain ⟨rfl, rfl⟩ := Prod.mk.inj (Option.some.inj hChunk)
  generalize hRetained : (secrets.map List.length).max?.getD 0 - 1 = retained
  by_cases hAll : buffer.length ≤ retained
  · rw [Nat.sub_eq_zero_of_le hAll, List.take_zero, List.append_nil, List.drop_zero]
    exact h
  · have hSplit := List.take_append_drop (buffer.length - retained) buffer
    rw [← hSplit] at h
    refine h.show fun secret hMem _ before after hBefore hAfter _ hEq => ?_
    -- With the kept bytes and one on either side the secret is longer than the longest one.
    have hLongest : secret.length ≤ (secrets.map List.length).max?.getD 0 :=
      List.le_max?_getD_of_mem (List.mem_map_of_mem hMem)
    have hLength := congrArg List.length hEq
    have hBefore := List.length_pos_of_ne_nil hBefore
    have hAfter := List.length_pos_of_ne_nil hAfter
    rw [List.length_append, List.length_append, List.length_drop] at hLength
    omega

end Buffers

section Streams

variable {secrets : List (List UInt8)} {written : Stream → List UInt8} {p q : RedactingProcess}
  {events later : List ProcessEvent} {event : ProcessEvent}

/-- A process that has not exited. -/
structure Running (secrets : List (List UInt8)) (written : Stream → List UInt8)
    (p : RedactingProcess) : Prop where
  known : p.secrets = secrets
  queued : p.queued = []
  guarded : ∀ stream : Stream, Guarded secrets (written stream) (stream.buffer p)

/-- A process that has exited. -/
structure Closing (secrets : List (List UInt8)) (written : Stream → List UInt8)
    (p : RedactingProcess) : Prop where
  empty : p.stdout = [] ∧ p.stderr = []
  absent : ∀ stream : Stream, ∀ secret ∈ secrets, ¬ Divided secret →
    ¬ secret <:+: written stream ++ p.queued.flatMap stream.bytes

/-- What was shown, with one more event. -/
def Stream.also (written : Stream → List UInt8) (event : ProcessEvent) (stream : Stream) :
    List UInt8 :=
  written stream ++ stream.bytes event

/-- What can be shown at once keeps both streams guarded. -/
theorem Running.ready (h : Running secrets written p) (hReady : p.ready = some (event, q)) :
    Running secrets (Stream.also written event) q := by
  obtain ⟨known, stdout, stderr, queued⟩ := p
  obtain ⟨rfl, rfl, hGuarded⟩ := h
  have hOut : Guarded known (written .stdout) stdout := hGuarded .stdout
  have hErr : Guarded known (written .stderr) stderr := hGuarded .stderr
  have hStdout : ∀ {bytes rest}, Guarded known (written .stdout ++ bytes) rest →
      Running known (Stream.also written (.stdout bytes)) ⟨known, rest, stderr, []⟩ := by
    intro bytes rest hNext
    refine ⟨rfl, rfl, fun stream => ?_⟩
    cases stream with
    | stdout => exact hNext
    | stderr =>
        rw [Stream.also]
        exact (List.append_nil (written .stderr)).symm ▸ hErr
  have hStderr : ∀ {bytes rest}, Guarded known (written .stderr ++ bytes) rest →
      Running known (Stream.also written (.stderr bytes)) ⟨known, stdout, rest, []⟩ := by
    intro bytes rest hNext
    refine ⟨rfl, rfl, fun stream => ?_⟩
    cases stream with
    | stdout =>
        rw [Stream.also]
        exact (List.append_nil (written .stdout)).symm ▸ hOut
    | stderr => exact hNext
  rw [RedactingProcess.ready] at hReady
  dsimp only at hReady
  split at hReady
  · rename_i line rest hLine
    cases hReady
    exact hStdout (hOut.line hLine)
  · rename_i line rest _ hLine
    cases hReady
    exact hStderr (hErr.line hLine)
  · rename_i chunk rest _ _ hChunk
    cases hReady
    exact hStdout (hOut.chunk hChunk)
  · rename_i chunk rest _ _ _ hChunk
    cases hReady
    exact hStderr (hErr.chunk hChunk)
  · cases hReady

/-- Output is taken in, redacted with what was kept. -/
theorem Running.absorb (hSecrets : ∀ secret ∈ secrets, Redactable secret)
    (h : Running secrets written p) (stream : Stream) (bytes : List UInt8) :
    Running secrets written (p.absorb (stream.event bytes)) := by
  obtain ⟨known, stdout, stderr, queued⟩ := p
  obtain ⟨rfl, rfl, hGuarded⟩ := h
  have hOut : Guarded known (written .stdout) stdout := hGuarded .stdout
  have hErr : Guarded known (written .stderr) stderr := hGuarded .stderr
  cases stream with
  | stdout =>
      refine ⟨rfl, rfl, fun stream => ?_⟩
      cases stream with
      | stdout => exact hOut.append hSecrets
      | stderr => exact hErr
  | stderr =>
      refine ⟨rfl, rfl, fun stream => ?_⟩
      cases stream with
      | stdout => exact hOut
      | stderr => exact hErr.append hSecrets

/-- At the exit the rest of both streams is queued. -/
theorem Running.exit (h : Running secrets written p) (exit : ExitStatus) :
    Closing secrets written (p.absorb (.exited exit)) := by
  refine ⟨⟨rfl, rfl⟩, fun stream secret hMem hWhole => ?_⟩
  have hFlush : ∀ stream : Stream, redactBytes (stream.buffer p) p.secrets = stream.buffer p :=
    fun stream => redactBytes_eq (by rw [h.known]; exact (h.guarded stream).redacted)
  have hQueue : (p.absorb (.exited exit)).queued.flatMap stream.bytes = stream.buffer p := by
    have hOut := hFlush .stdout
    have hErr := hFlush .stderr
    simp only [Stream.buffer] at hOut hErr
    simp only [RedactingProcess.absorb, RedactingProcess.queueExit, RedactingProcess.flush, h.queued,
      hOut, hErr, List.nil_append, List.flatMap_append]
    cases stream with
    | stdout => by_cases hEmpty : p.stdout = [] <;> by_cases hOther : p.stderr = [] <;>
        simp [hEmpty, hOther, Stream.bytes, Stream.buffer]
    | stderr => by_cases hEmpty : p.stdout = [] <;> by_cases hOther : p.stderr = [] <;>
        simp [hEmpty, hOther, Stream.bytes, Stream.buffer]
  rw [hQueue]
  exact (h.guarded stream).absent secret hMem hWhole

/-- After the exit only the queue is shown. -/
theorem Closing.ready (h : Closing secrets written p) (hReady : p.ready = some (event, q)) :
    Closing secrets (Stream.also written event) q := by
  cases hQueue : p.queued with
  | nil =>
      rw [RedactingProcess.ready, hQueue, h.empty.1, h.empty.2] at hReady
      cases hReady
  | cons first queue =>
      rw [RedactingProcess.ready, hQueue] at hReady
      cases hReady
      refine ⟨h.empty, fun stream secret hMem hWhole => ?_⟩
      have hAbsent := h.absent stream secret hMem hWhole
      rwa [hQueue, List.flatMap_cons, ← List.append_assoc] at hAbsent

/-- The redactor of a process that writes some chunks and exits. -/
def Sealed (secrets : List (List UInt8)) (written : Stream → List UInt8) (p : RedactingProcess)
    (events : List ProcessEvent) : Prop :=
  (∃ chunks exit, events = chunked chunks exit ∧ Running secrets written p) ∨
    events = [] ∧ Closing secrets written p

/-- What was shown so far holds nothing undivided. -/
theorem Sealed.absent (h : Sealed secrets written p events) (stream : Stream) {secret : List UInt8}
    (hMem : secret ∈ secrets) (hWhole : ¬ Divided secret) : ¬ secret <:+: written stream := by
  intro hFound
  rcases h with ⟨-, -, -, hRunning⟩ | ⟨-, hClosing⟩
  · exact (hRunning.guarded stream).absent secret hMem hWhole
      (hFound.trans (List.prefix_append _ _).isInfix)
  · exact hClosing.absent stream secret hMem hWhole (hFound.trans (List.prefix_append _ _).isInfix)

theorem Sealed.next (hSecrets : ∀ secret ∈ secrets, Redactable secret)
    (h : Sealed secrets written p events) (hNext : p.nextEvent events = some (event, q, later)) :
    Sealed secrets (Stream.also written event) q later := by
  induction events generalizing p with
  | nil =>
      obtain ⟨shown, hReady, hShown⟩ := Option.map_eq_some_iff.mp hNext
      cases hShown
      rcases h with ⟨chunks, exit, hEvents, -⟩ | ⟨-, hClosing⟩
      · exact absurd hEvents (by simp [chunked])
      · exact .inr ⟨rfl, hClosing.ready hReady⟩
  | cons first events ih =>
      obtain ⟨chunks, exit, hEvents, hRunning⟩ :
          ∃ chunks exit, first :: events = chunked chunks exit ∧ Running secrets written p := by
        rcases h with hLive | ⟨hNil, -⟩
        · exact hLive
        · cases hNil
      rw [RedactingProcess.nextEvent] at hNext
      cases hReady : p.ready with
      | some shown =>
          rw [hReady] at hNext
          cases hNext
          exact .inl ⟨chunks, exit, hEvents, hRunning.ready hReady⟩
      | none =>
          rw [hReady] at hNext
          refine ih ?_ hNext
          cases chunks with
          | nil =>
              cases hEvents
              exact .inr ⟨rfl, hRunning.exit exit⟩
          | cons chunk chunks =>
              cases hEvents
              exact .inl ⟨chunks, exit, rfl, hRunning.absorb hSecrets chunk.1 chunk.2⟩

/-- Nothing undivided is shown, by any number of calls. -/
theorem Sealed.shown (hSecrets : ∀ secret ∈ secrets, Redactable secret) {n : Nat}
    (h : Sealed secrets written p events) (stream : Stream) {secret : List UInt8}
    (hMem : secret ∈ secrets) (hWhole : ¬ Divided secret) :
    ¬ secret <:+: written stream ++ (p.shown events n).flatMap stream.bytes := by
  induction n generalizing p events written with
  | zero =>
      rw [RedactingProcess.shown, List.flatMap_nil, List.append_nil]
      exact h.absent stream hMem hWhole
  | succ n ih =>
      rw [RedactingProcess.shown]
      cases hNext : p.nextEvent events with
      | none =>
          rw [List.flatMap_nil, List.append_nil]
          exact h.absent stream hMem hWhole
      | some next =>
          obtain ⟨event, q, later⟩ := next
          have hLater := ih (h.next hSecrets hNext)
          rwa [Stream.also, List.append_assoc, ← List.flatMap_cons] at hLater

end Streams

section Leaks

variable {secrets : List (List UInt8)} {secret line : List UInt8} {p q : RedactingProcess}
  {event : ProcessEvent}

theorem nextEvent_of_ready (h : p.ready = some (event, q)) (events : List ProcessEvent) :
    p.nextEvent events = some (event, q, events) := by
  cases events with
  | nil => rw [RedactingProcess.nextEvent, h, Option.map_some]
  | cons first events => rw [RedactingProcess.nextEvent, h]

theorem shown_succ {events later : List ProcessEvent} {n : Nat}
    (h : p.nextEvent events = some (event, q, later)) :
    p.shown events (n + 1) = event :: q.shown later n := by
  rw [RedactingProcess.shown, h]

/-- A line without secrets is shown as soon as it arrives. -/
theorem nextEvent_line (hLine : 10 ∉ line)
    (hAbsent : ∀ secret ∈ secrets, ¬ secret <:+: line ++ [10]) (events : List ProcessEvent) :
    (RedactingProcess.new secrets).nextEvent (.stdout (line ++ [10]) :: events) =
      some (.stdout (line ++ [10]), RedactingProcess.new secrets, events) := by
  have hRedacted : redactBytes (line ++ [10]) secrets = line ++ [10] := redactBytes_eq hAbsent
  have hTake : takeLine (line ++ [10]) secrets = some (line ++ [10], []) := by
    rw [takeLine_append hLine, hRedacted]
  have hReady : (RedactingProcess.new secrets).ready = none := rfl
  have hNext : ((RedactingProcess.new secrets).absorb (.stdout (line ++ [10]))).ready =
      some (.stdout (line ++ [10]), RedactingProcess.new secrets) := by
    change RedactingProcess.ready ⟨secrets, redactBytes (line ++ [10]) secrets, [], []⟩ = _
    rw [hRedacted, RedactingProcess.ready]
    dsimp only
    rw [hTake]
    rfl
  rw [RedactingProcess.nextEvent, hReady]
  exact nextEvent_of_ready hNext events

/-- A secret in lines, and a last line that ends in another way than every secret. -/
def inLines (line : List UInt8) : List UInt8 → List (Stream × List UInt8)
  | [] => [(.stdout, (line ++ [91]) ++ [10])]
  | byte :: rest =>
      if byte = 10 then (.stdout, line ++ [10]) :: inLines [] rest else inLines (line ++ [byte]) rest

/-- Part of a line is not divided. -/
theorem not_divided_of_line (hLine : 10 ∉ line) (h : secret <:+: line ++ [10]) :
    ¬ Divided secret := by
  intro hDivided
  have hByte : 10 ∈ secret := List.mem_of_mem_dropLast hDivided
  rcases List.infix_append_iff.mp h with hFront | hEnd | ⟨front, rest, rfl, hFront, hEnd⟩
  · exact hLine (hFront.subset hByte)
  · have hShort : secret.dropLast.length = 0 := by
      have := hEnd.length_le
      rw [List.length_dropLast]
      simp at this
      omega
    rw [Divided, List.length_eq_zero_iff.mp hShort] at hDivided
    cases hDivided
  · rcases List.prefix_cons_iff.mp hEnd with rfl | ⟨tail, rfl, hTail⟩
    · rw [List.append_nil] at hByte
      exact hLine (hFront.subset hByte)
    · rw [List.prefix_nil.mp hTail, Divided, List.dropLast_concat] at hDivided
      exact hLine (hFront.subset hDivided)

/-- Lines without secrets are all shown. -/
theorem shown_inLines (hSecrets : ∀ secret ∈ secrets, Redactable secret ∧ 2 ≤ secret.length)
    (exit : ExitStatus) (rest : List UInt8) (hLine : 10 ∉ line)
    (hAbsent : ∀ secret ∈ secrets, ¬ Divided secret → ¬ secret <:+: line ++ rest) :
    ((RedactingProcess.new secrets).shown (chunked (inLines line rest) exit)
      (inLines line rest).length).flatMap Stream.stdout.bytes = line ++ rest ++ [91, 10] := by
  have hStep : ∀ (front : List UInt8) (chunks : List (Stream × List UInt8)), 10 ∉ front →
      (∀ secret ∈ secrets, ¬ secret <:+: front ++ [10]) →
      ((RedactingProcess.new secrets).shown (chunked ((.stdout, front ++ [10]) :: chunks) exit)
        (chunks.length + 1)).flatMap Stream.stdout.bytes = front ++ [10] ++
          ((RedactingProcess.new secrets).shown (chunked chunks exit) chunks.length).flatMap
            Stream.stdout.bytes := by
    intro front chunks hFront hClean
    have hNext : (RedactingProcess.new secrets).nextEvent
        (chunked ((.stdout, front ++ [10]) :: chunks) exit) =
          some (.stdout (front ++ [10]), RedactingProcess.new secrets, chunked chunks exit) :=
      nextEvent_line hFront hClean (chunked chunks exit)
    rw [shown_succ hNext, List.flatMap_cons]
    rfl
  induction rest generalizing line with
  | nil =>
      have hFront : 10 ∉ line ++ [91] := by simp [hLine]
      rw [inLines, List.length_cons, hStep (line ++ [91]) [] hFront]
      · simp [RedactingProcess.shown]
      · intro secret hMem hFound
        obtain ⟨hRedactable, hLong⟩ := hSecrets secret hMem
        rw [List.append_assoc, List.singleton_append] at hFound
        rcases Replace.infix_of_fence hRedactable.opening hFound with hBefore | hAfter
        · refine hAbsent secret hMem ?_ (by rwa [List.append_nil])
          exact not_divided_of_line hLine (hBefore.trans (List.prefix_append line [10]).isInfix)
        · have := hAfter.length_le
          simp at this
          omega
  | cons byte rest ih =>
      rw [inLines]
      split_ifs with hByte
      · subst hByte
        rw [List.length_cons, hStep line _ hLine]
        · rw [ih List.not_mem_nil]
          · simp
          · intro secret hMem hWhole hFound
            refine hAbsent secret hMem hWhole (hFound.trans ?_)
            rw [List.nil_append]
            exact ((List.suffix_cons 10 rest).trans (List.suffix_append line _)).isInfix
        · intro secret hMem hFound
          refine hAbsent secret hMem (not_divided_of_line hLine hFound) (hFound.trans ?_)
          refine List.IsPrefix.isInfix ?_
          rw [List.prefix_append_right_inj]
          exact List.cons_prefix_cons.mpr ⟨rfl, List.nil_prefix⟩
      · rw [ih]
        · simp
        · simp [hLine, Ne.symm hByte]
        · intro secret hMem hWhole
          rw [List.append_assoc, List.singleton_append]
          exact hAbsent secret hMem hWhole

end Leaks

section Capability

/-- A byte that is no lower hexadecimal digit is not among the digits. -/
theorem isLowerHex_notMem {part : List UInt8} {length : Nat} (h : isLowerHex part length = true)
    {byte : UInt8} (hByte : ((decide (48 ≤ byte) && decide (byte ≤ 57)) ||
      (decide (97 ≤ byte) && decide (byte ≤ 102))) = false) : byte ∉ part := by
  simp only [isLowerHex, Bool.and_eq_true, List.all_eq_true] at h
  intro hMem
  have hDigit := h.2 byte hMem
  simp only [Bool.or_eq_true, Bool.and_eq_true] at hDigit
  simp only [Bool.or_eq_false_iff, Bool.and_eq_false_iff] at hByte
  rcases hDigit with hDigit | hDigit
  · simp [hDigit.1, hDigit.2] at hByte
  · simp [hDigit.1, hDigit.2] at hByte

theorem isLowerHex_length {part : List UInt8} {length : Nat} (h : isLowerHex part length = true) :
    part.length = length := by
  simp only [isLowerHex, Bool.and_eq_true, decide_eq_true_eq] at h
  exact h.1

/-- The tag, the identity and the secret of a capability, between dots. -/
theorem SeatCapability.shape (capability : SeatCapability) : ∃ id value,
    isLowerHex id 32 = true ∧ isLowerHex value 64 = true ∧
      capability.raw = capabilityTag ++ 46 :: (id ++ 46 :: value) := by
  obtain ⟨raw, -, hWire⟩ := capability
  dsimp only
  rw [validWire] at hWire
  split at hWire
  · rename_i tag id value hParts
    simp only [Bool.and_eq_true, decide_eq_true_eq] at hWire
    obtain ⟨⟨rfl, hId⟩, hValue⟩ := hWire
    have hRaw : [46].intercalate (raw.splitOn 46) = raw := List.intercalate_splitOn 46
    refine ⟨id, value, hId, hValue, ?_⟩
    rw [← hRaw, hParts]
    simp [List.intercalate]
  · cases hWire

theorem SeatCapability.length_raw (capability : SeatCapability) : capability.raw.length = 107 := by
  obtain ⟨id, value, hId, hValue, hRaw⟩ := capability.shape
  rw [hRaw, List.length_append, List.length_cons, List.length_append, List.length_cons,
    isLowerHex_length hId, isLowerHex_length hValue]
  rfl

/-- A capability holds neither a bracket nor a line end. -/
theorem SeatCapability.notMem_raw (capability : SeatCapability) :
    91 ∉ capability.raw ∧ 93 ∉ capability.raw ∧ 10 ∉ capability.raw := by
  obtain ⟨id, value, hId, hValue, hRaw⟩ := capability.shape
  have hNot : ∀ byte : UInt8, ((decide (48 ≤ byte) && decide (byte ≤ 57)) ||
      (decide (97 ≤ byte) && decide (byte ≤ 102))) = false → byte ∉ capabilityTag → byte ≠ 46 →
      byte ∉ capability.raw := by
    intro byte hByte hTag hDot
    simp [hRaw, hTag, hDot, isLowerHex_notMem hId hByte, isLowerHex_notMem hValue hByte]
  exact ⟨hNot 91 rfl (by decide) (by decide), hNot 93 rfl (by decide) (by decide),
    hNot 10 rfl (by decide) (by decide)⟩

/-- A capability is a single line without brackets. -/
theorem SeatCapability.plain (capability : SeatCapability) :
    Redactable capability.raw ∧ ¬ Divided capability.raw ∧ 2 ≤ capability.raw.length := by
  obtain ⟨hOpening, hClosing, hNewline⟩ := capability.notMem_raw
  have hLength := capability.length_raw
  refine ⟨⟨hOpening, hClosing, fun hMarker => ?_⟩, fun hDivided => ?_, by omega⟩
  · have hShort : capability.raw.length ≤ 10 := hMarker.length_le
    omega
  · exact hNewline (List.mem_of_mem_dropLast hDivided)

end Capability

section Documents

/-- A string value anywhere in a document. -/
inductive JsonValue.Holds (text : String) : JsonValue → Prop where
  | string : Holds text (.string text)
  | array {values : List JsonValue} {value : JsonValue} (hMem : value ∈ values)
      (h : Holds text value) : Holds text (.array values)
  | object {values : List (String × JsonValue)} {key : String} {value : JsonValue}
      (hMem : (key, value) ∈ values) (h : Holds text value) : Holds text (.object values)

/-- A secret of a document: a string value of at least eight bytes. -/
def JsonValue.Secret (value : JsonValue) (secret : List UInt8) : Prop :=
  ∃ text, value.Holds text ∧ 8 ≤ (Bytes.utf8 text).length ∧ secret = Bytes.utf8 text

variable {secret : List UInt8}

theorem mem_collectValues {values : List JsonValue} :
    secret ∈ collectValues values ↔ ∃ value ∈ values, secret ∈ collectJsonRedactions value := by
  induction values with
  | nil => simp [collectValues]
  | cons value values ih => simp [collectValues, ih]

theorem mem_collectFields {values : List (String × JsonValue)} :
    secret ∈ collectFields values ↔
      ∃ key value, (key, value) ∈ values ∧ secret ∈ collectJsonRedactions value := by
  induction values with
  | nil => simp [collectFields]
  | cons field values ih =>
      obtain ⟨key, value⟩ := field
      rw [collectFields, List.mem_append, ih]
      constructor
      · rintro (hHere | ⟨other, inner, hMem, hThere⟩)
        · exact ⟨key, value, List.mem_cons_self, hHere⟩
        · exact ⟨other, inner, List.mem_cons_of_mem _ hMem, hThere⟩
      · rintro ⟨other, inner, hMem, hFound⟩
        rcases List.mem_cons.mp hMem with hSame | hRest
        · cases hSame
          exact .inl hFound
        · exact .inr ⟨other, inner, hRest, hFound⟩

theorem secret_of_collect : ∀ value : JsonValue, secret ∈ collectJsonRedactions value →
    value.Secret secret
  | .null, h => by simp [collectJsonRedactions] at h
  | .bool _, h => by simp [collectJsonRedactions] at h
  | .number _, h => by simp [collectJsonRedactions] at h
  | .string text, h => by
      rw [collectJsonRedactions] at h
      split_ifs at h with hLong
      · exact ⟨text, .string, hLong, List.mem_singleton.mp h⟩
      · cases h
  | .array values, h => by
      rw [collectJsonRedactions] at h
      obtain ⟨value, hMem, hFound⟩ := mem_collectValues.mp h
      have hSize := List.sizeOf_lt_of_mem hMem
      obtain ⟨text, hHolds, hRest⟩ := secret_of_collect value hFound
      exact ⟨text, .array hMem hHolds, hRest⟩
  | .object values, h => by
      rw [collectJsonRedactions] at h
      obtain ⟨key, value, hMem, hFound⟩ := mem_collectFields.mp h
      have hSize := List.sizeOf_lt_of_mem hMem
      obtain ⟨text, hHolds, hRest⟩ := secret_of_collect value hFound
      exact ⟨text, .object hMem hHolds, hRest⟩
termination_by value => sizeOf value
decreasing_by
  · simp only [JsonValue.array.sizeOf_spec]
    omega
  · simp only [JsonValue.object.sizeOf_spec, Prod.mk.sizeOf_spec] at hSize ⊢
    omega

/-- Exactly the long strings are registered. -/
theorem mem_collect_iff {value : JsonValue} :
    secret ∈ collectJsonRedactions value ↔ value.Secret secret := by
  refine ⟨secret_of_collect value, ?_⟩
  rintro ⟨text, hHolds, hLong, rfl⟩
  induction hHolds with
  | string => rw [collectJsonRedactions, if_pos hLong]; exact List.mem_singleton_self _
  | array hMem _ ih =>
      rw [collectJsonRedactions]
      exact mem_collectValues.mpr ⟨_, hMem, ih⟩
  | object hMem _ ih =>
      rw [collectJsonRedactions]
      exact mem_collectFields.mpr ⟨_, _, hMem, ih⟩

/-- What an accepted document adds to a lease. -/
theorem install_eq {lease next : SeatWorkspaceLease} {provider : Provider} {fileName : String}
    {bytes : List UInt8} (h : lease.installProviderJson provider fileName bytes = .ok next) :
    ∃ value, provider.parse bytes = some value ∧
      next.redactions = lease.redactions ++ collectJsonRedactions value := by
  obtain ⟨_, -, h⟩ := bind_eq_ok.mp h
  obtain ⟨_, -, h⟩ := bind_eq_ok.mp h
  obtain ⟨value, hParse, h⟩ := bind_eq_ok.mp h
  obtain ⟨_, -, h⟩ := bind_eq_ok.mp h
  obtain ⟨_, -, h⟩ := bind_eq_ok.mp h
  cases h
  exact ⟨value, okOr_eq_ok.mp hParse, rfl⟩

/-- The redactor of a lease keeps every registered secret exactly when each secret that a
line end divides contains one that is not divided. -/
theorem redactor_seals_iff (provider : Provider) (capability : SeatCapability) (fileName : String)
    (bytes : List UInt8) (value : JsonValue) (lease : SeatWorkspaceLease)
    (hInstall : (SeatWorkspaceLease.new capability).installProviderJson provider fileName bytes =
      .ok lease)
    (hParse : provider.parse bytes = some value)
    (hPlain : ∀ secret, value.Secret secret → Redactable secret) :
    (∀ secret, secret ∈ lease.redactions ↔ secret = capability.raw ∨ value.Secret secret) ∧
    ((∀ chunks exit calls, ∀ stream : Stream, ∀ secret ∈ lease.redactions,
        ¬ secret <:+: ((RedactingProcess.new lease.redactions).shown (chunked chunks exit)
          calls).flatMap stream.bytes) ↔
      ∀ secret ∈ lease.redactions, Divided secret →
        ∃ other ∈ lease.redactions, ¬ Divided other ∧ other <:+: secret) := by
  obtain ⟨_, hSame, hRedactions⟩ := install_eq hInstall
  cases hSame.symm.trans hParse
  have hMem : ∀ secret, secret ∈ lease.redactions ↔ secret = capability.raw ∨ value.Secret secret := by
    intro secret
    rw [hRedactions, List.mem_append, mem_collect_iff]
    exact or_congr_left List.mem_singleton
  have hSecrets : ∀ secret ∈ lease.redactions, Redactable secret ∧ 2 ≤ secret.length := by
    intro secret hSecret
    rcases (hMem secret).mp hSecret with rfl | hFound
    · exact ⟨capability.plain.1, capability.plain.2.2⟩
    · refine ⟨hPlain secret hFound, ?_⟩
      obtain ⟨text, -, hLong, rfl⟩ := hFound
      omega
  have hRedactable : ∀ secret ∈ lease.redactions, Redactable secret := fun secret hSecret =>
    (hSecrets secret hSecret).1
  refine ⟨hMem, fun hSafe secret hSecret hDivided => ?_, fun hCond chunks exit calls stream secret
    hSecret hFound => ?_⟩
  · by_contra hNone
    have hAbsent : ∀ other ∈ lease.redactions, ¬ Divided other → ¬ other <:+: [] ++ secret :=
      fun other hOther hWhole hInside => hNone ⟨other, hOther, hWhole, hInside⟩
    refine hSafe (inLines [] secret) syntheticFailure (inLines [] secret).length .stdout secret hSecret ?_
    rw [shown_inLines hSecrets syntheticFailure secret List.not_mem_nil hAbsent]
    exact (List.prefix_append secret [91, 10]).isInfix
  · have hStart : Sealed lease.redactions (fun _ => []) (RedactingProcess.new lease.redactions)
        (chunked chunks exit) := by
      refine .inl ⟨chunks, exit, rfl, rfl, rfl, fun stream => ?_⟩
      cases stream <;> exact guarded_nil hRedactable
    by_cases hDivided : Divided secret
    · obtain ⟨other, hOther, hWhole, hInside⟩ := hCond secret hSecret hDivided
      exact hStart.shown hRedactable stream hOther hWhole (hInside.trans hFound)
    · exact hStart.shown hRedactable stream hSecret hDivided hFound

def exampleWire : List UInt8 :=
  capabilityTag ++ 46 :: (List.replicate 32 48 ++ 46 :: List.replicate 64 48)

def exampleCapability : SeatCapability := ⟨exampleWire, 3600000, by decide +kernel⟩

/-- A document with one string, as the JSON reader parses it. -/
def exampleProvider (text : String) : Provider :=
  ⟨fun _ => false, fun _ => some (.object [("key", .string text)]), .ok ()⟩

theorem example_install {text : String} {bytes : List UInt8} (hText : 8 ≤ (Bytes.utf8 text).length)
    (hBytes : bytes ≠ []) (hShort : bytes.length ≤ 1048576) :
    (SeatWorkspaceLease.new exampleCapability).installProviderJson (exampleProvider text) "auth.json"
      bytes = .ok ⟨[exampleWire, Bytes.utf8 text]⟩ := by
  have hName : validFileName (Bytes.utf8 "auth.json") = true := by
    rw [Bytes.utf8_eq]
    decide +kernel
  have hCollect : collectJsonRedactions (.object [("key", .string text)]) = [Bytes.utf8 text] := by
    simp [collectJsonRedactions, collectFields, hText]
  refine bind_eq_ok.mpr ⟨(), reject_eq_ok.mpr ?_, bind_eq_ok.mpr ⟨(), reject_eq_ok.mpr nofun,
    bind_eq_ok.mpr ⟨_, rfl, bind_eq_ok.mpr ⟨(), reject_eq_ok.mpr ?_, ?_⟩⟩⟩⟩
  · rw [hName]
    simp only [Bool.true_eq_false, false_or, not_or]
    exact ⟨hBytes, by omega⟩
  · rw [hCollect]
    nofun
  · rw [hCollect]
    rfl

theorem utf8_divided : Bytes.utf8 "pass\nword" = [112, 97, 115, 115, 10, 119, 111, 114, 100] := by
  rw [Bytes.utf8_eq]
  rfl

theorem utf8_whole : Bytes.utf8 "password" = [112, 97, 115, 115, 119, 111, 114, 100] := by
  rw [Bytes.utf8_eq]
  rfl

/-- A password in one line is kept, also when its halves arrive one by one. -/
theorem whole_secret_sealed : ¬ [112, 97, 115, 115, 119, 111, 114, 100] <:+:
    ((RedactingProcess.new [exampleWire, [112, 97, 115, 115, 119, 111, 114, 100]]).shown
      (chunked [(.stdout, [112, 97, 115, 115]), (.stdout, [119, 111, 114, 100])] syntheticFailure)
      2).flatMap Stream.stdout.bytes := by
  have hLong : 8 ≤ (Bytes.utf8 "password").length := by
    rw [utf8_whole]
    decide
  have hInstall : (SeatWorkspaceLease.new exampleCapability).installProviderJson
      (exampleProvider "password") "auth.json" [123, 34, 107, 101, 121, 34, 58, 34, 112, 97, 115, 115,
        119, 111, 114, 100, 34, 125] =
      .ok ⟨[exampleWire, [112, 97, 115, 115, 119, 111, 114, 100]]⟩ := by
    rw [← utf8_whole]
    exact example_install hLong nofun (by decide)
  have hPlain : ∀ secret, (JsonValue.object [("key", .string "password")]).Secret secret →
      Redactable secret := by
    intro secret hSecret
    have hMem := mem_collect_iff.mpr hSecret
    simp only [collectJsonRedactions, collectFields, utf8_whole] at hMem
    rw [if_pos (by decide), List.append_nil, List.mem_singleton] at hMem
    rw [hMem]
    exact ⟨by decide, by decide, by decide⟩
  refine (redactor_seals_iff (exampleProvider "password") exampleCapability "auth.json" _ _ _ hInstall
    rfl hPlain).2.mpr ?_ _ _ _ _ _ (List.mem_cons_of_mem _ List.mem_cons_self)
  intro secret hSecret hDivided
  rcases List.mem_cons.mp hSecret with rfl | hOther
  · exact absurd hDivided exampleCapability.plain.2.1
  · rw [List.mem_singleton.mp hOther, Divided] at hDivided
    exact absurd hDivided (by decide)

/-- A password in two lines is shown when its lines arrive one by one. -/
theorem divided_secret_shown : ∃ lease,
    (SeatWorkspaceLease.new exampleCapability).installProviderJson (exampleProvider "pass\nword")
      "auth.json" [123, 34, 107, 101, 121, 34, 58, 34, 112, 97, 115, 115, 92, 110, 119, 111, 114, 100,
        34, 125] = .ok lease ∧
    [112, 97, 115, 115, 10, 119, 111, 114, 100] ∈ lease.redactions ∧
    Redactable [112, 97, 115, 115, 10, 119, 111, 114, 100] ∧
    ((RedactingProcess.new lease.redactions).shown (chunked [(.stdout, [112, 97, 115, 115, 10]),
      (.stdout, [119, 111, 114, 100])] ⟨true, some 0, none⟩) 2).flatMap Stream.stdout.bytes =
      [112, 97, 115, 115, 10, 119, 111, 114, 100] := by
  refine ⟨_, example_install (by rw [utf8_divided]; decide) nofun (by decide), ?_, ?_, ?_⟩
  · rw [utf8_divided]
    exact List.mem_cons_of_mem _ List.mem_cons_self
  · exact ⟨by decide, by decide, by decide⟩
  · rw [utf8_divided]
    decide +kernel

end Documents

end WordArena.Agent
