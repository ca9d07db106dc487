import WordArena.Agent.Budgeted
import WordArena.Agent.Workspace
import WordArena.Library.Lines

/-! How the bytes of a turn arrive. The line decoder reads the same frames from any
chunks of a stream, and so a turn that is answered by one line does not depend on them. -/
namespace WordArena.Agent

open Async Lines

section Decoder

variable {frames result : List (List UInt8)} {line bytes buffer rest : List UInt8}

/-- Some pushes, as long as none fails: all frames and the buffer that is left. -/
def pushAll (buffer : List UInt8) : List (List UInt8) →
    Except ProtocolFault (List (List UInt8) × List UInt8)
  | [] => .ok ([], buffer)
  | bytes :: chunks =>
      match pushFrame buffer bytes with
      | (.error fault, _) => .error fault
      | (.ok frames, rest) => do
          let (later, last) ← pushAll rest chunks
          return (frames ++ later, last)

/-- The lines that a buffer is drained of are its lines without their ends. -/
theorem drainFrames_cut (hLine : 10 ∉ line)
    (h : drainFrames frames line bytes = (.ok result, rest)) :
    ∃ lines, result = frames ++ lines.map trimFrame ∧ Cut 10 (line ++ bytes) lines rest := by
  induction bytes generalizing frames line with
  | nil =>
      cases h
      exact ⟨[], by simp, by simp, nofun, hLine⟩
  | cons byte bytes ih =>
      rw [drainFrames] at h
      split_ifs at h with hEnd hEmpty
      · cases h
      · subst hEnd
        obtain ⟨lines, hResult, hCut⟩ := ih List.not_mem_nil h
        refine ⟨line :: lines, by simp [hResult], ?_⟩
        have hFirst : Cut 10 (line ++ [10]) [line] [] := ⟨by simp, by simpa using hLine, by simp⟩
        have hWhole := hFirst.append hCut
        rwa [List.append_assoc, List.singleton_append] at hWhole
      · have hLonger : 10 ∉ line ++ [byte] := by simp [hLine, Ne.symm hEnd]
        obtain ⟨lines, hResult, hCut⟩ := ih hLonger h
        rw [List.append_assoc, List.singleton_append] at hCut
        exact ⟨lines, hResult, hCut⟩

theorem pushFrame_cut (h : pushFrame buffer bytes = (.ok result, rest)) :
    ∃ lines, result = lines.map trimFrame ∧ Cut 10 (buffer ++ bytes) lines rest := by
  rw [pushFrame] at h
  split_ifs at h with hLarge
  · cases h
  · obtain ⟨lines, hResult, hCut⟩ := drainFrames_cut List.not_mem_nil h
    exact ⟨lines, by simpa using hResult, by simpa using hCut⟩

/-- However a stream is cut into chunks that can be pushed, its frames are its lines. -/
theorem pushAll_cut {chunks : List (List UInt8)} (hBuffer : 10 ∉ buffer)
    (h : pushAll buffer chunks = .ok (result, rest)) :
    ∃ lines, result = lines.map trimFrame ∧ Cut 10 (buffer ++ chunks.flatten) lines rest := by
  induction chunks generalizing buffer result with
  | nil =>
      cases h
      exact ⟨[], rfl, by simp, nofun, hBuffer⟩
  | cons bytes chunks ih =>
      rw [pushAll] at h
      cases hPush : pushFrame buffer bytes with
      | mk pushed left =>
          cases pushed with
          | error fault =>
              rw [hPush] at h
              cases h
          | ok frames =>
              rw [hPush] at h
              obtain ⟨⟨later, last⟩, hLater, hSame⟩ := Fallible.bind_eq_ok.mp h
              cases hSame
              obtain ⟨lines, rfl, hCut⟩ := pushFrame_cut hPush
              obtain ⟨others, rfl, hRest⟩ := ih hCut.unfinished hLater
              refine ⟨lines ++ others, by rw [List.map_append], ?_⟩
              rw [List.flatten_cons, ← List.append_assoc]
              exact hCut.append hRest

/-- Bytes without a line end are kept. -/
theorem drainFrames_open (h : 10 ∉ bytes) :
    drainFrames frames line bytes = (.ok frames, line ++ bytes) := by
  induction bytes generalizing line with
  | nil => rw [drainFrames, List.append_nil]
  | cons byte bytes ih =>
      rw [List.mem_cons, not_or] at h
      rw [drainFrames, if_neg (Ne.symm h.1), ih h.2, List.append_assoc, List.singleton_append]

/-- A line end that nothing follows. -/
theorem drainFrames_line (h : 10 ∉ bytes) :
    drainFrames [] line (bytes ++ [10]) =
      if trimFrame (line ++ bytes) = [] then (.error .invalidFrame, [])
      else (.ok [trimFrame (line ++ bytes)], []) := by
  induction bytes generalizing line with
  | nil =>
      rw [List.nil_append, drainFrames, if_pos rfl, List.append_nil]
      rfl
  | cons byte bytes ih =>
      rw [List.mem_cons, not_or] at h
      rw [List.cons_append, drainFrames, if_neg (Ne.symm h.1), ih h.2, List.append_assoc,
        List.singleton_append]

theorem pushFrame_open (hShort : buffer.length + bytes.length ≤ maxFrameBytes)
    (h : 10 ∉ buffer ++ bytes) : pushFrame buffer bytes = (.ok [], buffer ++ bytes) := by
  rw [pushFrame, if_neg (by omega), drainFrames_open h, List.nil_append]

theorem pushFrame_line (hShort : buffer.length + bytes.length ≤ maxFrameBytes) (hLine : 10 ∉ line)
    (h : buffer ++ bytes = line ++ [10]) :
    pushFrame buffer bytes = if trimFrame line = [] then (.error .invalidFrame, [])
      else (.ok [trimFrame line], []) := by
  rw [pushFrame, if_neg (by omega), h, drainFrames_line hLine, List.nil_append]

end Decoder

section Views

/-- A driver without the times and the diagnostics of its telemetry. -/
structure DriverView where
  state : DriverLifecycleState
  manifest : AgentManifestIdentity
  process : Option ProcessInstance
  runId : String
  resumeHandle : Option ProcessHandle
  processSpec : ProcessSpec
  decoder : List UInt8
  acts : List ProcessAct
  restarts : Nat
  lifecycle : List DriverLifecycleState
  turns : List TurnTelemetry

def TurnTelemetry.untimed (turn : TurnTelemetry) : TurnTelemetry :=
  { turn with startedAtUnixMs := 0, completedAtUnixMs := 0 }

def World.view (w : GenericCommandDriver) : DriverView where
  state := w.core.state
  manifest := w.core.manifest
  process := w.core.process
  runId := w.core.runId
  resumeHandle := w.own.resumeHandle
  processSpec := w.own.processSpec
  decoder := w.own.decoder
  acts := w.acts
  restarts := w.core.telemetry.restarts
  lifecycle := w.core.telemetry.lifecycle.map (·.state)
  turns := w.core.telemetry.turns.map TurnTelemetry.untimed

def DriverView.transition (v : DriverView) (state : DriverLifecycleState) : DriverView :=
  { v with state := state, lifecycle := v.lifecycle ++ [state] }

def DriverView.did (v : DriverView) (act : ProcessAct) : DriverView :=
  { v with acts := v.acts ++ [act] }

def DriverView.released (v : DriverView) : DriverView :=
  { v with process := none, resumeHandle := none, decoder := [] }

def DriverView.completed (v : DriverView) (request : TurnRequest) (output : VisibleTurnOutput) :
    DriverView :=
  { v with turns := v.turns ++ [⟨request.turnId, 0, 0, request.visibleInput, output.visibleOutput,
      output.toolCalls⟩] }

def DriverView.buffered (v : DriverView) (decoder : List UInt8) : DriverView :=
  { v with decoder := decoder }

theorem DriverView.buffered_self {v : DriverView} {decoder : List UInt8}
    (h : v.decoder = decoder) : v.buffered decoder = v := by
  rw [← h]
  rfl

variable (w : GenericCommandDriver)

@[simp] theorem view_transition (state : DriverLifecycleState) :
    (w.withCore (w.core.transition state)).view = w.view.transition state := by
  simp [World.view, World.withCore, DriverCore.transition, DriverView.transition]

@[simp] theorem view_diagnostic (stream : DiagnosticStream) (code text : String) :
    (w.withCore (w.core.diagnostic stream code text)).view = w.view :=
  rfl

@[simp] theorem view_readings (readings : Nat) :
    (w.withCore { w.core with readings := readings }).view = w.view :=
  rfl

@[simp] theorem view_did (act : ProcessAct) : (w.did act).view = w.view.did act :=
  rfl

@[simp] theorem view_released : w.released.view = w.view.released :=
  rfl

@[simp] theorem view_completed (request : TurnRequest) (started : Int)
    (output : VisibleTurnOutput) :
    (w.withCore (w.core.completed request started output)).view =
      w.view.completed request output := by
  simp [World.view, World.withCore, DriverCore.completed, DriverView.completed,
    TurnTelemetry.untimed]

end Views

section Turns

/-- What the single line of a turn comes to. -/
def turnVerdict (wire : Wire) (request : TurnRequest) (line : List UInt8) :
    Except ProtocolFault VisibleTurnOutput :=
  if trimFrame line = [] then .error .invalidFrame
  else
    match wire.decodeTurn (trimFrame line) with
    | none => .error .invalidFrame
    | some output =>
        if output.schemaVersion ≠ turnProtocolSchemaVersion then .error .invalidFrame
        else if output.turnId ≠ request.turnId then .error .turnMismatch
        else .ok output

/-- The driver after a turn: it is ready again, or its process is given up. -/
def DriverView.answered (v : DriverView) (process : ProcessInstance) (request : TurnRequest) :
    Except ProtocolFault VisibleTurnOutput → DriverView
  | .ok output => ((v.buffered []).completed request output).transition .ready
  | .error _ => (v.did (.terminated process)).released.transition (.crashed syntheticFailure)

/-- How a turn ends. -/
structure Concluded (v : DriverView) (verdict : Except ProtocolFault VisibleTurnOutput)
    (t : GenericCommandDriver) (result : Except DriverError VisibleTurnOutput) : Prop where
  view : t.view = v
  result : result = Fallible.mapErr ProtocolFault.error verdict

/-- A moment at which a process shows some bytes and nobody cancels. -/
structure Shows (moment : Moment) (stream : Stream) (bytes : List UInt8) : Prop where
  cancelled : moment.cancelled = false
  event : moment.event = .ok (stream.event bytes)

/-- A script on which the request is written, a stream arrives in some chunks among those
of the other one, and the process goes on to answer. -/
structure Arrives (stream : List UInt8) (answers : List Moment) : Prop where
  split : ∃ written chunks moments later, answers = written :: moments ++ later ∧
    written.cancelled = false ∧ written.written = .ok () ∧ later ≠ [] ∧
    List.Forall₂ (fun moment (chunk : Stream × List UInt8) => Shows moment chunk.1 chunk.2)
      moments chunks ∧
    (chunks.map fun chunk => chunk.1.event chunk.2).flatMap Stream.stdout.bytes = stream

variable {wire : Wire} {request : TurnRequest} {w : GenericCommandDriver} {started : Int}
  {process : ProcessInstance} {answers : List Moment} {moment : Moment} {line : List UInt8}

/-- A turn that fails gives the process up. -/
theorem fail_concludes {α : Type} {fault : ProtocolFault} (hProcess : w.core.process = some process)
    {post : GenericCommandDriver → List Moment → Except DriverError α → Prop}
    (hPost : ∀ t rest, t.view = (w.view.did (.terminated process)).released.transition
      (.crashed syntheticFailure) → post t rest (.error fault.error)) :
    Ensures (fail fault : Op GenericOwn α) steady w (moment :: answers) (fun _ => False)
      (fun _ _ => False) post := by
  have hReleased : ∀ t : GenericCommandDriver, t.view = w.view.did (.terminated process) →
      ∀ text, post ((t.released.withCore (t.released.core.transition
        (.crashed syntheticFailure))).withCore ((t.released.withCore (t.released.core.transition
          (.crashed syntheticFailure))).core.diagnostic .driver "protocol_failure" text)) answers
        (.error fault.error) := by
    intro t hView text
    apply hPost
    rw [view_diagnostic, view_transition, view_released, hView]
  rw [fail, ensures_bind, protocolFailure, ensures_bind, terminateHeld, ensures_bind, ensures_get]
  dsimp only
  rw [hProcess]
  dsimp only
  simp only [terminateProcess, record, ensures_bind, ensures_modify, ensures_await_cons,
    ensures_pure, steady_apply, Bool.false_eq_true, if_false]
  cases moment.terminated with
  | ok status => exact hReleased (w.did (.terminated process)) rfl fault.display
  | error e => exact hReleased ((w.did (.terminated process)).withCore
      ((w.did (.terminated process)).core.diagnostic .driver "protocol_termination_failed"
        e.display)) rfl fault.display

/-- A process that shows some bytes is read. -/
theorem ensures_shown {β : Type} {stream : Stream} {bytes : List UInt8}
    {g : Option (Except ProcessError ProcessEvent) → Op GenericOwn β}
    {inside : GenericCommandDriver → Prop} {cut : GenericCommandDriver → List Moment → Prop}
    {post : GenericCommandDriver → List Moment → Except DriverError β → Prop}
    (hProcess : w.core.process = some process) (h : Shows moment stream bytes)
    (hNext : Ensures (g (some (.ok (stream.event bytes)))) steady w answers inside cut post) :
    Ensures (race (withProcess (nextEvent .plain)) >>= g) steady w (moment :: answers) inside cut
      post := by
  rw [ensures_bind, race, ensures_select, withProcess, ensures_bind, ensures_get]
  dsimp only
  rw [hProcess]
  dsimp only
  rw [nextEvent, ensures_bind, ensures_await_cons, h.cancelled, if_neg Bool.false_ne_true]
  dsimp only
  rw [h.event]
  cases stream with
  | stdout => exact hNext
  | stderr => exact hNext

variable {v : DriverView}

/-- The answer of a turn is read from its frame. -/
theorem acceptFrame_concludes (hLater : answers ≠ []) (hView : w.view = v.buffered [])
    (hProcess : v.process = some process) (hFrame : trimFrame line ≠ []) :
    Ensures (acceptFrame wire request started (trimFrame line)) steady w answers (fun _ => False)
      (fun _ _ => False) fun t _ result => ∃ output : Except DriverError VisibleTurnOutput,
        result = output.map .inr ∧
        Concluded (v.answered process request (turnVerdict wire request line))
          (turnVerdict wire request line) t output := by
  obtain ⟨moment, rest, rfl⟩ := List.exists_cons_of_ne_nil hLater
  have hHeld : w.core.process = some process := (congrArg DriverView.process hView).trans hProcess
  have hFailed : ∀ fault, turnVerdict wire request line = .error fault →
      Ensures (fail fault : Op GenericOwn (Unit ⊕ VisibleTurnOutput)) steady w (moment :: rest)
        (fun _ => False) (fun _ _ => False) fun t _ result =>
          ∃ output : Except DriverError VisibleTurnOutput, result = output.map .inr ∧
            Concluded (v.answered process request (turnVerdict wire request line))
              (turnVerdict wire request line) t output := by
    intro fault hVerdict
    apply fail_concludes hHeld
    intro t later hGone
    refine ⟨.error fault.error, rfl, ?_, by rw [hVerdict]; rfl⟩
    rw [hGone, hView, hVerdict]
    rfl
  rw [acceptFrame]
  cases hOutput : wire.decodeTurn (trimFrame line) with
  | none => exact hFailed .invalidFrame (by simp [turnVerdict, hFrame, hOutput])
  | some output =>
      dsimp only
      split_ifs with hVersion hTurn
      · exact hFailed .invalidFrame (by simp [turnVerdict, hFrame, hOutput, hVersion])
      · have hSame : output.schemaVersion = turnProtocolSchemaVersion := not_not.mp hVersion
        exact hFailed .turnMismatch (by simp [turnVerdict, hFrame, hOutput, hSame, hTurn])
      · have hVerdict : turnVerdict wire request line = .ok output := by
          rw [turnVerdict, if_neg hFrame, hOutput]
          dsimp only
          rw [if_neg hVersion, if_neg hTurn]
        refine ⟨.ok output, rfl, ?_, by rw [hVerdict]; rfl⟩
        rw [view_transition, view_completed, hView, hVerdict]
        rfl

/-- The chunk that ends the line ends the turn. -/
theorem receive_concludes {seen bytes : List UInt8} (hLater : answers ≠ [])
    (hView : w.view = v.buffered seen) (hProcess : v.process = some process)
    (hShort : line.length + 1 ≤ maxFrameBytes) (hLine : 10 ∉ line)
    (hBytes : seen ++ bytes = line ++ [10]) :
    Ensures (receive wire request started bytes) steady w answers (fun _ => False)
      (fun _ _ => False) fun t _ result => ∃ output : Except DriverError VisibleTurnOutput,
        result = output.map .inr ∧
        Concluded (v.answered process request (turnVerdict wire request line))
          (turnVerdict wire request line) t output := by
  have hDecoder : w.own.decoder = seen := congrArg DriverView.decoder hView
  have hLength : seen.length + bytes.length ≤ maxFrameBytes := by
    rw [← List.length_append, hBytes, List.length_append]
    exact hShort
  have hPushed : ({ w with own := { w.own with decoder := [] } } : GenericCommandDriver).view =
      v.buffered [] := by
    show w.view.buffered [] = v.buffered []
    rw [hView]
    rfl
  rw [receive, ensures_bind, ensures_get]
  dsimp only
  rw [ensures_bind, ensures_modify, hDecoder, pushFrame_line hLength hLine hBytes]
  dsimp only
  split_ifs with hEmpty
  · obtain ⟨moment, rest, rfl⟩ := List.exists_cons_of_ne_nil hLater
    have hVerdict : turnVerdict wire request line = .error .invalidFrame := if_pos hEmpty
    apply fail_concludes ((congrArg DriverView.process hPushed).trans hProcess)
    intro t later hGone
    refine ⟨.error .invalidFrame, rfl, ?_, by rw [hVerdict]; rfl⟩
    rw [hGone, hPushed, hVerdict]
    rfl
  · exact acceptFrame_concludes hLater hPushed hProcess hEmpty

/-- A chunk without the line end is kept. -/
theorem receive_open {bytes : List UInt8}
    {post : GenericCommandDriver → List Moment → Except DriverError (Unit ⊕ VisibleTurnOutput) → Prop}
    (hShort : w.own.decoder.length + bytes.length ≤ maxFrameBytes)
    (hOpen : 10 ∉ w.own.decoder ++ bytes)
    (hPost : post { w with own := { w.own with decoder := w.own.decoder ++ bytes } } answers
      (.ok (.inl ()))) :
    Ensures (receive wire request started bytes) steady w answers (fun _ => False)
      (fun _ _ => False) post := by
  rw [receive, ensures_bind, ensures_get]
  dsimp only
  rw [ensures_bind, ensures_modify, pushFrame_open hShort hOpen]
  dsimp only
  rw [acceptFrames, ensures_bind, ensures_get]
  exact hPost

/-- A turn whose answer arrives in chunks ends with the verdict on its line. The induction is
on the chunks; the decoder holds what was seen of the line. -/
theorem readTurns_conclude {moments later : List Moment} {chunks : List (Stream × List UInt8)}
    (hShown : List.Forall₂ (fun moment (chunk : Stream × List UInt8) =>
      Shows moment chunk.1 chunk.2) moments chunks)
    (hLater : later ≠ []) (hProcess : v.process = some process)
    (hShort : line.length + 1 ≤ maxFrameBytes) (hLine : 10 ∉ line)
    {n : Nat} (hn : moments.length < n) {seen : List UInt8} (hView : w.view = v.buffered seen)
    (hSeen : 10 ∉ seen)
    (hBytes : seen ++ (chunks.map fun chunk => chunk.1.event chunk.2).flatMap
      Stream.stdout.bytes = line ++ [10]) :
    Ensures (rounds (readTurn .plain wire request started) n ()) steady w (moments ++ later)
      (fun _ => False) (fun _ _ => False) fun t _ result =>
        Concluded (v.answered process request (turnVerdict wire request line))
          (turnVerdict wire request line) t result := by
  induction hShown generalizing w n seen with
  | nil =>
      apply absurd _ hSeen
      have hAll : seen = line ++ [10] := by simpa using hBytes
      rw [hAll]
      exact List.mem_append_right line List.mem_cons_self
  | @cons moment chunk moments chunks hShows _ ih =>
      cases n with
      | zero => omega
      | succ n =>
          rw [List.length_cons, Nat.add_lt_add_iff_right] at hn
          have hHeld : w.core.process = some process :=
            (congrArg DriverView.process hView).trans hProcess
          have hDecoder : w.own.decoder = seen := congrArg DriverView.decoder hView
          rw [rounds, ensures_bind, List.cons_append, readTurn]
          apply ensures_shown hHeld hShows
          obtain ⟨stream, bytes⟩ := chunk
          cases stream with
          | stderr =>
              exact ih hn ((view_diagnostic w _ _ _).trans hView) hSeen hBytes
          | stdout =>
              rw [List.map_cons, List.flatMap_cons, ← List.append_assoc] at hBytes
              have hChunk : Stream.stdout.bytes (Stream.stdout.event bytes) = bytes := rfl
              rw [hChunk] at hBytes
              have hPrefix : seen ++ bytes <+: line ++ [10] := ⟨_, hBytes⟩
              by_cases hEnd : 10 ∈ seen ++ bytes
              · have hWhole : seen ++ bytes = line ++ [10] := by
                  rcases List.prefix_concat_iff.mp hPrefix with hWhole | hPart
                  · exact hWhole
                  · exact absurd (hPart.subset hEnd) hLine
                refine (receive_concludes (by simp [hLater]) hView hProcess hShort hLine hWhole).mono
                  fun t rest result hResult => ?_
                obtain ⟨output, rfl, hConcluded⟩ := hResult
                cases output with
                | ok output => exact ensures_pure.mpr hConcluded
                | error e => exact hConcluded
              · have hLength := hPrefix.length_le
                rw [List.length_append, List.length_append, List.length_singleton] at hLength
                apply receive_open
                · show w.own.decoder.length + bytes.length ≤ maxFrameBytes
                  rw [hDecoder]
                  omega
                · rw [hDecoder]
                  exact hEnd
                · apply ih hn _ hEnd hBytes
                  show w.view.buffered (w.own.decoder ++ bytes) = v.buffered (seen ++ bytes)
                  rw [hView, hDecoder]
                  rfl

/-- A request to a driver that is ready, when its answer arrives as a stream of one line. -/
theorem requestTurn_concludes {stream : List UInt8} (hReady : w.core.state = .ready)
    (hProcess : w.core.process = some process) (hDecoder : w.own.decoder = [])
    {bytes : List UInt8} (hEncoded : encodeTurnRequest w.core.runId request = .ok bytes)
    (hShort : line.length + 1 ≤ maxFrameBytes) (hLine : 10 ∉ line)
    (hStream : stream = line ++ [10]) (hArrives : Arrives stream answers) :
    Ensures (requestTurn .plain wire request false) steady w answers (fun _ => False)
      (fun _ _ => False) fun t _ result =>
        Concluded (((w.view.transition (.turnRunning request.turnId)).did
          (.wrote process bytes)).answered process request (turnVerdict wire request line))
          (turnVerdict wire request line) t result := by
  obtain ⟨written, chunks, moments, later, rfl, hCancelled, hWritten, hLater, hShown, hBytes⟩ :=
    hArrives.split
  have hNotReady : ¬ (w.core.state ≠ .ready ∨ w.core.process = none) := by
    simp [hReady, hProcess]
  rw [requestTurn, ensures_bind, ensures_get]
  dsimp only
  rw [if_neg hNotReady, hEncoded]
  dsimp only
  rw [if_neg Bool.false_ne_true, runTurn, ensures_bind, ensures_readClock]
  dsimp only
  rw [ensures_bind, ensures_transition]
  dsimp only
  rw [ensures_bind, race, ensures_select, withProcess, ensures_bind, ensures_get]
  dsimp only
  have hHeld : ((w.withCore { w.core with readings := w.core.readings + 1 }).withCore
      ((w.withCore { w.core with readings := w.core.readings + 1 }).core.transition
        (.turnRunning request.turnId))).core.process = some process := hProcess
  rw [hHeld]
  dsimp only
  rw [write, ensures_bind, List.cons_append, ensures_await_cons, hCancelled,
    if_neg Bool.false_ne_true]
  dsimp only
  rw [record, ensures_bind, ensures_modify, hWritten]
  apply readTurns_conclude hShown hLater hProcess hShort hLine _ _ List.not_mem_nil
  · rw [List.nil_append, hBytes, hStream]
  · rw [List.length_append]
    omega
  · have hSame : (((w.view.transition (.turnRunning request.turnId)).did
        (.wrote process bytes)).buffered []) =
          (w.view.transition (.turnRunning request.turnId)).did (.wrote process bytes) :=
      DriverView.buffered_self hDecoder
    rw [hSame, ← view_readings w (w.core.readings + 1), ← view_transition, ← view_did]
    rfl

end Turns

section Arrival

variable {wire : Wire} {manifest : ValidatedAgentManifest} {backend : Backend}
  {w₀ w : GenericCommandDriver} {request : TurnRequest} {bytes stream : List UInt8}

/-- A turn without a process is refused before anything is read. -/
theorem requestTurn_refused (hProcess : w.core.process = none) (answers : List Moment) :
    requestTurn .plain wire request false steady w answers =
      .finished w (.error (.invalidTransition "request_turn" w.core.state)) answers := by
  have hRefused : w.core.state ≠ .ready ∨ w.core.process = none := .inr hProcess
  simp only [requestTurn, bind, Async.bind, Async.get]
  rw [if_pos hRefused]
  rfl

/-- The turn of a driver that is ready is the same for all ways in which one line of answer
can arrive; and frames and rest of any stream are the same for all chunks that can be pushed:
its lines, without one carriage return at their ends, and what follows the last line end. -/
theorem chunks_irrelevant (wire : Wire) (backend : Backend) (manifest : ValidatedAgentManifest) :
    (∀ w₀ w request bytes line answers answers', GenericCommandDriver.Created manifest w₀ →
      Reaches (GenericCommandDriver.call backend wire) anyCall w₀ w → w.core.state = .ready →
      encodeTurnRequest w.core.runId request = .ok bytes →
      line.length + 1 ≤ maxFrameBytes → 10 ∉ line →
      Arrives (line ++ [10]) answers → Arrives (line ++ [10]) answers' →
      ∃ t t' result,
        (requestTurn .plain wire request false steady w answers).completed = some (t, result) ∧
        (requestTurn .plain wire request false steady w answers').completed = some (t', result) ∧
        t.view = t'.view) ∧
    (∀ chunks chunks' frames frames' rest rest', chunks.flatten = chunks'.flatten →
      pushAll [] chunks = .ok (frames, rest) → pushAll [] chunks' = .ok (frames', rest') →
      frames = frames' ∧ rest = rest' ∧ ∃ lines, chunks.flatten.splitOn 10 = lines ++ [rest] ∧
        frames = lines.map trimFrame) := by
  constructor
  · intro w₀ w request bytes line answers answers' hCreated hReach hReady hEncoded hShort hLine
      hArrives hArrives'
    obtain ⟨spec, -, hSound, hIdle⟩ := created_sound hCreated
    have hDecoder := (generic_reaches hReach hSound hIdle).2.decoder
    cases hProcess : w.core.process with
    | none =>
        exact ⟨w, w, _, by rw [requestTurn_refused hProcess]; rfl,
          by rw [requestTurn_refused hProcess]; rfl, rfl⟩
    | some process =>
        obtain ⟨t, result, _, hRun, hEnd⟩ := (requestTurn_concludes hReady hProcess hDecoder hEncoded
          hShort hLine rfl hArrives).completes
        obtain ⟨t', result', _, hRun', hEnd'⟩ := (requestTurn_concludes hReady hProcess hDecoder
          hEncoded hShort hLine rfl hArrives').completes
        refine ⟨t, t', result, hRun, ?_, hEnd.view.trans hEnd'.view.symm⟩
        rw [hRun', hEnd.result, hEnd'.result]
  · intro chunks chunks' frames frames' rest rest' hSame hPush hPush'
    obtain ⟨lines, rfl, hCut⟩ := pushAll_cut List.not_mem_nil hPush
    obtain ⟨lines', rfl, hCut'⟩ := pushAll_cut List.not_mem_nil hPush'
    have hSplit : chunks.flatten.splitOn 10 = lines ++ [rest] := hCut.splitOn
    have hSplit' : chunks.flatten.splitOn 10 = lines' ++ [rest'] := hSame ▸ hCut'.splitOn
    obtain ⟨hLines, hRest⟩ := List.append_inj' (hSplit.symm.trans hSplit') rfl
    exact ⟨by rw [hLines], List.singleton_inj.mp hRest, lines, hSplit, rfl⟩

end Arrival

section Demonstration

/-- A reader that knows the empty object. -/
def listeningWire : Wire :=
  ⟨fun frame => if frame = [123, 125] then some ⟨1, "turn-1", "pass", []⟩ else none, fun _ => ""⟩

def shownMoment (stream : Stream) (bytes : List UInt8) : Moment :=
  { demoMoment with event := .ok (stream.event bytes) }

/-- An answer at once, and one that is cut inside of its line end. -/
def wholeAnswer : List Moment :=
  [demoMoment, shownMoment .stdout [123, 125, 13, 10], demoMoment]

def cutAnswer : List Moment :=
  [demoMoment, shownMoment .stdout [123], shownMoment .stderr [33], shownMoment .stdout [125, 13],
    shownMoment .stdout [10], demoMoment]

theorem demo_chunks_irrelevant : ∃ t t' result,
    (requestTurn .plain listeningWire ⟨"turn-1", "play"⟩ false steady demoStarted
      wholeAnswer).completed = some (t, result) ∧
    (requestTurn .plain listeningWire ⟨"turn-1", "play"⟩ false steady demoStarted
      cutAnswer).completed = some (t', result) ∧
    t.view = t'.view := by
  have hStart : GenericCommandDriver.call .plain listeningWire demoDriver
      ⟨.start, false, [demoMoment]⟩ = some (demoStarted, .ok none) := rfl
  have hEncoded : encodeTurnRequest demoStarted.core.runId ⟨"turn-1", "play"⟩ = .ok _ :=
    if_pos (by decide)
  have hShows : ∀ stream bytes, Shows (shownMoment stream bytes) stream bytes :=
    fun _ _ => ⟨rfl, rfl⟩
  have hWhole : Arrives ([123, 125, 13] ++ [10]) wholeAnswer :=
    ⟨demoMoment, [(.stdout, [123, 125, 13, 10])], [_], [demoMoment], rfl, rfl, rfl,
      List.cons_ne_nil _ _, .cons (hShows _ _) .nil, rfl⟩
  have hCut : Arrives ([123, 125, 13] ++ [10]) cutAnswer :=
    ⟨demoMoment, [(.stdout, [123]), (.stderr, [33]), (.stdout, [125, 13]), (.stdout, [10])],
      [_, _, _, _], [demoMoment], rfl, rfl, rfl, List.cons_ne_nil _ _,
      .cons (hShows _ _) (.cons (hShows _ _) (.cons (hShows _ _) (.cons (hShows _ _) .nil))), rfl⟩
  exact (chunks_irrelevant listeningWire .plain demoManifest).1 demoDriver demoStarted _ _
    [123, 125, 13] _ _ demo_created ((Reaches.refl demoDriver).tail trivial hStart) rfl hEncoded
    (by decide) (by decide) hWhole hCut

end Demonstration

end WordArena.Agent
