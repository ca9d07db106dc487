import WordArena.Agent.Process
import WordArena.Library.Fallible
import WordArena.Library.Json

/-! The generic command driver: one process for a whole run, spoken to in JSON lines. -/
namespace WordArena.Agent

open Fallible WordArena.Lexicon

def maxFrameBytes : Nat := 1048576

inductive HarnessConfig where
  | codex (version : String)
  | claudeCode (version : String)
  | cline (version : String)
  | pi (version : String)
  | genericCommand (version executable : String) (arguments : List String)
deriving DecidableEq

/-- A validated manifest, as far as drivers read it. -/
structure ValidatedAgentManifest where
  harness : HarnessConfig
  identity : AgentManifestIdentity
deriving DecidableEq

/-- The readers of process output that the driver calls. -/
structure Wire where
  decodeTurn : List UInt8 → Option VisibleTurnOutput
  lossyText : List UInt8 → String

section Frames

/-- What a protocol failure reports. -/
inductive ProtocolFault where
  | process (e : ProcessError)
  | invalidFrame
  | frameTooLarge
  | turnMismatch
deriving DecidableEq

def ProtocolFault.error : ProtocolFault → DriverError
  | .process e => .process e
  | .invalidFrame => .invalidFrame
  | .frameTooLarge => .frameTooLarge
  | .turnMismatch => .turnMismatch

def ProtocolFault.display : ProtocolFault → String
  | .process e => s!"process adapter failed: {e.display}"
  | .invalidFrame => "agent stdout frame is invalid or contains unsupported fields"
  | .frameTooLarge => "agent stdout frame exceeds the configured bound"
  | .turnMismatch => "agent returned a response for a different turn"

/-- A line without its end. -/
def trimFrame (line : List UInt8) : List UInt8 :=
  if line.getLast? = some 13 then line.dropLast else line

/-- The complete lines of a buffer, and what is left of it. An empty line is refused. -/
def drainFrames (frames : List (List UInt8)) (line : List UInt8) :
    List UInt8 → Except ProtocolFault (List (List UInt8)) × List UInt8
  | [] => (.ok frames, line)
  | byte :: rest =>
      if byte = 10 then
        if trimFrame line = [] then (.error .invalidFrame, rest)
        else drainFrames (frames ++ [trimFrame line]) [] rest
      else drainFrames frames (line ++ [byte]) rest

/-- The line decoder. -/
def pushFrame (buffer bytes : List UInt8) :
    Except ProtocolFault (List (List UInt8)) × List UInt8 :=
  if maxFrameBytes < buffer.length + bytes.length then (.error .frameTooLarge, buffer)
  else drainFrames [] [] (buffer ++ bytes)

end Frames

section Driver

/-- What the generic driver keeps beside the core. -/
structure GenericOwn where
  resumeHandle : Option ProcessHandle
  processSpec : ProcessSpec
  decoder : List UInt8

abbrev GenericCommandDriver := World GenericOwn

def validRunId (runId : String) : Bool := runId ≠ "" && runId.toList.all fun c => !isControl c

/-- Creation from a manifest and the directory to work in. -/
def GenericCommandDriver.new (runId : String) (manifest : ValidatedAgentManifest)
    (workingDirectory : Option String) (clock : Nat → Int) (budget : BudgetController) :
    Except DriverError GenericCommandDriver :=
  match manifest.harness with
  | .genericCommand _ executable arguments => do
      reject (validRunId runId = false) .invalidCheckpoint
      return ⟨.fresh clock manifest.identity runId,
        ⟨none, ⟨executable, arguments, workingDirectory⟩, []⟩, [], budget⟩
  | _ => .error .unsupportedHarness

/-- The process and the handle are given up and the decoder is cleared. -/
def discard : Op GenericOwn Unit :=
  Async.modify fun w => { w with
    core := { w.core with process := none }
    own := { w.own with resumeHandle := none, decoder := [] } }

/-- The process in hand is told to end. A refusal is only noted. -/
def terminateHeld (code : String) : Op GenericOwn Unit := do
  let w ← Async.get
  match w.core.process with
  | none => return ()
  | some process =>
      match ← terminateProcess process with
      | .ok _ => return ()
      | .error e => diagnostic .driver code e.display

def cancellationError : Op GenericOwn DriverError := do
  terminateHeld "cancellation_termination_failed"
  discard
  transition (.terminated .cancelled)
  return .cancelled

def protocolFailure (fault : ProtocolFault) : Op GenericOwn DriverError := do
  terminateHeld "protocol_termination_failed"
  discard
  transition (.crashed syntheticFailure)
  diagnostic .driver "protocol_failure" fault.display
  return fault.error

/-- The end of an operation that lost against the token. -/
def giveUp {α : Type} : Op GenericOwn α := do
  let e ← cancellationError
  Async.throw e

def fail {α : Type} (fault : ProtocolFault) : Op GenericOwn α := do
  let e ← protocolFailure fault
  Async.throw e

def encodeTurnRequest (runId : String) (request : TurnRequest) : Except DriverError (List UInt8) :=
  if validRunId request.turnId then
    .ok (Bytes.utf8 (Json.object
      [("schema_version", Json.number turnProtocolSchemaVersion), ("type", Json.text "turn"),
        ("run_id", Json.text runId), ("turn_id", Json.text request.turnId),
        ("visible_input", Json.text request.visibleInput)]) ++ [10])
  else .error .invalidFrame

/-- An operation on the process in hand. -/
def withProcess {α : Type} (f : ProcessInstance → Op GenericOwn α) : Op GenericOwn α := do
  let w ← Async.get
  match w.core.process with
  | none => Async.throw .invalidCheckpoint
  | some process => f process

/-- A process is taken over. -/
def adopt (process : ProcessInstance) : Op GenericOwn Unit := do
  Async.modify fun w => { w with
    core := { w.core with process := some process }
    own := { w.own with resumeHandle := none } }
  transition .ready

def startProcess (backend : Backend) (spec : ProcessSpec) : Op GenericOwn Unit := do
  transition .starting
  match ← race (spawn backend spec) with
  | none => giveUp
  | some (.ok process) => adopt process
  | some (.error e) => do
      transition (.crashed syntheticFailure)
      Async.throw (.process e)

def start (backend : Backend) (cancelled : Bool) : Op GenericOwn Unit := do
  let w ← Async.get
  if w.core.state ≠ .pending then Async.throw (.invalidTransition "start" w.core.state)
  else if cancelled then giveUp
  else startProcess backend w.own.processSpec

/-- The single frame of a turn. -/
def acceptFrame (wire : Wire) (request : TurnRequest) (started : Int) (frame : List UInt8) :
    Op GenericOwn (Unit ⊕ VisibleTurnOutput) :=
  match wire.decodeTurn frame with
  | none => fail .invalidFrame
  | some output =>
      if output.schemaVersion ≠ turnProtocolSchemaVersion then fail .invalidFrame
      else if output.turnId ≠ request.turnId then fail .turnMismatch
      else do
        update (·.completed request started output)
        transition .ready
        return .inr output

def acceptFrames (wire : Wire) (request : TurnRequest) (started : Int)
    (frames : List (List UInt8)) : Op GenericOwn (Unit ⊕ VisibleTurnOutput) := do
  let w ← Async.get
  if 1 < frames.length then fail .invalidFrame
  else
    match frames.head? with
    | none => return .inl ()
    | some frame =>
        if w.own.decoder ≠ [] then fail .invalidFrame
        else acceptFrame wire request started frame

def receive (wire : Wire) (request : TurnRequest) (started : Int) (bytes : List UInt8) :
    Op GenericOwn (Unit ⊕ VisibleTurnOutput) := do
  let w ← Async.get
  Async.modify fun w => { w with
    own := { w.own with decoder := (pushFrame w.own.decoder bytes).2 } }
  match (pushFrame w.own.decoder bytes).1 with
  | .error fault => fail fault
  | .ok frames => acceptFrames wire request started frames

/-- One event of a turn. -/
def readTurn (backend : Backend) (wire : Wire) (request : TurnRequest) (started : Int) (_ : Unit) :
    Op GenericOwn (Unit ⊕ VisibleTurnOutput) := do
  match ← race (withProcess (nextEvent backend)) with
  | none => giveUp
  | some (.error e) => fail (.process e)
  | some (.ok (.stderr bytes)) => do
      diagnostic .stderr "process_stderr" (wire.lossyText bytes)
      return .inl ()
  | some (.ok (.exited exit)) => do
      discard
      transition (.crashed exit)
      Async.throw (.unexpectedExit exit)
  | some (.ok (.stdout bytes)) => receive wire request started bytes

def runTurn (backend : Backend) (wire : Wire) (request : TurnRequest) (bytes : List UInt8) :
    Op GenericOwn VisibleTurnOutput := do
  let started ← readClock
  transition (.turnRunning request.turnId)
  match ← race (withProcess (write · bytes)) with
  | none => giveUp
  | some (.error e) => fail (.process e)
  | some (.ok _) => Async.loop (readTurn backend wire request started) ()

def requestTurn (backend : Backend) (wire : Wire) (request : TurnRequest) (cancelled : Bool) :
    Op GenericOwn VisibleTurnOutput := do
  let w ← Async.get
  if w.core.state ≠ .ready ∨ w.core.process = none then
    Async.throw (.invalidTransition "request_turn" w.core.state)
  else
    match encodeTurnRequest w.core.runId request with
    | .error e => Async.throw e
    | .ok bytes => if cancelled then giveUp else runTurn backend wire request bytes

/-- A process for a run that has none in hand. -/
def replaceProcess (backend : Backend) (spec : ProcessSpec) : Op GenericOwn Unit := do
  match ← race (spawn backend spec) with
  | none => giveUp
  | some (.error e) => Async.throw (.process e)
  | some (.ok process) => adopt process

/-- The saved process, or a new one when it is gone. -/
def reattachOrRestart (backend : Backend) (spec : ProcessSpec) (handle : ProcessHandle) :
    Op GenericOwn Unit := do
  match ← race (reattach handle) with
  | none => giveUp
  | some (.ok process) => adopt process
  | some (.error .reattachUnsupported) => restart
  | some (.error .missing) => restart
  | some (.error e) => Async.throw (.process e)
where
  restart : Op GenericOwn Unit := do
    update (·.restarted)
    diagnostic .driver "process_restart_after_restore"
      "saved process could not be reattached; starting a replacement"
    replaceProcess backend spec

/-- Continuation of a run whose process is not in hand. -/
def resumeDetached (backend : Backend) (w : GenericCommandDriver) : Op GenericOwn Unit :=
  match w.core.state with
  | .ready =>
      match w.own.resumeHandle with
      | none => Async.throw .invalidCheckpoint
      | some handle => reattachOrRestart backend w.own.processSpec handle
  | .crashed _ => do
      update (·.restarted)
      replaceProcess backend w.own.processSpec
  | state => Async.throw (.invalidTransition "resume" state)

def resume (backend : Backend) (cancelled : Bool) : Op GenericOwn Unit := do
  let w ← Async.get
  if w.core.process ≠ none then return ()
  else if cancelled then giveUp
  else resumeDetached backend w

/-- The end of a run whose process is gone. -/
def finishTermination (reason : TerminationReason) : Op GenericOwn Unit := do
  discard
  transition (.terminated reason)

def terminateFrom (reason : TerminationReason) (previous : DriverLifecycleState) :
    Op GenericOwn Unit := do
  transition .terminating
  let w ← Async.get
  match w.core.process with
  | none => finishTermination reason
  | some process =>
      match ← terminateProcess process with
      | .ok _ => finishTermination reason
      | .error e => do
          diagnostic .driver "termination_failed" e.display
          transition previous
          Async.throw (.process e)

def terminate (reason : TerminationReason) : Op GenericOwn Unit := do
  let w ← Async.get
  match w.core.state with
  | .terminated _ => return ()
  | state => terminateFrom reason state

end Driver

section Checkpoint

structure DriverCheckpoint where
  schemaVersion : Nat
  runId : String
  manifest : AgentManifestIdentity
  state : DriverLifecycleState
  process : Option ProcessHandle
  processSpec : ProcessSpec
  telemetry : DriverTelemetry
deriving DecidableEq

/-- The handle of the process in hand, or the saved one. -/
def GenericCommandDriver.checkpoint (handle : ProcessInstance → ProcessHandle)
    (w : GenericCommandDriver) : Except DriverError DriverCheckpoint := do
  reject (w.core.state.transient = true) .invalidCheckpoint
  return ⟨driverCheckpointSchemaVersion, w.core.runId, w.core.manifest, w.core.state,
    (w.core.process.map handle).or w.own.resumeHandle, w.own.processSpec, w.core.telemetry⟩

/-- Records are numbered from zero. -/
def numbered {ρ : Type} (sequence : ρ → Nat) (records : List ρ) : Bool :=
  records.zipIdx.all fun entry => sequence entry.1 == entry.2

def validLifecycle (state : DriverLifecycleState) (lifecycle : List LifecycleTransition) : Bool :=
  !lifecycle.isEmpty && numbered (·.sequence) lifecycle &&
    lifecycle.getLast?.any fun transition => transition.state == state

def restoreWithProcessSpec (manifest : ValidatedAgentManifest) (checkpoint : DriverCheckpoint)
    (expected : ProcessSpec) (clock : Nat → Int) (budget : BudgetController) :
    Except DriverError GenericCommandDriver := do
  reject (checkpoint.schemaVersion ≠ driverCheckpointSchemaVersion ∨
    checkpoint.manifest ≠ manifest.identity ∨
    checkpoint.telemetry.schemaVersion ≠ driverTelemetrySchemaVersion ∨
    checkpoint.telemetry.runId ≠ checkpoint.runId ∨
    checkpoint.telemetry.manifest ≠ checkpoint.manifest ∨ validRunId checkpoint.runId = false ∨
    checkpoint.processSpec ≠ expected ∨
    validLifecycle checkpoint.state checkpoint.telemetry.lifecycle = false ∨
    numbered (·.sequence) checkpoint.telemetry.diagnostics = false ∨
    checkpoint.state.transient = true) .invalidCheckpoint
  reject (decide (checkpoint.state = .ready) ≠ checkpoint.process.isSome) .invalidCheckpoint
  return ⟨⟨clock, 0, checkpoint.state, checkpoint.manifest, none, checkpoint.runId,
    checkpoint.telemetry⟩, ⟨checkpoint.process, checkpoint.processSpec, []⟩, [], budget⟩

def GenericCommandDriver.restore (manifest : ValidatedAgentManifest)
    (checkpoint : DriverCheckpoint) (clock : Nat → Int) (budget : BudgetController) :
    Except DriverError GenericCommandDriver :=
  match manifest.harness with
  | .genericCommand _ executable arguments =>
      restoreWithProcessSpec manifest checkpoint
        ⟨executable, arguments, checkpoint.processSpec.workingDirectory⟩ clock budget
  | _ => .error .unsupportedHarness

end Checkpoint

end WordArena.Agent
