import Mathlib.Data.List.Infix
import WordArena.Agent.Driver

/-! The driver of native harnesses: one process for the version probe and one for each
turn, read to its end. -/
namespace WordArena.Agent.Native

open Fallible

def maxNativeStdoutBytes : Nat := 1048576

inductive NativeHarnessKind where
  | codex
  | claudeCode
  | cline
  | pi
deriving DecidableEq

def NativeHarnessKind.name : NativeHarnessKind → String
  | .codex => "codex"
  | .claudeCode => "claude_code"
  | .cline => "cline"
  | .pi => "pi"

def NativeHarnessKind.minimumVersion : NativeHarnessKind → String
  | .codex => "0.144.0"
  | .claudeCode => "2.1.205"
  | .cline => "3.0.46"
  | .pi => "0.73.1"

structure HarnessExecutables where
  codex : String
  claudeCode : String
  cline : String
  pi : String
deriving DecidableEq

def HarnessExecutables.get (e : HarnessExecutables) : NativeHarnessKind → String
  | .codex => e.codex
  | .claudeCode => e.claudeCode
  | .cline => e.cline
  | .pi => e.pi

structure HarnessRuntimeConfig where
  workspace : String
  stateDirectory : String
  mcpConfig : String
  executables : HarnessExecutables
deriving DecidableEq

def HarnessRuntimeConfig.valid (runtime : HarnessRuntimeConfig) : Bool :=
  [runtime.workspace, runtime.stateDirectory, runtime.mcpConfig].all (·.toList.head? == some '/') &&
    [runtime.executables.codex, runtime.executables.claudeCode, runtime.executables.cline,
      runtime.executables.pi].all validRunId

structure NormalizedOutput where
  visibleOutput : String
  toolCalls : List VisibleToolCall

/-- The readers that the driver calls: reported versions, their order and their texts,
the structured output of each harness, and the command line of a turn. -/
structure Tools where
  Version : Type
  parseReportedVersion : List UInt8 → Option Version
  below : Version → String → Bool
  text : Version → String
  normalizeOutput : NativeHarnessKind → List UInt8 → Option NormalizedOutput
  turnArguments : NativeHarnessKind → HarnessRuntimeConfig → TurnRequest → List String

inductive NativeStderrClassification where
  | unclassified
  | mcpInitializationFailed
  | authenticationFailed
  | tlsTrustFailed
  | sandboxDenied
deriving DecidableEq

/-- The order in which classifications outrank each other. -/
def NativeStderrClassification.rank : NativeStderrClassification → Nat
  | .unclassified => 0
  | .mcpInitializationFailed => 1
  | .authenticationFailed => 2
  | .tlsTrustFailed => 3
  | .sandboxDenied => 4

def containsBytes (value : List UInt8) (needle : String) : Bool :=
  decide (Bytes.utf8 needle <:+: value)

def NativeStderrClassification.observe (current : NativeStderrClassification)
    (bytes : List UInt8) : NativeStderrClassification :=
  let observed :=
    if containsBytes bytes "Operation not permitted" then .sandboxDenied
    else if containsBytes bytes "UnknownIssuer" then .tlsTrustFailed
    else if containsBytes bytes "HTTP 401" || containsBytes bytes "AuthorizationRequired" ||
      containsBytes bytes "authentication failed" then .authenticationFailed
    else if containsBytes bytes "required MCP servers failed to initialize" then
      .mcpInitializationFailed
    else .unclassified
  if current.rank ≤ observed.rank then observed else current

def NativeStderrClassification.summary : NativeStderrClassification → String × String
  | .sandboxDenied => ("harness_sandbox_denied", "was blocked by the local process sandbox")
  | .tlsTrustFailed => ("harness_tls_trust_failed",
      "could not establish provider TLS trust inside the local sandbox")
  | .authenticationFailed => ("harness_authentication_failed",
      "could not authenticate the provider or required MCP session")
  | .mcpInitializationFailed => ("harness_mcp_initialization_failed",
      "could not initialize the required Word Arena MCP session")
  | .unclassified => ("harness_stderr_redacted", "exited after emitting private diagnostics")

section Driver

/-- What the native driver keeps beside the core. -/
structure NativeOwn where
  kind : NativeHarnessKind
  expectedVersion : String
  runtime : HarnessRuntimeConfig
  needsProbe : Bool

abbrev NativeHarnessDriver := World NativeOwn

def nativeHarness : HarnessConfig → Except DriverError (NativeHarnessKind × String)
  | .codex version => .ok (.codex, version)
  | .claudeCode version => .ok (.claudeCode, version)
  | .cline version => .ok (.cline, version)
  | .pi version => .ok (.pi, version)
  | .genericCommand .. => .error .unsupportedHarness

def NativeHarnessDriver.new (runId : String) (manifest : ValidatedAgentManifest)
    (runtime : HarnessRuntimeConfig) (clock : Nat → Int) (budget : BudgetController) :
    Except DriverError NativeHarnessDriver := do
  reject (runtime.valid = false) .invalidHarnessRuntime
  let (kind, expectedVersion) ← nativeHarness manifest.harness
  reject (validRunId runId = false) .invalidCheckpoint
  return ⟨.fresh clock manifest.identity runId, ⟨kind, expectedVersion, runtime, true⟩, [], budget⟩

def markCrashed (exit : ExitStatus) : Op NativeOwn Unit := do
  hold none
  transition (.crashed exit)

def terminationText (kind : NativeHarnessKind) (e : ProcessError) : String :=
  s!"{kind.name} process termination failed: {e.display}"

def terminateHeld (code : String) : Op NativeOwn Unit := do
  let w ← Async.get
  match w.core.process with
  | none => return ()
  | some process =>
      match ← terminateProcess process with
      | .ok _ => return ()
      | .error e => diagnostic .driver code (terminationText w.own.kind e)

def cancellationError : Op NativeOwn DriverError := do
  terminateHeld "cancellation_termination_failed"
  hold none
  transition (.terminated .cancelled)
  return .cancelled

def giveUp {α : Type} : Op NativeOwn α := do
  let e ← cancellationError
  Async.throw e

def withProcess {α : Type} (f : ProcessInstance → Op NativeOwn α) : Op NativeOwn α := do
  let w ← Async.get
  match w.core.process with
  | none => Async.throw .invalidCheckpoint
  | some process => f process

structure CapturedProcess where
  stdout : List UInt8
  stderrBytes : Nat
  stderrClassification : NativeStderrClassification
  exit : ExitStatus

/-- The output of a process so far. -/
structure Capture where
  stdout : List UInt8
  stderrBytes : Nat
  stderrClassification : NativeStderrClassification

/-- The process in hand is told to end, whatever it answers. -/
def terminateQuietly : Op NativeOwn Unit := do
  let w ← Async.get
  match w.core.process with
  | none => return ()
  | some process => do
      let _ ← terminateProcess process
      return ()

def dropOversized {α : Type} : Op NativeOwn α := do
  terminateQuietly
  hold none
  Async.throw .frameTooLarge

/-- One event of a process that is read to its end. -/
def readCapture (backend : Backend) (capture : Capture) :
    Op NativeOwn (Capture ⊕ CapturedProcess) := do
  match ← race (withProcess (nextEvent backend)) with
  | none => giveUp
  | some (.error e) => Async.throw (.process e)
  | some (.ok (.stdout bytes)) =>
      if maxNativeStdoutBytes < capture.stdout.length + bytes.length then dropOversized
      else return .inl { capture with stdout := capture.stdout ++ bytes }
  | some (.ok (.stderr bytes)) =>
      return .inl { capture with
        stderrBytes := saturatingAdd capture.stderrBytes bytes.length
        stderrClassification := capture.stderrClassification.observe bytes }
  | some (.ok (.exited exit)) => do
      hold none
      return .inr ⟨capture.stdout, capture.stderrBytes, capture.stderrClassification, exit⟩

def runProcess (backend : Backend) (spec : ProcessSpec) : Op NativeOwn CapturedProcess := do
  match ← race (spawn backend spec) with
  | none => giveUp
  | some (.error e) => Async.throw (.process e)
  | some (.ok process) => do
      hold (some process)
      match ← withProcess closeInput with
      | .error e => Async.throw (.process e)
      | .ok _ => Async.loop (readCapture backend) ⟨[], 0, .unclassified⟩

def crash {α : Type} (exit : ExitStatus) (e : DriverError) : Op NativeOwn α := do
  markCrashed exit
  Async.throw e

def failedProcessDiagnostic (kind : NativeHarnessKind) (captured : CapturedProcess) :
    Op NativeOwn Unit :=
  if captured.stderrBytes = 0 then return ()
  else diagnostic .driver captured.stderrClassification.summary.1
    (s!"{kind.name} {captured.stderrClassification.summary.2}; " ++
      s!"{captured.stderrBytes} stderr bytes were redacted")

/-- A process that exited with a failure. -/
def failedExit {α : Type} (kind : NativeHarnessKind) (captured : CapturedProcess) :
    Op NativeOwn α := do
  failedProcessDiagnostic kind captured
  crash captured.exit (.harnessExit kind.name captured.exit)

def stderrDiagnostic (code text : String) (bytes : Nat) : Op NativeOwn Unit :=
  if 0 < bytes then diagnostic .driver code text else return ()

/-- A harness of the expected version. -/
def markReady (kind : NativeHarnessKind) (installed : String) (captured : CapturedProcess) :
    Op NativeOwn Unit := do
  stderrDiagnostic "version_probe_stderr_redacted"
    s!"{kind.name} version probe emitted {captured.stderrBytes} redacted stderr bytes"
    captured.stderrBytes
  Async.modify fun w => { w with own := { w.own with needsProbe := false } }
  diagnostic .driver "harness_ready" s!"{kind.name} {installed} is compatible"
  transition .ready

def judgeProbe (tools : Tools) (own : NativeOwn) (captured : CapturedProcess) :
    Op NativeOwn Unit :=
  if captured.exit.success = false then failedExit own.kind captured
  else
    match tools.parseReportedVersion captured.stdout with
    | none => crash syntheticFailure (.harnessVersionUnparseable own.kind.name)
    | some installed =>
        if tools.below installed own.kind.minimumVersion then
          crash syntheticFailure (.harnessVersionUnsupported own.kind.name (tools.text installed)
            own.kind.minimumVersion)
        else if tools.text installed ≠ own.expectedVersion then
          crash syntheticFailure (.harnessVersionMismatch own.kind.name own.expectedVersion
            (tools.text installed))
        else markReady own.kind (tools.text installed) captured

def probe (backend : Backend) (tools : Tools) : Op NativeOwn Unit := do
  transition .starting
  let w ← Async.get
  let executable := w.own.runtime.executables.get w.own.kind
  match ← (runProcess backend
    ⟨executable, ["--version"], some w.own.runtime.workspace⟩).attempt with
  | .ok captured => judgeProbe tools w.own captured
  | .error (.process .spawn) =>
      crash syntheticFailure (.harnessUnavailable w.own.kind.name executable)
  | .error .cancelled => Async.throw .cancelled
  | .error e => crash syntheticFailure e

def completeTurn (request : TurnRequest) (started : Int) (kind : NativeHarnessKind)
    (captured : CapturedProcess) (normalized : NormalizedOutput) :
    Op NativeOwn VisibleTurnOutput := do
  stderrDiagnostic "harness_stderr_redacted"
    s!"{kind.name} emitted {captured.stderrBytes} redacted stderr bytes" captured.stderrBytes
  let output : VisibleTurnOutput := ⟨turnProtocolSchemaVersion, request.turnId,
    normalized.visibleOutput, normalized.toolCalls⟩
  update (·.completed request started output)
  transition .ready
  return output

/-- Output that cannot be read. -/
def rejectOutput {α : Type} (kind : NativeHarnessKind) : Op NativeOwn α := do
  markCrashed syntheticFailure
  diagnostic .driver "structured_output_rejected"
    s!"{kind.name} output was rejected without persisting raw bytes"
  Async.throw (.harnessOutput kind.name)

def judgeTurn (tools : Tools) (kind : NativeHarnessKind) (request : TurnRequest) (started : Int)
    (captured : CapturedProcess) : Op NativeOwn VisibleTurnOutput :=
  if captured.exit.success = false then failedExit kind captured
  else
    match tools.normalizeOutput kind captured.stdout with
    | none => rejectOutput kind
    | some normalized => completeTurn request started kind captured normalized

def turnSpec (tools : Tools) (own : NativeOwn) (request : TurnRequest) : ProcessSpec :=
  ⟨own.runtime.executables.get own.kind, tools.turnArguments own.kind own.runtime request,
    some own.runtime.workspace⟩

def runTurn (backend : Backend) (tools : Tools) (request : TurnRequest) :
    Op NativeOwn VisibleTurnOutput := do
  let started ← readClock
  transition (.turnRunning request.turnId)
  let w ← Async.get
  match ← (runProcess backend (turnSpec tools w.own request)).attempt with
  | .ok captured => judgeTurn tools w.own.kind request started captured
  | .error .cancelled => Async.throw .cancelled
  | .error e => crash syntheticFailure e

def requestNativeTurn (backend : Backend) (tools : Tools) (request : TurnRequest)
    (cancelled : Bool) : Op NativeOwn VisibleTurnOutput :=
  if validRunId request.turnId = false then Async.throw .invalidFrame
  else if cancelled then giveUp
  else runTurn backend tools request

def start (backend : Backend) (tools : Tools) : Op NativeOwn Unit := do
  let w ← Async.get
  if w.core.state ≠ .pending then Async.throw (.invalidTransition "start" w.core.state)
  else probe backend tools

def requestTurn (backend : Backend) (tools : Tools) (request : TurnRequest) (cancelled : Bool) :
    Op NativeOwn VisibleTurnOutput := do
  let w ← Async.get
  if w.core.state ≠ .ready ∨ w.own.needsProbe = true then
    Async.throw (.invalidTransition "request_turn" w.core.state)
  else requestNativeTurn backend tools request cancelled

def resume (backend : Backend) (tools : Tools) : Op NativeOwn Unit := do
  let w ← Async.get
  match w.core.state with
  | .ready => if w.own.needsProbe = false then return () else probe backend tools
  | .crashed _ => do
      update (·.restarted)
      probe backend tools
  | state => Async.throw (.invalidTransition "resume" state)

def finishTermination (reason : TerminationReason) : Op NativeOwn Unit := do
  hold none
  transition (.terminated reason)

def terminateFrom (reason : TerminationReason) (previous : DriverLifecycleState) :
    Op NativeOwn Unit := do
  transition .terminating
  let w ← Async.get
  match w.core.process with
  | none => finishTermination reason
  | some process =>
      match ← terminateProcess process with
      | .ok _ => finishTermination reason
      | .error e => do
          diagnostic .driver "termination_failed" (terminationText w.own.kind e)
          transition previous
          Async.throw (.process e)

def terminate (reason : TerminationReason) : Op NativeOwn Unit := do
  let w ← Async.get
  match w.core.state with
  | .terminated _ => return ()
  | state => terminateFrom reason state

end Driver

section Checkpoint

structure NativeHarnessCheckpoint where
  schemaVersion : Nat
  runId : String
  manifest : AgentManifestIdentity
  harness : NativeHarnessKind
  state : DriverLifecycleState
  telemetry : DriverTelemetry
deriving DecidableEq

def NativeHarnessDriver.checkpoint (w : NativeHarnessDriver) :
    Except DriverError NativeHarnessCheckpoint := do
  reject (w.core.state.transient = true) .invalidCheckpoint
  return ⟨driverCheckpointSchemaVersion, w.core.runId, w.core.manifest, w.own.kind, w.core.state,
    w.core.telemetry⟩

def validateNativeCheckpoint (manifest : ValidatedAgentManifest)
    (checkpoint : NativeHarnessCheckpoint) (kind : NativeHarnessKind) :
    Except DriverError Unit := do
  reject (checkpoint.schemaVersion ≠ driverCheckpointSchemaVersion ∨
    checkpoint.manifest ≠ manifest.identity ∨ checkpoint.harness ≠ kind ∨
    checkpoint.telemetry.schemaVersion ≠ driverTelemetrySchemaVersion ∨
    checkpoint.telemetry.runId ≠ checkpoint.runId ∨
    checkpoint.telemetry.manifest ≠ checkpoint.manifest ∨
    validLifecycle checkpoint.state checkpoint.telemetry.lifecycle = false ∨
    numbered (·.sequence) checkpoint.telemetry.diagnostics = false ∨
    checkpoint.state.transient = true) .invalidCheckpoint
  reject (validRunId checkpoint.runId = false) .invalidCheckpoint

/-- A restored driver probes its harness again before it continues. -/
def NativeHarnessDriver.restore (manifest : ValidatedAgentManifest)
    (checkpoint : NativeHarnessCheckpoint) (runtime : HarnessRuntimeConfig) (clock : Nat → Int)
    (budget : BudgetController) : Except DriverError NativeHarnessDriver := do
  reject (runtime.valid = false) .invalidHarnessRuntime
  let (kind, expectedVersion) ← nativeHarness manifest.harness
  validateNativeCheckpoint manifest checkpoint kind
  return ⟨⟨clock, 0, checkpoint.state, checkpoint.manifest, none, checkpoint.runId,
    checkpoint.telemetry⟩, ⟨kind, expectedVersion, runtime, decide (checkpoint.state = .ready)⟩,
    [], budget⟩

end Checkpoint

end WordArena.Agent.Native
