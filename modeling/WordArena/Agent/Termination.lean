import WordArena.Agent.Lifecycle

/-! Calls that the state of a driver does not permit, and runs that have ended. -/
namespace WordArena.Agent

open Async Fallible Native

/-- The calls that a state does not permit. -/
def Call.Forbidden (state : DriverLifecycleState) : Call → Prop
  | .start => state ≠ .pending
  | .requestTurn _ => state ≠ .ready
  | .resume => state = .pending ∨ ∃ reason, state = .terminated reason
  | .terminate _ => False

/-- The state, the process, the log and the restarts of a driver are as they were, and
nothing was done with processes. -/
structure Untouched {Own : Type} (w t : World Own) : Prop where
  state : t.core.state = w.core.state
  process : t.core.process = w.core.process
  lifecycle : t.core.telemetry.lifecycle = w.core.telemetry.lifecycle
  restarts : t.core.telemetry.restarts = w.core.telemetry.restarts
  acts : t.acts = w.acts

/-- A call that is refused for the state, without any effect. -/
def Refused {Own : Type}
    (call : World Own → Invocation → Option (World Own × Except DriverError (Option VisibleTurnOutput)))
    (w : World Own) (i : Invocation) : Prop :=
  ∃ t operation, call w i = some (t, .error (.invalidTransition operation w.core.state)) ∧
    Untouched w t

theorem Untouched.refl {Own : Type} (w : World Own) : Untouched w w :=
  ⟨rfl, rfl, rfl, rfl, rfl⟩

/-- A request to continue whose token is already cancelled. -/
def Invocation.LateResume (i : Invocation) : Prop := i.call = .resume ∧ i.cancelled = true

section Generic

variable {backend : Backend} {wire : Wire} {w : GenericCommandDriver} {i : Invocation}

/-- Every other call that is not permitted is refused at once. -/
theorem generic_refused (hIdle : Idle w) (hForbidden : i.call.Forbidden w.core.state)
    (hToken : ¬ i.LateResume) : Refused (GenericCommandDriver.call backend wire) w i := by
  have hRefused : ∀ operation, Ensures (GenericCommandDriver.perform backend wire i.cancelled i.call)
      steady w i.answers (fun _ => False) (fun _ _ => False) (fun t _ result =>
        t = w ∧ result = .error (.invalidTransition operation w.core.state)) →
      Refused (GenericCommandDriver.call backend wire) w i := by
    intro operation hRun
    obtain ⟨t, result, -, hCall, rfl, rfl⟩ := hRun.completes
    exact ⟨t, operation, hCall, .refl t⟩
  obtain ⟨call, cancelled, answers⟩ := i
  cases call with
  | start =>
      have hState : w.core.state ≠ .pending := hForbidden
      refine hRefused "start" ?_
      rw [GenericCommandDriver.perform, ensures_bind, start, ensures_bind, ensures_get]
      dsimp only
      rw [if_pos hState]
      exact ⟨rfl, rfl⟩
  | requestTurn request =>
      have hState : w.core.state ≠ .ready ∨ w.core.process = none := .inl hForbidden
      refine hRefused "request_turn" ?_
      rw [GenericCommandDriver.perform, ensures_bind, requestTurn, ensures_bind, ensures_get]
      dsimp only
      rw [if_pos hState]
      exact ⟨rfl, rfl⟩
  | resume =>
      have hLive : cancelled = false := by
        by_contra hCancelled
        exact hToken ⟨rfl, Bool.not_eq_false _ ▸ hCancelled⟩
      have hNone : w.core.process = none := by
        refine hIdle.process_none ?_
        rcases hForbidden with hState | ⟨reason, hState⟩ <;> rw [hState] <;> simp
      refine hRefused "resume" ?_
      rw [GenericCommandDriver.perform, ensures_bind, resume, ensures_bind, ensures_get]
      dsimp only
      rw [if_neg (not_not.mpr hNone), if_neg (by rw [hLive]; simp), resumeDetached]
      rcases hForbidden with hState | ⟨reason, hState⟩
      · rw [hState]
        exact ⟨rfl, rfl⟩
      · rw [hState]
        exact ⟨rfl, rfl⟩
  | terminate reason => cases hForbidden

/-- A late request to continue is answered with the cancellation, which is recorded. -/
theorem generic_late (hNone : w.core.process = none) (h : i.LateResume) :
    ∃ t, GenericCommandDriver.call backend wire w i = some (t, .error .cancelled) ∧
      t.core.state = .terminated .cancelled ∧ t.acts = w.acts := by
  obtain ⟨call, cancelled, answers⟩ := i
  obtain ⟨rfl, rfl⟩ := h
  have hRun : Ensures (GenericCommandDriver.perform backend wire true .resume) steady w answers
      (fun _ => False) (fun _ _ => False) (fun t _ result => result = .error .cancelled ∧
        t.core.state = .terminated .cancelled ∧ t.acts = w.acts) := by
    rw [GenericCommandDriver.perform, ensures_bind, resume, ensures_bind, ensures_get]
    dsimp only
    rw [if_neg (not_not.mpr hNone), if_pos rfl, giveUp, ensures_bind, cancellationError,
      ensures_bind, terminateHeld, ensures_bind, ensures_get]
    dsimp only
    rw [hNone]
    exact ⟨rfl, rfl, rfl⟩
  obtain ⟨t, result, -, hCall, rfl, hState, hActs⟩ := hRun.completes
  exact ⟨t, hCall, hState, hActs⟩

/-- An ended run answers every other call without any effect. -/
theorem generic_ended {reason : TerminationReason} (hState : w.core.state = .terminated reason)
    (hIdle : Idle w) (hToken : ¬ i.LateResume) :
    ∃ t result, GenericCommandDriver.call backend wire w i = some (t, result) ∧ Untouched w t := by
  have hRefused : i.call.Forbidden w.core.state →
      ∃ t result, GenericCommandDriver.call backend wire w i = some (t, result) ∧ Untouched w t := by
    intro hForbidden
    obtain ⟨t, operation, hCall, hSame⟩ := generic_refused hIdle hForbidden hToken
    exact ⟨t, _, hCall, hSame⟩
  obtain ⟨call, cancelled, answers⟩ := i
  cases call with
  | start => exact hRefused (by rw [hState]; nofun)
  | requestTurn request => exact hRefused (by rw [hState]; nofun)
  | resume => exact hRefused (.inr ⟨reason, hState⟩)
  | terminate other =>
      have hRun : Ensures (GenericCommandDriver.perform backend wire cancelled (.terminate other))
          steady w answers (fun _ => False) (fun _ _ => False) (fun t _ _ => Untouched w t) := by
        rw [GenericCommandDriver.perform, ensures_bind, terminate, ensures_bind, ensures_get]
        dsimp only
        rw [hState]
        exact .refl w
      obtain ⟨t, result, -, hCall, hSame⟩ := hRun.completes
      exact ⟨t, result, hCall, hSame⟩

end Generic

section Native

variable {backend : Backend} {tools : Tools} {w : NativeHarnessDriver} {i : Invocation}

theorem native_refused (hForbidden : i.call.Forbidden w.core.state) :
    Refused (NativeHarnessDriver.call backend tools) w i := by
  have hRefused : ∀ operation, Ensures (NativeHarnessDriver.perform backend tools i.cancelled i.call)
      steady w i.answers (fun _ => False) (fun _ _ => False) (fun t _ result =>
        t = w ∧ result = .error (.invalidTransition operation w.core.state)) →
      Refused (NativeHarnessDriver.call backend tools) w i := by
    intro operation hRun
    obtain ⟨t, result, -, hCall, rfl, rfl⟩ := hRun.completes
    exact ⟨t, operation, hCall, .refl t⟩
  obtain ⟨call, cancelled, answers⟩ := i
  cases call with
  | start =>
      have hState : w.core.state ≠ .pending := hForbidden
      refine hRefused "start" ?_
      rw [NativeHarnessDriver.perform, ensures_bind, Native.start, ensures_bind, ensures_get]
      dsimp only
      rw [if_pos hState]
      exact ⟨rfl, rfl⟩
  | requestTurn request =>
      have hState : w.core.state ≠ .ready ∨ w.own.needsProbe = true := .inl hForbidden
      refine hRefused "request_turn" ?_
      rw [NativeHarnessDriver.perform, ensures_bind, Native.requestTurn, ensures_bind, ensures_get]
      dsimp only
      rw [if_pos hState]
      exact ⟨rfl, rfl⟩
  | resume =>
      refine hRefused "resume" ?_
      rw [NativeHarnessDriver.perform, ensures_bind, Native.resume, ensures_bind, ensures_get]
      dsimp only
      rcases hForbidden with hState | ⟨reason, hState⟩
      · rw [hState]
        exact ⟨rfl, rfl⟩
      · rw [hState]
        exact ⟨rfl, rfl⟩
  | terminate reason => cases hForbidden

theorem native_ended {reason : TerminationReason} (hState : w.core.state = .terminated reason) :
    ∃ t result, NativeHarnessDriver.call backend tools w i = some (t, result) ∧ Untouched w t := by
  have hRefused : i.call.Forbidden w.core.state →
      ∃ t result, NativeHarnessDriver.call backend tools w i = some (t, result) ∧ Untouched w t := by
    intro hForbidden
    obtain ⟨t, operation, hCall, hSame⟩ := native_refused hForbidden
    exact ⟨t, _, hCall, hSame⟩
  obtain ⟨call, cancelled, answers⟩ := i
  cases call with
  | start => exact hRefused (by rw [hState]; nofun)
  | requestTurn request => exact hRefused (by rw [hState]; nofun)
  | resume => exact hRefused (.inr ⟨reason, hState⟩)
  | terminate other =>
      have hRun : Ensures (NativeHarnessDriver.perform backend tools cancelled (.terminate other))
          steady w answers (fun _ => False) (fun _ _ => False) (fun t _ _ => Untouched w t) := by
        rw [NativeHarnessDriver.perform, ensures_bind, Native.terminate, ensures_bind, ensures_get]
        dsimp only
        rw [hState]
        exact .refl w
      obtain ⟨t, result, -, hCall, hSame⟩ := hRun.completes
      exact ⟨t, result, hCall, hSame⟩

end Native

/-- What a later state of an ended run has in common with it. -/
theorem ended_invariant {Own : Type} {reason : TerminationReason}
    {call : World Own → Invocation → Option (World Own × Except DriverError (Option VisibleTurnOutput))}
    {ok : World Own → Invocation → Prop} (inv : World Own → Prop) {w w' : World Own}
    (hRun : Reaches call ok w w') (hInv : inv w) (hState : w.core.state = .terminated reason)
    (hKeeps : ∀ s i t result, ok s i → call s i = some (t, result) → inv s → inv t)
    (hStep : ∀ s i t result, ok s i → call s i = some (t, result) → inv s →
      s.core.state = .terminated reason → Untouched s t) : Untouched w w' := by
  have hAll : ∀ s i t result, ok s i → call s i = some (t, result) →
      Untouched w s ∧ inv s → Untouched w t ∧ inv t := by
    intro s i t result hOk hCall hs
    have hNext := hStep s i t result hOk hCall hs.2 (hs.1.state.trans hState)
    refine ⟨⟨hNext.state.trans hs.1.state, hNext.process.trans hs.1.process,
      hNext.lifecycle.trans hs.1.lifecycle, hNext.restarts.trans hs.1.restarts,
      hNext.acts.trans hs.1.acts⟩, hKeeps s i t result hOk hCall hs.2⟩
  exact (hRun.invariant hAll ⟨.refl w, hInv⟩).1

/-- Of the generic driver, a call that the state does not permit is refused without any
effect exactly when it is not a late request to continue, and an ended run without such
requests keeps its outcome, its log and its processes. The native driver does so for
every call. -/
theorem termination_absorbing (backend : Backend) (wire : Wire) (tools : Tools)
    (manifest : ValidatedAgentManifest) :
    (∀ w₀ w, GenericCommandDriver.Created manifest w₀ →
      Reaches (GenericCommandDriver.call backend wire) anyCall w₀ w →
      (∀ i : Invocation, i.call.Forbidden w.core.state →
        (Refused (GenericCommandDriver.call backend wire) w i ↔ ¬ i.LateResume)) ∧
      ∀ reason, w.core.state = .terminated reason → ∀ w',
        Reaches (GenericCommandDriver.call backend wire) (fun _ i => ¬ i.LateResume) w w' →
        Untouched w w') ∧
    (∀ w₀ w, NativeHarnessDriver.Created manifest w₀ →
      Reaches (NativeHarnessDriver.call backend tools) anyCall w₀ w →
      (∀ i : Invocation, i.call.Forbidden w.core.state →
        Refused (NativeHarnessDriver.call backend tools) w i) ∧
      ∀ reason, w.core.state = .terminated reason → ∀ w',
        Reaches (NativeHarnessDriver.call backend tools) anyCall w w' → Untouched w w') := by
  constructor
  · intro w₀ w hCreated hRun
    obtain ⟨spec, -, hSound₀, hIdle₀⟩ := Agent.created_sound hCreated
    obtain ⟨hSound, hIdle⟩ := generic_reaches hRun hSound₀ hIdle₀
    refine ⟨fun i hForbidden => ⟨fun hRefused hLate => ?_, generic_refused hIdle hForbidden⟩,
      fun reason hState w' hLater => ?_⟩
    · have hNone : w.core.process = none := by
        refine hIdle.process_none ?_
        rw [hLate.1] at hForbidden
        rcases hForbidden with hState | ⟨reason, hState⟩ <;> rw [hState] <;> nofun
      obtain ⟨t, hCall, -⟩ : ∃ t, GenericCommandDriver.call backend wire w i =
          some (t, .error .cancelled) ∧ _ := generic_late hNone hLate
      obtain ⟨u, operation, hOther, -⟩ := hRefused
      cases hOther.symm.trans hCall
    · refine ended_invariant (fun w => Sound manifest.identity spec w ∧ Idle w) hLater
        ⟨hSound, hIdle⟩ hState ?_ ?_
      · intro s i t result _ hCall hs
        exact generic_call hCall hs.1 hs.2
      · intro s i t result hOk hCall hs hEnded
        obtain ⟨u, outcome, hOther, hSame⟩ := generic_ended hEnded hs.2 hOk
        cases hOther.symm.trans hCall
        exact hSame
  · intro w₀ w hCreated hRun
    refine ⟨fun i hForbidden => native_refused hForbidden, fun reason hState w' hLater => ?_⟩
    refine ended_invariant (fun _ => True) hLater trivial hState (fun _ _ _ _ _ _ _ => trivial)
      fun s i t result _ hCall _ hEnded => ?_
    obtain ⟨u, outcome, hOther, hSame⟩ := native_ended hEnded
    cases hOther.symm.trans hCall
    exact hSame

/-- A driver that was terminated refuses to start again. -/
theorem demo_refused : ∃ w result,
    GenericCommandDriver.call .plain demoWire demoDriver ⟨.terminate .operator, false, []⟩ =
      some (w, result) ∧
      Refused (GenericCommandDriver.call .plain demoWire) w ⟨.start, true, []⟩ := by
  refine ⟨_, _, rfl, (((termination_absorbing .plain demoWire demoTools demoManifest).1 demoDriver _
    demo_created ((Reaches.refl _).tail (i := ⟨.terminate .operator, false, []⟩) trivial rfl)).1
    ⟨.start, true, []⟩ nofun).mpr ?_⟩
  rintro ⟨hCall, -⟩
  cases hCall

/-- A run that the operator ended is recorded as cancelled by a late request to continue,
and so is a run that never started. -/
theorem late_resume_rewrites :
    (∃ w result t, GenericCommandDriver.call .plain demoWire demoDriver
        ⟨.terminate .operator, false, []⟩ = some (w, result) ∧
      w.core.state = .terminated .operator ∧
      GenericCommandDriver.call .plain demoWire w ⟨.resume, true, []⟩ = some (t, .error .cancelled) ∧
      t.core.state = .terminated .cancelled ∧
      t.core.telemetry.lifecycle.length = w.core.telemetry.lifecycle.length + 1) ∧
    demoDriver.core.state = .pending ∧
    ∃ t, GenericCommandDriver.call .plain demoWire demoDriver ⟨.resume, true, []⟩ =
        some (t, .error .cancelled) ∧ t.core.state = .terminated .cancelled :=
  ⟨⟨_, _, _, rfl, rfl, rfl, rfl, rfl⟩, rfl, _, rfl, rfl⟩

section Processes

/-- The generic driver never loses a process. The native driver loses exactly those that
could not be read or whose input could not be closed. -/
theorem no_abandoned_process (wire : Wire) (tools : Tools) (manifest : ValidatedAgentManifest) :
    (∀ w₀ w, GenericCommandDriver.Created manifest w₀ →
      Reaches (GenericCommandDriver.call .plain wire) anyCall w₀ w →
      Custody w.acts w.core.process) ∧
    (∀ w₀ w, NativeHarnessDriver.Created manifest w₀ →
      Reaches (NativeHarnessDriver.call .plain tools) anyCall w₀ w →
      (Custody w.acts w.core.process ↔ ∀ process, ¬ Failed w.acts process)) := by
  constructor
  · intro w₀ w hCreated hRun
    obtain ⟨spec, -, hSound₀, hIdle₀⟩ := Agent.created_sound hCreated
    exact (generic_reaches hRun hSound₀ hIdle₀).1.custody
  · intro w₀ w hCreated hRun
    obtain ⟨kind, version, -, hSound₀, hIdle₀⟩ := Native.created_sound hCreated
    obtain ⟨hSound, hIdle⟩ := native_reaches hRun hSound₀ hIdle₀
    constructor
    · intro hCustody process hFailed
      obtain ⟨hObtained, hRunning⟩ := hSound.ledger.failed process hFailed
      rcases hCustody process hObtained with hHeld | hEnded
      · cases hIdle.process.symm.trans hHeld
      · exact hRunning hEnded
    · intro hHealthy process hObtained
      rcases hSound.ledger.accounted process hObtained with hHeld | hEnded | hFailed
      · exact .inl hHeld
      · exact .inr hEnded
      · exact absurd hFailed (hHealthy process)

def demoRuntime : HarnessRuntimeConfig :=
  ⟨"/workspace", "/state", "/mcp.json", ⟨"codex", "claude", "cline", "pi"⟩⟩

def demoHarness : ValidatedAgentManifest := ⟨.codex "0.144.0", ⟨1, "sha256", "00"⟩⟩

def demoNative : NativeHarnessDriver :=
  ⟨.fresh (fun reading => reading) demoHarness.identity "run-1", ⟨.codex, "0.144.0", demoRuntime, true⟩,
    [], demoBudget⟩

theorem demo_native_created : NativeHarnessDriver.Created demoHarness demoNative := by
  have hNew : NativeHarnessDriver.new "run-1" demoHarness demoRuntime (fun reading => reading)
      demoBudget = .ok demoNative := rfl
  exact .new hNew

/-- A probe whose process exits leaves nothing behind. -/
theorem demo_custody : ∃ w result,
    NativeHarnessDriver.call .plain demoTools demoNative
      ⟨.start, false, [demoMoment, demoMoment, demoMoment]⟩ = some (w, result) ∧
      Custody w.acts w.core.process := by
  refine ⟨_, _, rfl, ((no_abandoned_process demoWire demoTools demoHarness).2 demoNative _
    demo_native_created ((Reaches.refl _).tail
      (i := ⟨.start, false, [demoMoment, demoMoment, demoMoment]⟩) trivial rfl)).mpr ?_⟩
  intro process hFailed
  change .failed process ∈ [.spawned ⟨0⟩ ⟨"codex", ["--version"], some "/workspace"⟩,
    ProcessAct.exited ⟨0⟩] at hFailed
  simp at hFailed

/-- A moment at which the input of a process cannot be closed. -/
def brokenInput : Moment := { demoMoment with inputClosed := .error .write }

/-- A probe whose process cannot be given the end of its input is forgotten while it runs. -/
theorem probe_abandoned :
    NativeHarnessDriver.Created demoHarness demoNative ∧ ∃ w result,
      NativeHarnessDriver.call .plain demoTools demoNative
        ⟨.start, false, [demoMoment, brokenInput]⟩ = some (w, result) ∧
      w.acts = [.spawned ⟨0⟩ ⟨"codex", ["--version"], some "/workspace"⟩, .failed ⟨0⟩] ∧
      w.core.process = none ∧ ¬ Custody w.acts w.core.process := by
  refine ⟨demo_native_created, _, _, rfl, rfl, rfl, fun hCustody => ?_⟩
  rcases hCustody ⟨0⟩ (.inl ⟨_, List.mem_cons_self⟩) with hHeld | hEnded
  · cases hHeld
  · change .exited ⟨0⟩ ∈ [.spawned ⟨0⟩ ⟨"codex", ["--version"], some "/workspace"⟩,
      ProcessAct.failed ⟨0⟩] ∨ .terminated ⟨0⟩ ∈ [.spawned ⟨0⟩ ⟨"codex", ["--version"],
      some "/workspace"⟩, ProcessAct.failed ⟨0⟩] at hEnded
    simp at hEnded

end Processes

end WordArena.Agent
