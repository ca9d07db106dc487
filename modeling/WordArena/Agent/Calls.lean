import WordArena.Agent.Generic
import WordArena.Agent.Native

/-! Sequences of driver calls, each of them run to its end. -/
namespace WordArena.Agent

open Async Fallible

inductive Call where
  | start
  | requestTurn (request : TurnRequest)
  | resume
  | terminate (reason : TerminationReason)

/-- A call, whether its token is cancelled when it is made, and what is outside at each of
its await points. -/
structure Invocation where
  call : Call
  cancelled : Bool
  answers : List Moment

/-- No condition on a call. -/
def anyCall {Own : Type} (_ : World Own) (_ : Invocation) : Prop := True

section Generic

def GenericCommandDriver.perform (backend : Backend) (wire : Wire) (cancelled : Bool) :
    Call → Op GenericOwn (Option VisibleTurnOutput)
  | .start => do
      start backend cancelled
      return none
  | .requestTurn request => do
      let output ← requestTurn backend wire request cancelled
      return some output
  | .resume => do
      resume backend cancelled
      return none
  | .terminate reason => do
      terminate reason
      return none

def GenericCommandDriver.call (backend : Backend) (wire : Wire) (w : GenericCommandDriver)
    (i : Invocation) : Option (GenericCommandDriver × Except DriverError (Option VisibleTurnOutput)) :=
  (perform backend wire i.cancelled i.call steady w i.answers).completed

/-- A driver that was made from its manifest, new or from a checkpoint. -/
inductive GenericCommandDriver.Created (manifest : ValidatedAgentManifest) :
    GenericCommandDriver → Prop where
  | new {runId : String} {workingDirectory : Option String} {clock : Nat → Int}
      {budget : BudgetController} {w : GenericCommandDriver}
      (h : GenericCommandDriver.new runId manifest workingDirectory clock budget = .ok w) :
      Created manifest w
  | restore {checkpoint : DriverCheckpoint} {clock : Nat → Int} {budget : BudgetController}
      {w : GenericCommandDriver}
      (h : GenericCommandDriver.restore manifest checkpoint clock budget = .ok w) :
      Created manifest w

variable {backend : Backend} {wire : Wire} {manifest : ValidatedAgentManifest}
  {identity : AgentManifestIdentity} {spec : ProcessSpec} {w w₀ : GenericCommandDriver}
  {answers : List Moment}

/-- Every call keeps a driver in order. -/
theorem ensures_perform {cancelled : Bool} {call : Call} (h : Sound identity spec w)
    (hIdle : Idle w) :
    Ensures (GenericCommandDriver.perform backend wire cancelled call) steady w answers
      (Busy identity spec) (fun _ _ => True) fun t _ _ => Sound identity spec t ∧ Idle t := by
  have hDone : ∀ {α : Type} {t : GenericCommandDriver} {rest : List Moment}
      {result : Except DriverError α}, Done identity spec False t rest result →
      Sound identity spec t ∧ Idle t := by
    intro α t rest result hResult
    cases result with
    | ok a => exact ⟨hResult.1, hResult.2.1⟩
    | error e => exact ⟨hResult.sound, hResult.idle⟩
  cases call with
  | start =>
      rw [GenericCommandDriver.perform, ensures_bind]
      refine (ensures_start h hIdle False.elim).mono fun t rest result hResult => ?_
      cases result <;> exact hDone hResult
  | requestTurn request =>
      rw [GenericCommandDriver.perform, ensures_bind]
      refine (ensures_requestTurn h hIdle False.elim).mono fun t rest result hResult => ?_
      cases result <;> exact hDone hResult
  | resume =>
      rw [GenericCommandDriver.perform, ensures_bind]
      refine (ensures_resume h hIdle False.elim).mono fun t rest result hResult => ?_
      cases result <;> exact hDone hResult
  | terminate reason =>
      rw [GenericCommandDriver.perform, ensures_bind]
      refine (ensures_terminate h hIdle).mono fun t rest result hResult => ?_
      cases result <;> exact hResult

/-- The command line that a manifest gives. -/
def Commanded (manifest : ValidatedAgentManifest) (spec : ProcessSpec) : Prop :=
  ∃ version, manifest.harness = .genericCommand version spec.executable spec.arguments

theorem created_sound (h : GenericCommandDriver.Created manifest w) :
    ∃ spec, Commanded manifest spec ∧ Sound manifest.identity spec w ∧ Idle w := by
  cases h with
  | @new runId workingDirectory clock budget _ h =>
      rw [GenericCommandDriver.new] at h
      cases hHarness : manifest.harness with
      | genericCommand version executable arguments =>
          rw [hHarness] at h
          obtain ⟨_, hRunId, hReturn⟩ := bind_eq_ok.mp h
          rw [reject_eq_ok, Bool.not_eq_false] at hRunId
          cases hReturn
          refine ⟨⟨executable, arguments, workingDirectory⟩, ⟨version, hHarness⟩,
            ⟨kept_fresh hRunId, rfl, ?_⟩, ⟨rfl, fun h => absurd rfl h,
              fun h => absurd rfl h, (fun h => by cases h), rfl⟩⟩
          rintro process (⟨_, hMem⟩ | ⟨_, hMem⟩) <;> cases hMem
      | _ =>
          rw [hHarness] at h
          cases h
  | @restore checkpoint clock budget _ h =>
      rw [GenericCommandDriver.restore] at h
      cases hHarness : manifest.harness with
      | genericCommand version executable arguments =>
          rw [hHarness] at h
          obtain ⟨_, hValid, hNext⟩ := bind_eq_ok.mp h
          obtain ⟨_, hProcess, hReturn⟩ := bind_eq_ok.mp hNext
          simp only [reject_eq_ok, not_or, ne_eq, not_not, Bool.not_eq_false, Bool.not_eq_true]
            at hValid hProcess
          obtain ⟨-, hManifest, hSchema, hRun, hIdentity, hRunId, hSpec, hLifecycle, hDiagnostics,
            hStable⟩ := hValid
          cases hReturn
          refine ⟨_, ⟨version, hHarness⟩, ⟨⟨⟨hLifecycle, hDiagnostics⟩, hManifest, hSchema, hRun,
            hIdentity.trans hManifest, hRunId⟩, hSpec, ?_⟩, ⟨hStable, (by simp), ?_, ?_, rfl⟩⟩
          · rintro process (⟨_, hMem⟩ | ⟨_, hMem⟩) <;> cases hMem
          · intro hHandle
            rw [Option.isSome_iff_ne_none.mpr hHandle] at hProcess
            exact of_decide_eq_true hProcess
          · intro hState
            rw [decide_eq_true hState] at hProcess
            exact .inr (Option.isSome_iff_ne_none.mp hProcess.symm)
      | _ =>
          rw [hHarness] at h
          cases h

theorem generic_call {i : Invocation} {t : GenericCommandDriver}
    {result : Except DriverError (Option VisibleTurnOutput)}
    (hCall : GenericCommandDriver.call backend wire w i = some (t, result)) (hSound : Sound identity spec w)
    (hIdle : Idle w) : Sound identity spec t ∧ Idle t := by
  obtain ⟨rest, hEnd⟩ := (ensures_perform hSound hIdle).completed hCall
  exact hEnd

/-- A driver stays in order, whatever is called. -/
theorem generic_reaches {ok : GenericCommandDriver → Invocation → Prop}
    (h : Reaches (GenericCommandDriver.call backend wire) ok w₀ w) (hSound : Sound identity spec w₀)
    (hIdle : Idle w₀) : Sound identity spec w ∧ Idle w := by
  have hStep : ∀ s i t result, ok s i → GenericCommandDriver.call backend wire s i = some (t, result) →
      Sound identity spec s ∧ Idle s → Sound identity spec t ∧ Idle t :=
    fun s i t result _ hCall hs => generic_call hCall hs.1 hs.2
  exact h.invariant hStep ⟨hSound, hIdle⟩

end Generic

end WordArena.Agent

namespace WordArena.Agent.Native

open Async Fallible

def NativeHarnessDriver.perform (backend : Backend) (tools : Tools) (cancelled : Bool) :
    Call → Op NativeOwn (Option VisibleTurnOutput)
  | .start => do
      start backend tools
      return none
  | .requestTurn request => do
      let output ← requestTurn backend tools request cancelled
      return some output
  | .resume => do
      resume backend tools
      return none
  | .terminate reason => do
      terminate reason
      return none

def NativeHarnessDriver.call (backend : Backend) (tools : Tools) (w : NativeHarnessDriver)
    (i : Invocation) : Option (NativeHarnessDriver × Except DriverError (Option VisibleTurnOutput)) :=
  (perform backend tools i.cancelled i.call steady w i.answers).completed

inductive NativeHarnessDriver.Created (manifest : ValidatedAgentManifest) :
    NativeHarnessDriver → Prop where
  | new {runId : String} {runtime : HarnessRuntimeConfig} {clock : Nat → Int}
      {budget : BudgetController} {w : NativeHarnessDriver}
      (h : NativeHarnessDriver.new runId manifest runtime clock budget = .ok w) :
      Created manifest w
  | restore {checkpoint : NativeHarnessCheckpoint} {runtime : HarnessRuntimeConfig}
      {clock : Nat → Int} {budget : BudgetController} {w : NativeHarnessDriver}
      (h : NativeHarnessDriver.restore manifest checkpoint runtime clock budget = .ok w) :
      Created manifest w

variable {backend : Backend} {tools : Tools} {manifest : ValidatedAgentManifest}
  {identity : AgentManifestIdentity} {kind : NativeHarnessKind} {w w₀ : NativeHarnessDriver}
  {answers : List Moment}

theorem ensures_perform {cancelled : Bool} {call : Call} (h : Sound identity kind w)
    (hIdle : Idle w) :
    Ensures (NativeHarnessDriver.perform backend tools cancelled call) steady w answers
      (Busy identity kind) (fun _ _ => True) fun t _ _ => Sound identity kind t ∧ Idle t := by
  have hDone : ∀ {α : Type} {t : NativeHarnessDriver} {rest : List Moment}
      {result : Except DriverError α}, Done identity kind False t rest result →
      Sound identity kind t ∧ Idle t := by
    intro α t rest result hResult
    cases result with
    | ok a => exact ⟨hResult.1, hResult.2.1⟩
    | error e => exact ⟨hResult.sound, hResult.idle⟩
  cases call with
  | start =>
      rw [NativeHarnessDriver.perform, ensures_bind]
      refine (ensures_start h hIdle False.elim).mono fun t rest result hResult => ?_
      cases result <;> exact hDone hResult
  | requestTurn request =>
      rw [NativeHarnessDriver.perform, ensures_bind]
      refine (ensures_requestTurn h hIdle False.elim).mono fun t rest result hResult => ?_
      cases result <;> exact hDone hResult
  | resume =>
      rw [NativeHarnessDriver.perform, ensures_bind]
      refine (ensures_resume h hIdle False.elim).mono fun t rest result hResult => ?_
      cases result <;> exact hDone hResult
  | terminate reason =>
      rw [NativeHarnessDriver.perform, ensures_bind]
      refine (ensures_terminate h hIdle).mono fun t rest result hResult => ?_
      cases result <;> exact hResult

theorem created_sound (h : NativeHarnessDriver.Created manifest w) :
    ∃ kind version, nativeHarness manifest.harness = .ok (kind, version) ∧
      Sound manifest.identity kind w ∧ Idle w := by
  cases h with
  | @new runId runtime clock budget _ h =>
      obtain ⟨_, -, hNext⟩ := bind_eq_ok.mp h
      obtain ⟨⟨kind, version⟩, hKind, hRest⟩ := bind_eq_ok.mp hNext
      obtain ⟨_, hRunId, hReturn⟩ := bind_eq_ok.mp hRest
      rw [reject_eq_ok, Bool.not_eq_false] at hRunId
      cases hReturn
      exact ⟨kind, version, hKind, ⟨kept_fresh hRunId, rfl, ledger_nil⟩, rfl, rfl⟩
  | @restore checkpoint runtime clock budget _ h =>
      obtain ⟨_, -, hNext⟩ := bind_eq_ok.mp h
      obtain ⟨⟨kind, version⟩, hKind, hRest⟩ := bind_eq_ok.mp hNext
      obtain ⟨_, hValid, hReturn⟩ := bind_eq_ok.mp hRest
      obtain ⟨_, hChecked, hRunId⟩ := bind_eq_ok.mp hValid
      simp only [reject_eq_ok, not_or, ne_eq, not_not, Bool.not_eq_false, Bool.not_eq_true]
        at hChecked hRunId
      obtain ⟨-, hManifest, hHarness, hSchema, hRun, hIdentity, hLifecycle, hDiagnostics,
        hStable⟩ := hChecked
      cases hReturn
      exact ⟨kind, version, hKind, ⟨⟨⟨hLifecycle, hDiagnostics⟩, hManifest, hSchema, hRun,
        hIdentity.trans hManifest, hRunId⟩, rfl, ledger_nil⟩, hStable, rfl⟩

theorem native_call {i : Invocation} {t : NativeHarnessDriver}
    {result : Except DriverError (Option VisibleTurnOutput)}
    (hCall : NativeHarnessDriver.call backend tools w i = some (t, result)) (hSound : Sound identity kind w)
    (hIdle : Idle w) : Sound identity kind t ∧ Idle t := by
  obtain ⟨rest, hEnd⟩ := (ensures_perform hSound hIdle).completed hCall
  exact hEnd

theorem native_reaches {ok : NativeHarnessDriver → Invocation → Prop}
    (h : Reaches (NativeHarnessDriver.call backend tools) ok w₀ w) (hSound : Sound identity kind w₀)
    (hIdle : Idle w₀) : Sound identity kind w ∧ Idle w := by
  have hStep : ∀ s i t result, ok s i → NativeHarnessDriver.call backend tools s i = some (t, result) →
      Sound identity kind s ∧ Idle s → Sound identity kind t ∧ Idle t :=
    fun s i t result _ hCall hs => native_call hCall hs.1 hs.2
  exact h.invariant hStep ⟨hSound, hIdle⟩

end WordArena.Agent.Native
