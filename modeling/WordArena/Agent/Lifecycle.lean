import WordArena.Agent.Calls

/-! What holds of a driver between calls, and what a checkpoint brings back. -/
namespace WordArena.Agent

open Async Fallible

/-- The lifecycle and the records of a driver between two calls. -/
structure InOrder {Own : Type} (w : World Own) : Prop where
  state : w.core.state = .pending ∨ w.core.state = .ready ∨
    (∃ exit, w.core.state = .crashed exit) ∨ ∃ reason, w.core.state = .terminated reason
  process : w.core.process ≠ none → w.core.state = .ready
  lifecycle : w.core.telemetry.lifecycle.map (·.sequence) =
    List.range w.core.telemetry.lifecycle.length
  diagnostics : w.core.telemetry.diagnostics.map (·.sequence) =
    List.range w.core.telemetry.diagnostics.length
  last : w.core.telemetry.lifecycle.getLast?.map (·.state) = some w.core.state

theorem numbered_iff {ρ : Type} {sequence : ρ → Nat} {records : List ρ} :
    numbered sequence records = true ↔ records.map sequence = List.range records.length := by
  simp only [numbered, List.all_eq_true, beq_iff_eq]
  constructor
  · intro h
    refine List.ext_getElem (by simp) fun i hLeft hRight => ?_
    rw [List.getElem_map, List.getElem_range]
    rw [List.length_map] at hLeft
    exact h (records[i], i) (List.mk_mem_zipIdx_iff_getElem?.mpr (List.getElem?_eq_getElem hLeft))
  · rintro h ⟨entry, i⟩ hEntry
    obtain ⟨hLength, rfl⟩ := List.getElem?_eq_some_iff.mp (List.mk_mem_zipIdx_iff_getElem?.mp hEntry)
    have hGet := congrArg (·[i]?) h
    simpa [hLength] using hGet

/-- A valid log ends with the current state. -/
theorem validLifecycle_last {state : DriverLifecycleState} {lifecycle : List LifecycleTransition}
    (h : validLifecycle state lifecycle = true) :
    lifecycle.getLast?.map (·.state) = some state := by
  simp only [validLifecycle, Bool.and_eq_true] at h
  cases hLast : lifecycle.getLast? with
  | none =>
      rw [hLast] at h
      cases h.2
  | some last =>
      have hState := h.2
      rw [hLast, Option.any_some, beq_iff_eq] at hState
      rw [Option.map_some, hState]

theorem stable_cases {state : DriverLifecycleState} (h : state.transient = false) :
    state = .pending ∨ state = .ready ∨ (∃ exit, state = .crashed exit) ∨
      ∃ reason, state = .terminated reason := by
  cases state with
  | pending => exact .inl rfl
  | ready => exact .inr (.inl rfl)
  | crashed exit => exact .inr (.inr (.inl ⟨exit, rfl⟩))
  | terminated reason => exact .inr (.inr (.inr ⟨reason, rfl⟩))
  | starting => cases h
  | turnRunning turnId => cases h
  | terminating => cases h

theorem Kept.inOrder {Own : Type} {w : World Own} {identity : AgentManifestIdentity}
    (h : Kept identity w.core) (hStable : w.core.state.transient = false)
    (hProcess : w.core.process ≠ none → w.core.state = .ready) : InOrder w :=
  ⟨stable_cases hStable, hProcess, numbered_iff.mp h.logged.numbered,
    numbered_iff.mp h.logged.diagnostics, validLifecycle_last h.logged.lifecycle⟩

section RoundTrip

variable {manifest : ValidatedAgentManifest}

/-- What is saved of a driver. -/
def saved (handle : ProcessInstance → ProcessHandle) (w : GenericCommandDriver) :
    DriverCheckpoint :=
  ⟨driverCheckpointSchemaVersion, w.core.runId, w.core.manifest, w.core.state,
    (w.core.process.map handle).or w.own.resumeHandle, w.own.processSpec, w.core.telemetry⟩

theorem checkpoint_saved {w : GenericCommandDriver} (h : w.core.state.transient = false)
    (handle : ProcessInstance → ProcessHandle) : w.checkpoint handle = .ok (saved handle w) := by
  rw [GenericCommandDriver.checkpoint, bind_eq_ok]
  exact ⟨(), reject_eq_ok.mpr (by rw [h]; nofun), rfl⟩

/-- A driver in order can be saved, and what was saved can be restored and saved again. -/
theorem generic_round_trip {spec : ProcessSpec} {w : GenericCommandDriver}
    (hSpec : Commanded manifest spec) (h : Sound manifest.identity spec w) (hIdle : Idle w)
    (handle : ProcessInstance → ProcessHandle) :
    ∃ checkpoint, w.checkpoint handle = .ok checkpoint ∧ ∀ clock budget, ∃ restored,
      GenericCommandDriver.restore manifest checkpoint clock budget = .ok restored ∧
      ∀ handle', GenericCommandDriver.checkpoint handle' restored = .ok checkpoint := by
  obtain ⟨version, hHarness⟩ := hSpec
  obtain ⟨hKept, rfl, -⟩ := h
  -- A handle is saved exactly in the ready state, which is what restoring checks.
  have hProcess : decide (w.core.state = .ready) =
      ((w.core.process.map handle).or w.own.resumeHandle).isSome := by
    rw [Option.isSome_or, Option.isSome_map]
    by_cases hReady : w.core.state = .ready
    · rw [decide_eq_true hReady]
      rcases hIdle.ready hReady with hHeld | hSaved
      · rw [Option.isSome_iff_ne_none.mpr hHeld, Bool.true_or]
      · rw [Option.isSome_iff_ne_none.mpr hSaved, Bool.or_true]
    · have hHeld : w.core.process = none := hIdle.process_none hReady
      have hSaved : w.own.resumeHandle = none := by
        by_contra hSome
        exact hReady (hIdle.handle hSome)
      rw [decide_eq_false hReady, hHeld, hSaved]
      rfl
  refine ⟨saved handle w, checkpoint_saved hIdle.stable handle, fun clock budget =>
    ⟨⟨⟨clock, 0, w.core.state, w.core.manifest, none, w.core.runId, w.core.telemetry⟩,
      ⟨(w.core.process.map handle).or w.own.resumeHandle, w.own.processSpec, []⟩, [], budget⟩, ?_,
      checkpoint_saved hIdle.stable⟩⟩
  rw [GenericCommandDriver.restore, hHarness]
  refine bind_eq_ok.mpr ⟨(), ?_, bind_eq_ok.mpr ⟨(), ?_, rfl⟩⟩
  · simp only [reject_eq_ok, not_or, ne_eq, not_not, Bool.not_eq_false, Bool.not_eq_true]
    exact ⟨rfl, hKept.named.manifest, hKept.named.schemaVersion, hKept.named.runId,
      hKept.named.telemetry.trans hKept.named.manifest.symm, hKept.named.valid, rfl,
      hKept.logged.lifecycle, hKept.logged.diagnostics, hIdle.stable⟩
  · rw [reject_eq_ok, ne_eq, not_not]
    exact hProcess

end RoundTrip

end WordArena.Agent

namespace WordArena.Agent.Native

open Async Fallible

def saved (w : NativeHarnessDriver) : NativeHarnessCheckpoint :=
  ⟨driverCheckpointSchemaVersion, w.core.runId, w.core.manifest, w.own.kind, w.core.state,
    w.core.telemetry⟩

theorem checkpoint_saved {w : NativeHarnessDriver} (h : w.core.state.transient = false) :
    w.checkpoint = .ok (saved w) := by
  rw [NativeHarnessDriver.checkpoint, bind_eq_ok]
  exact ⟨(), reject_eq_ok.mpr (by rw [h]; nofun), rfl⟩

theorem native_round_trip {manifest : ValidatedAgentManifest} {kind : NativeHarnessKind}
    {version : String} {w : NativeHarnessDriver} {runtime : HarnessRuntimeConfig}
    (hKind : nativeHarness manifest.harness = .ok (kind, version))
    (h : Sound manifest.identity kind w) (hIdle : Idle w) (hRuntime : runtime.valid = true) :
    ∃ checkpoint, w.checkpoint = .ok checkpoint ∧ ∀ clock budget, ∃ restored,
      NativeHarnessDriver.restore manifest checkpoint runtime clock budget = .ok restored ∧
      restored.checkpoint = .ok checkpoint := by
  obtain ⟨hKept, rfl, -⟩ := h
  refine ⟨saved w, checkpoint_saved hIdle.stable, fun clock budget =>
    ⟨⟨⟨clock, 0, w.core.state, w.core.manifest, none, w.core.runId, w.core.telemetry⟩,
      ⟨w.own.kind, version, runtime, decide (w.core.state = .ready)⟩, [], budget⟩, ?_,
      checkpoint_saved hIdle.stable⟩⟩
  refine bind_eq_ok.mpr ⟨(), reject_eq_ok.mpr (by rw [hRuntime]; nofun),
    bind_eq_ok.mpr ⟨_, hKind, bind_eq_ok.mpr ⟨(), bind_eq_ok.mpr ⟨(), ?_, ?_⟩, rfl⟩⟩⟩
  · simp only [reject_eq_ok, not_or, ne_eq, not_not, Bool.not_eq_false, Bool.not_eq_true]
    exact ⟨rfl, hKept.named.manifest, rfl, hKept.named.schemaVersion, hKept.named.runId,
      hKept.named.telemetry.trans hKept.named.manifest.symm, hKept.logged.lifecycle,
      hKept.logged.diagnostics, hIdle.stable⟩
  · rw [reject_eq_ok, Bool.not_eq_false]
    exact hKept.named.valid

end WordArena.Agent.Native

namespace WordArena.Agent

open Async Fallible Native

/-- Between calls, whatever was called and whatever the adapter answered, the state is one
that a checkpoint can hold, only a ready driver holds a process, the records are numbered
and end with the state, and saving a driver, restoring it and saving it again gives the
same checkpoint. -/
theorem driver_in_order (backend : Backend) (wire : Wire) (tools : Tools)
    (manifest : ValidatedAgentManifest) :
    (∀ w₀ w, GenericCommandDriver.Created manifest w₀ →
      Reaches (GenericCommandDriver.call backend wire) anyCall w₀ w →
      InOrder w ∧ w.own.decoder = [] ∧ ∀ handle, ∃ checkpoint,
        w.checkpoint handle = .ok checkpoint ∧ ∀ clock budget, ∃ restored,
          GenericCommandDriver.restore manifest checkpoint clock budget = .ok restored ∧
          ∀ handle', GenericCommandDriver.checkpoint handle' restored = .ok checkpoint) ∧
    (∀ w₀ w, NativeHarnessDriver.Created manifest w₀ →
      Reaches (NativeHarnessDriver.call backend tools) anyCall w₀ w →
      InOrder w ∧ ∀ runtime : HarnessRuntimeConfig, runtime.valid = true → ∃ checkpoint,
        w.checkpoint = .ok checkpoint ∧ ∀ clock budget, ∃ restored,
          NativeHarnessDriver.restore manifest checkpoint runtime clock budget = .ok restored ∧
          restored.checkpoint = .ok checkpoint) := by
  constructor
  · intro w₀ w hCreated hRun
    obtain ⟨spec, hSpec, hSound₀, hIdle₀⟩ := Agent.created_sound hCreated
    obtain ⟨hSound, hIdle⟩ := generic_reaches hRun hSound₀ hIdle₀
    exact ⟨hSound.kept.inOrder hIdle.stable hIdle.process, hIdle.decoder,
      generic_round_trip hSpec hSound hIdle⟩
  · intro w₀ w hCreated hRun
    obtain ⟨kind, version, hKind, hSound₀, hIdle₀⟩ := Native.created_sound hCreated
    obtain ⟨hSound, hIdle⟩ := native_reaches hRun hSound₀ hIdle₀
    refine ⟨hSound.kept.inOrder hIdle.stable fun hSome => absurd hIdle.process hSome,
      fun runtime hRuntime => native_round_trip hKind hSound hIdle hRuntime⟩

/-- A driver of a generic command, and the adapter that starts its process. -/
def demoManifest : ValidatedAgentManifest :=
  ⟨.genericCommand "1.0.0" "agent" [], ⟨1, "sha256", "00"⟩⟩

def demoBudget : BudgetController := .new (fun _ => 100) fun reading => reading

def demoDriver : GenericCommandDriver :=
  ⟨.fresh (fun reading => reading) demoManifest.identity "run-1", ⟨none, ⟨"agent", [], none⟩, []⟩, [],
    demoBudget⟩

def demoExit : ExitStatus := ⟨true, some 0, none⟩

def demoMoment : Moment :=
  ⟨false, false, 0, .ok (), .ok (), .ok (), .ok (), .ok (.exited demoExit), .ok demoExit⟩

def demoWire : Wire := ⟨fun _ => none, fun _ => ""⟩

def demoTools : Tools where
  Version := Unit
  parseReportedVersion _ := none
  below _ _ := false
  text _ := ""
  normalizeOutput _ _ := none
  turnArguments _ _ _ := []

theorem demo_created : GenericCommandDriver.Created demoManifest demoDriver := by
  have hNew : GenericCommandDriver.new "run-1" demoManifest none (fun reading => reading) demoBudget =
      .ok demoDriver := rfl
  exact .new hNew

/-- A started driver is in order. -/
theorem demo_in_order : ∃ w result,
    GenericCommandDriver.call .plain demoWire demoDriver ⟨.start, false, [demoMoment]⟩ =
      some (w, result) ∧ w.core.state = .ready ∧ InOrder w :=
  ⟨_, _, rfl, rfl, ((driver_in_order .plain demoWire demoTools demoManifest).1 demoDriver _
    demo_created ((Reaches.refl _).tail (i := ⟨.start, false, [demoMoment]⟩) trivial rfl)).1⟩

end WordArena.Agent
