import WordArena.Agent.Harness

/-! What both drivers keep in every state: numbered records that end with the current
state, the identity of the run, and an account of every process. -/
namespace WordArena.Agent

section Records

/-- Numbered records stay numbered when the next one is added. -/
theorem numbered_append {ρ : Type} {sequence : ρ → Nat} {records : List ρ} {last : ρ}
    (h : numbered sequence records = true) (hLast : sequence last = records.length) :
    numbered sequence (records ++ [last]) = true := by
  simp only [numbered, List.all_eq_true, beq_iff_eq] at h ⊢
  intro entry hEntry
  rw [List.zipIdx_append, List.mem_append] at hEntry
  rcases hEntry with hOld | hNew
  · exact h entry hOld
  · simp only [Nat.zero_add, List.zipIdx_singleton, List.mem_singleton] at hNew
    rw [hNew]
    exact hLast

/-- Records that end with the current state. -/
structure Logged (d : DriverCore) : Prop where
  lifecycle : validLifecycle d.state d.telemetry.lifecycle = true
  diagnostics : numbered (·.sequence) d.telemetry.diagnostics = true

theorem Logged.numbered {d : DriverCore} (h : Logged d) :
    numbered (·.sequence) d.telemetry.lifecycle = true := by
  have hValid := h.lifecycle
  simp only [validLifecycle, Bool.and_eq_true] at hValid
  exact hValid.1.2

theorem Logged.transition {d : DriverCore} (h : Logged d) (state : DriverLifecycleState) :
    Logged (d.transition state) := by
  refine ⟨?_, h.diagnostics⟩
  simp only [validLifecycle, DriverCore.transition, Bool.and_eq_true]
  refine ⟨⟨by simp, numbered_append h.numbered rfl⟩, by simp⟩

theorem Logged.diagnostic {d : DriverCore} (h : Logged d) (stream : DiagnosticStream)
    (code visibleText : String) : Logged (d.diagnostic stream code visibleText) :=
  ⟨h.lifecycle, numbered_append h.diagnostics rfl⟩

/-- The identity of a run. -/
structure Named (identity : AgentManifestIdentity) (d : DriverCore) : Prop where
  manifest : d.manifest = identity
  schemaVersion : d.telemetry.schemaVersion = driverTelemetrySchemaVersion
  runId : d.telemetry.runId = d.runId
  telemetry : d.telemetry.manifest = identity
  valid : validRunId d.runId = true

/-- A core with its records and its identity. -/
structure Kept (identity : AgentManifestIdentity) (d : DriverCore) : Prop where
  logged : Logged d
  named : Named identity d

variable {identity : AgentManifestIdentity} {d : DriverCore}

theorem Kept.transition (h : Kept identity d) (state : DriverLifecycleState) :
    Kept identity (d.transition state) :=
  ⟨h.logged.transition state, h.named.manifest, h.named.schemaVersion, h.named.runId,
    h.named.telemetry, h.named.valid⟩

theorem Kept.diagnostic (h : Kept identity d) (stream : DiagnosticStream)
    (code visibleText : String) : Kept identity (d.diagnostic stream code visibleText) :=
  ⟨h.logged.diagnostic stream code visibleText, h.named.manifest, h.named.schemaVersion,
    h.named.runId, h.named.telemetry, h.named.valid⟩

theorem Kept.restarted (h : Kept identity d) : Kept identity d.restarted :=
  ⟨⟨h.logged.lifecycle, h.logged.diagnostics⟩, h.named.manifest, h.named.schemaVersion,
    h.named.runId, h.named.telemetry, h.named.valid⟩

theorem Kept.completed (h : Kept identity d) (request : TurnRequest) (started : Int)
    (output : VisibleTurnOutput) : Kept identity (d.completed request started output) :=
  ⟨⟨h.logged.lifecycle, h.logged.diagnostics⟩, h.named.manifest, h.named.schemaVersion,
    h.named.runId, h.named.telemetry, h.named.valid⟩

theorem Kept.process (h : Kept identity d) (process : Option ProcessInstance) :
    Kept identity { d with process := process } :=
  ⟨⟨h.logged.lifecycle, h.logged.diagnostics⟩, h.named.manifest, h.named.schemaVersion,
    h.named.runId, h.named.telemetry, h.named.valid⟩

theorem Kept.readings (h : Kept identity d) (readings : Nat) :
    Kept identity { d with readings := readings } :=
  ⟨⟨h.logged.lifecycle, h.logged.diagnostics⟩, h.named.manifest, h.named.schemaVersion,
    h.named.runId, h.named.telemetry, h.named.valid⟩

theorem kept_fresh {clock : Nat → Int} {runId : String} (h : validRunId runId = true) :
    Kept identity (.fresh clock identity runId) :=
  ⟨⟨rfl, rfl⟩, rfl, rfl, rfl, rfl, h⟩

end Records

section Processes

/-- A process that the driver was given. -/
def Obtained (acts : List ProcessAct) (process : ProcessInstance) : Prop :=
  (∃ spec, .spawned process spec ∈ acts) ∨ ∃ handle, .reattached process handle ∈ acts

/-- A process that exited, or was told to end. -/
def Ended (acts : List ProcessAct) (process : ProcessInstance) : Prop :=
  .exited process ∈ acts ∨ .terminated process ∈ acts

/-- A process that could not be read, or whose input could not be closed. -/
def Failed (acts : List ProcessAct) (process : ProcessInstance) : Prop := .failed process ∈ acts

variable {acts : List ProcessAct} {act : ProcessAct} {process : ProcessInstance}

theorem obtained_append : Obtained (acts ++ [act]) process ↔ Obtained acts process ∨
    (∃ spec, act = .spawned process spec) ∨ ∃ handle, act = .reattached process handle := by
  simp only [Obtained, List.mem_append, List.mem_singleton]
  constructor
  · rintro (⟨spec, hOld | hNew⟩ | ⟨handle, hOld | hNew⟩)
    · exact .inl (.inl ⟨spec, hOld⟩)
    · exact .inr (.inl ⟨spec, hNew.symm⟩)
    · exact .inl (.inr ⟨handle, hOld⟩)
    · exact .inr (.inr ⟨handle, hNew.symm⟩)
  · rintro ((⟨spec, hOld⟩ | ⟨handle, hOld⟩) | ⟨spec, hNew⟩ | ⟨handle, hNew⟩)
    · exact .inl ⟨spec, .inl hOld⟩
    · exact .inr ⟨handle, .inl hOld⟩
    · exact .inl ⟨spec, .inr hNew.symm⟩
    · exact .inr ⟨handle, .inr hNew.symm⟩

theorem ended_append : Ended (acts ++ [act]) process ↔
    Ended acts process ∨ act = .exited process ∨ act = .terminated process := by
  simp only [Ended, List.mem_append, List.mem_singleton]
  constructor
  · rintro ((hOld | hNew) | hOld | hNew)
    · exact .inl (.inl hOld)
    · exact .inr (.inl hNew.symm)
    · exact .inl (.inr hOld)
    · exact .inr (.inr hNew.symm)
  · rintro ((hOld | hOld) | hNew | hNew)
    · exact .inl (.inl hOld)
    · exact .inr (.inl hOld)
    · exact .inl (.inr hNew.symm)
    · exact .inr (.inr hNew.symm)

theorem failed_append : Failed (acts ++ [act]) process ↔
    Failed acts process ∨ act = .failed process := by
  simp only [Failed, List.mem_append, List.mem_singleton]
  exact or_congr_right eq_comm

end Processes

end WordArena.Agent
