import WordArena.Agent.Adapter

/-! Every call of the native driver, followed through all of its exits. The ledger also
accounts for the processes that failed under the driver. -/
namespace WordArena.Agent.Native

open Async

section Ledger

/-- Every process that the driver was given is in its hand, ended, or failed, and one that
failed was never told to end. -/
structure Ledger (acts : List ProcessAct) (held : Option ProcessInstance) : Prop where
  accounted : ∀ process, Obtained acts process →
    held = some process ∨ Ended acts process ∨ Failed acts process
  failed : ∀ process, Failed acts process → Obtained acts process ∧ ¬ Ended acts process
  ended : ∀ process, Ended acts process → Obtained acts process
  placed : ∀ process, Obtained acts process → process.place < acts.length
  held : ∀ process, held = some process → Obtained acts process

variable {acts : List ProcessAct} {held : Option ProcessInstance} {process : ProcessInstance}

theorem ledger_nil : Ledger [] none := by
  refine ⟨?_, nofun, ?_, ?_, nofun⟩
  · rintro process (⟨_, hMem⟩ | ⟨_, hMem⟩) <;> cases hMem
  · rintro process (hMem | hMem) <;> cases hMem
  · rintro process (⟨_, hMem⟩ | ⟨_, hMem⟩) <;> cases hMem

theorem Ledger.refused (h : Ledger acts held) : Ledger (acts ++ [.refused]) held := by
  have hObtained : ∀ process, Obtained (acts ++ [.refused]) process ↔ Obtained acts process :=
    fun process => by simp [obtained_append]
  have hEnded : ∀ process, Ended (acts ++ [.refused]) process ↔ Ended acts process :=
    fun process => by simp [ended_append]
  have hFailed : ∀ process, Failed (acts ++ [.refused]) process ↔ Failed acts process :=
    fun process => by simp [failed_append]
  constructor
  · simpa only [hObtained, hEnded, hFailed] using h.accounted
  · simpa only [hObtained, hEnded, hFailed] using h.failed
  · simpa only [hObtained, hEnded] using h.ended
  · intro process hProcess
    have := h.placed process ((hObtained process).mp hProcess)
    simp only [List.length_append, List.length_singleton]
    omega
  · simpa only [hObtained] using h.held

/-- A new process is known by the next place in the log. -/
theorem Ledger.given {spec : ProcessSpec} (h : Ledger acts none) :
    Ledger (acts ++ [.spawned ⟨acts.length⟩ spec]) (some ⟨acts.length⟩) := by
  have hObtained : ∀ process, Obtained (acts ++ [.spawned ⟨acts.length⟩ spec]) process ↔
      Obtained acts process ∨ process = ⟨acts.length⟩ := fun process => by
    simp [obtained_append, eq_comm]
  have hEnded : ∀ process, Ended (acts ++ [.spawned ⟨acts.length⟩ spec]) process ↔
      Ended acts process := fun process => by simp [ended_append]
  have hFailed : ∀ process, Failed (acts ++ [.spawned ⟨acts.length⟩ spec]) process ↔
      Failed acts process := fun process => by simp [failed_append]
  constructor
  · intro process hProcess
    rw [hEnded, hFailed]
    rcases (hObtained process).mp hProcess with hOld | rfl
    · rcases h.accounted process hOld with hHeld | hDone
      · cases hHeld
      · exact .inr hDone
    · exact .inl rfl
  · intro process hProcess
    rw [hObtained, hEnded]
    obtain ⟨hOld, hNot⟩ := h.failed process ((hFailed process).mp hProcess)
    exact ⟨.inl hOld, hNot⟩
  · intro process hProcess
    exact (hObtained process).mpr (.inl (h.ended process ((hEnded process).mp hProcess)))
  · intro process hProcess
    rw [List.length_append, List.length_singleton]
    rcases (hObtained process).mp hProcess with hOld | rfl
    · exact Nat.lt_succ_of_lt (h.placed process hOld)
    · exact Nat.lt_succ_self _
  · intro process hProcess
    exact (hObtained process).mpr (.inr (Option.some.inj hProcess).symm)

/-- The process in hand exits, or is told to end. -/
theorem Ledger.end {act : ProcessAct} (h : Ledger acts (some process))
    (hAct : act = .exited process ∨ act = .terminated process) (hSound : ¬ Failed acts process) :
    Ledger (acts ++ [act]) (some process) := by
  have hObtained : ∀ other, Obtained (acts ++ [act]) other ↔ Obtained acts other := fun other => by
    rcases hAct with rfl | rfl <;> simp [obtained_append]
  have hEnded : ∀ other, Ended (acts ++ [act]) other ↔ Ended acts other ∨ other = process :=
    fun other => by rcases hAct with rfl | rfl <;> simp [ended_append, eq_comm]
  have hFailed : ∀ other, Failed (acts ++ [act]) other ↔ Failed acts other := fun other => by
    rcases hAct with rfl | rfl <;> simp [failed_append]
  constructor
  · intro other hOther
    rw [hEnded, hFailed]
    rcases h.accounted other ((hObtained other).mp hOther) with hHeld | hDone | hLost
    · exact .inl hHeld
    · exact .inr (.inl (.inl hDone))
    · exact .inr (.inr hLost)
  · intro other hOther
    have hLost := (hFailed other).mp hOther
    obtain ⟨hOld, hNot⟩ := h.failed other hLost
    rw [hObtained, hEnded, not_or]
    refine ⟨hOld, hNot, ?_⟩
    rintro rfl
    exact hSound hLost
  · intro other hOther
    rw [hObtained]
    rcases (hEnded other).mp hOther with hOld | rfl
    · exact h.ended other hOld
    · exact h.held other rfl
  · intro other hOther
    rw [List.length_append, List.length_singleton]
    exact Nat.lt_succ_of_lt (h.placed other ((hObtained other).mp hOther))
  · intro other hOther
    exact (hObtained other).mpr (h.held other hOther)

/-- The process in hand fails. -/
theorem Ledger.fail (h : Ledger acts (some process)) (hSound : ¬ Ended acts process) :
    Ledger (acts ++ [.failed process]) (some process) := by
  have hObtained : ∀ other, Obtained (acts ++ [.failed process]) other ↔ Obtained acts other :=
    fun other => by simp [obtained_append]
  have hEnded : ∀ other, Ended (acts ++ [.failed process]) other ↔ Ended acts other :=
    fun other => by simp [ended_append]
  have hFailed : ∀ other, Failed (acts ++ [.failed process]) other ↔
      Failed acts other ∨ other = process := fun other => by simp [failed_append, eq_comm]
  constructor
  · intro other hOther
    rw [hEnded, hFailed]
    rcases h.accounted other ((hObtained other).mp hOther) with hHeld | hDone | hLost
    · exact .inl hHeld
    · exact .inr (.inl hDone)
    · exact .inr (.inr (.inl hLost))
  · intro other hOther
    rw [hObtained, hEnded]
    rcases (hFailed other).mp hOther with hOld | rfl
    · exact h.failed other hOld
    · exact ⟨h.held other rfl, hSound⟩
  · intro other hOther
    exact (hObtained other).mpr (h.ended other ((hEnded other).mp hOther))
  · intro other hOther
    rw [List.length_append, List.length_singleton]
    exact Nat.lt_succ_of_lt (h.placed other ((hObtained other).mp hOther))
  · intro other hOther
    exact (hObtained other).mpr (h.held other hOther)

/-- A process that ended or failed may be given up. -/
theorem Ledger.dropped (h : Ledger acts held)
    (hSpent : ∀ process, held = some process → Ended acts process ∨ Failed acts process) :
    Ledger acts none := by
  refine ⟨fun process hProcess => ?_, h.failed, h.ended, h.placed, nofun⟩
  rcases h.accounted process hProcess with hHeld | hDone
  · exact .inr (hSpent process hHeld)
  · exact .inr hDone

/-- A new process neither ended nor failed. -/
theorem Ledger.fresh (h : Ledger acts held) :
    ¬ Ended acts ⟨acts.length⟩ ∧ ¬ Failed acts ⟨acts.length⟩ := by
  have hNew : ¬ Obtained acts ⟨acts.length⟩ := fun hOld => Nat.lt_irrefl _ (h.placed _ hOld)
  exact ⟨fun hEnded => hNew (h.ended _ hEnded), fun hFailed => hNew (h.failed _ hFailed).1⟩

end Ledger

section Sound

/-- A driver in the course of a call. -/
structure Sound (identity : AgentManifestIdentity) (kind : NativeHarnessKind)
    (w : NativeHarnessDriver) : Prop where
  kept : Kept identity w.core
  kind : w.own.kind = kind
  ledger : Ledger w.acts w.core.process

/-- A driver between two calls. -/
structure Idle (w : NativeHarnessDriver) : Prop where
  stable : w.core.state.transient = false
  process : w.core.process = none

/-- A driver inside a call. -/
structure Busy (identity : AgentManifestIdentity) (kind : NativeHarnessKind)
    (w : NativeHarnessDriver) : Prop where
  sound : Sound identity kind w
  alive : Alive w
  healthy : ∀ process, w.core.process = some process → ¬ Failed w.acts process

/-- The process in hand ended or failed. -/
def Spent (w : NativeHarnessDriver) : Prop :=
  ∀ process, w.core.process = some process → Ended w.acts process ∨ Failed w.acts process

/-- How a call fails. -/
structure Stopped (identity : AgentManifestIdentity) (kind : NativeHarnessKind) (metered : Prop)
    (w : NativeHarnessDriver) (e : DriverError) : Prop where
  sound : Sound identity kind w
  idle : Idle w
  reportable : Reportable metered e

/-- How a call ends that asks for a process or a turn. -/
def Done (identity : AgentManifestIdentity) (kind : NativeHarnessKind) (metered : Prop) {α : Type}
    (w : NativeHarnessDriver) (_ : List Moment) : Except DriverError α → Prop
  | .ok _ => Sound identity kind w ∧ Idle w ∧ w.core.state = .ready
  | .error e => Stopped identity kind metered w e

variable {identity : AgentManifestIdentity} {kind : NativeHarnessKind} {w : NativeHarnessDriver}
  {metered : Prop} {answers : List Moment} {cut : NativeHarnessDriver → List Moment → Prop}
  {process : ProcessInstance}

theorem Sound.update (h : Sound identity kind w) {core : DriverCore} (hCore : Kept identity core)
    (hProcess : core.process = w.core.process) : Sound identity kind (w.withCore core) :=
  ⟨hCore, h.kind, by rw [World.withCore, hProcess]; exact h.ledger⟩

theorem Sound.transition (h : Sound identity kind w) (state : DriverLifecycleState) :
    Sound identity kind (w.withCore (w.core.transition state)) :=
  h.update (h.kept.transition state) rfl

theorem Sound.diagnostic (h : Sound identity kind w) (stream : DiagnosticStream)
    (code text : String) : Sound identity kind (w.withCore (w.core.diagnostic stream code text)) :=
  h.update (h.kept.diagnostic stream code text) rfl

theorem Sound.busy (h : Sound identity kind w) (hNone : w.core.process = none) (hAlive : Alive w) :
    Busy identity kind w := by
  refine ⟨h, hAlive, fun process hSome => ?_⟩
  cases hNone.symm.trans hSome

theorem Sound.spent (h : Sound identity kind w) (budget : BudgetController) :
    Sound identity kind (w.spent budget) :=
  ⟨h.kept, h.kind, h.ledger⟩

theorem Sound.refused (h : Sound identity kind w) : Sound identity kind (w.did .refused) :=
  ⟨h.kept, h.kind, h.ledger.refused⟩

theorem Sound.did (h : Sound identity kind w) {act : ProcessAct}
    (hProcess : w.core.process = some process)
    (hAct : act = .exited process ∨ act = .terminated process) (hSound : ¬ Failed w.acts process) :
    Sound identity kind (w.did act) := by
  refine ⟨h.kept, h.kind, ?_⟩
  change Ledger (w.acts ++ [act]) w.core.process
  have hLedger := h.ledger
  rw [hProcess] at hLedger ⊢
  exact hLedger.end hAct hSound

/-- A driver without its process. -/
def World.released (w : NativeHarnessDriver) : NativeHarnessDriver :=
  w.withCore { w.core with process := none }

theorem Sound.released (h : Sound identity kind w) (hSpent : Spent w) :
    Sound identity kind (World.released w) :=
  ⟨h.kept.process none, h.kind, h.ledger.dropped hSpent⟩

/-- A call that leaves a crashed run. -/
theorem ensures_crash {α : Type} {exit : ExitStatus} {e : DriverError}
    {post : NativeHarnessDriver → List Moment → Except DriverError α → Prop}
    (h : Sound identity kind w) (hSpent : Spent w)
    (hError : Reportable metered e)
    (hPost : ∀ t rest e, Stopped identity kind metered t e → post t rest (.error e)) :
    Ensures (crash exit e : Op NativeOwn α) steady w answers (Busy identity kind) cut post :=
  hPost _ answers e ⟨(h.released hSpent).transition (.crashed exit), ⟨rfl, rfl⟩, hError⟩

/-- The process in hand is told to end. -/
theorem Busy.told (h : Busy identity kind w) (hProcess : w.core.process = some process) :
    Busy identity kind (w.did (.terminated process)) ∧ Spent (w.did (.terminated process)) := by
  have hHealthy := h.healthy process hProcess
  refine ⟨⟨h.sound.did hProcess (.inr rfl) hHealthy, h.alive, fun other hOther hFailed => ?_⟩,
    fun other hOther => ?_⟩
  · cases hProcess.symm.trans hOther
    rcases failed_append.mp hFailed with hOld | hNew
    · exact hHealthy hOld
    · cases hNew
  · cases hProcess.symm.trans hOther
    exact .inl (ended_append.mpr (.inr (.inr rfl)))

/-- A process that fails in hand stays there until it is given up. -/
theorem Busy.failed (h : Busy identity kind w) (hProcess : w.core.process = some process)
    (hRunning : ¬ Ended w.acts process) :
    Sound identity kind (w.did (.failed process)) ∧ Spent (w.did (.failed process)) := by
  have hLedger := h.sound.ledger
  rw [hProcess] at hLedger
  refine ⟨⟨h.sound.kept, h.sound.kind, ?_⟩, fun other hOther => ?_⟩
  · change Ledger (w.acts ++ [.failed process]) w.core.process
    rw [hProcess]
    exact hLedger.fail hRunning
  · cases hProcess.symm.trans hOther
    exact .inr (failed_append.mpr (.inr rfl))

/-- A new process is taken in hand. -/
theorem Busy.given (h : Busy identity kind w) (spec : ProcessSpec) (hNone : w.core.process = none) :
    Busy identity kind ((w.did (.spawned ⟨w.acts.length⟩ spec)).withCore
        { w.core with process := some ⟨w.acts.length⟩ }) ∧
      ¬ Ended (w.did (.spawned ⟨w.acts.length⟩ spec)).acts ⟨w.acts.length⟩ := by
  have hLedger := h.sound.ledger
  rw [hNone] at hLedger
  obtain ⟨hEnded, hFailed⟩ := hLedger.fresh
  refine ⟨⟨⟨h.sound.kept.process _, h.sound.kind, hLedger.given⟩, h.alive, ?_⟩, fun hNew => ?_⟩
  · intro process hSome hNew
    cases hSome
    rcases failed_append.mp hNew with hOld | hAct
    · exact hFailed hOld
    · cases hAct
  · rcases ended_append.mp hNew with hOld | hAct | hAct
    · exact hEnded hOld
    · cases hAct
    · cases hAct

/-- After the process in hand was told to end. -/
theorem ensures_terminateHeld {code : String}
    {post : NativeHarnessDriver → List Moment → Except DriverError Unit → Prop}
    (h : Busy identity kind w)
    (hPost : ∀ t rest, Sound identity kind t → Spent t → post t rest (.ok ())) :
    Ensures (terminateHeld code) steady w answers (Busy identity kind) cut post := by
  rw [terminateHeld, ensures_bind, ensures_get]
  dsimp only
  cases hProcess : w.core.process with
  | none =>
      refine ensures_pure.mpr (hPost w answers h.sound fun process hSome => ?_)
      rw [hProcess] at hSome
      cases hSome
  | some process =>
      obtain ⟨hTold, hSpent⟩ := h.told hProcess
      rw [ensures_bind]
      refine ensures_terminateProcess hTold (fun _ _ hStop => absurd hStop Bool.false_ne_true)
        fun moment rest _ => ?_
      cases moment.terminated with
      | ok status => exact ensures_pure.mpr (hPost _ rest hTold.sound hSpent)
      | error e => exact hPost _ rest (hTold.sound.diagnostic ..) hSpent

theorem ensures_giveUp {α : Type}
    {post : NativeHarnessDriver → List Moment → Except DriverError α → Prop}
    (h : Busy identity kind w)
    (hPost : ∀ t rest, Sound identity kind t → Idle t → post t rest (.error .cancelled)) :
    Ensures (giveUp : Op NativeOwn α) steady w answers (Busy identity kind) cut post := by
  rw [giveUp, ensures_bind, cancellationError, ensures_bind]
  refine ensures_terminateHeld h fun t rest hSound hSpent => ?_
  exact hPost _ rest ((hSound.released hSpent).transition (.terminated .cancelled)) ⟨rfl, rfl⟩

end Sound

section Processes

variable {identity : AgentManifestIdentity} {kind : NativeHarnessKind} {w : NativeHarnessDriver}
  {metered : Prop} {answers : List Moment} {cut : NativeHarnessDriver → List Moment → Prop}
  {backend : Backend} {process : ProcessInstance}

/-- A driver that reads its process. -/
structure Reading (identity : AgentManifestIdentity) (kind : NativeHarnessKind) (metered : Prop)
    (w : NativeHarnessDriver) (answers : List Moment) : Prop where
  busy : Busy identity kind w
  held : ∃ process, w.core.process = some process ∧ ¬ Ended w.acts process
  limits : metered → Unlimited w.budget answers

/-- What the process of a probe or a turn comes to. -/
def Captured (identity : AgentManifestIdentity) (kind : NativeHarnessKind) (metered : Prop)
    {α : Type} (w : NativeHarnessDriver) (_ : List Moment) : Except DriverError α → Prop
  | .ok _ => Sound identity kind w ∧ w.core.process = none
  | .error .cancelled => Sound identity kind w ∧ Idle w
  | .error e => Sound identity kind w ∧ Spent w ∧ Reportable metered e

theorem Captured.error {α : Type} {e : DriverError}
    (h : Captured identity kind metered w answers (.error e : Except DriverError α))
    (hNot : e ≠ .cancelled) :
    Sound identity kind w ∧ Spent w ∧ Reportable metered e := by
  cases e with
  | cancelled => exact absurd rfl hNot
  | _ => exact h

/-- What one event of a process comes to. -/
def Observed (identity : AgentManifestIdentity) (kind : NativeHarnessKind) (metered : Prop)
    (w : NativeHarnessDriver) (answers : List Moment) :
    Except DriverError (Capture ⊕ CapturedProcess) → Prop
  | .ok (.inl _) => Reading identity kind metered w answers
  | .ok (.inr captured) => Captured identity kind metered w answers (.ok captured)
  | .error e =>
      Captured identity kind metered w answers (.error e : Except DriverError CapturedProcess)

/-- Output that is too long ends its process. -/
theorem ensures_dropOversized (h : Reading identity kind metered w answers) :
    Ensures (dropOversized : Op NativeOwn (Capture ⊕ CapturedProcess)) steady w answers
      (Busy identity kind) cut (Observed identity kind metered) := by
  obtain ⟨process, hProcess, -⟩ := h.held
  obtain ⟨hTold, hSpent⟩ := h.busy.told hProcess
  rw [dropOversized, ensures_bind, terminateQuietly, ensures_bind, ensures_get]
  dsimp only
  rw [hProcess]
  dsimp only
  rw [ensures_bind]
  refine ensures_terminateProcess hTold (fun _ _ hStop => absurd hStop Bool.false_ne_true)
    fun moment rest _ => ?_
  exact ⟨hTold.sound.released hSpent, nofun, nofun, nofun⟩

theorem ensures_readCapture {capture : Capture} (h : Reading identity kind metered w answers) :
    Ensures (readCapture backend capture) steady w answers (Busy identity kind) cut
      (Observed identity kind metered) := by
  obtain ⟨process, hProcess, hRunning⟩ := h.held
  have hHealthy := h.busy.healthy process hProcess
  have hGiveUp : ∀ t rest, Busy identity kind t → Ensures giveUp steady t rest
      (Busy identity kind) cut (Observed identity kind metered) := fun t rest hBusy =>
    ensures_giveUp hBusy fun _ _ hSound hIdle => ⟨hSound, hIdle⟩
  have hSpent : ∀ budget, Busy identity kind (w.spent budget) := fun budget =>
    ⟨h.busy.sound.spent budget, h.busy.alive, h.busy.healthy⟩
  have hOver : ∀ budget, Busy identity kind ((w.spent budget).did (.terminated process)) :=
    fun budget => ((hSpent budget).told hProcess).1
  rw [readCapture, ensures_bind, race, ensures_select, withProcess, ensures_bind, ensures_get]
  dsimp only
  rw [hProcess]
  refine ensures_nextEvent h.busy (fun rest => hGiveUp w rest h.busy) hOver
    (fun budget rest => hGiveUp _ rest (hOver budget)) fun t rest r hReported hLimited => ?_
  have hLimit : metered → r ≠ .error .limitExceeded := fun hMetered =>
    (hLimited (h.limits hMetered)).1
  have hNext : metered → Unlimited t.budget rest := fun hMetered =>
    (hLimited (h.limits hMetered)).2
  cases hReported with
  | stdout budget bytes =>
      have hReading : Reading identity kind metered (w.spent budget) rest :=
        ⟨hSpent budget, ⟨process, hProcess, hRunning⟩, hNext⟩
      change Ensures (if _ then _ else _) steady _ _ _ _ _
      split_ifs with hLarge
      · exact ensures_dropOversized hReading
      · exact hReading
  | stderr budget bytes => exact ⟨hSpent budget, ⟨process, hProcess, hRunning⟩, hNext⟩
  | exited status =>
      have hDid := h.busy.sound.did hProcess (.inl rfl) hHealthy
      refine ⟨hDid.released fun other hOther => ?_, rfl⟩
      cases hProcess.symm.trans hOther
      exact .inl (ended_append.mpr (.inr (.inl rfl)))
  | failed e =>
      obtain ⟨hSound, hDropped⟩ := h.busy.failed hProcess hRunning
      exact ⟨hSound, hDropped, .process hLimit⟩
  | overrun budget =>
      obtain ⟨hTold, hDropped⟩ := (hSpent budget).told hProcess
      exact ⟨hTold.sound, hDropped, .process hLimit⟩

/-- A process from its first event to its exit. -/
theorem ensures_readCaptures {capture : Capture} (h : Reading identity kind metered w answers) :
    Ensures (loop (readCapture backend) capture) steady w answers (Busy identity kind) cut
      (Captured identity kind metered) := by
  have hInside : ∀ (_ : Capture) t rest, Reading identity kind metered t rest →
      Busy identity kind t := fun _ _ _ hReading => hReading.busy
  refine ensures_loop hInside (fun capture t rest hReading => ?_) h
  refine (ensures_readCapture hReading).mono fun u after result hResult => ⟨?_, ?_, ?_⟩
  · rintro next rfl
    exact hResult
  · rintro captured rfl
    exact hResult
  · rintro e rfl
    exact hResult

theorem ensures_runProcess {spec : ProcessSpec} (h : Busy identity kind w)
    (hNone : w.core.process = none) (hLimits : metered → Unlimited w.budget answers) :
    Ensures (runProcess backend spec) steady w answers (Busy identity kind) cut
      (Captured identity kind metered) := by
  have hEmpty : Spent w := fun process hSome => by
    rw [hNone] at hSome
    cases hSome
  rw [runProcess, ensures_bind, race, ensures_select]
  refine ensures_spawn h (fun rest => ?_) fun t rest r hAnswered hLimited => ?_
  · exact ensures_giveUp h fun _ _ hSound hIdle => ⟨hSound, hIdle⟩
  · have hLimit : metered → r ≠ .error .limitExceeded := fun hMetered =>
      (hLimited (hLimits hMetered)).1
    have hNext : metered → Unlimited t.budget rest := fun hMetered =>
      (hLimited (hLimits hMetered)).2
    cases hAnswered with
    | refused e =>
        exact ⟨h.sound.refused, fun process hSome => absurd hSome (by rw [World.did, hNone]; nofun),
          .process hLimit⟩
    | late budget => exact ⟨h.sound.spent budget, hEmpty, .process hLimit⟩
    | given =>
        obtain ⟨hGiven, hRunning⟩ := h.given spec hNone
        change Ensures (hold (some ⟨w.acts.length⟩) >>= _) steady _ _ _ _ _
        rw [ensures_bind, hold, update, ensures_modify]
        dsimp only
        rw [ensures_bind, withProcess, ensures_bind, ensures_get]
        refine ensures_closeInput hGiven (fun _ _ hStop => absurd hStop Bool.false_ne_true)
          (fun moment rest' hRest => ?_) fun moment rest' e hRest hInput => ?_
        · subst hRest
          refine ensures_readCaptures ⟨hGiven, ⟨_, rfl, hRunning⟩, fun hMetered => ?_⟩
          exact (hNext hMetered).tail
        · subst hRest
          obtain ⟨hSound, hDropped⟩ := hGiven.failed rfl hRunning
          have hLimit : metered → (.error e : Except ProcessError Unit) ≠ .error .limitExceeded := by
            intro hMetered
            rw [← hInput]
            exact (hNext hMetered).inputClosed moment List.mem_cons_self
          exact ⟨hSound, hDropped, .process hLimit⟩

end Processes

section Calls

variable {identity : AgentManifestIdentity} {kind : NativeHarnessKind} {w : NativeHarnessDriver}
  {metered : Prop} {answers : List Moment} {cut : NativeHarnessDriver → List Moment → Prop}
  {backend : Backend} {tools : Tools}

theorem spent_of_none (h : w.core.process = none) : Spent w := by
  intro process hSome
  rw [h] at hSome
  cases hSome

/-- Diagnostics about output that is not shown. -/
theorem ensures_stderrDiagnostic {code text : String} {bytes : Nat}
    {post : NativeHarnessDriver → List Moment → Except DriverError Unit → Prop}
    (h : Sound identity kind w)
    (hPost : ∀ t, Sound identity kind t → t.core.process = w.core.process → post t answers (.ok ())) :
    Ensures (stderrDiagnostic code text bytes) steady w answers (Busy identity kind) cut post := by
  rw [stderrDiagnostic]
  split_ifs
  · exact hPost _ (h.diagnostic .driver code text) rfl
  · exact hPost w h rfl

theorem ensures_failedExit {α : Type} {captured : CapturedProcess}
    {post : NativeHarnessDriver → List Moment → Except DriverError α → Prop}
    (h : Sound identity kind w) (hNone : w.core.process = none)
    (hPost : ∀ t rest e, Stopped identity kind metered t e → post t rest (.error e)) :
    Ensures (failedExit kind captured : Op NativeOwn α) steady w answers (Busy identity kind) cut
      post := by
  rw [failedExit, ensures_bind, failedProcessDiagnostic]
  split_ifs
  · rw [ensures_pure]
    exact ensures_crash h (spent_of_none hNone) ⟨nofun, nofun⟩ hPost
  · rw [ensures_diagnostic]
    exact ensures_crash (h.diagnostic ..) (spent_of_none hNone) ⟨nofun, nofun⟩ hPost

theorem ensures_judgeProbe {own : NativeOwn} {captured : CapturedProcess}
    (h : Sound identity kind w) (hNone : w.core.process = none) (hKind : own.kind = kind) :
    Ensures (judgeProbe tools own captured) steady w answers (Busy identity kind) cut
      (Done identity kind metered) := by
  have hCrash : ∀ exit e, Reportable metered e → Ensures (crash exit e) steady w answers
      (Busy identity kind) cut (fun t rest result =>
        Done identity kind metered t rest (result : Except DriverError Unit)) := fun exit e hError =>
    ensures_crash h (spent_of_none hNone) hError fun _ _ _ hStopped => hStopped
  subst hKind
  rw [judgeProbe]
  split_ifs with hExit
  · exact ensures_failedExit h hNone fun _ _ _ hStopped => hStopped
  · cases tools.parseReportedVersion captured.stdout with
    | none => exact hCrash _ _ ⟨nofun, nofun⟩
    | some installed =>
        dsimp only
        split_ifs with hOld hOther
        · exact hCrash _ _ ⟨nofun, nofun⟩
        · exact hCrash _ _ ⟨nofun, nofun⟩
        · rw [markReady, ensures_bind]
          refine ensures_stderrDiagnostic h fun t hSound hProcess => ?_
          have hProbed : Sound identity own.kind { t with own := { t.own with needsProbe := false } } :=
            ⟨hSound.kept, hSound.kind, hSound.ledger⟩
          exact ⟨(hProbed.diagnostic ..).transition .ready, ⟨rfl, hProcess.trans hNone⟩, rfl⟩

/-- A probe, whatever its process comes to. -/
theorem ensures_probe (h : Sound identity kind w) (hNone : w.core.process = none)
    (hLimits : metered → Unlimited w.budget answers) :
    Ensures (probe backend tools) steady w answers (Busy identity kind) cut
      (Done identity kind metered) := by
  have hBusy := (h.transition .starting).busy hNone nofun
  rw [probe, ensures_bind, ensures_transition]
  dsimp only
  rw [ensures_bind, ensures_get]
  dsimp only
  rw [ensures_bind, ensures_attempt]
  refine (ensures_runProcess hBusy hNone hLimits).mono fun t rest result hResult => ?_
  match result with
  | .ok captured => exact ensures_judgeProbe hResult.1 hResult.2 h.kind
  | .error e =>
      have hCrash : ∀ e' : DriverError, Reportable metered e' → e ≠ .cancelled →
          Ensures (crash syntheticFailure e') steady t rest (Busy identity kind) cut
            (fun u after outcome =>
              Done identity kind metered u after (outcome : Except DriverError Unit)) := by
        intro e' hReported hNot
        obtain ⟨hSound, hSpent, -⟩ := Captured.error hResult hNot
        exact ensures_crash hSound hSpent hReported fun _ _ _ hStopped => hStopped
      by_cases hCancelled : e = .cancelled
      · subst hCancelled
        exact ⟨hResult.1, hResult.2, nofun, nofun⟩
      · have hReported := (Captured.error hResult hCancelled).2.2
        cases e with
        | cancelled => exact absurd rfl hCancelled
        | process pe =>
            cases pe with
            | spawn => exact hCrash _ ⟨nofun, nofun⟩ hCancelled
            | _ => exact hCrash _ hReported hCancelled
        | _ => exact hCrash _ hReported hCancelled

theorem ensures_start (h : Sound identity kind w) (hIdle : Idle w)
    (hLimits : metered → Unlimited w.budget answers) :
    Ensures (start backend tools) steady w answers (Busy identity kind) cut
      (Done identity kind metered) := by
  rw [start, ensures_bind, ensures_get]
  dsimp only
  split_ifs with hState
  · exact ⟨h, hIdle, nofun, nofun⟩
  · exact ensures_probe h hIdle.process hLimits

theorem ensures_resume (h : Sound identity kind w) (hIdle : Idle w)
    (hLimits : metered → Unlimited w.budget answers) :
    Ensures (resume backend tools) steady w answers (Busy identity kind) cut
      (Done identity kind metered) := by
  rw [resume, ensures_bind, ensures_get]
  dsimp only
  cases hState : w.core.state with
  | ready =>
      dsimp only
      split_ifs with hProbed
      · exact ⟨h, hIdle, hState⟩
      · exact ensures_probe h hIdle.process hLimits
  | crashed exit =>
      rw [ensures_bind, update, ensures_modify]
      exact ensures_probe (h.update h.kept.restarted rfl) hIdle.process hLimits
  | _ => exact ⟨h, hIdle, nofun, nofun⟩

theorem ensures_judgeTurn {own : NativeOwn} {request : TurnRequest} {started : Int}
    {captured : CapturedProcess} (h : Sound identity kind w) (hNone : w.core.process = none)
    (hKind : own.kind = kind) :
    Ensures (judgeTurn tools own.kind request started captured) steady w answers
      (Busy identity kind) cut (Done identity kind metered) := by
  subst hKind
  rw [judgeTurn]
  split_ifs with hExit
  · exact ensures_failedExit h hNone fun _ _ _ hStopped => hStopped
  · cases tools.normalizeOutput own.kind captured.stdout with
    | none =>
        have hCrashed := (h.released (spent_of_none hNone)).transition (.crashed syntheticFailure)
        exact ⟨hCrashed.diagnostic .., ⟨rfl, rfl⟩, nofun, nofun⟩
    | some normalized =>
        dsimp only
        rw [completeTurn, ensures_bind]
        refine ensures_stderrDiagnostic h fun t hSound hProcess => ?_
        exact ⟨(hSound.update (hSound.kept.completed ..) rfl).transition .ready,
          ⟨rfl, hProcess.trans hNone⟩, rfl⟩

theorem ensures_runTurn {request : TurnRequest} (h : Sound identity kind w)
    (hNone : w.core.process = none) (hLimits : metered → Unlimited w.budget answers) :
    Ensures (runTurn backend tools request) steady w answers (Busy identity kind) cut
      (Done identity kind metered) := by
  have hTurning := (h.update (h.kept.readings (w.core.readings + 1)) rfl).transition
    (.turnRunning request.turnId)
  have hBusy := hTurning.busy hNone nofun
  rw [runTurn, ensures_bind, ensures_readClock]
  dsimp only
  rw [ensures_bind, ensures_transition]
  dsimp only
  rw [ensures_bind, ensures_get]
  dsimp only
  rw [ensures_bind, ensures_attempt]
  refine (ensures_runProcess hBusy hNone hLimits).mono fun t rest result hResult => ?_
  match result with
  | .ok captured => exact ensures_judgeTurn hResult.1 hResult.2 h.kind
  | .error e =>
      by_cases hCancelled : e = .cancelled
      · subst hCancelled
        exact ⟨hResult.1, hResult.2, nofun, nofun⟩
      · obtain ⟨hSound, hSpent, hReported⟩ := Captured.error hResult hCancelled
        cases e with
        | cancelled => exact absurd rfl hCancelled
        | _ => exact ensures_crash hSound hSpent hReported fun _ _ _ hStopped => hStopped

theorem ensures_requestTurn {request : TurnRequest} {cancelled : Bool} (h : Sound identity kind w)
    (hIdle : Idle w) (hLimits : metered → Unlimited w.budget answers) :
    Ensures (requestTurn backend tools request cancelled) steady w answers (Busy identity kind) cut
      (Done identity kind metered) := by
  rw [requestTurn, ensures_bind, ensures_get]
  dsimp only
  split_ifs with hState
  · exact ⟨h, hIdle, nofun, nofun⟩
  · rw [requestNativeTurn]
    split_ifs with hId
    · exact ⟨h, hIdle, nofun, nofun⟩
    · rw [not_or, not_not] at hState
      have hAlive : Alive w := fun reason => by rw [hState.1]; nofun
      exact ensures_giveUp (h.busy hIdle.process hAlive) fun _ _ hSound hDone => ⟨hSound, hDone, nofun, nofun⟩
    · exact ensures_runTurn h hIdle.process hLimits

/-- Termination ends the run, unless the process cannot be terminated. -/
theorem ensures_terminateFrom {reason : TerminationReason} {previous : DriverLifecycleState}
    {post : NativeHarnessDriver → List Moment → Except DriverError Unit → Prop}
    (h : Sound identity kind w)
    (hHealthy : ∀ process, w.core.process = some process → ¬ Failed w.acts process)
    (hEnd : ∀ t rest, Sound identity kind t → Idle t → t.core.state = .terminated reason →
      post t rest (.ok ()))
    (hRefused : ∀ t rest e process, w.core.process = some process →
      (∃ moment ∈ answers, moment.terminated = .error e) → post t rest (.error (.process e))) :
    Ensures (terminateFrom reason previous) steady w answers (Busy identity kind) cut post := by
  have hBusy : Busy identity kind (w.withCore (w.core.transition .terminating)) :=
    ⟨h.transition .terminating, nofun, hHealthy⟩
  have hFinish : ∀ t rest, Sound identity kind t → Spent t →
      Ensures (finishTermination reason) steady t rest (Busy identity kind) cut post :=
    fun t rest hSound hSpent => hEnd _ rest
      ((hSound.released hSpent).transition (.terminated reason)) ⟨rfl, rfl⟩ rfl
  rw [terminateFrom, ensures_bind, ensures_transition]
  dsimp only
  rw [ensures_bind, ensures_get]
  dsimp only
  cases hProcess : (w.withCore (w.core.transition .terminating)).core.process with
  | none => exact hFinish _ answers hBusy.sound (spent_of_none hProcess)
  | some process =>
      obtain ⟨hTold, hSpent⟩ := hBusy.told hProcess
      rw [ensures_bind]
      refine ensures_terminateProcess hTold (fun _ _ hStop => absurd hStop Bool.false_ne_true)
        fun moment rest hAnswers => ?_
      cases hAnswer : moment.terminated with
      | ok status => exact hFinish _ rest hTold.sound hSpent
      | error e =>
          refine hRefused _ rest e process hProcess ?_
          exact ⟨moment, by rw [hAnswers]; exact List.mem_cons_self, hAnswer⟩

theorem ensures_terminate {reason : TerminationReason} (h : Sound identity kind w)
    (hIdle : Idle w) :
    Ensures (terminate reason) steady w answers (Busy identity kind) cut fun t _ _ =>
      Sound identity kind t ∧ Idle t := by
  have hFrom : ∀ state, Ensures (terminateFrom reason state) steady w answers (Busy identity kind)
      cut fun t _ _ => Sound identity kind t ∧ Idle t := by
    intro state
    refine ensures_terminateFrom h (fun process hSome => ?_)
      (fun t rest hSound hDone _ => ⟨hSound, hDone⟩) fun t rest e process hSome => ?_
    · cases hIdle.process.symm.trans hSome
    · cases hIdle.process.symm.trans hSome
  rw [terminate, ensures_bind, ensures_get]
  dsimp only
  cases hState : w.core.state with
  | terminated earlier => exact ⟨h, hIdle⟩
  | _ => exact hFrom _

/-- A run that has not ended is ended by termination. -/
theorem ensures_terminate_alive {reason : TerminationReason} (h : Busy identity kind w)
    (hEnding : ∀ moment ∈ answers, ∃ status, moment.terminated = .ok status) :
    Ensures (terminate reason) steady w answers (Busy identity kind) cut fun t _ _ =>
      (Sound identity kind t ∧ Idle t) ∧ t.core.state = .terminated reason := by
  have hFrom : ∀ state, w.core.state = state → Ensures (terminateFrom reason state) steady w answers
      (Busy identity kind) cut fun t _ _ =>
        (Sound identity kind t ∧ Idle t) ∧ t.core.state = .terminated reason := by
    intro state _
    refine ensures_terminateFrom h.sound h.healthy
      (fun t rest hEnd hIdle hState => ⟨⟨hEnd, hIdle⟩, hState⟩) fun t rest e _ _ hRefused => ?_
    obtain ⟨moment, hMoment, hError⟩ := hRefused
    obtain ⟨status, hOk⟩ := hEnding moment hMoment
    cases hOk.symm.trans hError
  rw [terminate, ensures_bind, ensures_get]
  dsimp only
  cases hState : w.core.state with
  | terminated earlier => exact absurd hState (h.alive earlier)
  | _ => exact hFrom _ hState

end Calls

end WordArena.Agent.Native
