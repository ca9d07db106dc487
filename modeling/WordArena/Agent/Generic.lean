import WordArena.Agent.Adapter

/-! Every call of the generic driver, followed through all of its exits. -/
namespace WordArena.Agent

open Async

section Custody

/-- Every process that the driver was given is in its hand, exited, or was told to end. -/
def Custody (acts : List ProcessAct) (held : Option ProcessInstance) : Prop :=
  ∀ process, Obtained acts process → held = some process ∨ Ended acts process

variable {acts : List ProcessAct} {held : Option ProcessInstance} {process : ProcessInstance}

/-- Other acts do not hand out processes. -/
theorem Custody.did {act : ProcessAct} (h : Custody acts held)
    (hSpawned : ∀ process spec, act ≠ .spawned process spec)
    (hReattached : ∀ process handle, act ≠ .reattached process handle) :
    Custody (acts ++ [act]) held := by
  intro process hProcess
  rcases obtained_append.mp hProcess with hOld | ⟨spec, hNew⟩ | ⟨handle, hNew⟩
  · rcases h process hOld with hHeld | hEnded
    · exact .inl hHeld
    · exact .inr (ended_append.mpr (.inl hEnded))
  · exact absurd hNew (hSpawned process spec)
  · exact absurd hNew (hReattached process handle)

theorem Custody.given {act : ProcessAct} (h : Custody acts none)
    (hAct : (∃ spec, act = .spawned process spec) ∨ ∃ handle, act = .reattached process handle) :
    Custody (acts ++ [act]) (some process) := by
  intro other hOther
  rcases obtained_append.mp hOther with hOld | hNew
  · rcases h other hOld with hHeld | hEnded
    · cases hHeld
    · exact .inr (ended_append.mpr (.inl hEnded))
  · left
    rcases hAct with ⟨spec, rfl⟩ | ⟨handle, rfl⟩
    · rcases hNew with ⟨_, hSame⟩ | ⟨_, hSame⟩
      · cases hSame
        rfl
      · cases hSame
    · rcases hNew with ⟨_, hSame⟩ | ⟨_, hSame⟩
      · cases hSame
      · cases hSame
        rfl

/-- A process that ended may be given up. -/
theorem Custody.dropped (h : Custody acts held)
    (hEnded : ∀ process, held = some process → Ended acts process) : Custody acts none := by
  intro process hProcess
  rcases h process hProcess with hHeld | hDone
  · exact .inr (hEnded process hHeld)
  · exact .inr hDone

end Custody

section Sound

/-- A driver in the course of a call. -/
structure Sound (identity : AgentManifestIdentity) (spec : ProcessSpec)
    (w : GenericCommandDriver) : Prop where
  kept : Kept identity w.core
  spec : w.own.processSpec = spec
  custody : Custody w.acts w.core.process

/-- A driver between two calls. -/
structure Idle (w : GenericCommandDriver) : Prop where
  stable : w.core.state.transient = false
  process : w.core.process ≠ none → w.core.state = .ready
  handle : w.own.resumeHandle ≠ none → w.core.state = .ready
  ready : w.core.state = .ready → w.core.process ≠ none ∨ w.own.resumeHandle ≠ none
  decoder : w.own.decoder = []

/-- A driver inside a call. -/
structure Busy (identity : AgentManifestIdentity) (spec : ProcessSpec)
    (w : GenericCommandDriver) : Prop where
  sound : Sound identity spec w
  alive : Alive w

/-- How a call fails. -/
structure Stopped (identity : AgentManifestIdentity) (spec : ProcessSpec) (metered : Prop)
    (w : GenericCommandDriver) (e : DriverError) : Prop where
  sound : Sound identity spec w
  idle : Idle w
  reportable : Reportable metered e

/-- How a call ends that asks for a process or a turn. -/
def Done (identity : AgentManifestIdentity) (spec : ProcessSpec) (metered : Prop) {α : Type}
    (w : GenericCommandDriver) (_ : List Moment) : Except DriverError α → Prop
  | .ok _ => Sound identity spec w ∧ Idle w ∧ w.core.state = .ready
  | .error e => Stopped identity spec metered w e

variable {identity : AgentManifestIdentity} {spec : ProcessSpec} {w : GenericCommandDriver}
  {metered : Prop} {answers : List Moment} {cut : GenericCommandDriver → List Moment → Prop}

theorem Sound.update (h : Sound identity spec w) {core : DriverCore} (hCore : Kept identity core)
    (hProcess : core.process = w.core.process) : Sound identity spec (w.withCore core) :=
  ⟨hCore, h.spec, by rw [World.withCore, hProcess]; exact h.custody⟩

theorem Sound.did (h : Sound identity spec w) (act : ProcessAct)
    (hSpawned : ∀ process spec, act ≠ .spawned process spec)
    (hReattached : ∀ process handle, act ≠ .reattached process handle) :
    Sound identity spec (w.did act) :=
  ⟨h.kept, h.spec, h.custody.did hSpawned hReattached⟩

theorem Sound.refused (h : Sound identity spec w) : Sound identity spec (w.did .refused) :=
  h.did _ nofun nofun

theorem Sound.spent (h : Sound identity spec w) (budget : BudgetController) :
    Sound identity spec (w.spent budget) :=
  ⟨h.kept, h.spec, h.custody⟩

/-- A driver without its process. -/
def World.released (w : GenericCommandDriver) : GenericCommandDriver :=
  { w with
    core := { w.core with process := none }
    own := { w.own with resumeHandle := none, decoder := [] } }

theorem Sound.released (h : Sound identity spec w)
    (hEnded : ∀ process, w.core.process = some process → Ended w.acts process) :
    Sound identity spec w.released :=
  ⟨h.kept.process none, h.spec, h.custody.dropped hEnded⟩

theorem Sound.transition (h : Sound identity spec w) (state : DriverLifecycleState) :
    Sound identity spec (w.withCore (w.core.transition state)) :=
  h.update (h.kept.transition state) rfl

/-- A driver that gave up its process rests in a state that needs none. -/
theorem idle_released {state : DriverLifecycleState} (hStable : state.transient = false)
    (hReady : state ≠ .ready) :
    Idle (w.released.withCore (w.released.core.transition state)) :=
  ⟨hStable, fun hProcess => absurd rfl hProcess, fun hHandle => absurd rfl hHandle,
    fun hState => absurd hState hReady, rfl⟩

/-- What is told to a process changes nothing but the log. -/
theorem Idle.did (h : Idle w) (act : ProcessAct) : Idle (w.did act) :=
  ⟨h.stable, h.process, h.handle, h.ready, h.decoder⟩

theorem Idle.spent (h : Idle w) (budget : BudgetController) : Idle (w.spent budget) :=
  ⟨h.stable, h.process, h.handle, h.ready, h.decoder⟩

/-- After the process in hand was told to end. -/
theorem ensures_terminateHeld {code : String}
    {post : GenericCommandDriver → List Moment → Except DriverError Unit → Prop}
    (h : Sound identity spec w) (hAlive : w.core.process ≠ none → Alive w)
    (hPost : ∀ t rest, Sound identity spec t →
      (∀ process, t.core.process = some process → Ended t.acts process) → post t rest (.ok ())) :
    Ensures (terminateHeld code) steady w answers (Busy identity spec) cut post := by
  rw [terminateHeld, ensures_bind, ensures_get]
  dsimp only
  cases hProcess : w.core.process with
  | none =>
      refine ensures_pure.mpr (hPost w answers h ?_)
      rw [hProcess]
      nofun
  | some process =>
      have hTold : Sound identity spec (w.did (.terminated process)) := h.did _ nofun nofun
      have hEnded : ∀ other, w.core.process = some other →
          Ended (w.did (.terminated process)).acts other := by
        intro other hOther
        cases hProcess.symm.trans hOther
        exact ended_append.mpr (.inr (.inr rfl))
      rw [ensures_bind]
      refine ensures_terminateProcess ⟨hTold, hAlive (by rw [hProcess]; nofun)⟩
        (fun _ _ hStop => absurd hStop Bool.false_ne_true) fun moment rest _ => ?_
      cases moment.terminated with
      | ok status => exact ensures_pure.mpr (hPost _ rest hTold hEnded)
      | error e => exact hPost _ rest (hTold.update (hTold.kept.diagnostic ..) rfl) hEnded

/-- A call that loses against the token ends the run. -/
theorem ensures_giveUp {α : Type}
    {post : GenericCommandDriver → List Moment → Except DriverError α → Prop}
    (h : Sound identity spec w) (hAlive : w.core.process ≠ none → Alive w)
    (hPost : ∀ t rest e, Stopped identity spec metered t e → post t rest (.error e)) :
    Ensures (giveUp : Op GenericOwn α) steady w answers (Busy identity spec) cut post := by
  rw [giveUp, ensures_bind, cancellationError, ensures_bind]
  refine ensures_terminateHeld h hAlive fun t rest hSound hEnded => hPost _ rest .cancelled ?_
  exact ⟨(hSound.released hEnded).transition _, idle_released rfl nofun, nofun, nofun⟩

/-- A call that fails leaves a crashed run. -/
theorem ensures_fail {α : Type} {fault : ProtocolFault}
    {post : GenericCommandDriver → List Moment → Except DriverError α → Prop}
    (h : Busy identity spec w) (hFault : Reportable metered fault.error)
    (hPost : ∀ t rest e, Stopped identity spec metered t e → post t rest (.error e)) :
    Ensures (fail fault : Op GenericOwn α) steady w answers (Busy identity spec) cut post := by
  rw [fail, ensures_bind, protocolFailure, ensures_bind]
  refine ensures_terminateHeld h.sound (fun _ => h.alive) fun t rest hSound hEnded => ?_
  have hCrashed := (hSound.released hEnded).transition (.crashed syntheticFailure)
  have hIdle : Idle (t.released.withCore (t.released.core.transition (.crashed syntheticFailure))) :=
    idle_released rfl nofun
  exact hPost _ rest fault.error ⟨hCrashed.update (hCrashed.kept.diagnostic ..) rfl,
    ⟨hIdle.stable, hIdle.process, hIdle.handle, hIdle.ready, hIdle.decoder⟩, hFault⟩

end Sound

section Requests

variable {identity : AgentManifestIdentity} {spec : ProcessSpec} {w : GenericCommandDriver}
  {metered : Prop} {answers : List Moment} {cut : GenericCommandDriver → List Moment → Prop}
  {backend : Backend}

/-- A process that was just given is taken over. -/
theorem ensures_adopt {process : ProcessInstance} {act : ProcessAct} (h : Sound identity spec w)
    (hNone : w.core.process = none) (hDecoder : w.own.decoder = [])
    (hAct : (∃ spec, act = .spawned process spec) ∨ ∃ handle, act = .reattached process handle) :
    Ensures (adopt process) steady (w.did act) answers (Busy identity spec) cut
      (Done identity spec metered) := by
  have hCustody : Custody (w.acts ++ [act]) (some process) := by
    have hBefore := h.custody
    rw [hNone] at hBefore
    exact hBefore.given hAct
  refine ⟨⟨(h.kept.process (some process)).transition .ready, h.spec, hCustody⟩, ?_, rfl⟩
  exact ⟨rfl, fun _ => rfl, fun _ => rfl, fun _ => .inl nofun, hDecoder⟩

/-- A refused request for a process leaves the driver as it was. -/
theorem stopped_refused {t : GenericCommandDriver} {e : ProcessError}
    (hSound : Sound identity spec t) (hIdle : Idle t)
    (hLimit : metered → (.error e : Except ProcessError ProcessInstance) ≠ .error .limitExceeded) :
    Stopped identity spec metered t (.process e) :=
  ⟨hSound, hIdle, .process hLimit⟩

/-- A request for a process in a run that has none. -/
theorem ensures_replaceProcess (h : Sound identity spec w) (hIdle : Idle w)
    (hNone : w.core.process = none) (hAlive : Alive w)
    (hLimits : metered → Unlimited w.budget answers) :
    Ensures (replaceProcess backend spec) steady w answers (Busy identity spec) cut
      (Done identity spec metered) := by
  rw [replaceProcess, ensures_bind, race, ensures_select]
  refine ensures_spawn ⟨h, hAlive⟩ (fun rest => ?_) fun t rest r hAnswered hLimited => ?_
  · exact ensures_giveUp h (fun hProcess => absurd hNone hProcess) fun t rest e hStopped => hStopped
  · have hLimit : metered → r ≠ .error .limitExceeded := fun hMetered =>
      (hLimited (hLimits hMetered)).1
    cases hAnswered with
    | given => exact ensures_adopt h hNone hIdle.decoder (.inl ⟨spec, rfl⟩)
    | refused e => exact stopped_refused h.refused (hIdle.did _) hLimit
    | late budget => exact stopped_refused (h.spent budget) (hIdle.spent budget) hLimit

theorem ensures_startProcess (h : Sound identity spec w) (hIdle : Idle w)
    (hState : w.core.state = .pending) (hLimits : metered → Unlimited w.budget answers) :
    Ensures (startProcess backend spec) steady w answers (Busy identity spec) cut
      (Done identity spec metered) := by
  have hNone : w.core.process = none := by
    by_contra hProcess
    cases (hIdle.process hProcess).symm.trans hState
  have hHandle : w.own.resumeHandle = none := by
    by_contra hHandle
    cases (hIdle.handle hHandle).symm.trans hState
  have hStarting := h.transition .starting
  rw [startProcess, ensures_bind, transition, update, ensures_modify]
  dsimp only
  rw [ensures_bind, race, ensures_select]
  refine ensures_spawn ⟨hStarting, nofun⟩ (fun rest => ?_) fun t rest r hAnswered hLimited => ?_
  · exact ensures_giveUp hStarting (fun hProcess => absurd hNone hProcess) fun t rest e hStopped => hStopped
  · have hLimit : metered → r ≠ .error .limitExceeded := fun hMetered =>
      (hLimited (hLimits hMetered)).1
    -- A refusal leaves a crashed run without a process and without a handle.
    have hCrashed : ∀ t : GenericCommandDriver, t.own = w.own → t.core.process = none →
        Idle (t.withCore (t.core.transition (.crashed syntheticFailure))) := by
      intro t hOwn hProcess
      refine ⟨rfl, fun hSome => absurd hProcess hSome, fun hSome => ?_, nofun, ?_⟩
      · exact absurd (congrArg GenericOwn.resumeHandle hOwn ▸ hHandle) hSome
      · exact congrArg GenericOwn.decoder hOwn ▸ hIdle.decoder
    cases hAnswered with
    | given => exact ensures_adopt hStarting hNone hIdle.decoder (.inl ⟨spec, rfl⟩)
    | refused e =>
        have hRefused := hStarting.refused
        exact stopped_refused (hRefused.transition _) (hCrashed _ rfl hNone) hLimit
    | late budget =>
        exact stopped_refused ((hStarting.spent budget).transition _) (hCrashed _ rfl hNone) hLimit

/-- Only a run that is ready or crashed has a process, or may have one. -/
theorem Idle.process_none (h : Idle w) (hState : w.core.state ≠ .ready) :
    w.core.process = none := by
  by_contra hProcess
  exact hState (h.process hProcess)

theorem ensures_start {cancelled : Bool} (h : Sound identity spec w) (hIdle : Idle w)
    (hLimits : metered → Unlimited w.budget answers) :
    Ensures (start backend cancelled) steady w answers (Busy identity spec) cut
      (Done identity spec metered) := by
  rw [start, ensures_bind, ensures_get]
  dsimp only
  split_ifs with hState hCancelled
  · exact ⟨h, hIdle, nofun, nofun⟩
  · rw [ne_eq, not_not] at hState
    refine ensures_giveUp h (fun hProcess => ?_) fun t rest e hStopped => hStopped
    exact absurd (hIdle.process_none (by rw [hState]; nofun)) hProcess
  · rw [h.spec]
    exact ensures_startProcess h hIdle (not_not.mp hState) hLimits

theorem ensures_restart (h : Sound identity spec w) (hIdle : Idle w)
    (hNone : w.core.process = none) (hAlive : Alive w)
    (hLimits : metered → Unlimited w.budget answers) :
    Ensures (reattachOrRestart.restart backend spec) steady w answers (Busy identity spec) cut
      (Done identity spec metered) := by
  have hCounted := h.update (h.kept.restarted) rfl
  have hNoted := hCounted.update (hCounted.kept.diagnostic .driver
    "process_restart_after_restore"
    "saved process could not be reattached; starting a replacement") rfl
  exact ensures_replaceProcess hNoted
    ⟨hIdle.stable, hIdle.process, hIdle.handle, hIdle.ready, hIdle.decoder⟩ hNone hAlive hLimits

/-- The process that a checkpoint names is taken over, or replaced when it is gone. -/
theorem ensures_reattachOrRestart {handle : ProcessHandle} (h : Sound identity spec w)
    (hIdle : Idle w) (hNone : w.core.process = none) (hAlive : Alive w)
    (hLimits : metered → Unlimited w.budget answers) :
    Ensures (reattachOrRestart backend spec handle) steady w answers (Busy identity spec) cut
      (Done identity spec metered) := by
  rw [reattachOrRestart, ensures_bind, race, ensures_select]
  refine ensures_reattach ⟨h, hAlive⟩ (fun rest => ?_) fun t rest r hAnswered hLimited => ?_
  · exact ensures_giveUp h (fun hProcess => absurd hNone hProcess) fun t rest e hStopped => hStopped
  · cases hAnswered with
    | given => exact ensures_adopt h hNone hIdle.decoder (.inr ⟨handle, rfl⟩)
    | refused e =>
        have hRestart : Ensures (reattachOrRestart.restart backend spec) steady (w.did .refused) rest
            (Busy identity spec) cut (Done identity spec metered) :=
          ensures_restart h.refused (hIdle.did .refused) hNone hAlive fun hMetered =>
            (hLimited (hLimits hMetered)).2
        have hStopped : Stopped identity spec metered (w.did .refused) (.process e) :=
          stopped_refused h.refused (hIdle.did .refused) fun hMetered =>
            (hLimited (hLimits hMetered)).1
        cases e with
        | reattachUnsupported => exact hRestart
        | missing => exact hRestart
        | _ => exact hStopped
    | late budget =>
        exact stopped_refused (h.spent budget) (hIdle.spent budget) fun hMetered =>
          (hLimited (hLimits hMetered)).1

theorem ensures_resumeDetached (h : Sound identity spec w) (hIdle : Idle w)
    (hNone : w.core.process = none) (hLimits : metered → Unlimited w.budget answers) :
    Ensures (resumeDetached backend w) steady w answers (Busy identity spec) cut
      (Done identity spec metered) := by
  have hUnchanged : ∀ e, Reportable metered e → Stopped identity spec metered w e :=
    fun e hError => ⟨h, hIdle, hError⟩
  have hSpec := h.spec
  rw [resumeDetached]
  cases hState : w.core.state with
  | ready =>
      dsimp only
      cases w.own.resumeHandle with
      | none => exact hUnchanged _ ⟨nofun, nofun⟩
      | some handle =>
          rw [hSpec]
          refine ensures_reattachOrRestart h hIdle hNone (fun reason => ?_) hLimits
          rw [hState]
          nofun
  | crashed exit =>
      rw [hSpec, ensures_bind, update, ensures_modify]
      refine ensures_replaceProcess (h.update h.kept.restarted rfl)
        ⟨hIdle.stable, hIdle.process, hIdle.handle, hIdle.ready, hIdle.decoder⟩ hNone
        (fun reason => ?_) hLimits
      change w.core.state ≠ _
      rw [hState]
      nofun
  | _ => exact hUnchanged _ ⟨nofun, nofun⟩

theorem ensures_resume {cancelled : Bool} (h : Sound identity spec w) (hIdle : Idle w)
    (hLimits : metered → Unlimited w.budget answers) :
    Ensures (resume backend cancelled) steady w answers (Busy identity spec) cut
      (Done identity spec metered) := by
  rw [resume, ensures_bind, ensures_get]
  dsimp only
  split_ifs with hProcess hCancelled
  · exact ⟨h, hIdle, hIdle.process hProcess⟩
  · exact ensures_giveUp h (fun hSome => absurd hSome hProcess) fun t rest e hStopped => hStopped
  · exact ensures_resumeDetached h hIdle (not_not.mp hProcess) hLimits

end Requests

section Turns

variable {identity : AgentManifestIdentity} {spec : ProcessSpec} {w : GenericCommandDriver}
  {metered : Prop} {answers : List Moment} {cut : GenericCommandDriver → List Moment → Prop}
  {backend : Backend} {wire : Wire} {request : TurnRequest} {started : Int}

/-- A driver that waits for the frame of a turn. -/
structure Turning (identity : AgentManifestIdentity) (spec : ProcessSpec) (metered : Prop)
    (w : GenericCommandDriver) (answers : List Moment) : Prop where
  busy : Busy identity spec w
  process : w.core.process ≠ none
  limits : metered → Unlimited w.budget answers

/-- What one event of a turn comes to. -/
def Turned (identity : AgentManifestIdentity) (spec : ProcessSpec) (metered : Prop)
    (w : GenericCommandDriver) (answers : List Moment) :
    Except DriverError (Unit ⊕ VisibleTurnOutput) → Prop
  | .ok (.inl _) => Turning identity spec metered w answers
  | .ok (.inr _) => Sound identity spec w ∧ Idle w ∧ w.core.state = .ready
  | .error e => Stopped identity spec metered w e

/-- A frame ends the turn, one way or the other. -/
theorem ensures_acceptFrame {frame : List UInt8} (h : Turning identity spec metered w answers)
    (hDecoder : w.own.decoder = []) :
    Ensures (acceptFrame wire request started frame) steady w answers (Busy identity spec) cut
      (Turned identity spec metered) := by
  have hFail : ∀ fault : ProtocolFault, Reportable metered fault.error →
      Ensures (fail fault) steady w answers (Busy identity spec) cut
        (Turned identity spec metered) :=
    fun fault hFault => ensures_fail h.busy hFault fun _ _ _ hStopped => hStopped
  rw [acceptFrame]
  cases wire.decodeTurn frame with
  | none => exact hFail .invalidFrame ⟨nofun, nofun⟩
  | some output =>
      dsimp only
      split_ifs with hVersion hTurn
      · exact hFail .invalidFrame ⟨nofun, nofun⟩
      · exact hFail .turnMismatch ⟨nofun, nofun⟩
      · have hCompleted := h.busy.sound.update (h.busy.sound.kept.completed request started output) rfl
        refine ⟨hCompleted.transition .ready, ?_, rfl⟩
        exact ⟨rfl, fun _ => rfl, fun _ => rfl, fun _ => .inl h.process, hDecoder⟩

theorem ensures_acceptFrames {frames : List (List UInt8)}
    (h : Turning identity spec metered w answers) :
    Ensures (acceptFrames wire request started frames) steady w answers (Busy identity spec) cut
      (Turned identity spec metered) := by
  have hFail : Ensures (fail .invalidFrame) steady w answers (Busy identity spec) cut
      (Turned identity spec metered) :=
    ensures_fail h.busy ⟨nofun, nofun⟩ fun _ _ _ hStopped => hStopped
  rw [acceptFrames, ensures_bind, ensures_get]
  dsimp only
  by_cases hMany : 1 < frames.length
  · rw [if_pos hMany]
    exact hFail
  · rw [if_neg hMany]
    cases frames.head? with
    | none => exact h
    | some frame =>
        dsimp only
        split_ifs with hLeft
        · exact hFail
        · exact ensures_acceptFrame h (not_not.mp hLeft)

/-- The decoder refuses empty lines and lines that are too long. -/
theorem drainFrames_error {frames : List (List UInt8)} {line bytes : List UInt8}
    {fault : ProtocolFault} (h : (drainFrames frames line bytes).1 = .error fault) :
    fault = .invalidFrame := by
  induction bytes generalizing frames line with
  | nil => cases h
  | cons byte bytes ih =>
      rw [drainFrames] at h
      split_ifs at h
      · exact (Except.error.inj h).symm
      · exact ih h
      · exact ih h

theorem pushFrame_error {buffer bytes : List UInt8} {fault : ProtocolFault}
    (h : (pushFrame buffer bytes).1 = .error fault) : Reportable metered fault.error := by
  rw [pushFrame] at h
  split_ifs at h
  · cases h
    exact ⟨nofun, nofun⟩
  · rw [drainFrames_error h]
    exact ⟨nofun, nofun⟩

theorem ensures_receive {bytes : List UInt8} (h : Turning identity spec metered w answers) :
    Ensures (receive wire request started bytes) steady w answers (Busy identity spec) cut
      (Turned identity spec metered) := by
  have hPushed : Turning identity spec metered { w with
      own := { w.own with decoder := (pushFrame w.own.decoder bytes).2 } } answers :=
    ⟨⟨⟨h.busy.sound.kept, h.busy.sound.spec, h.busy.sound.custody⟩, h.busy.alive⟩, h.process,
      h.limits⟩
  rw [receive, ensures_bind, ensures_get]
  dsimp only
  rw [ensures_bind, ensures_modify]
  dsimp only
  cases hPush : (pushFrame w.own.decoder bytes).1 with
  | ok frames => exact ensures_acceptFrames hPushed
  | error fault =>
      exact ensures_fail hPushed.busy (pushFrame_error hPush) fun _ _ _ hStopped => hStopped

/-- An operation on the process in hand, raced against the token. -/
theorem ensures_raced {α β : Type} {f : ProcessInstance → Op GenericOwn α}
    {g : Option α → Op GenericOwn β}
    {post : GenericCommandDriver → List Moment → Except DriverError β → Prop}
    {process : ProcessInstance} (hProcess : w.core.process = some process)
    (h : Ensures (f process) (·.cancelled) w answers (Busy identity spec)
      (fun t rest => Ensures (g none) steady t rest (Busy identity spec) cut post)
      fun t rest result => match result with
        | .ok a => Ensures (g (some a)) steady t rest (Busy identity spec) cut post
        | .error e => post t rest (.error e)) :
    Ensures (race (withProcess f) >>= g) steady w answers (Busy identity spec) cut post := by
  rw [ensures_bind, race, ensures_select, withProcess, ensures_bind, ensures_get]
  dsimp only
  rw [hProcess]
  refine h.mono fun t rest result hResult => ?_
  cases result <;> exact hResult

/-- Reading keeps the process in hand. -/
theorem Turning.reported {process : ProcessInstance} {t : GenericCommandDriver}
    {rest : List Moment} {r : Except ProcessError ProcessEvent}
    (h : Turning identity spec metered w answers) (hReported : Reported process w t r)
    (hLimits : metered → Unlimited t.budget rest) : Turning identity spec metered t rest := by
  cases hReported with
  | stdout budget bytes => exact ⟨⟨h.busy.sound.spent budget, h.busy.alive⟩, h.process, hLimits⟩
  | stderr budget bytes => exact ⟨⟨h.busy.sound.spent budget, h.busy.alive⟩, h.process, hLimits⟩
  | exited status => exact ⟨⟨h.busy.sound.did _ nofun nofun, h.busy.alive⟩, h.process, hLimits⟩
  | failed e => exact ⟨⟨h.busy.sound.did _ nofun nofun, h.busy.alive⟩, h.process, hLimits⟩
  | overrun budget =>
      exact ⟨⟨(h.busy.sound.spent budget).did _ nofun nofun, h.busy.alive⟩, h.process, hLimits⟩

theorem ensures_readTurn (h : Turning identity spec metered w answers) :
    Ensures (readTurn backend wire request started ()) steady w answers (Busy identity spec) cut
      (Turned identity spec metered) := by
  obtain ⟨process, hProcess⟩ := Option.ne_none_iff_exists'.mp h.process
  have hOver : ∀ budget, Busy identity spec ((w.spent budget).did (.terminated process)) :=
    fun budget => ⟨(h.busy.sound.spent budget).did _ nofun nofun, h.busy.alive⟩
  have hGiveUp : ∀ t rest, Busy identity spec t → Ensures giveUp steady t rest
      (Busy identity spec) cut (Turned identity spec metered) := fun t rest hBusy =>
    ensures_giveUp hBusy.sound (fun _ => hBusy.alive) fun _ _ _ hStopped => hStopped
  rw [readTurn]
  refine ensures_raced hProcess (ensures_nextEvent h.busy (fun rest => hGiveUp w rest h.busy) hOver
    (fun budget rest => hGiveUp _ rest (hOver budget)) fun t rest r hReported hLimited => ?_)
  have hNext := h.reported hReported fun hMetered => (hLimited (h.limits hMetered)).2
  match r with
  | .error e =>
      exact ensures_fail hNext.busy (.process fun hMetered => (hLimited (h.limits hMetered)).1)
        fun _ _ _ hStopped => hStopped
  | .ok (.stdout bytes) => exact ensures_receive hNext
  | .ok (.stderr bytes) =>
      exact ⟨⟨hNext.busy.sound.update (hNext.busy.sound.kept.diagnostic ..) rfl, hNext.busy.alive⟩,
        hNext.process, hNext.limits⟩
  | .ok (.exited exit) =>
      have hEnded : ∀ other, t.core.process = some other → Ended t.acts other := by
        cases hReported
        intro other hOther
        cases hProcess.symm.trans hOther
        exact ended_append.mpr (.inr (.inl rfl))
      exact ⟨(hNext.busy.sound.released hEnded).transition _, idle_released rfl nofun, nofun, nofun⟩

/-- A turn from its first event to its frame. -/
theorem ensures_readTurns (h : Turning identity spec metered w answers) :
    Ensures (loop (readTurn backend wire request started) ()) steady w answers (Busy identity spec)
      cut (Done identity spec metered) := by
  have hInside : ∀ (_ : Unit) t rest, Turning identity spec metered t rest → Busy identity spec t :=
    fun _ _ _ hTurn => hTurn.busy
  refine ensures_loop hInside (fun _ t rest hTurn => ?_) h
  refine (ensures_readTurn hTurn).mono fun u after result hResult => ?_
  refine ⟨?_, ?_, ?_⟩
  · rintro next rfl
    exact hResult
  · rintro output rfl
    exact hResult
  · rintro e rfl
    exact hResult

theorem ensures_runTurn {bytes : List UInt8} (h : Sound identity spec w)
    (hProcess : w.core.process ≠ none) (hLimits : metered → Unlimited w.budget answers) :
    Ensures (runTurn backend wire request bytes) steady w answers (Busy identity spec) cut
      (Done identity spec metered) := by
  have hSound := (h.update (h.kept.readings (w.core.readings + 1)) rfl).transition
    (.turnRunning request.turnId)
  obtain ⟨process, hHeld⟩ := Option.ne_none_iff_exists'.mp hProcess
  rw [runTurn, ensures_bind, ensures_readClock]
  dsimp only
  rw [ensures_bind, ensures_transition]
  dsimp only
  refine ensures_raced hHeld (ensures_write ⟨hSound, nofun⟩ (fun rest => ?_)
    fun moment rest hAnswers => ?_)
  · exact ensures_giveUp hSound (fun _ => nofun) fun _ _ _ hStopped => hStopped
  · have hWrote := hSound.did (.wrote process bytes) nofun nofun
    subst hAnswers
    cases hWritten : moment.written with
    | ok u => exact ensures_readTurns ⟨⟨hWrote, nofun⟩, hProcess, fun hMetered => (hLimits hMetered).tail⟩
    | error e =>
        have hLimit : metered → (.error e : Except ProcessError Unit) ≠ .error .limitExceeded := by
          intro hMetered
          rw [← hWritten]
          exact (hLimits hMetered).written moment List.mem_cons_self
        exact ensures_fail ⟨hWrote, nofun⟩ (.process hLimit) fun _ _ _ hStopped => hStopped

theorem ensures_requestTurn {cancelled : Bool} (h : Sound identity spec w) (hIdle : Idle w)
    (hLimits : metered → Unlimited w.budget answers) :
    Ensures (requestTurn backend wire request cancelled) steady w answers (Busy identity spec) cut
      (Done identity spec metered) := by
  rw [requestTurn, ensures_bind, ensures_get]
  dsimp only
  by_cases hState : w.core.state ≠ .ready ∨ w.core.process = none
  · rw [if_pos hState]
    exact ⟨h, hIdle, nofun, nofun⟩
  · rw [if_neg hState]
    rw [not_or, not_not] at hState
    cases hEncoded : encodeTurnRequest w.core.runId request with
    | error e =>
        rw [encodeTurnRequest] at hEncoded
        split_ifs at hEncoded
        cases hEncoded
        exact ⟨h, hIdle, nofun, nofun⟩
    | ok bytes =>
        dsimp only
        split_ifs with hCancelled
        · refine ensures_giveUp h (fun _ reason => ?_) fun _ _ _ hStopped => hStopped
          rw [hState.1]
          nofun
        · exact ensures_runTurn h hState.2 hLimits

end Turns

section Termination

variable {identity : AgentManifestIdentity} {spec : ProcessSpec} {w : GenericCommandDriver}
  {answers : List Moment} {cut : GenericCommandDriver → List Moment → Prop}
  {reason : TerminationReason} {previous : DriverLifecycleState}

/-- Termination ends the run, unless the process cannot be terminated. -/
theorem ensures_terminateFrom {post : GenericCommandDriver → List Moment → Except DriverError Unit → Prop}
    (h : Sound identity spec w)
    (hEnd : ∀ t rest, Sound identity spec t → Idle t → t.core.state = .terminated reason →
      post t rest (.ok ()))
    (hRefused : ∀ t rest e, Sound identity spec t → t.own = w.own →
      t.core.process = w.core.process → t.core.state = previous →
      (∃ moment ∈ answers, moment.terminated = .error e) → post t rest (.error (.process e))) :
    Ensures (terminateFrom reason previous) steady w answers (Busy identity spec) cut post := by
  have hTerminating := h.transition .terminating
  have hFinish : ∀ t rest, Sound identity spec t →
      (∀ process, t.core.process = some process → Ended t.acts process) →
      Ensures (finishTermination reason) steady t rest (Busy identity spec) cut post :=
    fun t rest hSound hEnded => hEnd _ rest ((hSound.released hEnded).transition (.terminated reason))
      (idle_released rfl nofun) rfl
  rw [terminateFrom, ensures_bind, ensures_transition]
  dsimp only
  rw [ensures_bind, ensures_get]
  dsimp only
  cases hProcess : (w.withCore (w.core.transition .terminating)).core.process with
  | none =>
      refine hFinish _ answers hTerminating ?_
      rw [hProcess]
      nofun
  | some process =>
      have hTold := hTerminating.did (.terminated process) nofun nofun
      rw [ensures_bind]
      refine ensures_terminateProcess ⟨hTold, nofun⟩
        (fun _ _ hStop => absurd hStop Bool.false_ne_true) fun moment rest hAnswers => ?_
      cases hAnswer : moment.terminated with
      | ok status =>
          refine hFinish _ rest hTold fun other hOther => ?_
          cases hProcess.symm.trans hOther
          exact ended_append.mpr (.inr (.inr rfl))
      | error e =>
          have hNoted := hTold.update (hTold.kept.diagnostic .driver "termination_failed" e.display) rfl
          refine hRefused _ rest e (hNoted.transition previous) rfl rfl rfl ?_
          exact ⟨moment, by rw [hAnswers]; exact List.mem_cons_self, hAnswer⟩

theorem ensures_terminate (h : Sound identity spec w) (hIdle : Idle w) :
    Ensures (terminate reason) steady w answers (Busy identity spec) cut fun t _ _ =>
      Sound identity spec t ∧ Idle t := by
  have hFrom : ∀ state, w.core.state = state → Ensures (terminateFrom reason state) steady w answers
      (Busy identity spec) cut fun t _ _ => Sound identity spec t ∧ Idle t := by
    rintro state rfl
    refine ensures_terminateFrom h (fun t rest hSound hDone _ => ⟨hSound, hDone⟩)
      fun t rest e hSound hOwn hProcess hState _ => ⟨hSound, ?_⟩
    constructor
    · rw [hState]
      exact hIdle.stable
    · rw [hState, hProcess]
      exact hIdle.process
    · rw [hState, hOwn]
      exact hIdle.handle
    · rw [hState, hOwn, hProcess]
      exact hIdle.ready
    · rw [hOwn]
      exact hIdle.decoder
  rw [terminate, ensures_bind, ensures_get]
  dsimp only
  cases hState : w.core.state with
  | terminated earlier => exact ⟨h, hIdle⟩
  | _ => exact hFrom _ hState

/-- A run that has not ended is ended by termination. -/
theorem ensures_terminate_alive (h : Sound identity spec w) (hAlive : Alive w)
    (hEnding : ∀ moment ∈ answers, ∃ status, moment.terminated = .ok status) :
    Ensures (terminate reason) steady w answers (Busy identity spec) cut fun t _ _ =>
      (Sound identity spec t ∧ Idle t) ∧ t.core.state = .terminated reason := by
  have hFrom : ∀ state, w.core.state = state → Ensures (terminateFrom reason state) steady w answers
      (Busy identity spec) cut fun t _ _ =>
        (Sound identity spec t ∧ Idle t) ∧ t.core.state = .terminated reason := by
    intro state _
    refine ensures_terminateFrom h (fun t rest hEnd hIdle hState => ⟨⟨hEnd, hIdle⟩, hState⟩)
      fun t rest e _ _ _ _ hRefused => ?_
    obtain ⟨moment, hMoment, hError⟩ := hRefused
    obtain ⟨status, hOk⟩ := hEnding moment hMoment
    cases hOk.symm.trans hError
  rw [terminate, ensures_bind, ensures_get]
  dsimp only
  cases hState : w.core.state with
  | terminated earlier => exact absurd hState (hAlive earlier)
  | _ => exact hFrom _ hState

end Termination

end WordArena.Agent
