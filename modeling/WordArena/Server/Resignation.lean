import WordArena.Server.Cleanup
import WordArena.Server.Referee
import WordArena.Service.Timeout

/-! Whether a failed turn ends the match. The runner resigns through the ordinary action
path, under a key that anybody with a seat can have used before, and goes on whatever
comes of it. -/
namespace WordArena.Server

open Fallible WordArena.Engine WordArena.Lexicon WordArena.Application WordArena.Service
open WordArena.Agent

abbrev RefereeEvent := RunnerEvent ServicePool ServiceInput

/-! What a runner has seen. -/

/-- A look that was answered with a view. -/
def Sees (event : RefereeEvent) (place : Look) (view : PublicProjection) : Prop :=
  ∃ before input, event = ⟨before, input, .look place, (some view : Option PublicProjection)⟩

theorem Sees.request {event : RefereeEvent} {place : Look} {view : PublicProjection}
    (h : Sees event place view) : event.request = .look place := by
  obtain ⟨before, input, rfl⟩ := h
  rfl

/-- The view of the last turn, and all views the loop began with since it last waited for
a human. -/
structure Memory where
  turn : Option PublicProjection
  recent : List PublicProjection

def Memory.note (memory : Memory) : (request : RunnerRequest) → request.Response → Memory
  | .look .turn, some view => ⟨some view, memory.recent ++ [view]⟩
  | .sleep, _ => { memory with recent := [] }
  | _, _ => memory

def remember (log : List RefereeEvent) : Memory :=
  log.foldl (fun memory event => memory.note event.request event.response) ⟨none, []⟩

theorem remember_concat (log : List RefereeEvent) (event : RefereeEvent) :
    remember (log ++ [event]) = (remember log).note event.request event.response := by
  rw [remember, List.foldl_append]
  rfl

/-! The claim. -/

/-- The runner reacts to a failure: it is about to resign a game that is active and still
at the turn that failed, if any turn was asked for. -/
def Reacts (log : List RefereeEvent) (view : PublicProjection) : Prop :=
  ∃ front look, log = front ++ [look] ∧ Sees look .resign view ∧ view.state.phase = .active ∧
    ∀ turn ∈ (remember front).turn, turn.state.version = view.state.version

/-- An action that commits a resignation at the version of a view and finishes the game. -/
structure EndsGame (inst : Installation) (access : CreatedGameAccess) (view : PublicProjection)
    (event : RefereeEvent) : Prop where
  request : ∃ key, event.request = .act ⟨access.publicViewer.gameId, view.state.currentPlayer⟩
    (resignCommand access.publicViewer.gameId view.state.currentPlayer view.state.version key)
  committed : ∃ record resigned result,
    ((host (serviceReferee inst access.publicViewer) access.publicViewer.gameId).perform event.input
      event.before event.request).2.world.store.game access.publicViewer.gameId = some record ∧
    record.version.toNat = view.state.version.toNat + 1 ∧ record.status = .finished ∧
    record.publicEvents.getLast? = some resigned ∧
    resigned.kind = .resigned view.state.currentPlayer result

/-- The game is always there to be looked at, every reaction ends the match, and the loop
never looks at a version again without having waited for a human. -/
structure EndsMatch (inst : Installation) (access : CreatedGameAccess) (trace : List RefereeEvent) :
    Prop where
  answered : ∀ event ∈ trace, ∀ place, event.request = .look place → ∃ view, Sees event place view
  resigned : ∀ front back view, trace = front ++ back → Reacts front view →
    ∃ event rest, back = event :: rest ∧ EndsGame inst access view event
  advances : ∀ front event back view, trace = front ++ event :: back → Sees event .turn view →
    ∀ before ∈ (remember front).recent, before.state.version < view.state.version

/-! What is assumed of a run. -/

/-- The runner has just looked who is to move. -/
def Aborts (log : List RefereeEvent) : Prop :=
  ∃ front look, log = front ++ [look] ∧ look.request = .look .abort

/-- Nobody else writes while the runner resigns. -/
def Unrivalled (log : List RefereeEvent) (event : RefereeEvent) : Prop :=
  (∀ credential command, event.request = .act credential command →
    event.input.world.meanwhile = [] ∧ event.input.world.during = []) ∧
  (event.request = .look .resign → Aborts log → event.input.world.meanwhile = [])

/-- The action of the runner finds its key free. -/
def FindsFree (inst : Installation) (event : RefereeEvent) : Prop :=
  ∀ credential command, event.request = .act credential command →
    Free inst event.before.world.store command event.input.world.inputs

/-! Runs that meet the assumptions. -/

section

variable (inst : Installation) (access : CreatedGameAccess)

def resignationAudit : Program.Audit (HostState ServicePool) (HostInput ServiceInput) RunnerRequest
    RunnerRequest.Response where
  may log event := Unrivalled log event ∧ FindsFree inst event
  check log event :=
    (∀ place, event.request = .look place → ∃ view, Sees event place view) ∧
    (∀ view, Reacts log view → EndsGame inst access view event) ∧
    ∀ view, Sees event .turn view → ∀ before ∈ (remember log).recent,
      before.state.version < view.state.version

/-- A runner from a log on. It never stops where it has to react. -/
def Resigns {α : Type} (post : α → List RefereeEvent → HostState ServicePool → Prop)
    (program : Runner α) (log : List RefereeEvent) (s : HostState ServicePool) : Prop :=
  program.Follows (host (serviceReferee inst access.publicViewer) access.publicViewer.gameId)
    (resignationAudit inst access)
    (fun result log s => (∀ view, ¬ Reacts log view) ∧ post result log s) log s

end

/-- Requests the game does not notice. -/
def RunnerRequest.Mute : RunnerRequest → Prop
  | .look _ => False
  | .act _ _ => False
  | .sleep => False
  | _ => True

section

variable {inst : Installation} {access : CreatedGameAccess} {α β : Type}
  {post : α → List RefereeEvent → HostState ServicePool → Prop} {log : List RefereeEvent}
  {s : HostState ServicePool} {g : Game}

theorem not_reacts_concat {event : RefereeEvent} (h : event.request ≠ .look .resign)
    (view : PublicProjection) : ¬ Reacts (log ++ [event]) view := by
  rintro ⟨front, look, hSplit, hSees, -⟩
  obtain ⟨-, hLast⟩ := List.append_inj' hSplit rfl
  cases hLast
  exact h hSees.request

theorem Resigns.pure {a : α} (hIdle : ∀ view, ¬ Reacts log view) (h : post a log s) :
    Resigns inst access post (pure a) log s :=
  ⟨hIdle, h⟩

theorem Resigns.bind {program : Runner β} {f : β → Runner α}
    (h : Resigns inst access (fun b log s => (∀ view, ¬ Reacts log view) →
      Resigns inst access post (f b) log s) program log s) :
    Resigns inst access post (program >>= f) log s :=
  Program.Follows.bind (Program.Follows.mono h fun _ _ _ hEnd => hEnd.2 hEnd.1)

/-- Requests outside the game change nothing that matters. -/
theorem Resigns.mute {request : RunnerRequest} {f : request.Response → Runner α}
    (hMute : request.Mute) (hIdle : ∀ view, ¬ Reacts log view)
    (h : ∀ answer log' s', (∀ view, ¬ Reacts log' view) → remember log' = remember log →
      s'.world = s.world → Resigns inst access post (f answer) log' s') :
    Resigns inst access post (Program.ask request >>= f) log s := by
  have hLook : ∀ place, request ≠ .look place := by
    rintro place rfl
    exact hMute
  intro input _
  refine ⟨⟨fun place hPlace => absurd hPlace (hLook place),
    fun view hReacts => absurd hReacts (hIdle view),
    fun view hSees => absurd hSees.request (hLook _)⟩, ?_⟩
  refine h _ _ _ (not_reacts_concat (hLook _)) ?_ ?_
  · rw [remember_concat]
    cases request <;> first | rfl | exact hMute.elim
  · cases request <;> first | rfl | exact hMute.elim

/-- A wait for a human forgets the views before it. -/
theorem Resigns.sleep {f : Unit → Runner α} (hIdle : ∀ view, ¬ Reacts log view)
    (h : ∀ log' s', (∀ view, ¬ Reacts log' view) → (remember log').recent = [] →
      s'.world = s.world → Resigns inst access post (f ()) log' s') :
    Resigns inst access post (Runner.sleep >>= f) log s := by
  intro input _
  refine ⟨⟨fun place hNever => (by cases hNever), fun view hReacts => absurd hReacts (hIdle view),
    fun view hSees => (by cases hSees.request)⟩, ?_⟩
  refine h _ _ (not_reacts_concat (by simp)) ?_ rfl
  rw [remember_concat]
  rfl

/-- A look shows the current game. -/
theorem Resigns.look {place : Look} {f : Option PublicProjection → Runner α}
    (hSound : s.world.Sound inst .empty) (hGame : Current inst access s.world.store g)
    (hIdle : ∀ view, ¬ Reacts log view)
    (hRecent : place = .turn → ∀ view ∈ (remember log).recent, view.state.version < g.state.version)
    (h : ∀ input world g', world.Sound inst .empty → Current inst access world.store g' →
      g.state.version ≤ g'.state.version → (g.state.version = g'.state.version → g = g') →
      (place = .resign → Aborts log → g = g') →
      Resigns inst access post (f (some g'.publicProjection))
        (log ++ [⟨s, input, .look place, (some g'.publicProjection : Option _)⟩])
        { s with world := world }) :
    Resigns inst access post (Runner.look place >>= f) log s := by
  rintro input ⟨⟨-, hAlone⟩, -⟩
  obtain ⟨g', hCurrent, hVersion, hSame, hLook⟩ := serviceReferee_look hSound hGame input.world place
  have hPerform := @host_look _ _ _ access.publicViewer.gameId _ _ _ _ _ hLook
  rw [hPerform]
  have hNext := h input _ g' (hSound.after _) hCurrent (UInt64.le_iff_toNat_le.mpr hVersion) hSame
    fun hPlace hAborts => by
      rw [hAlone (congrArg RunnerRequest.look hPlace) hAborts] at hCurrent
      exact hSame (hGame.version hCurrent)
  refine ⟨⟨fun _ hPlace => ?_, fun view hReacts => absurd hReacts (hIdle view), ?_⟩, hNext⟩
  · cases hPlace
    exact ⟨_, _, _, rfl⟩
  · rintro view ⟨before, other, hEvent⟩ old hOld
    cases hEvent
    exact UInt64.lt_of_lt_of_le (hRecent rfl old hOld) (UInt64.le_iff_toNat_le.mpr hVersion)

/-! Resigning. -/

/-- The game went on, unless the seat had no turn in it. -/
structure Left (inst : Installation) (access : CreatedGameAccess) (seat : Seat) (g : Game)
    (recent : List PublicProjection) (log : List RefereeEvent) (s : HostState ServicePool) : Prop where
  sound : s.world.Sound inst .empty
  later : ∃ g', Current inst access s.world.store g' ∧ g.state.version ≤ g'.state.version ∧
    (g.state.version = g'.state.version →
      g = g' ∧ (g.state.phase = .finished ∨ g.state.currentPlayer ≠ seat))
  recent : (remember log).recent = recent

/-- The seat that resigns is to move, unless the game went on since the runner looked. -/
def Chosen (log : List RefereeEvent) (g : Game) (seat : Seat) : Prop :=
  Aborts log ∧ g.state.currentPlayer = seat ∨ ∃ view, (remember log).turn = some view ∧
    view.state.version ≤ g.state.version ∧
    (view.state.version = g.state.version → g.state.currentPlayer = seat)

theorem orchestratorKey_ok {reason : String} (h : Visible 64 reason) (version : UInt64) :
    ∃ key, orchestratorKey reason version = .ok key := by
  have hVersion : version.toNat < 10 ^ 20 := Nat.lt_trans version.toNat_lt (by decide)
  have hText : Visible 104 s!"agent-orchestrator-{reason}-{version}" :=
    ((Visible.append (a := "agent-orchestrator-") (m := 19) (.of_all (by decide) (by decide)) h).append
      (b := "-") (n := 1) (.of_all (by decide) (by decide))).append (Visible.repr hVersion (by decide))
  have hPrintable : printable 256 s!"agent-orchestrator-{reason}-{version}" = true := by
    refine printable_iff.mpr ⟨?_, Nat.le_trans hText.1 (by decide), hText.2⟩
    intro hEmpty
    simp only [String.append_eq_empty_iff] at hEmpty
    exact absurd hEmpty.1.1.1 (by decide)
  exact ⟨⟨_, hPrintable⟩, dif_pos hPrintable⟩

theorem endsGame_of_accepted {before : HostState ServicePool} {input : HostInput ServiceInput}
    {g' : Game} {event : GameEvent} {key : IdempotencyKey} {result : GameActionResult}
    {world : ServicePool} (hShape : Shape g)
    (h : Accepted inst.platform g g.state.currentPlayer .resign g' event)
    (hGame : Current inst access world.store g')
    (hAct : (serviceReferee inst access.publicViewer).act input.world before.world
      ⟨access.publicViewer.gameId, g.state.currentPlayer⟩ (resignCommand access.publicViewer.gameId
        g.state.currentPlayer g.state.version key) = (some result, world)) :
    EndsGame inst access g.publicProjection ⟨before, input, .act ⟨access.publicViewer.gameId,
      g.state.currentPlayer⟩ (resignCommand access.publicViewer.gameId g.state.currentPlayer
        g.state.version key), (some result : Option GameActionResult)⟩ := by
  obtain ⟨record, past, hRecord, hTold⟩ := hGame.stored
  obtain ⟨hFinished, outcome, hKind, -⟩ := h.givenUp hShape
  obtain ⟨c, -, rfl, rfl⟩ := h.commit
  refine ⟨⟨key, rfl⟩, record, c.event, outcome, ?_, ?_, hTold.status.trans hFinished, ?_, hKind⟩
  · rw [host_act hAct]
    exact hRecord
  · rw [hTold.version]
    exact h.version
  · rw [hTold.publicEvents]
    exact List.getLast?_concat

theorem remember_look (place : Look) (hPlace : place ≠ .turn) (input : HostInput ServiceInput)
    (view : Option PublicProjection) :
    remember (log ++ [⟨s, input, .look place, view⟩]) = remember log := by
  rw [remember_concat]
  cases place <;> first | rfl | exact absurd rfl hPlace

/-- A resignation whose seat is to move goes through. -/
theorem resign_resigns {recent : List PublicProjection} {seat : Seat} {reason : String}
    {post : Unit → List RefereeEvent → HostState ServicePool → Prop} (hReason : Visible 64 reason)
    (hSound : s.world.Sound inst .empty) (hGame : Current inst access s.world.store g)
    (hIdle : ∀ view, ¬ Reacts log view) (hRecent : (remember log).recent = recent)
    (hChosen : Chosen log g seat)
    (hPost : ∀ log' s', (∀ view, ¬ Reacts log' view) → Left inst access seat g recent log' s' →
      post () log' s') :
    Resigns inst access post (resign access seat reason) log s := by
  refine Resigns.look hSound hGame hIdle (fun hNever => by cases hNever)
    fun input world g' hSound' hGame' hVersion hSame hAborts => ?_
  set log' := log ++ [⟨s, input, .look .resign, (some g'.publicProjection : Option _)⟩] with hLog
  have hMemory : remember log' = remember log := remember_look .resign (by decide) _ _
  have hReacts : ∀ view, Reacts log' view → view = g'.publicProjection ∧
      g'.state.phase = .active ∧ g'.state.currentPlayer = seat := by
    rintro view ⟨front, look, hSplit, ⟨before, other, rfl⟩, hActive, hTurn⟩
    obtain ⟨rfl, hLast⟩ := List.append_inj' hSplit rfl
    cases hLast
    refine ⟨rfl, hActive, ?_⟩
    rcases hChosen with ⟨hAbort, hSeat⟩ | ⟨turn, hSome, hBefore, hSeat⟩
    · exact hAborts rfl hAbort ▸ hSeat
    · have hStill : turn.state.version = g'.state.version := hTurn turn hSome
      have hThen : turn.state.version = g.state.version :=
        UInt64.le_antisymm hBefore (hStill ▸ hVersion)
      exact hSame (hThen.symm.trans hStill) ▸ hSeat hThen
  dsimp only
  by_cases hOver : g'.state.phase = .finished ∨ g'.state.currentPlayer ≠ seat
  · rw [if_pos (show g'.publicProjection.state.phase = .finished ∨
      g'.publicProjection.state.currentPlayer ≠ seat from hOver)]
    have hQuiet : ∀ view, ¬ Reacts log' view := by
      intro view hReact
      obtain ⟨-, hActive, hSeat⟩ := hReacts view hReact
      rcases hOver with hFinished | hOther
      · rw [hActive] at hFinished
        cases hFinished
      · exact hOther hSeat
    refine .pure hQuiet (hPost _ _ hQuiet ⟨hSound', ⟨g', hGame', hVersion, fun hStill => ?_⟩, ?_⟩)
    · exact ⟨hSame hStill, hSame hStill ▸ hOver⟩
    · rw [hMemory, hRecent]
  · obtain ⟨hUnfinished, hSeat⟩ := not_or.mp hOver
    have hSeat := not_not.mp hSeat
    subst hSeat
    have hActive : g'.state.phase = .active := by
      cases hPhase : g'.state.phase with
      | active => rfl
      | finished => exact absurd hPhase hUnfinished
    obtain ⟨key, hKey⟩ := orchestratorKey_ok hReason g'.state.version
    rw [if_neg (show ¬ (g'.publicProjection.state.phase = .finished ∨
      g'.publicProjection.state.currentPlayer ≠ g'.state.currentPlayer) from hOver), hGame'.seat]
    have hShownKey : orchestratorKey reason g'.publicProjection.state.version = .ok key := hKey
    rw [hShownKey]
    rintro ⟨now, succeeds, catalog, ⟨meanwhile, during, inputs⟩⟩ ⟨⟨hAlone, -⟩, hFree⟩
    obtain ⟨hMeanwhile, hDuring⟩ := hAlone _ _ rfl
    obtain rfl : meanwhile = [] := hMeanwhile
    obtain rfl : during = [] := hDuring
    obtain ⟨result, world', g'', event, hAct, hSound'', hGame'', hAccepted, hView⟩ :=
      serviceReferee_resign hSound' hGame' hActive key inputs (hFree _ _ rfl)
    have hShape : Shape g' := by
      obtain ⟨record, past, -, hTold⟩ := hGame'.stored
      exact hTold.lineage.reachable.shape
    have hEnds := @endsGame_of_accepted inst access g' { s with world := world }
      ⟨now, succeeds, catalog, ⟨[], [], inputs⟩⟩ g'' event key result world' hShape hAccepted hGame''
      hAct
    have hPerform := @host_act _ _ (serviceReferee inst access.publicViewer) access.publicViewer.gameId
      ⟨now, succeeds, catalog, ⟨[], [], inputs⟩⟩ { s with world := world } _ _ _ _ hAct
    have hCommand : resignCommand access.publicViewer.gameId g'.state.currentPlayer
        g'.publicProjection.state.version key = resignCommand access.publicViewer.gameId
          g'.state.currentPlayer g'.state.version key := rfl
    have hNext : g'.state.version < g''.state.version :=
      UInt64.lt_iff_toNat_lt.mpr (hAccepted.version ▸ Nat.lt_succ_self _)
    refine ⟨⟨fun place hNever => (by cases hNever), fun view hReact => ?_,
      fun view hSees => (by cases hSees.request)⟩, ?_⟩
    · rw [hCommand, hPerform, (hReacts view hReact).1]
      exact hEnds
    · rw [hCommand, hPerform]
      refine Resigns.mute trivial (not_reacts_concat (by simp)) fun _ log₁ s₁ hQuiet₁ hMemory₁ hWorld₁ =>
        Resigns.mute (f := pure) trivial hQuiet₁ fun _ log₂ s₂ hQuiet₂ hMemory₂ hWorld₂ => ?_
      have hKept : s₂.world = world' := hWorld₂.trans hWorld₁
      refine .pure hQuiet₂ (hPost _ _ hQuiet₂ ⟨hKept ▸ hSound'', ⟨g'', hKept ▸ hGame'', ?_, ?_⟩, ?_⟩)
      · exact UInt64.le_of_lt (UInt64.lt_of_le_of_lt hVersion hNext)
      · intro hNever
        rw [← hNever] at hNext
        exact absurd (UInt64.lt_of_le_of_lt hVersion hNext) (UInt64.lt_irrefl _)
      · rw [hMemory₂, hMemory₁, remember_concat, hMemory]
        exact hRecent

/-- Aborting a match always has a seat that is to move. -/
theorem abortMatch_resigns {reason : String} {post : Unit → List RefereeEvent → HostState ServicePool → Prop}
    (hReason : Visible 64 reason) (hSound : s.world.Sound inst .empty)
    (hGame : Current inst access s.world.store g) (hIdle : ∀ view, ¬ Reacts log view)
    (hPost : ∀ log' s', (∀ view, ¬ Reacts log' view) → post () log' s') :
    Resigns inst access post (abortMatch access reason) log s := by
  refine Resigns.look hSound hGame hIdle (fun hNever => by cases hNever)
    fun input world g' hSound' hGame' _ _ _ => ?_
  exact resign_resigns hReason hSound' hGame' (not_reacts_concat (by simp)) rfl
    (.inl ⟨⟨log, _, rfl, rfl⟩, rfl⟩) fun log' s' hQuiet _ => hPost log' s' hQuiet

/-! Starting the agents. -/

theorem finishEach_resigns (outcomes : List WorkspaceOutcome) (agents : List RunningAgent)
    (hIdle : ∀ view, ¬ Reacts log view) :
    Resigns inst access (fun _ _ _ => True) (finishEach outcomes agents) log s := by
  induction agents generalizing log s with
  | nil => exact .pure hIdle trivial
  | cons agent rest ih =>
      refine Resigns.bind (Resigns.mute trivial hIdle fun _ _ _ hIdle₁ _ _ =>
        Resigns.mute (f := pure) trivial hIdle₁ fun _ _ _ hIdle₂ _ _ => .pure hIdle₂ fun hIdle₃ => ?_)
      exact ih hIdle₃

theorem finishAgents_resigns (agents : List (Option RunningAgent)) (hIdle : ∀ view, ¬ Reacts log view) :
    Resigns inst access (fun _ _ _ => True) (finishAgents agents) log s := by
  refine Resigns.mute trivial hIdle fun _ _ _ hIdle₁ _ _ => Resigns.bind ?_
  refine Program.Follows.mono (finishEach_resigns _ _ hIdle₁) fun _ _ _ hEnd => ⟨hEnd.1, fun hIdle₂ => ?_⟩
  exact Resigns.mute (f := pure) trivial hIdle₂ fun _ _ _ hIdle₃ _ _ => .pure hIdle₃ trivial

/-- A part of a run that the game does not notice. -/
structure Aside (log : List RefereeEvent) (s : HostState ServicePool) (log' : List RefereeEvent)
    (s' : HostState ServicePool) : Prop where
  memory : remember log' = remember log
  world : s'.world = s.world

theorem StartStep.code_visible (step : StartStep) : Visible 64 step.code := by
  cases step <;> dsimp only [StartStep.code] <;> exact .of_all (by decide) (by decide)

theorem Preparation.reason_visible (preparation : Preparation) : Visible 64 preparation.reason := by
  cases preparation <;> dsimp only [Preparation.reason] <;> exact .of_all (by decide) (by decide)

theorem startSteps_resigns (seat : Seat) (steps : List StartStep) (hIdle : ∀ view, ¬ Reacts log view) :
    Resigns inst access (fun result log' s' => Aside log s log' s' ∧
      ∀ code, result = .error code → Visible 64 code) (startSteps seat steps) log s := by
  induction steps generalizing log s with
  | nil => exact .pure hIdle ⟨⟨rfl, rfl⟩, fun _ hNever => by cases hNever⟩
  | cons step rest ih =>
      refine Resigns.mute trivial hIdle fun ok log₁ s₁ hIdle₁ hMemory hWorld => ?_
      cases (ok : Bool) with
      | false =>
          refine .pure hIdle₁ ⟨⟨hMemory, hWorld⟩, fun code hCode => ?_⟩
          cases hCode
          exact step.code_visible
      | true =>
          refine Program.Follows.mono (ih hIdle₁) fun _ _ _ hEnd => ⟨hEnd.1, ?_, hEnd.2.2⟩
          exact ⟨hEnd.2.1.memory.trans hMemory, hEnd.2.1.world.trans hWorld⟩

theorem startAgent_resigns (seat : Seat) (harness : AgentHarnessId) (model : Option String)
    (version : String) (hIdle : ∀ view, ¬ Reacts log view) :
    Resigns inst access (fun result log' s' => Aside log s log' s' ∧
      ∀ code, result = .error code → Visible 64 code) (startAgent seat harness model version) log s := by
  refine Resigns.mute trivial hIdle fun answer log₁ s₁ hIdle₁ hMemory hWorld => ?_
  cases (answer : Option PendingAgentCapability) with
  | none =>
      refine .pure hIdle₁ ⟨⟨hMemory, hWorld⟩, fun code hCode => ?_⟩
      cases hCode
      exact .of_all (by decide) (by decide)
  | some pending =>
      refine Program.Follows.mono (startSteps_resigns seat _ hIdle₁) fun _ _ _ hEnd =>
        ⟨hEnd.1, ?_, hEnd.2.2⟩
      exact ⟨hEnd.2.1.memory.trans hMemory, hEnd.2.1.world.trans hWorld⟩

theorem failStart_resigns (agents : List (Option RunningAgent)) (seat : Seat) {code reason : String}
    (hReason : Visible 64 reason) (hSound : s.world.Sound inst .empty)
    (hGame : Current inst access s.world.store g) (hIdle : ∀ view, ¬ Reacts log view) :
    Resigns inst access (fun _ _ _ => True) (failStart access agents seat code reason) log s := by
  refine Resigns.mute trivial hIdle fun _ _ _ hIdle₁ _ hWorld => Resigns.bind ?_
  refine abortMatch_resigns hReason (hWorld ▸ hSound) (hWorld ▸ hGame) hIdle₁ fun _ _ _ hIdle₂ => ?_
  exact finishAgents_resigns agents hIdle₂

theorem startSeats_resigns (entries : List AgentCatalogEntry)
    (participants : List (Seat × AgentSeatSelection)) (agents : List (Option RunningAgent))
    (hSound : s.world.Sound inst .empty) (hGame : Current inst access s.world.store g)
    (hIdle : ∀ view, ¬ Reacts log view) :
    Resigns inst access (fun result log' s' => result.isSome = true → Aside log s log' s')
      (startSeats access entries participants agents) log s := by
  induction participants generalizing log s agents with
  | nil => exact .pure hIdle fun _ => ⟨rfl, rfl⟩
  | cons participant rest ih =>
      obtain ⟨seat, ⟨harness, model⟩ | name⟩ := participant
      · refine Resigns.mute trivial hIdle fun _ log₁ s₁ hIdle₁ hMemory₁ hWorld₁ => ?_
        split
        · refine Resigns.bind (Program.Follows.mono (failStart_resigns agents seat
            (.of_all (by decide) (by decide)) (hWorld₁ ▸ hSound) (hWorld₁ ▸ hGame) hIdle₁) ?_)
          exact fun _ _ _ hEnd => ⟨hEnd.1, fun hQuiet => .pure hQuiet fun hNever => by cases hNever⟩
        · refine Resigns.bind (Program.Follows.mono (startAgent_resigns seat harness model _ hIdle₁) ?_)
          rintro (code | agent) log₂ s₂ ⟨hIdle₂, hAside, hCode⟩
          · refine ⟨hIdle₂, fun _ => Resigns.bind (Program.Follows.mono (failStart_resigns agents seat
              (hCode code rfl) (hAside.world ▸ hWorld₁ ▸ hSound) (hAside.world ▸ hWorld₁ ▸ hGame)
              hIdle₂) ?_)⟩
            exact fun _ _ _ hEnd => ⟨hEnd.1, fun hQuiet => .pure hQuiet fun hNever => by cases hNever⟩
          · refine ⟨hIdle₂, fun _ => Resigns.mute trivial hIdle₂
              fun _ log₃ s₃ hIdle₃ hMemory₃ hWorld₃ => ?_⟩
            have hWorld : s₃.world = s.world := hWorld₃.trans (hAside.world.trans hWorld₁)
            refine Program.Follows.mono (ih _ (hWorld ▸ hSound) (hWorld ▸ hGame) hIdle₃) ?_
            refine fun _ _ _ hEnd => ⟨hEnd.1, fun hSome => ⟨?_, ?_⟩⟩
            · exact (hEnd.2 hSome).memory.trans (hMemory₃.trans (hAside.memory.trans hMemory₁))
            · exact (hEnd.2 hSome).world.trans hWorld
      · exact ih agents hSound hGame hIdle

/-! Playing. -/

/-- The game has gone past what the loop has seen since it last waited. -/
structure Calm (inst : Installation) (access : CreatedGameAccess) (log : List RefereeEvent)
    (s : HostState ServicePool) : Prop where
  sound : s.world.Sound inst .empty
  game : ∃ g, Current inst access s.world.store g ∧
    ∀ view ∈ (remember log).recent, view.state.version < g.state.version

/-- The loop has just seen the game, whose player to move is an agent. -/
structure Thinking (inst : Installation) (access : CreatedGameAccess) (seen : Game)
    (log : List RefereeEvent) (s : HostState ServicePool) : Prop where
  sound : s.world.Sound inst .empty
  game : ∃ g, Current inst access s.world.store g ∧ seen.state.version ≤ g.state.version ∧
    (seen.state.version = g.state.version → seen = g)
  active : seen.state.phase ≠ .finished
  turn : (remember log).turn = some seen.publicProjection
  recent : ∀ view ∈ (remember log).recent, view.state.version ≤ seen.state.version

theorem Thinking.aside {seen : Game} {log' : List RefereeEvent} {s' : HostState ServicePool}
    (h : Thinking inst access seen log s) (hMemory : remember log' = remember log)
    (hWorld : s'.world = s.world) : Thinking inst access seen log' s' :=
  ⟨hWorld ▸ h.sound, hWorld ▸ h.game, h.active, hMemory ▸ h.turn, hMemory ▸ h.recent⟩

theorem failTurn_resigns {seen : Game} {code reason : String} (hReason : Visible 64 reason)
    (h : Thinking inst access seen log s) (hIdle : ∀ view, ¬ Reacts log view) :
    Resigns inst access (fun round log' s' => round = .again ∧ Calm inst access log' s')
      (failTurn access seen.state.currentPlayer code reason) log s := by
  refine Resigns.mute trivial hIdle fun _ log₁ s₁ hIdle₁ hMemory hWorld => Resigns.bind ?_
  obtain ⟨hSound, ⟨g, hGame, hVersion, hSame⟩, hActive, hTurn, hRecent⟩ := h.aside hMemory hWorld
  refine resign_resigns hReason hSound hGame hIdle₁ rfl (.inr ⟨_, hTurn, hVersion, fun hStill => ?_⟩)
    fun log₂ s₂ hIdle₂ hLeft hQuiet => .pure hQuiet ⟨rfl, hLeft.sound, ?_⟩
  · rw [hSame hStill]
  · obtain ⟨g', hGame', hVersion', hStay⟩ := hLeft.later
    refine ⟨g', hGame', fun view hView => ?_⟩
    rw [hLeft.recent] at hView
    refine UInt64.lt_of_le_of_lt (hRecent view hView) ?_
    rcases UInt64.le_iff_lt_or_eq.mp (UInt64.le_trans hVersion hVersion') with hLess | hStill
    · exact hLess
    · -- The same version means the same game, and then the seat that resigned was to move.
      have hFirst : seen.state.version = g.state.version :=
        UInt64.le_antisymm hVersion (hStill ▸ hVersion')
      obtain ⟨-, hOver⟩ := hStay (hFirst.symm.trans hStill)
      rw [← hSame hFirst] at hOver
      exact hOver.elim (fun hFinished => absurd hFinished hActive) fun hOther => absurd rfl hOther

theorem playTurn_resigns {seen : Game} (language : Language)
    (h : Thinking inst access seen log s) (hIdle : ∀ view, ¬ Reacts log view) :
    Resigns inst access (fun round log' s' => round = .again ∧ Calm inst access log' s')
      (playTurn access language seen.state.currentPlayer seen.state.version) log s := by
  refine Resigns.mute trivial hIdle fun _ log₁ s₁ hIdle₁ hMemory₁ hWorld₁ => ?_
  have h₁ := h.aside hMemory₁ hWorld₁
  refine Resigns.mute trivial hIdle₁ fun ok log₂ s₂ hIdle₂ hMemory₂ hWorld₂ => ?_
  have h₂ := h₁.aside hMemory₂ hWorld₂
  cases (ok : Bool) with
  | false => exact failTurn_resigns (.of_all (by decide) (by decide)) h₂ hIdle₂
  | true =>
      obtain ⟨g, hGame, hVersion, hSame⟩ := h₂.game
      refine Resigns.look h₂.sound hGame hIdle₂ (fun hNever => by cases hNever)
        fun input world g' hSound' hGame' hVersion' hSame' _ => ?_
      have hIdle₃ : ∀ view, ¬ Reacts (log₂ ++ [⟨s₂, input, .look .outcome,
          (some g'.publicProjection : Option _)⟩]) view := not_reacts_concat (by simp)
      have hMemory₃ : remember (log₂ ++ [⟨s₂, input, .look .outcome,
          (some g'.publicProjection : Option _)⟩]) = remember log₂ :=
        remember_look .outcome (by decide) _ _
      dsimp only
      by_cases hMoved : seen.state.version < g'.state.version
      · rw [if_pos (show seen.state.version < g'.publicProjection.state.version from hMoved)]
        refine Resigns.mute trivial hIdle₃ fun _ log₄ s₄ hIdle₄ hMemory₄ hWorld₄ => Resigns.mute trivial
          hIdle₄ fun _ log₅ s₅ hIdle₅ hMemory₅ hWorld₅ => Resigns.mute trivial hIdle₅
            fun _ log₆ s₆ hIdle₆ hMemory₆ hWorld₆ => .pure hIdle₆ ⟨rfl, ?_⟩
        have hWorld : s₆.world = world := hWorld₆.trans (hWorld₅.trans hWorld₄)
        refine ⟨hWorld ▸ hSound', g', hWorld ▸ hGame', fun view hView => ?_⟩
        rw [hMemory₆, hMemory₅, hMemory₄, hMemory₃] at hView
        exact UInt64.lt_of_le_of_lt (h₂.recent view hView) hMoved
      · rw [if_neg (show ¬ seen.state.version < g'.publicProjection.state.version from hMoved)]
        refine failTurn_resigns (.of_all (by decide) (by decide)) ⟨hSound', ⟨g', hGame',
          UInt64.le_trans hVersion hVersion', fun hStill => ?_⟩, h₂.active, ?_, ?_⟩ hIdle₃
        · have hFirst : seen.state.version = g.state.version :=
            UInt64.le_antisymm hVersion (hStill ▸ hVersion')
          exact (hSame hFirst).trans (hSame' (hFirst.symm.trans hStill))
        · rw [hMemory₃]
          exact h₂.turn
        · rw [hMemory₃]
          exact h₂.recent

theorem playRound_resigns (language : Language) (agents : List (Option RunningAgent))
    (h : Calm inst access log s) (hIdle : ∀ view, ¬ Reacts log view) :
    Resigns inst access (fun round log' s' => round = .again → Calm inst access log' s')
      (playRound access language agents) log s := by
  obtain ⟨g, hGame, hRecent⟩ := h.game
  refine Resigns.look h.sound hGame hIdle (fun _ => hRecent)
    fun input world seen hSound' hGame' hVersion _ _ => ?_
  set log' := log ++ [⟨s, input, .look .turn, (some seen.publicProjection : Option _)⟩] with hLog
  have hIdle' : ∀ view, ¬ Reacts log' view := not_reacts_concat (by simp)
  have hMemory : remember log' = ⟨some seen.publicProjection,
      (remember log).recent ++ [seen.publicProjection]⟩ := remember_concat log _
  refine Resigns.mute trivial hIdle' fun _ log₁ s₁ hIdle₁ hMemory₁ hWorld₁ => ?_
  have hMemory₁ := hMemory₁.trans hMemory
  by_cases hFinished : seen.state.phase = .finished
  · rw [if_pos (show seen.publicProjection.state.phase = .finished from hFinished)]
    refine Resigns.bind (Program.Follows.mono (finishAgents_resigns agents hIdle₁) ?_)
    exact fun _ _ _ hEnd => ⟨hEnd.1, fun hQuiet => .pure hQuiet fun hNever => by cases hNever⟩
  · rw [if_neg (show ¬ seen.publicProjection.state.phase = .finished from hFinished)]
    have hThinking : Thinking inst access seen log₁ s₁ := by
      refine ⟨hWorld₁ ▸ hSound', ⟨seen, hWorld₁ ▸ hGame', UInt64.le_refl _, fun _ => rfl⟩, hFinished,
        congrArg Memory.turn hMemory₁, fun view hView => ?_⟩
      rw [hMemory₁] at hView
      rcases List.mem_append.mp hView with hOld | hNew
      · exact UInt64.le_of_lt (UInt64.lt_of_lt_of_le (hRecent view hOld) hVersion)
      · rw [List.mem_singleton.mp hNew]
        exact UInt64.le_refl _
    split
    · exact .pure hIdle₁ fun hNever => by cases hNever
    · refine Resigns.mute trivial hIdle₁ fun _ log₂ s₂ hIdle₂ hMemory₂ hWorld₂ =>
        Resigns.sleep hIdle₂ fun log₃ s₃ hIdle₃ hRecent₃ hWorld₃ => .pure hIdle₃ fun _ => ?_
      have hWorld : s₃.world = world := hWorld₃.trans (hWorld₂.trans hWorld₁)
      refine ⟨hWorld ▸ hSound', seen, hWorld ▸ hGame', fun view hView => ?_⟩
      rw [hRecent₃] at hView
      cases hView
    · exact Program.Follows.mono (playTurn_resigns language hThinking hIdle₁)
        fun _ _ _ hEnd => ⟨hEnd.1, fun _ => hEnd.2.2⟩

theorem playLoop_resigns (language : Language) (agents : List (Option RunningAgent)) (rounds : Nat)
    (h : Calm inst access log s) (hIdle : ∀ view, ¬ Reacts log view) :
    Resigns inst access (fun _ _ _ => True) (playLoop access language agents rounds) log s := by
  induction rounds generalizing log s with
  | zero => exact .pure hIdle trivial
  | succ rounds ih =>
      refine Resigns.bind (Program.Follows.mono (playRound_resigns language agents h hIdle) ?_)
      rintro (_ | _ | _) log' s' ⟨hIdle', hCalm⟩
      · exact ⟨hIdle', fun hQuiet => ih (hCalm rfl) hQuiet⟩
      · exact ⟨hIdle', fun hQuiet => .pure hQuiet trivial⟩
      · exact ⟨hIdle', fun hQuiet => .pure hQuiet trivial⟩

/-! The whole run. -/

theorem prepareAll_resigns (preparations : List Preparation) (hSound : s.world.Sound inst .empty)
    (hGame : Current inst access s.world.store g) (hIdle : ∀ view, ¬ Reacts log view) :
    Resigns inst access (fun ok log' s' => ok = true → Aside log s log' s')
      (prepareAll access preparations) log s := by
  induction preparations generalizing log s with
  | nil => exact .pure hIdle fun _ => ⟨rfl, rfl⟩
  | cons preparation rest ih =>
      refine Resigns.mute trivial hIdle fun ok log₁ s₁ hIdle₁ hMemory₁ hWorld₁ => ?_
      cases (ok : Bool) with
      | true =>
          refine Program.Follows.mono (ih (hWorld₁ ▸ hSound) (hWorld₁ ▸ hGame) hIdle₁)
            fun _ _ _ hEnd => ⟨hEnd.1, fun hOk => ⟨?_, ?_⟩⟩
          · exact (hEnd.2 hOk).memory.trans hMemory₁
          · exact (hEnd.2 hOk).world.trans hWorld₁
      | false =>
          refine Resigns.mute trivial hIdle₁ fun _ log₂ s₂ hIdle₂ hMemory₂ hWorld₂ => Resigns.bind ?_
          have hWorld : s₂.world = s.world := hWorld₂.trans hWorld₁
          refine abortMatch_resigns preparation.reason_visible (hWorld ▸ hSound) (hWorld ▸ hGame) hIdle₂
            fun _ _ _ hQuiet => .pure hQuiet fun hNever => by cases hNever

theorem runMatch_resigns (spectatorCapability : String) (rounds : Nat)
    (hSound : s.world.Sound inst .empty) (hGame : Current inst access s.world.store g) :
    Resigns inst access (fun _ _ _ => True) (runMatch access spectatorCapability rounds) [] s := by
  have hIdle : ∀ view, ¬ Reacts [] view := by
    rintro view ⟨front, look, hNever, -⟩
    exact absurd hNever.symm (by simp)
  refine Resigns.mute trivial hIdle fun initial log₁ s₁ hIdle₁ hMemory₁ hWorld₁ => ?_
  cases (initial : Option AgentMatchStatus) with
  | none => exact .pure hIdle₁ trivial
  | some initial =>
      refine Resigns.bind (Program.Follows.mono (prepareAll_resigns _ (hWorld₁ ▸ hSound)
        (hWorld₁ ▸ hGame) hIdle₁) ?_)
      rintro (_ | _) log₂ s₂ ⟨hIdle₂, hAside₂⟩
      · exact ⟨hIdle₂, fun hQuiet => .pure hQuiet trivial⟩
      · refine ⟨hIdle₂, fun _ => Resigns.mute trivial hIdle₂
          fun entries log₃ s₃ hIdle₃ hMemory₃ hWorld₃ => Resigns.bind ?_⟩
        have hMemory : remember log₃ = ⟨none, []⟩ :=
          hMemory₃.trans ((hAside₂ rfl).memory.trans hMemory₁)
        have hWorld : s₃.world = s.world := hWorld₃.trans ((hAside₂ rfl).world.trans hWorld₁)
        refine Program.Follows.mono (startSeats_resigns entries _ _ (hWorld ▸ hSound) (hWorld ▸ hGame)
          hIdle₃) ?_
        rintro (_ | agents) log₄ s₄ ⟨hIdle₄, hAside₄⟩
        · exact ⟨hIdle₄, fun hQuiet => .pure hQuiet trivial⟩
        · have hWorld₄ := (hAside₄ rfl).world.trans hWorld
          refine ⟨hIdle₄, fun hQuiet => playLoop_resigns _ _ _ ⟨hWorld₄ ▸ hSound, g, hWorld₄ ▸ hGame,
            fun view hView => ?_⟩ hQuiet⟩
          rw [(hAside₄ rfl).memory, hMemory] at hView
          cases hView

end

/-- A runner that finds its keys free, and whose game nobody else writes to while it resigns,
always ends a match it gives up. -/
theorem runner_ends_match (inst : Installation) (history : List ServiceAction)
    (access : CreatedGameAccess) (spectatorCapability : String) (rounds : Nat)
    (manager : AgentMatchManager) (inputs : Nat → HostInput ServiceInput)
    (hHosts : Hosts access ((service inst).after .empty history).store)
    (hAssumed : ∀ front event back,
      (runMatch access spectatorCapability rounds).trace
        (host (serviceReferee inst access.publicViewer) access.publicViewer.gameId) inputs
        ⟨manager, (service inst).after .empty history⟩ = front ++ event :: back →
      Unrivalled front event ∧ FindsFree inst event) :
    EndsMatch inst access ((runMatch access spectatorCapability rounds).trace
      (host (serviceReferee inst access.publicViewer) access.publicViewer.gameId) inputs
      ⟨manager, (service inst).after .empty history⟩) := by
  have hSound : ((service inst).after .empty history).Sound inst .empty :=
    (ServicePool.sound_empty inst).after history
  obtain ⟨g, hGame⟩ := hHosts.current hSound.inv
  have hResigns := @runMatch_resigns inst access ⟨manager, (service inst).after .empty history⟩ g
    spectatorCapability rounds hSound hGame
  obtain ⟨hChecked, hIdle, -⟩ := Program.Follows.run hResigns inputs hAssumed
  refine ⟨fun event hEvent => ?_, fun front back view hTrace hReacts => ?_,
    fun front event back view hTrace hSees => ?_⟩
  · obtain ⟨front, back, hTrace⟩ := List.append_of_mem hEvent
    exact (hChecked front event back hTrace).1
  · cases back with
    | nil =>
        rw [List.append_nil] at hTrace
        rw [hTrace] at hIdle
        exact absurd hReacts (hIdle view)
    | cons event rest => exact ⟨event, rest, rfl, (hChecked front event rest hTrace).2.1 view hReacts⟩
  · exact (hChecked front event back hTrace).2.2 view hSees

/-! A match of a human against an agent that is not in the catalog. -/

/-- A host without a catalog. -/
def bare {Input : Type} (i : Input) (_ : Nat) : HostInput Input := ⟨0, true, [], i⟩

def rivalStatus : AgentMatchStatus :=
  initialStatus hookId .english (hookView .active) [.human "Ada", .agent .codex none] 0

def rivalManager : AgentMatchManager := AgentMatchManager.empty.insert rivalStatus

theorem rivalManager_status : rivalManager.status hookId = some rivalStatus :=
  AList.lookup_insert _

/-- Nobody calls the service but the runner. -/
def solitary : ServiceInput := ⟨[], [], standing 0⟩

section

variable {World Input : Type} {referee : Referee World Input} {i : Input}
  {manager : AgentMatchManager} {world : World}

/-- What the runner does until it gives up on the agent. -/
def startupFront (i : Input) (world : World) : List (RunnerEvent World Input) :=
  [⟨⟨rivalManager, world⟩, bare i 0, .status, (some rivalStatus : Option _)⟩,
    ⟨⟨rivalManager, world⟩, bare i 0, .prepare (.authorityPolicy "spectator"), true⟩,
    ⟨⟨rivalManager, world⟩, bare i 0, .prepare .sandbox, true⟩,
    ⟨⟨rivalManager, world⟩, bare i 0, .prepare .workspaces, true⟩,
    ⟨⟨rivalManager, world⟩, bare i 0, .catalog, ([] : List AgentCatalogEntry)⟩,
    ⟨⟨rivalManager, world⟩, bare i 0, .report (.setSeatStatus .two .starting), ()⟩,
    ⟨⟨rivalManager.update hookId 0 (.setSeatStatus .two .starting), world⟩, bare i 0,
      .report (.setSeatStatus .two (.failed "agent_unavailable")), ()⟩]

theorem startupFront_mute : ∀ event ∈ startupFront i world, event.request.Mute := by
  simp [startupFront, RunnerRequest.Mute]

theorem trace_unavailable : ∃ back after,
    (runMatch hookAccess "spectator" 0).trace (host referee hookId) (bare i) ⟨rivalManager, world⟩ =
      startupFront i world ++ ((abortMatch hookAccess "agent-unavailable").trace (host referee hookId)
        (bare i) ⟨after, world⟩ ++ back) ∧
      ∀ event ∈ back, event.request.Mute := by
  have hFirst : (host referee hookId).perform (bare i 0) ⟨rivalManager, world⟩ .status =
      ((some rivalStatus : Option AgentMatchStatus), ⟨rivalManager, world⟩) :=
    congrArg (·, _) rivalManager_status
  let failed := (rivalManager.update hookId 0 (.setSeatStatus .two .starting)).update hookId 0
    (.setSeatStatus .two (.failed "agent_unavailable"))
  let ended := ((abortMatch hookAccess "agent-unavailable").alone (host referee hookId) (bare i)
    ⟨failed, world⟩).2
  refine ⟨[⟨ended, bare i 0, .status, ended.manager.status hookId⟩,
    ⟨ended, bare i 0, .report .finishSeats, ()⟩], failed, (Program.trace_query hFirst).trans ?_, ?_⟩
  · change _ :: _ :: _ :: _ :: _ :: _ :: _ :: Program.trace _ (Bind.bind (Bind.bind
      (abortMatch hookAccess "agent-unavailable" >>= fun _ => finishAgents [none, none])
      fun _ => Program.done none) fun started => _) _ _ = _
    rw [Program.trace_bind, Program.trace_map, Program.alone_map, Program.trace_bind]
    simp only [List.append_assoc]
    rfl
  · simp [RunnerRequest.Mute]

/-- A resignation of the player to move comes down to one action. -/
theorem exists_resign_query {access : CreatedGameAccess} {reason : String} {view : PublicProjection}
    {credential : CompetitiveSeatCredential} {key : IdempotencyKey}
    (hActive : view.state.phase = .active)
    (hSeat : access.seat view.state.currentPlayer = some credential)
    (hKey : orchestratorKey reason view.state.version = .ok key) :
    ∃ next : Option GameActionResult → Runner Unit,
      (if view.state.phase = .finished ∨ view.state.currentPlayer ≠ view.state.currentPlayer then
        pure ()
      else match access.seat view.state.currentPlayer with
        | none => pure ()
        | some credential => match orchestratorKey reason view.state.version with
          | .error _ => pure ()
          | .ok key => do
              let command := resignCommand access.publicViewer.gameId view.state.currentPlayer
                view.state.version key
              match ← Runner.act credential command with
              | none => pure ()
              | some result => do
                  Runner.report (.updatePublic result.game.publicView)
                  Runner.publish result.game.publicView.state.version) =
        Program.query (RunnerRequest.act credential (resignCommand access.publicViewer.gameId
          view.state.currentPlayer view.state.version key)) next ∧
      next none = pure () ∧ ∀ result, next (some result) =
        (Runner.report (.updatePublic result.game.publicView) >>= fun _ =>
          Runner.publish result.game.publicView.state.version) := by
  have hOn : ¬ (view.state.phase = .finished ∨ view.state.currentPlayer ≠ view.state.currentPlayer) := by
    rw [hActive]
    simp
  rw [if_neg hOn, hSeat, hKey]
  exact ⟨_, rfl, rfl, fun _ => rfl⟩

/-- The end of a match that is left alone. -/
theorem trace_abortMatch {access : CreatedGameAccess} {gameId : GameId} {reason : String}
    {view : PublicProjection} {credential : CompetitiveSeatCredential} {key : IdempotencyKey}
    {answer : Option GameActionResult} {after : World}
    (hLook : ∀ place, referee.look i world place = (some view, world))
    (hActive : view.state.phase = .active)
    (hSeat : access.seat view.state.currentPlayer = some credential)
    (hKey : orchestratorKey reason view.state.version = .ok key)
    (hAct : referee.act i world credential (resignCommand access.publicViewer.gameId
      view.state.currentPlayer view.state.version key) = (answer, after)) :
    ∃ rest, (abortMatch access reason).trace (host referee gameId) (bare i) ⟨manager, world⟩ =
      ⟨⟨manager, world⟩, bare i 0, .look .abort, (some view : Option _)⟩ ::
      ⟨⟨manager, world⟩, bare i 0, .look .resign, (some view : Option _)⟩ ::
      ⟨⟨manager, world⟩, bare i 0, .act credential (resignCommand access.publicViewer.gameId
        view.state.currentPlayer view.state.version key), answer⟩ :: rest ∧
      ∀ event ∈ rest, event.request.Mute := by
  obtain ⟨next, hNext, hNone, hSome⟩ := exists_resign_query hActive hSeat hKey
  have hTrace : (abortMatch access reason).trace (host referee gameId) (bare i) ⟨manager, world⟩ =
      ⟨⟨manager, world⟩, bare i 0, .look .abort, (some view : Option _)⟩ ::
      ⟨⟨manager, world⟩, bare i 0, .look .resign, (some view : Option _)⟩ ::
      (Program.query (RunnerRequest.act credential (resignCommand access.publicViewer.gameId
        view.state.currentPlayer view.state.version key)) next).trace (host referee gameId) (bare i)
        ⟨manager, world⟩ := by
    refine (Program.trace_query (host_look (hLook _))).trans (congrArg (_ :: ·)
      ((Program.trace_query (host_look (hLook _))).trans (congrArg (_ :: ·) ?_)))
    rw [← hNext]
    rfl
  refine ⟨_, hTrace.trans (congrArg (_ :: _ :: ·) (Program.trace_query (host_act hAct))), ?_⟩
  cases answer with
  | none =>
      rw [hNone]
      exact fun _ hNever => absurd hNever List.not_mem_nil
  | some result =>
      rw [hSome]
      rintro event (_ | ⟨_, _ | ⟨_, hNever⟩⟩)
      · trivial
      · trivial
      · cases hNever

end

/-- A look that nobody interferes with. -/
theorem serviceReferee_look_alone {inst : Installation} {access : CreatedGameAccess} {pool : ServicePool}
    {g : Game} (h : pool.Sound inst .empty) (hGame : Current inst access pool.store g)
    (inputs : Nat → Service.Input) (place : Look) :
    (serviceReferee inst access.publicViewer).look ⟨[], [], inputs⟩ pool place =
      (some g.publicProjection, pool) := by
  obtain ⟨g', hGame', -, hSame, hAnswer⟩ := serviceReferee_look h hGame ⟨[], [], inputs⟩ place
  rw [hSame (hGame.version hGame')]
  exact hAnswer

/-- The run at a table whose agent is missing. -/
theorem trace_missing {pool : ServicePool} {g : Game} {key : IdempotencyKey}
    (h : pool.Sound hookInstallation .empty) (hGame : Current hookInstallation hookAccess pool.store g)
    (hActive : g.state.phase = .active)
    (hKey : orchestratorKey "agent-unavailable" g.state.version = .ok key) :
    ∃ back after, (runMatch hookAccess "spectator" 0).trace
        (host (serviceReferee hookInstallation hookAccess.publicViewer) hookId) (bare solitary)
        ⟨rivalManager, pool⟩ = startupFront solitary pool ++
      ⟨⟨after, pool⟩, bare solitary 0, .look .abort, (some g.publicProjection : Option _)⟩ ::
      ⟨⟨after, pool⟩, bare solitary 0, .look .resign, (some g.publicProjection : Option _)⟩ ::
      ⟨⟨after, pool⟩, bare solitary 0, .act ⟨hookId, g.state.currentPlayer⟩ (resignCommand hookId
        g.state.currentPlayer g.state.version key),
        ((serviceReferee hookInstallation hookAccess.publicViewer).act solitary pool
          ⟨hookId, g.state.currentPlayer⟩
          (resignCommand hookId g.state.currentPlayer g.state.version key)).1⟩ :: back ∧
      ∀ event ∈ back, event.request.Mute := by
  obtain ⟨back, after, hTrace, hMute⟩ := @trace_unavailable _ _
    (serviceReferee hookInstallation hookAccess.publicViewer) solitary pool
  obtain ⟨rest, hAbort, hRest⟩ := @trace_abortMatch _ _
    (serviceReferee hookInstallation hookAccess.publicViewer) solitary after pool hookAccess hookId
    "agent-unavailable" g.publicProjection _ key _ _ (serviceReferee_look_alone h hGame (standing 0))
    hActive hGame.seat hKey Prod.mk.eta.symm
  refine ⟨rest ++ back, after, ?_, List.forall_mem_append.mpr ⟨hRest, hMute⟩⟩
  rw [hTrace, hAbort]
  rfl

theorem unrivalled_solitary {log : List RefereeEvent} {event : RefereeEvent}
    (h : event.input.world = solitary) : Unrivalled log event := by
  rw [Unrivalled, h]
  exact ⟨fun _ _ _ => ⟨rfl, rfl⟩, fun _ _ => rfl⟩

theorem findsFree_of_mute {inst : Installation} {event : RefereeEvent} (h : event.request.Mute) :
    FindsFree inst event := by
  obtain ⟨before, input, request, response⟩ := event
  rintro _ _ rfl
  exact h.elim

/-- An action whose key has a row changes nothing. -/
theorem serviceReferee_recorded {inst : Installation} {access : CreatedGameAccess} {pool : ServicePool}
    {key : IdempotencyKey} {row : IdempotencyRecord}
    (h : Recorded pool.store access.publicViewer.gameId (digestKey inst.platform key) row) (seat : Seat)
    (version : UInt64) (inputs : Nat → Service.Input) :
    ((serviceReferee inst access.publicViewer).act ⟨[], [], inputs⟩ pool
      ⟨access.publicViewer.gameId, seat⟩ (resignCommand access.publicViewer.gameId seat version
        key)).2.store = pool.store := by
  have hAct : ∃ reply, Runs inst inputs (act inst ⟨access.publicViewer.gameId, seat⟩
      (resignCommand access.publicViewer.gameId seat version key)) pool.store reply pool.store := by
    have hAuthority : ensureAuthority ⟨access.publicViewer.gameId, seat⟩
        (resignCommand access.publicViewer.gameId seat version key) = .ok () := by
      simp [ensureAuthority, resignCommand, bind_eq_ok]
    unfold act
    rw [hAuthority]
    exact ⟨_, Runs.value (Runs.answered ((resignCommand access.publicViewer.gameId seat version
      key).identity inst.platform) (h.reply _))⟩
  obtain ⟨reply, hAct⟩ := hAct
  have hServed := serveCall_alone (serve_alone_act hAct)
  change (serveCall inst pool _ [] inputs).store = _
  rw [hServed]

/-- The table, hosted for a match of two. -/
theorem exists_seated : ∃ actions s record g, Opened 0 actions s record g ∧
    g.state.scores.length = 2 := by
  obtain ⟨created, s, record, g, hCreate, -, hSeats, hOpened⟩ := exists_dealt 0 (by decide)
  obtain ⟨first, log, hFirst⟩ := exists_served .empty (serve_alone_create hCreate)
  exact ⟨.start (.create hookCreate) :: first, s, record, g, hOpened _ log hFirst, hSeats⟩

theorem Told.hooked {s : Store} {record : GameRecord} {past : List Game} {g : Game}
    (hStored : s.game hookId = some record) (h : Told hookInstallation record past g)
    (hSeats : g.state.scores.length = 2) : Current hookInstallation hookAccess s g :=
  ⟨⟨record, past, hStored, h⟩, by rw [hSeats]; rfl⟩

/-- A current game is hosted. -/
theorem Current.hosts {inst : Installation} {access : CreatedGameAccess} {s : Store} {g : Game}
    (h : Current inst access s g) : Hosts access s := by
  obtain ⟨record, past, hRecord, hTold⟩ := h.stored
  refine ⟨record, hRecord, fun snapshot hSnapshot => ?_⟩
  rw [hTold.snapshots] at hSnapshot
  obtain ⟨other, hOther, rfl⟩ := List.mem_map.mp hSnapshot
  have hSeats : other.state.scores.length = g.state.scores.length := by
    rcases List.mem_append.mp hOther with hOld | hNew
    · exact lineage_seats hTold.lineage other hOld
    · rw [List.mem_singleton.mp hNew]
  exact h.access.trans (congrArg _ hSeats.symm)

/-- The table ends when its agent is missing. -/
theorem missing_agent_ends_match : ∃ history,
    EndsMatch hookInstallation hookAccess ((runMatch hookAccess "spectator" 0).trace
      (host (serviceReferee hookInstallation hookAccess.publicViewer) hookAccess.publicViewer.gameId)
      (bare solitary) ⟨rivalManager, (service hookInstallation).after .empty history⟩) := by
  obtain ⟨actions, s, record, g, hOpened, hSeats⟩ := exists_seated
  have hStore : ((service hookInstallation).after .empty actions).store = s := by
    obtain ⟨created, log, hReached⟩ := hOpened.reached
    rw [hReached]
  have hSound := (ServicePool.sound_empty hookInstallation).after actions
  have hGame := Told.hooked hOpened.stored hOpened.told hSeats
  rw [← hStore] at hGame
  have hReason : Visible 64 "agent-unavailable" := .of_all (by decide) (by decide)
  obtain ⟨key, hKey⟩ := orchestratorKey_ok hReason g.state.version
  obtain ⟨back, manager, hRun, hMute⟩ := trace_missing hSound hGame hOpened.active hKey
  refine ⟨actions, runner_ends_match hookInstallation actions hookAccess "spectator" 0 rivalManager
    (bare solitary) hGame.hosts fun before event after hTrace => ?_⟩
  have hEvent : event ∈ before ++ event :: after := List.mem_append_right _ List.mem_cons_self
  rw [← hTrace] at hEvent
  obtain ⟨n, hInput⟩ := Program.trace_input _ hEvent
  refine ⟨unrivalled_solitary (hInput ▸ rfl), ?_⟩
  rw [show hookAccess.publicViewer.gameId = hookId from rfl, hRun] at hEvent
  simp only [List.mem_append, List.mem_cons] at hEvent
  rcases hEvent with hFront | rfl | rfl | rfl | hBack
  · exact findsFree_of_mute (startupFront_mute event hFront)
  · exact fun _ _ hNever => by cases hNever
  · exact fun _ _ hNever => by cases hNever
  · intro credential command hAct
    cases hAct
    intro other hOther
    change ((service hookInstallation).after .empty actions).store.game hookId = some other at hOther
    rw [hStore, hOpened.stored] at hOther
    cases hOther
    refine ⟨?_, fun _ => Int.le_of_eq hOpened.times.1⟩
    rw [GameRecord.cached, hOpened.idempotency]
    rfl
  · exact findsFree_of_mute (hMute event hBack)

def takenKey : IdempotencyKey := ⟨"agent-orchestrator-agent-unavailable-1", by decide⟩

/-- The human has passed under the key of the runner, which then gives the match up in vain. -/
theorem taken_key_keeps_match_going : ¬ ∀ (inst : Installation) (history : List ServiceAction)
    (access : CreatedGameAccess) (spectatorCapability : String) (rounds : Nat)
    (manager : AgentMatchManager) (inputs : Nat → HostInput ServiceInput),
    Hosts access ((service inst).after .empty history).store →
    (∀ front event back, (runMatch access spectatorCapability rounds).trace
      (host (serviceReferee inst access.publicViewer) access.publicViewer.gameId) inputs
      ⟨manager, (service inst).after .empty history⟩ = front ++ event :: back →
      Unrivalled front event) →
    EndsMatch inst access ((runMatch access spectatorCapability rounds).trace
      (host (serviceReferee inst access.publicViewer) access.publicViewer.gameId) inputs
      ⟨manager, (service inst).after .empty history⟩) := by
  intro hClaim
  obtain ⟨actions, s, record, first, hOpened, hSeats⟩ := exists_seated
  obtain ⟨result, u, next, g, hRun, hSane, hStored, hTold, hActive, hVersion, -, -, row, hRows, hKey⟩ :=
    hOpened.passes takenKey
  obtain ⟨created, log, hFirst⟩ := hOpened.reached
  obtain ⟨second, log', hSecond⟩ := exists_served
    ⟨s, [⟨.create hookCreate, log, .done (.created (.ok created))⟩]⟩ (serve_alone_act hRun)
  have hStore : ((service hookInstallation).after .empty
      (actions ++ .start (.act hookSeat (hookPass takenKey)) :: second)).store = u := by
    rw [Machine.after_append, hFirst, hSecond]
  generalize actions ++ .start (.act hookSeat (hookPass takenKey)) :: second = history at hStore
  have hSound := (ServicePool.sound_empty hookInstallation).after history
  have hTwo : g.state.scores.length = 2 :=
    (lineage_seats hTold.lineage first (List.mem_singleton_self _)).symm.trans hSeats
  have hGame := hStore.symm ▸ Told.hooked hStored hTold hTwo
  have hKeyed : orchestratorKey "agent-unavailable" g.state.version = .ok takenKey := by
    rw [hVersion]
    rfl
  obtain ⟨back, manager, hTrace, -⟩ := trace_missing hSound hGame hActive hKeyed
  have hEnds := hClaim hookInstallation history hookAccess "spectator" 0 rivalManager (bare solitary)
    hGame.hosts fun before event after hSplit => by
      have hEvent : event ∈ before ++ event :: after := List.mem_append_right _ List.mem_cons_self
      rw [← hSplit] at hEvent
      obtain ⟨n, hInput⟩ := Program.trace_input _ hEvent
      exact unrivalled_solitary (hInput ▸ rfl)
  generalize (service hookInstallation).after .empty history = pool at *
  have hMemory : remember (startupFront solitary pool ++ [⟨⟨manager, pool⟩, bare solitary 0,
      .look .abort, (some g.publicProjection : Option _)⟩]) = ⟨none, []⟩ := rfl
  obtain ⟨event, rest, hNext, hEnd⟩ := hEnds.resigned (startupFront solitary pool ++ [_, _])
    (_ :: back) g.publicProjection (hTrace.trans (by rw [List.append_assoc]; rfl))
    ⟨startupFront solitary pool ++ [_], _, rfl, ⟨_, _, rfl⟩, hActive, fun turn hTurn => by
      rw [hMemory] at hTurn
      cases hTurn⟩
  cases hNext
  obtain ⟨other, resigned, outcome, hOther, hLater, -⟩ := hEnd.committed
  have hRecorded : Recorded pool.store hookId
      (digestKey basicPlatform takenKey) row := by
    refine ⟨next, hStore.symm ▸ hStored, ?_⟩
    rw [GameRecord.cached, hRows, ← hKey]
    simp
  have hSame : ((serviceReferee hookInstallation hookAccess.publicViewer).act solitary
      pool ⟨hookId, g.state.currentPlayer⟩
      (resignCommand hookId g.state.currentPlayer g.state.version takenKey)).2.store = _ :=
    serviceReferee_recorded hRecorded _ _ _
  change ((serviceReferee hookInstallation hookAccess.publicViewer).act solitary
      pool ⟨hookId, g.state.currentPlayer⟩
      (resignCommand hookId g.state.currentPlayer g.state.version takenKey)).2.store.game hookId =
        some other at hOther
  rw [hSame, hStore, hStored] at hOther
  cases hOther
  rw [hTold.version] at hLater
  exact absurd hLater (Nat.ne_of_lt (Nat.lt_succ_self _))

end WordArena.Server
