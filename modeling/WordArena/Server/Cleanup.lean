import WordArena.Server.MatchCreation
import WordArena.Server.Runner

/-! What a runner leaves behind when it returns. Some of its exits finish the agents,
some resign the game, and none gives back the tokens of agents it never reached. -/
namespace WordArena.Server

open Fallible WordArena.Engine WordArena.Lexicon WordArena.Application WordArena.Service WordArena.Agent

/-- What drivers, leases, the probe and the service have seen of a runner. -/
structure Ledger where
  started : List Seat
  terminated : List Seat
  released : List Seat
  catalogs : List (List AgentCatalogEntry)
  turns : List (Option PublicProjection)
  acts : List (Option GameActionResult)
deriving DecidableEq

def Ledger.empty : Ledger := ⟨[], [], [], [], [], []⟩

def Ledger.note (l : Ledger) : (request : RunnerRequest) → request.Response → Ledger
  | .startStep seat .start, true => { l with started := l.started ++ [seat] }
  | .terminate seat _, _ => { l with terminated := l.terminated ++ [seat] }
  | .finishLease seat _, _ => { l with released := l.released ++ [seat] }
  | .catalog, entries => { l with catalogs := l.catalogs ++ ([entries] : List (List AgentCatalogEntry)) }
  | .look .turn, view => { l with turns := l.turns ++ ([view] : List (Option PublicProjection)) }
  | .act _ _, result => { l with acts := l.acts ++ ([result] : List (Option GameActionResult)) }
  | _, _ => l

def ledger {World Input : Type} (log : List (RunnerEvent World Input)) : Ledger :=
  log.foldl (fun l event => l.note event.request event.response) .empty

/-! What is to be cleaned up, and when it is. -/

/-- Every started agent is terminated and its lease finished exactly once, no token of
the game is pending, and the match is not shown as active. -/
structure CleanedUp (gameId : GameId) (l : Ledger) (manager : AgentMatchManager) : Prop where
  stopped : ∀ seat ∈ l.started, l.terminated.count seat = 1 ∧ l.released.count seat = 1
  taken : ∀ seat, manager.capabilities.lookup (gameId, seat) = none
  shown : ∀ status, manager.status gameId = some status → status.orchestration ≠ .active

/-- Some action was answered with a finished game. -/
def Closed (acts : List (Option GameActionResult)) : Prop :=
  ∃ result, some result ∈ acts ∧ result.game.publicView.state.phase = .finished

/-- Some look of the loop was answered with a finished game. -/
def Finished (turns : List (Option PublicProjection)) : Prop :=
  ∃ view, some view ∈ turns ∧ view.state.phase = .finished

/-- The seats of agents with their harnesses, in order. -/
def agentSeats (participants : List (Seat × AgentSeatSelection)) : List (Seat × AgentHarnessId) :=
  participants.filterMap fun participant => match participant with
    | (seat, .agent harness _) => some (seat, harness)
    | (_, .human _) => none

/-- The last agent is in the catalog and all agents before it came up. Either it came up
as well and the loop got to see a finished game, or it did not and the game was finished by
the action that followed. -/
structure Orderly (agents : List (Seat × AgentHarnessId)) (l : Ledger) : Prop where
  last : ∃ early seat harness, agents = early ++ [(seat, harness)] ∧
    (∃ entries ∈ l.catalogs, ∃ entry ∈ entries, entry.serves harness = true) ∧
    (∀ agent ∈ early, agent.1 ∈ l.started) ∧
    (seat ∈ l.started ∧ Finished l.turns ∨ seat ∉ l.started ∧ Closed l.acts)

/-! Runs of a runner, seen through the ledger and the manager. -/

section

variable {World Input : Type}

/-- A part of a runner ends as described, whatever its host answers. -/
def Settles (referee : Referee World Input) (gameId : GameId) {α : Type}
    (post : α → Ledger → AgentMatchManager → Prop) (program : Runner α) (l : Ledger)
    (manager : AgentMatchManager) : Prop :=
  ∀ (log : List (RunnerEvent World Input)) (s : HostState World), ledger log = l →
    s.manager = manager → program.Follows (host referee gameId) .lenient
      (fun result log s => post result (ledger log) s.manager) log s

variable {referee : Referee World Input} {gameId : GameId} {α β : Type}
  {post : α → Ledger → AgentMatchManager → Prop} {l : Ledger} {manager : AgentMatchManager}

theorem Settles.pure {a : α} (h : post a l manager) :
    Settles referee gameId post (pure a) l manager := by
  rintro log s rfl rfl
  exact h

theorem Settles.bind {program : Runner β} {f : β → Runner α}
    (h : Settles referee gameId (fun b l m => Settles referee gameId post (f b) l m) program l
      manager) : Settles referee gameId post (program >>= f) l manager := by
  intro log s hLog hManager
  exact Program.Follows.bind ((h log s hLog hManager).mono fun b log t hNext => hNext log t rfl rfl)

theorem Settles.ask {request : RunnerRequest} {f : request.Response → Runner α}
    (h : ∀ input world, Settles referee gameId post
      (f ((host referee gameId).perform input ⟨manager, world⟩ request).1)
      (l.note request ((host referee gameId).perform input ⟨manager, world⟩ request).1)
      ((host referee gameId).perform input ⟨manager, world⟩ request).2.manager) :
    Settles referee gameId post (Program.ask request >>= f) l manager := by
  rintro log ⟨_, world⟩ rfl rfl input -
  refine ⟨trivial, h input world _ _ ?_ rfl⟩
  rw [ledger, List.foldl_append]
  rfl

/-! One rule for each request. -/

theorem Settles.status {f : Option AgentMatchStatus → Runner α}
    (h : Settles referee gameId post (f (manager.status gameId)) l manager) :
    Settles referee gameId post (Runner.status >>= f) l manager :=
  .ask fun _ _ => h

theorem Settles.prepare {preparation : Preparation} {f : Bool → Runner α}
    (h : ∀ ok, Settles referee gameId post (f ok) l manager) :
    Settles referee gameId post (Runner.prepare preparation >>= f) l manager :=
  .ask fun input _ => h input.succeeds

theorem Settles.catalog {f : List AgentCatalogEntry → Runner α}
    (h : ∀ entries, Settles referee gameId post (f entries)
      { l with catalogs := l.catalogs ++ [entries] } manager) :
    Settles referee gameId post (Runner.catalog >>= f) l manager :=
  .ask fun input _ => h input.catalog

theorem Settles.report {change : MatchUpdate} {f : Unit → Runner α}
    (h : ∀ now, Settles referee gameId post (f ()) l (manager.update gameId now change)) :
    Settles referee gameId post (Runner.report change >>= f) l manager :=
  .ask fun input _ => h input.now

theorem Settles.takeCapability {seat : Seat} {f : Option PendingAgentCapability → Runner α}
    (h : Settles referee gameId post (f (manager.takeCapability gameId seat).1) l
      (manager.takeCapability gameId seat).2) :
    Settles referee gameId post (Runner.takeCapability seat >>= f) l manager :=
  .ask fun _ _ => h

theorem Settles.startStep {seat : Seat} {step : StartStep} {f : Bool → Runner α}
    (h : ∀ ok : Bool, Settles referee gameId post (f ok) (l.note (.startStep seat step) ok) manager) :
    Settles referee gameId post (Runner.startStep seat step >>= f) l manager :=
  .ask fun input _ => h input.succeeds

theorem Settles.look {place : Look} {f : Option PublicProjection → Runner α}
    (h : ∀ view : Option PublicProjection,
      Settles referee gameId post (f view) (l.note (.look place) view) manager) :
    Settles referee gameId post (Runner.look place >>= f) l manager :=
  .ask fun _ _ => h _

theorem Settles.requestTurn {seat : Seat} {request : TurnRequest} {f : Bool → Runner α}
    (h : ∀ ok, Settles referee gameId post (f ok) l manager) :
    Settles referee gameId post (Runner.requestTurn seat request >>= f) l manager :=
  .ask fun input _ => h input.succeeds

theorem Settles.act {credential : CompetitiveSeatCredential} {command : GameActionCommand}
    {f : Option GameActionResult → Runner α}
    (h : ∀ result, Settles referee gameId post (f result) { l with acts := l.acts ++ [result] }
      manager) : Settles referee gameId post (Runner.act credential command >>= f) l manager :=
  .ask fun _ _ => h _

theorem Settles.publish {version : UInt64} {f : Unit → Runner α}
    (h : Settles referee gameId post (f ()) l manager) :
    Settles referee gameId post (Runner.publish version >>= f) l manager :=
  .ask fun _ _ => h

theorem Settles.terminate {seat : Seat} {reason : TerminationReason} {f : Unit → Runner α}
    (h : Settles referee gameId post (f ()) { l with terminated := l.terminated ++ [seat] } manager) :
    Settles referee gameId post (Runner.terminate seat reason >>= f) l manager :=
  .ask fun _ _ => h

theorem Settles.finishLease {seat : Seat} {outcome : WorkspaceOutcome} {f : Unit → Runner α}
    (h : Settles referee gameId post (f ()) { l with released := l.released ++ [seat] } manager) :
    Settles referee gameId post (Runner.finishLease seat outcome >>= f) l manager :=
  .ask fun _ _ => h

theorem Settles.sleep {f : Unit → Runner α} (h : Settles referee gameId post (f ()) l manager) :
    Settles referee gameId post (Runner.sleep >>= f) l manager :=
  .ask fun _ _ => h

end

/-! The manager. -/

/-- What the manager shows of a match and which tokens of it are pending. -/
structure Standing (gameId : GameId) (manager : AgentMatchManager) (lifecycle : AgentMatchLifecycle)
    (pending : List Seat) : Prop where
  shown : ∃ status, manager.status gameId = some status ∧ status.orchestration = lifecycle
  pending : ∀ seat, (manager.capabilities.lookup (gameId, seat)).isSome = true ↔ seat ∈ pending

/-- What a report makes of the lifecycle. -/
def MatchUpdate.after (lifecycle : AgentMatchLifecycle) : MatchUpdate → AgentMatchLifecycle
  | .updatePublic view => if view.state.phase = .finished then .finished else lifecycle
  | _ => lifecycle

theorem AgentMatchStatus.apply_orchestration (status : AgentMatchStatus) (now : UnixMillis)
    (change : MatchUpdate) :
    (status.apply now change).orchestration = change.after status.orchestration := by
  cases change <;> rfl

section

variable {gameId : GameId} {manager : AgentMatchManager} {lifecycle : AgentMatchLifecycle}
  {pending : List Seat}

theorem Standing.report (h : Standing gameId manager lifecycle pending) (now : UnixMillis)
    (change : MatchUpdate) :
    Standing gameId (manager.update gameId now change) (change.after lifecycle) pending := by
  obtain ⟨status, hStatus, rfl⟩ := h.shown
  have hUpdate : manager.update gameId now change =
      { manager with statuses := manager.statuses.insert gameId (status.apply now change) } := by
    rw [AgentMatchManager.update, hStatus]
  rw [hUpdate]
  exact ⟨⟨_, AList.lookup_insert _, status.apply_orchestration now change⟩, h.pending⟩

theorem Standing.take (h : Standing gameId manager lifecycle pending) (seat : Seat) :
    Standing gameId (manager.takeCapability gameId seat).2 lifecycle (pending.filter (· ≠ seat)) := by
  refine ⟨h.shown, fun other => ?_⟩
  rw [List.mem_filter, ← h.pending other, decide_eq_true_eq]
  change ((manager.capabilities.erase (gameId, seat)).lookup (gameId, other)).isSome = true ↔ _
  by_cases hSeat : other = seat
  · subst hSeat
    simp [AList.lookup_erase]
  · rw [AList.lookup_erase_ne (by simp [hSeat])]
    exact (and_iff_left hSeat).symm

/-- What is left to do for a match that keeps tokens or agents. -/
theorem CleanedUp.none_pending {l : Ledger} (h : CleanedUp gameId l manager)
    (hStanding : Standing gameId manager lifecycle pending) : pending = [] := by
  refine List.eq_nil_iff_forall_not_mem.mpr fun seat hSeat => ?_
  have hSome := (hStanding.pending seat).mpr hSeat
  rw [h.taken seat] at hSome
  cases hSome

theorem Standing.cleanedUp {l : Ledger} (h : Standing gameId manager lifecycle []) :
    CleanedUp gameId l manager ↔
      (∀ seat ∈ l.started, l.terminated.count seat = 1 ∧ l.released.count seat = 1) ∧
        lifecycle ≠ .active := by
  obtain ⟨status, hStatus, hLifecycle⟩ := h.shown
  constructor
  · intro hClean
    exact ⟨hClean.stopped, hLifecycle ▸ hClean.shown status hStatus⟩
  · rintro ⟨hStopped, hActive⟩
    refine ⟨hStopped, fun seat => ?_, fun other hOther => ?_⟩
    · have hNone := (h.pending seat).not.mpr List.not_mem_nil
      rwa [Option.not_isSome_iff_eq_none] at hNone
    · cases hStatus.symm.trans hOther
      rw [hLifecycle]
      exact hActive

end

/-! Ending a match. -/

section

variable {World Input : Type} {referee : Referee World Input} {gameId : GameId} {l : Ledger}
  {manager : AgentMatchManager} {lifecycle : AgentMatchLifecycle} {pending : List Seat}
  {post : Unit → Ledger → AgentMatchManager → Prop}

/-- What a resignation may do. -/
structure Resigned (gameId : GameId) (lifecycle : AgentMatchLifecycle) (pending : List Seat)
    (acts : List (Option GameActionResult)) (manager : AgentMatchManager) : Prop where
  standing : ∃ after, Standing gameId manager after pending ∧
    (Closed acts ∧ after = .finished ∨ ¬ Closed acts ∧ after = lifecycle)

theorem Resigned.nothing (h : Standing gameId manager lifecycle pending) :
    Resigned gameId lifecycle pending [] manager :=
  ⟨lifecycle, h, .inr ⟨fun ⟨_, hMem, _⟩ => absurd hMem List.not_mem_nil, rfl⟩⟩

theorem closed_singleton {answer : Option GameActionResult} :
    Closed [answer] ↔ ∃ result, answer = some result ∧
      result.game.publicView.state.phase = .finished := by
  simp only [Closed, List.mem_singleton, eq_comm]

theorem resign_settles (access : CreatedGameAccess) (seat : Seat) (reason : String)
    (h : Standing gameId manager lifecycle pending)
    (hPost : ∀ acts m, Resigned gameId lifecycle pending acts m →
      post () { l with acts := l.acts ++ acts } m) :
    Settles referee gameId post (resign access seat reason) l manager := by
  have hQuiet : post () l manager := by
    have hNothing := hPost [] manager (.nothing h)
    rwa [List.append_nil] at hNothing
  refine Settles.look fun view => ?_
  cases view with
  | none => exact .pure hQuiet
  | some view =>
      dsimp only [Ledger.note]
      split
      · exact .pure hQuiet
      · split
        · exact .pure hQuiet
        · split
          · exact .pure hQuiet
          · refine Settles.act fun result => ?_
            cases result with
            | none =>
                refine .pure (hPost [none] manager ⟨lifecycle, h, .inr ⟨?_, rfl⟩⟩)
                rw [closed_singleton]
                rintro ⟨_, hNever, _⟩
                cases hNever
            | some result =>
                refine Settles.report fun now => ?_
                refine Settles.publish (f := pure) (.pure ?_)
                refine hPost [some result] _
                  ⟨_, h.report now (.updatePublic result.game.publicView), ?_⟩
                rw [closed_singleton]
                by_cases hFinished : result.game.publicView.state.phase = .finished
                · exact .inl ⟨⟨result, rfl, hFinished⟩, if_pos hFinished⟩
                · refine .inr ⟨?_, if_neg hFinished⟩
                  rintro ⟨_, hSame, hPhase⟩
                  cases hSame
                  exact hFinished hPhase

theorem abortMatch_settles (access : CreatedGameAccess) (reason : String)
    (h : Standing gameId manager lifecycle pending)
    (hPost : ∀ acts m, Resigned gameId lifecycle pending acts m →
      post () { l with acts := l.acts ++ acts } m) :
    Settles referee gameId post (abortMatch access reason) l manager := by
  refine Settles.look fun view => ?_
  cases view with
  | none =>
      have hNothing := hPost [] manager (.nothing h)
      rw [List.append_nil] at hNothing
      exact .pure hNothing
  | some view => exact resign_settles access view.state.currentPlayer reason h hPost

/-- Every running agent is terminated and its lease finished. -/
theorem finishEach_settles (outcomes : List WorkspaceOutcome) (agents : List RunningAgent)
    (hPost : post ()
      { l with
        terminated := l.terminated ++ agents.map (·.seat)
        released := l.released ++ agents.map (·.seat) } manager) :
    Settles referee gameId post (finishEach outcomes agents) l manager := by
  induction agents generalizing l with
  | nil =>
      simp only [List.map_nil, List.append_nil] at hPost
      exact .pure hPost
  | cons agent rest ih =>
      refine Settles.bind (Settles.terminate (Settles.finishLease (f := pure) (.pure ?_)))
      refine ih ?_
      simp only [List.append_assoc, List.singleton_append]
      exact hPost

theorem finishAgents_settles (agents : List (Option RunningAgent))
    (h : Standing gameId manager lifecycle pending)
    (hPost : ∀ m, Standing gameId m lifecycle pending → post ()
      { l with
        terminated := l.terminated ++ (agents.filterMap id).map (·.seat)
        released := l.released ++ (agents.filterMap id).map (·.seat) } m) :
    Settles referee gameId post (finishAgents agents) l manager := by
  refine Settles.status (Settles.bind (finishEach_settles _ _ ?_))
  exact Settles.report (f := pure) fun now => .pure (hPost _ (h.report now .finishSeats))

end

/-! Starting the agents. -/

theorem agentSeats_append (front back : List (Seat × AgentSeatSelection)) :
    agentSeats (front ++ back) = agentSeats front ++ agentSeats back :=
  List.filterMap_append

/-- The agent of a participant, once it runs. -/
def running : Seat × AgentSeatSelection → Option RunningAgent
  | (seat, .agent _ _) => some ⟨seat⟩
  | (_, .human _) => none

theorem filterMap_running (participants : List (Seat × AgentSeatSelection)) :
    ((participants.map running).filterMap id).map (·.seat) =
      (agentSeats participants).map (·.1) := by
  induction participants with
  | nil => rfl
  | cons participant rest ih =>
      obtain ⟨seat, harness | name⟩ := participant
      · exact congrArg (seat :: ·) ih
      · exact ih

section

variable {World Input : Type} {referee : Referee World Input} {gameId : GameId} {l : Ledger}
  {manager : AgentMatchManager}

/-- The seats are numbered in order. -/
def Numbered (participants : List (Seat × AgentSeatSelection)) : Prop :=
  ∀ (i : Nat) participant, participants[i]? = some participant → participant.1.index = i

theorem agentSeats_sublist (participants : List (Seat × AgentSeatSelection)) :
    ((agentSeats participants).map (·.1)).Sublist (participants.map (·.1)) := by
  induction participants with
  | nil => exact List.Sublist.slnil
  | cons participant rest ih =>
      obtain ⟨seat, harness | name⟩ := participant
      · exact ih.cons_cons seat
      · exact ih.cons seat

theorem Numbered.nodup {participants : List (Seat × AgentSeatSelection)} (h : Numbered participants) :
    ((agentSeats participants).map (·.1)).Nodup := by
  refine List.Nodup.sublist (agentSeats_sublist participants) ?_
  refine List.pairwise_iff_getElem.mpr fun i j hi hj hLess hSame => ?_
  rw [List.length_map] at hi hj
  rw [List.getElem_map, List.getElem_map] at hSame
  have hFirst := h i _ (List.getElem?_eq_getElem hi)
  have hSecond := h j _ (List.getElem?_eq_getElem hj)
  rw [hSame] at hFirst
  omega

/-- The runner has dealt with the first participants. -/
structure Starting (gameId : GameId) (entries : List AgentCatalogEntry)
    (before rest : List (Seat × AgentSeatSelection)) (agents : List (Option RunningAgent)) (l : Ledger)
    (manager : AgentMatchManager) : Prop where
  standing : Standing gameId manager .active ((agentSeats rest).map (·.1))
  ledger : l = ⟨(agentSeats before).map (·.1), [], [], [entries], [], []⟩
  agents : agents = before.map running ++ rest.map fun _ => none
  numbered : Numbered (before ++ rest)
  served : ∀ agent ∈ agentSeats before, ∃ entry ∈ entries, entry.serves agent.2 = true

theorem Starting.filterMap {entries : List AgentCatalogEntry}
    {before rest : List (Seat × AgentSeatSelection)} {agents : List (Option RunningAgent)}
    (h : Starting gameId entries before rest agents l manager) :
    (agents.filterMap id).map (·.seat) = (agentSeats before).map (·.1) := by
  have hNone : (rest.map fun _ => (none : Option RunningAgent)).filterMap id = [] := by
    rw [List.filterMap_map]
    exact List.filterMap_eq_nil_iff.mpr fun _ _ => rfl
  rw [h.agents, List.filterMap_append, hNone, List.append_nil, filterMap_running]

/-- A start is noted only when its last step succeeds. -/
theorem startSteps_settles {post : Except String RunningAgent → Ledger → AgentMatchManager → Prop}
    (seat : Seat) {steps : List StartStep} (hSteps : ∀ step ∈ steps, step ≠ .start)
    (hOk : post (.ok ⟨seat⟩) { l with started := l.started ++ [seat] } manager)
    (hError : ∀ code, post (.error code) l manager) :
    Settles referee gameId post (startSteps seat (steps ++ [.start])) l manager := by
  induction steps with
  | nil =>
      refine Settles.startStep fun ok => ?_
      cases ok with
      | true => exact .pure hOk
      | false => exact .pure (hError _)
  | cons step rest ih =>
      have hRest := ih fun other hOther => hSteps other (List.mem_cons_of_mem _ hOther)
      have hNote : ∀ ok : Bool, l.note (.startStep seat step) ok = l := by
        intro ok
        cases step with
        | start => exact absurd rfl (hSteps _ List.mem_cons_self)
        | _ => cases ok <;> rfl
      refine Settles.startStep fun ok => ?_
      rw [hNote]
      cases ok with
      | true => exact hRest
      | false => exact .pure (hError _)

theorem startPlan_eq (pending : PendingAgentCapability) (harness : AgentHarnessId)
    (model : Option String) (version : String) : ∃ steps,
      startPlan pending harness model version = steps ++ [.start] ∧ ∀ step ∈ steps, step ≠ .start := by
  refine ⟨[.capability pending, .manifest harness model version, .workspace] ++
    (if harness = .codex then [.providerAuth, .installAuth] else []) ++ [.driver], ?_, ?_⟩
  · rw [startPlan, List.append_assoc, List.append_assoc, List.append_assoc]
    rfl
  · intro step hStep
    split at hStep <;> simp only [List.cons_append, List.nil_append, List.mem_cons, List.not_mem_nil,
      or_false] at hStep
    · rcases hStep with rfl | rfl | rfl | rfl | rfl | rfl <;> exact StartStep.noConfusion
    · rcases hStep with rfl | rfl | rfl | rfl <;> exact StartStep.noConfusion

theorem startAgent_settles {post : Except String RunningAgent → Ledger → AgentMatchManager → Prop}
    (seat : Seat) (harness : AgentHarnessId) (model : Option String) (version : String)
    (hOk : post (.ok ⟨seat⟩) { l with started := l.started ++ [seat] }
      (manager.takeCapability gameId seat).2)
    (hError : ∀ code, post (.error code) l (manager.takeCapability gameId seat).2) :
    Settles referee gameId post (startAgent seat harness model version) l manager := by
  refine Settles.takeCapability ?_
  cases (manager.takeCapability gameId seat).1 with
  | none => exact .pure (hError _)
  | some pending =>
      obtain ⟨steps, hPlan, hSteps⟩ := startPlan_eq pending harness model version
      dsimp only
      rw [hPlan]
      exact startSteps_settles seat hSteps hOk hError

theorem failStart_settles {post : Unit → Ledger → AgentMatchManager → Prop}
    {lifecycle : AgentMatchLifecycle} {pending : List Seat} (access : CreatedGameAccess)
    (agents : List (Option RunningAgent)) (seat : Seat) (code reason : String)
    (h : Standing gameId manager lifecycle pending)
    (hPost : ∀ acts m, Resigned gameId lifecycle pending acts m → post ()
      { l with
        terminated := l.terminated ++ (agents.filterMap id).map (·.seat)
        released := l.released ++ (agents.filterMap id).map (·.seat)
        acts := l.acts ++ acts } m) :
    Settles referee gameId post (failStart access agents seat code reason) l manager := by
  refine Settles.report fun now => Settles.bind ?_
  refine abortMatch_settles access reason (h.report now (.setSeatStatus seat (.failed code)))
    fun acts m hResigned => ?_
  obtain ⟨after, hAfter, hActs⟩ := hResigned.standing
  exact finishAgents_settles agents hAfter fun m' hStanding =>
    hPost acts m' ⟨after, hStanding, hActs⟩

end

/-! What failed starts leave. -/

/-- Only the last agent may have failed to start. -/
theorem Orderly.unstarted {front back : List (Seat × AgentHarnessId)} {seat : Seat}
    {harness : AgentHarnessId} {l : Ledger} (h : Orderly (front ++ (seat, harness) :: back) l)
    (hSeat : seat ∉ l.started) : back = [] ∧
      (∃ entries ∈ l.catalogs, ∃ entry ∈ entries, entry.serves harness = true) ∧ Closed l.acts := by
  obtain ⟨early, other, used, hSplit, hCatalog, hEarly, hEnd⟩ := h.last
  rcases List.eq_nil_or_concat back with rfl | ⟨middle, last, rfl⟩
  · obtain ⟨rfl, hLast⟩ := List.append_inj' hSplit rfl
    cases hLast
    refine ⟨rfl, hCatalog, ?_⟩
    rcases hEnd with ⟨hStarted, -⟩ | ⟨-, hClosed⟩
    · exact absurd hStarted hSeat
    · exact hClosed
  · rw [List.concat_eq_append, ← List.cons_append, ← List.append_assoc] at hSplit
    obtain ⟨rfl, -⟩ := List.append_inj' hSplit rfl
    exact absurd (hEarly (seat, harness) (by simp)) hSeat

section

variable {World Input : Type} {referee : Referee World Input} {gameId : GameId} {l : Ledger}
  {manager : AgentMatchManager} {entries : List AgentCatalogEntry}
  {before rest : List (Seat × AgentSeatSelection)} {agents : List (Option RunningAgent)} {seat : Seat}
  {harness : AgentHarnessId} {model : Option String}

/-- The seat that is dealt with was not started before. -/
theorem Starting.fresh
    (h : Starting gameId entries before ((seat, .agent harness model) :: rest) agents l manager) :
    seat ∉ (agentSeats before).map (·.1) ∧ seat ∉ (agentSeats rest).map (·.1) := by
  have hNodup := h.numbered.nodup
  rw [agentSeats_append, List.map_append] at hNodup
  obtain ⟨-, hRest, hApart⟩ := List.nodup_append.mp hNodup
  exact ⟨fun hSeat => hApart seat hSeat seat List.mem_cons_self rfl, (List.nodup_cons.mp hRest).1⟩

/-- An agent that cannot be started keeps its own token. -/
theorem Starting.unavailable {acts : List (Option GameActionResult)} {m : AgentMatchManager}
    (h : Starting gameId entries before ((seat, .agent harness model) :: rest) agents l manager)
    (hMissing : entries.find? (·.serves harness) = none)
    (hResigned : Resigned gameId .active ((agentSeats ((seat, .agent harness model) :: rest)).map (·.1))
      acts m) (terminated released : List Seat) (more : List (Option GameActionResult)) :
    CleanedUp gameId { l with terminated := terminated, released := released, acts := more } m ↔
      Orderly (agentSeats (before ++ (seat, .agent harness model) :: rest))
        { l with terminated := terminated, released := released, acts := more } := by
  obtain ⟨after, hStanding, -⟩ := hResigned.standing
  refine iff_of_false (fun hClean => ?_) fun hOrderly => ?_
  · exact absurd (hClean.none_pending hStanding) (List.cons_ne_nil _ _)
  · rw [agentSeats_append] at hOrderly
    obtain ⟨-, ⟨listed, hListed, entry, hEntry, hServes⟩, -⟩ := hOrderly.unstarted (by
      rw [h.ledger]
      exact h.fresh.1)
    rw [h.ledger, List.mem_singleton] at hListed
    subst hListed
    exact List.find?_eq_none.mp hMissing entry hEntry hServes

/-- An agent that did not come up is no trouble when it is the last one and the game is
finished. -/
theorem Starting.failed {acts : List (Option GameActionResult)} {m : AgentMatchManager}
    {entry : AgentCatalogEntry}
    (h : Starting gameId entries before ((seat, .agent harness model) :: rest) agents l manager)
    (hListed : entries.find? (·.serves harness) = some entry)
    (hResigned : Resigned gameId .active ((agentSeats rest).map (·.1)) acts m) :
    CleanedUp gameId
        { l with
          terminated := (agentSeats before).map (·.1)
          released := (agentSeats before).map (·.1)
          acts := acts } m ↔
      Orderly (agentSeats (before ++ (seat, .agent harness model) :: rest))
        { l with
          terminated := (agentSeats before).map (·.1)
          released := (agentSeats before).map (·.1)
          acts := acts } := by
  obtain ⟨after, hStanding, hActs⟩ := hResigned.standing
  have hFresh : seat ∉ l.started := by
    rw [h.ledger]
    exact h.fresh.1
  by_cases hLast : agentSeats rest = []
  · have hAgents : agentSeats (before ++ (seat, .agent harness model) :: rest) =
        agentSeats before ++ [(seat, harness)] := by
      rw [agentSeats_append]
      exact congrArg (agentSeats before ++ (seat, harness) :: ·) hLast
    have hNodup := h.numbered.nodup
    rw [agentSeats_append, List.map_append] at hNodup
    have hBefore := (List.nodup_append.mp hNodup).1
    rw [hLast] at hStanding
    rw [hStanding.cleanedUp, hAgents]
    constructor
    · rintro ⟨-, hActive⟩
      refine ⟨agentSeats before, seat, harness, rfl, ⟨entries, ?_, entry, ?_, ?_⟩, fun agent hAgent => ?_,
        .inr ⟨hFresh, ?_⟩⟩
      · rw [h.ledger]
        exact List.mem_singleton_self _
      · exact List.mem_of_find?_eq_some hListed
      · exact @List.find?_some _ (fun e : AgentCatalogEntry => e.serves harness) _ _ hListed
      · rw [h.ledger]
        exact List.mem_map_of_mem hAgent
      · rcases hActs with ⟨hClosed, -⟩ | ⟨-, rfl⟩
        · exact hClosed
        · exact absurd rfl hActive
    · intro hOrderly
      obtain ⟨-, -, hClosed⟩ := hOrderly.unstarted hFresh
      refine ⟨fun other hOther => ?_, ?_⟩
      · rw [h.ledger] at hOther
        exact ⟨List.count_eq_one_of_mem hBefore hOther, List.count_eq_one_of_mem hBefore hOther⟩
      · rcases hActs with ⟨-, rfl⟩ | ⟨hOpen, -⟩
        · exact AgentMatchLifecycle.noConfusion
        · exact absurd hClosed hOpen
  · refine iff_of_false (fun hClean => ?_) fun hOrderly => ?_
    · exact hLast (List.map_eq_nil_iff.mp (hClean.none_pending hStanding))
    · rw [agentSeats_append] at hOrderly
      exact hLast (hOrderly.unstarted hFresh).1

/-- A human needs no start. -/
theorem Starting.skip {name : String}
    (h : Starting gameId entries before ((seat, .human name) :: rest) agents l manager) :
    Starting gameId entries (before ++ [(seat, .human name)]) rest agents l manager where
  standing := h.standing
  ledger := by
    rw [agentSeats_append]
    exact (List.append_nil (agentSeats before)).symm ▸ h.ledger
  agents := by
    rw [h.agents, List.map_append, List.append_assoc]
    rfl
  numbered := List.append_cons _ _ _ ▸ h.numbered
  served := by
    rw [agentSeats_append]
    exact (List.append_nil (agentSeats before)).symm ▸ h.served

/-- A token that was taken is not pending any more. -/
theorem Starting.take
    (h : Starting gameId entries before ((seat, .agent harness model) :: rest) agents l manager) :
    Standing gameId (manager.takeCapability gameId seat).2 .active ((agentSeats rest).map (·.1)) := by
  have hTaken := h.standing.take seat
  have hRest : ((agentSeats ((seat, .agent harness model) :: rest)).map (·.1)).filter (· ≠ seat) =
      (agentSeats rest).map (·.1) := by
    change (seat :: (agentSeats rest).map (·.1)).filter (· ≠ seat) = _
    rw [List.filter_cons_of_neg (by simp), List.filter_eq_self]
    intro other hOther
    rw [decide_eq_true_eq]
    rintro rfl
    exact h.fresh.2 hOther
  rwa [hRest] at hTaken

theorem Starting.started {m : AgentMatchManager} {entry : AgentCatalogEntry}
    (h : Starting gameId entries before ((seat, .agent harness model) :: rest) agents l manager)
    (hListed : entries.find? (·.serves harness) = some entry)
    (hStanding : Standing gameId m .active ((agentSeats rest).map (·.1))) :
    Starting gameId entries (before ++ [(seat, .agent harness model)]) rest
      (agents.set seat.index (some ⟨seat⟩)) { l with started := l.started ++ [seat] } m where
  standing := hStanding
  ledger := by
    rw [agentSeats_append, List.map_append, h.ledger]
    rfl
  agents := by
    have hIndex : seat.index = (before.map running).length := by
      rw [List.length_map]
      exact h.numbered before.length (seat, .agent harness model) (by simp)
    rw [h.agents, hIndex, List.set_append_right _ _ (Nat.le_refl _), Nat.sub_self, List.map_append,
      List.append_assoc]
    rfl
  numbered := List.append_cons _ _ _ ▸ h.numbered
  served := by
    rw [agentSeats_append]
    intro agent hAgent
    rcases List.mem_append.mp hAgent with hOld | hNew
    · exact h.served agent hOld
    · cases List.mem_singleton.mp hNew
      exact ⟨entry, List.mem_of_find?_eq_some hListed,
        @List.find?_some _ (fun e : AgentCatalogEntry => e.serves harness) _ _ hListed⟩

theorem startSeats_settles {post : Option (List (Option RunningAgent)) → Ledger → AgentMatchManager → Prop}
    (access : CreatedGameAccess) (h : Starting gameId entries before rest agents l manager)
    (hNone : ∀ l m, (CleanedUp gameId l m ↔ Orderly (agentSeats (before ++ rest)) l) → post none l m)
    (hSome : ∀ agents l m, Starting gameId entries (before ++ rest) [] agents l m →
      post (some agents) l m) :
    Settles referee gameId post (startSeats access entries rest agents) l manager := by
  induction rest generalizing before agents l manager with
  | nil =>
      rw [List.append_nil] at hSome
      exact .pure (hSome _ _ _ h)
  | cons participant rest ih =>
      rw [List.append_cons] at hNone hSome
      obtain ⟨seat, selection⟩ := participant
      cases selection with
      | human name => exact ih h.skip hNone hSome
      | agent harness model =>
          refine Settles.report fun now => ?_
          have hEntry : Starting gameId entries before ((seat, .agent harness model) :: rest) agents l
              (manager.update gameId now (.setSeatStatus seat .starting)) :=
            ⟨h.standing.report now (.setSeatStatus seat .starting), h.ledger, h.agents, h.numbered,
              h.served⟩
          cases hListed : entries.find? (·.serves harness) with
          | none =>
              refine Settles.bind (failStart_settles access agents seat _ _ hEntry.standing
                fun acts m hResigned => .pure (hNone _ _ ?_))
              rw [← List.append_cons]
              exact hEntry.unavailable hListed hResigned _ _ _
          | some entry =>
              refine Settles.bind (startAgent_settles seat harness model _ ?_ fun code => ?_)
              · refine Settles.report fun later => ih ?_ hNone hSome
                exact hEntry.started hListed (hEntry.take.report later (.setSeatStatus seat .ready))
              · refine Settles.bind (failStart_settles access agents seat _ _ hEntry.take
                  fun acts m hResigned => .pure (hNone _ _ ?_))
                rw [← List.append_cons, hEntry.filterMap]
                have hFailed := hEntry.failed hListed hResigned
                have hNothing : l.terminated = [] ∧ l.released = [] ∧ l.acts = [] := by
                  rw [h.ledger]
                  exact ⟨rfl, rfl, rfl⟩
                rw [hNothing.1, hNothing.2.1, hNothing.2.2]
                exact hFailed

end

/-! Playing. -/

section

variable {World Input : Type} {referee : Referee World Input} {gameId : GameId} {l : Ledger}
  {manager : AgentMatchManager} {entries : List AgentCatalogEntry}
  {participants : List (Seat × AgentSeatSelection)} {agents : List (Option RunningAgent)}

/-- All agents run, and no finished game was seen. -/
structure Playing (gameId : GameId) (entries : List AgentCatalogEntry)
    (participants : List (Seat × AgentSeatSelection)) (agents : List (Option RunningAgent)) (l : Ledger)
    (manager : AgentMatchManager) : Prop where
  standing : ∃ lifecycle, Standing gameId manager lifecycle []
  started : l.started = (agentSeats participants).map (·.1)
  terminated : l.terminated = []
  released : l.released = []
  catalogs : l.catalogs = [entries]
  turns : ¬ Finished l.turns
  agents : (agents.filterMap id).map (·.seat) = (agentSeats participants).map (·.1)

theorem Starting.playing (h : Starting gameId entries participants [] agents l manager) :
    Playing gameId entries participants agents l manager where
  standing := ⟨_, h.standing⟩
  started := by rw [h.ledger]
  terminated := by rw [h.ledger]
  released := by rw [h.ledger]
  catalogs := by rw [h.ledger]
  turns := by
    rw [h.ledger]
    rintro ⟨_, hMem, _⟩
    exact absurd hMem List.not_mem_nil
  agents := h.filterMap

/-- Further looks that show no finished game, and actions, change nothing. -/
theorem Playing.later {m : AgentMatchManager} {lifecycle : AgentMatchLifecycle}
    {turns : List (Option PublicProjection)} {acts : List (Option GameActionResult)}
    (h : Playing gameId entries participants agents l manager)
    (hStanding : Standing gameId m lifecycle []) (hTurns : ¬ Finished turns) :
    Playing gameId entries participants agents
      { l with turns := turns, acts := acts } m :=
  ⟨⟨lifecycle, hStanding⟩, h.started, h.terminated, h.released, h.catalogs, hTurns, h.agents⟩

theorem Playing.failTurn_settles {post : Round → Ledger → AgentMatchManager → Prop}
    (access : CreatedGameAccess) (seat : Seat) (code reason : String)
    (h : Playing gameId entries participants agents l manager)
    (hPost : ∀ l m, Playing gameId entries participants agents l m → post .again l m) :
    Settles referee gameId post (failTurn access seat code reason) l manager := by
  obtain ⟨lifecycle, hStanding⟩ := h.standing
  refine Settles.report fun now => Settles.bind ?_
  refine resign_settles access seat reason (hStanding.report now (.setSeatStatus seat (.failed code)))
    fun acts m hResigned => .pure (hPost _ _ ?_)
  obtain ⟨_, hAfter, -⟩ := hResigned.standing
  exact h.later hAfter h.turns

theorem Playing.playTurn_settles {post : Round → Ledger → AgentMatchManager → Prop}
    (access : CreatedGameAccess) (language : Language) (seat : Seat) (before : UInt64)
    (h : Playing gameId entries participants agents l manager)
    (hPost : ∀ l m, Playing gameId entries participants agents l m → post .again l m) :
    Settles referee gameId post (playTurn access language seat before) l manager := by
  obtain ⟨lifecycle, hStanding⟩ := h.standing
  refine Settles.report fun now => Settles.requestTurn fun ok => ?_
  have hThinking := hStanding.report now (.setSeatStatus seat .thinking)
  have hPlaying : Playing gameId entries participants agents l
      (manager.update gameId now (.setSeatStatus seat .thinking)) := h.later hThinking h.turns
  cases ok with
  | false => exact hPlaying.failTurn_settles access seat _ _ hPost
  | true =>
      refine Settles.look fun view => ?_
      cases view with
      | none => exact hPlaying.failTurn_settles access seat _ _ hPost
      | some after =>
          dsimp only [Ledger.note]
          split
          · refine Settles.report fun first => Settles.report fun second =>
              Settles.publish (.pure (hPost _ _ ?_))
            exact h.later ((hThinking.report first (.updatePublic after)).report second
              (.setSeatStatus seat .ready)) h.turns
          · exact hPlaying.failTurn_settles access seat _ _ hPost

/-- The loop ends with everything cleaned up exactly when it has seen a finished game. -/
theorem Playing.playRound_settles {post : Round → Ledger → AgentMatchManager → Prop}
    (access : CreatedGameAccess) (language : Language)
    (hServed : ∀ agent ∈ agentSeats participants, ∃ entry ∈ entries, entry.serves agent.2 = true)
    (hNodup : ((agentSeats participants).map (·.1)).Nodup) (hSome : agentSeats participants ≠ [])
    (h : Playing gameId entries participants agents l manager)
    (hAgain : ∀ l m, Playing gameId entries participants agents l m → post .again l m)
    (hEnded : ∀ l m, (CleanedUp gameId l m ↔ Orderly (agentSeats participants) l) → post .ended l m)
    (hPanicked : ∀ l m, post .panicked l m) :
    Settles referee gameId post (playRound access language agents) l manager := by
  obtain ⟨early, ⟨seat, harness⟩, hSplit⟩ : ∃ early last, agentSeats participants = early ++ [last] := by
    rcases List.eq_nil_or_concat (agentSeats participants) with hNone | ⟨early, last, hLast⟩
    · exact absurd hNone hSome
    · exact ⟨early, last, hLast.trans (List.concat_eq_append ..)⟩
  have hStarted : ∀ agent ∈ agentSeats participants, agent.1 ∈ l.started := fun agent hAgent =>
    h.started ▸ List.mem_map_of_mem hAgent
  have hLast : (seat, harness) ∈ agentSeats participants := by
    rw [hSplit]
    exact List.mem_append_right _ (List.mem_singleton_self _)
  obtain ⟨lifecycle, hStanding⟩ := h.standing
  refine Settles.look fun view => ?_
  cases view with
  | none =>
      refine Settles.report fun now => .pure (hEnded _ _ (iff_of_false (fun hClean => ?_) fun hOrderly => ?_))
      · have hOnce := (hClean.stopped seat (hStarted _ hLast)).1
        change l.terminated.count seat = 1 at hOnce
        rw [h.terminated] at hOnce
        cases hOnce
      · obtain ⟨_, other, _, hSame, -, -, hEnd⟩ := hOrderly.last
        obtain ⟨-, hOther⟩ := List.append_inj' (hSplit.symm.trans hSame) rfl
        cases hOther
        rcases hEnd with ⟨-, view, hView, hFinished⟩ | ⟨hNever, -⟩
        · rcases List.mem_append.mp hView with hOld | hNew
          · exact h.turns ⟨view, hOld, hFinished⟩
          · cases List.mem_singleton.mp hNew
        · exact hNever (hStarted _ hLast)
  | some view =>
      refine Settles.report fun now => ?_
      have hShown := hStanding.report now (.updatePublic view)
      by_cases hFinished : view.state.phase = .finished
      · rw [if_pos hFinished]
        rw [MatchUpdate.after, if_pos hFinished] at hShown
        refine Settles.bind (finishAgents_settles agents hShown fun m hAfter => .pure (hEnded _ _ ?_))
        rw [hAfter.cleanedUp, h.agents]
        refine iff_of_true ⟨fun other hOther => ?_, AgentMatchLifecycle.noConfusion⟩ ?_
        · have hOther : other ∈ (agentSeats participants).map (·.1) := h.started ▸ hOther
          change (l.terminated ++ _).count other = 1 ∧ (l.released ++ _).count other = 1
          rw [h.terminated, h.released, List.nil_append]
          exact ⟨List.count_eq_one_of_mem hNodup hOther, List.count_eq_one_of_mem hNodup hOther⟩
        · refine ⟨early, seat, harness, hSplit, ⟨entries, ?_, hServed _ hLast⟩, fun agent hAgent => ?_,
            .inl ⟨hStarted _ hLast, view, ?_, hFinished⟩⟩
          · change entries ∈ l.catalogs
            rw [h.catalogs]
            exact List.mem_singleton_self _
          · refine hStarted agent ?_
            rw [hSplit]
            exact List.mem_append_left _ hAgent
          · exact List.mem_append_right _ (List.mem_singleton_self _)
      · rw [if_neg hFinished]
        rw [MatchUpdate.after, if_neg hFinished] at hShown
        have hTurns : ¬ Finished (l.turns ++ [some view]) := by
          rintro ⟨other, hOther, hPhase⟩
          rcases List.mem_append.mp hOther with hOld | hNew
          · exact h.turns ⟨other, hOld, hPhase⟩
          · cases List.mem_singleton.mp hNew
            exact hFinished hPhase
        have hPlaying : Playing gameId entries participants agents
            (l.note (.look .turn) (some view)) (manager.update gameId now (.updatePublic view)) :=
          h.later hShown hTurns
        split
        · exact .pure (hPanicked _ _)
        · refine Settles.report fun later => Settles.sleep (.pure (hAgain _ _ ?_))
          exact hPlaying.later (hShown.report later (.setSeatStatus _ .waitingForHuman)) hTurns
        · exact hPlaying.playTurn_settles access language _ _ hAgain

theorem Playing.playLoop_settles {post : Option Unit → Ledger → AgentMatchManager → Prop}
    (access : CreatedGameAccess) (language : Language)
    (hServed : ∀ agent ∈ agentSeats participants, ∃ entry ∈ entries, entry.serves agent.2 = true)
    (hNodup : ((agentSeats participants).map (·.1)).Nodup) (hSome : agentSeats participants ≠ [])
    (rounds : Nat) (h : Playing gameId entries participants agents l manager)
    (hNone : ∀ l m, post none l m)
    (hEnded : ∀ l m, (CleanedUp gameId l m ↔ Orderly (agentSeats participants) l) →
      post (some ()) l m) :
    Settles referee gameId post (playLoop access language agents rounds) l manager := by
  induction rounds generalizing l manager with
  | zero => exact .pure (hNone _ _)
  | succ rounds ih =>
      exact Settles.bind (h.playRound_settles access language hServed hNodup hSome
        (fun _ _ hPlaying => ih hPlaying) (fun _ _ hClean => .pure (hEnded _ _ hClean))
        fun _ _ => .pure (hNone _ _))

end

/-! The whole run. -/

section

variable {World Input : Type} {referee : Referee World Input} {l : Ledger}
  {manager : AgentMatchManager}

/-- The manager as the creation of a match leaves it: an active match whose agents all
have a pending token. -/
structure Created (gameId : GameId) (seats : List AgentSeatSelection) (manager : AgentMatchManager) :
    Prop where
  valid : validateMatchSeats seats = .ok ()
  shown : ∃ language view createdAt,
    manager.status gameId = some (initialStatus gameId language view seats createdAt)
  pending : ∀ seat, (manager.capabilities.lookup (gameId, seat)).isSome = true ↔
    seat ∈ (agentSeats (Seat.all.zip seats)).map (·.1)

theorem numbered_zip (seats : List AgentSeatSelection) : Numbered (Seat.all.zip seats) := by
  intro i participant hParticipant
  obtain ⟨hSeat, -⟩ := List.getElem?_zip_eq_some.mp hParticipant
  match i with
  | 0 | 1 | 2 | 3 => rw [← Option.some.inj hSeat]; rfl
  | i + 4 => cases hSeat

theorem Created.bounds {gameId : GameId} {seats : List AgentSeatSelection}
    (h : Created gameId seats manager) : seats.length ≤ 4 ∧ agentSeats (Seat.all.zip seats) ≠ [] := by
  obtain ⟨_, hCount, hRest⟩ := bind_eq_ok.mp h.valid
  obtain ⟨_, hHumans, -⟩ := bind_eq_ok.mp hRest
  rw [reject_eq_ok, not_not] at hCount
  rw [reject_eq_ok, Nat.not_lt] at hHumans
  refine ⟨hCount.2, fun hNone => ?_⟩
  -- Without an agent there would be two humans or more.
  have hAll : seats.filter (·.isHuman) = seats := by
    refine List.filter_eq_self.mpr fun selection hSelection => ?_
    have hZip : (Seat.all.zip seats).map Prod.snd = seats := List.map_snd_zip hCount.2
    rw [← hZip] at hSelection
    obtain ⟨⟨seat, _⟩, hMem, rfl⟩ := List.mem_map.mp hSelection
    have hHuman := List.filterMap_eq_nil_iff.mp hNone _ hMem
    dsimp only at hHuman ⊢
    split at hHuman
    · cases hHuman
    · rename_i hSame
      cases hSame
      rfl
  rw [hAll] at hHumans
  omega

theorem participants_initial (gameId : GameId) (language : Language) (view : PublicProjection)
    (seats : List AgentSeatSelection) (createdAt : UnixMillis) (h : seats.length ≤ 4) :
    (initialStatus gameId language view seats createdAt).participants = Seat.all.zip seats ∧
      (initialStatus gameId language view seats createdAt).seats.length = seats.length := by
  have hParticipants : (initialStatus gameId language view seats createdAt).seats.map
      (·.participant) = seats := by
    match seats, h with
    | [], _ | [_], _ | [_, _], _ | [_, _, _], _ | [_, _, _, _], _ => rfl
  refine ⟨congrArg (Seat.all.zip ·) hParticipants, ?_⟩
  have hLength := congrArg List.length hParticipants
  rwa [List.length_map] at hLength

/-- The preparations keep what is pending, and a failed one ends the run. -/
theorem prepareAll_settles {gameId : GameId} {pending : List Seat}
    {post : Bool → Ledger → AgentMatchManager → Prop} (access : CreatedGameAccess)
    (preparations : List Preparation) (h : Standing gameId manager .active pending)
    (hOk : post true l manager)
    (hFailed : ∀ acts m lifecycle, Standing gameId m lifecycle pending →
      post false { l with acts := acts } m) :
    Settles referee gameId post (prepareAll access preparations) l manager := by
  induction preparations with
  | nil => exact .pure hOk
  | cons preparation rest ih =>
      refine Settles.prepare fun ok => ?_
      cases ok with
      | true => exact ih
      | false =>
          refine Settles.report fun now => Settles.bind ?_
          refine abortMatch_settles access _ (h.report now (.failAgents preparation.code))
            fun acts m hResigned => .pure ?_
          obtain ⟨lifecycle, hStanding, -⟩ := hResigned.standing
          exact hFailed _ m lifecycle hStanding

theorem runMatch_settles {post : Option Unit → Ledger → AgentMatchManager → Prop}
    (access : CreatedGameAccess) (spectatorCapability : String) (rounds : Nat)
    {seats : List AgentSeatSelection} (h : Created access.publicViewer.gameId seats manager)
    (hNone : ∀ l m, post none l m)
    (hSome : ∀ l m, (CleanedUp access.publicViewer.gameId l m ↔
      Orderly (agentSeats (Seat.all.zip seats)) l) → post (some ()) l m) :
    Settles referee access.publicViewer.gameId post (runMatch access spectatorCapability rounds)
      .empty manager := by
  obtain ⟨language, view, createdAt, hStatus⟩ := h.shown
  obtain ⟨hFour, hAgents⟩ := h.bounds
  have hStanding : Standing access.publicViewer.gameId manager .active
      ((agentSeats (Seat.all.zip seats)).map (·.1)) := ⟨⟨_, hStatus, rfl⟩, h.pending⟩
  refine Settles.status ?_
  rw [hStatus]
  refine Settles.bind (prepareAll_settles access _ hStanding ?_ fun acts m lifecycle hKept => .pure ?_)
  · refine Settles.catalog fun entries => Settles.bind ?_
    rw [(participants_initial _ language view seats createdAt hFour).1,
      (participants_initial _ language view seats createdAt hFour).2]
    refine @startSeats_settles _ _ _ _ _ _ entries [] _ _ _ access
      ⟨hStanding, rfl, ?_, numbered_zip seats, fun _ hNever => absurd hNever List.not_mem_nil⟩
      (fun l m hClean => .pure (hSome l m hClean)) fun agents l m hStarting => ?_
    · rw [List.map_nil, List.nil_append, List.map_const', List.length_zip]
      exact congrArg (List.replicate · none) (Nat.min_eq_right hFour).symm
    · exact hStarting.playing.playLoop_settles access language hStarting.served
        (numbered_zip seats).nodup hAgents rounds hNone hSome
  · -- Nothing was listed, and all tokens are pending.
    refine hSome _ m (iff_of_false (fun hClean => ?_) fun hOrderly => ?_)
    · exact hAgents (List.map_eq_nil_iff.mp (hClean.none_pending hKept))
    · obtain ⟨_, _, _, -, ⟨entries, hListed, -⟩, -⟩ := hOrderly.last
      exact absurd hListed List.not_mem_nil

end

/-- A run that returns has cleaned up exactly when it was orderly. -/
theorem runner_cleans_up {World Input : Type} (referee : Referee World Input)
    (access : CreatedGameAccess) (spectatorCapability : String) (rounds : Nat)
    (seats : List AgentSeatSelection) (s : HostState World) (inputs : Nat → HostInput Input)
    (hCreated : Created access.publicViewer.gameId seats s.manager)
    (hReturned : ((runMatch access spectatorCapability rounds).alone
      (host referee access.publicViewer.gameId) inputs s).1 = some ()) :
    CleanedUp access.publicViewer.gameId
      (ledger ((runMatch access spectatorCapability rounds).trace
        (host referee access.publicViewer.gameId) inputs s))
      ((runMatch access spectatorCapability rounds).alone
        (host referee access.publicViewer.gameId) inputs s).2.manager ↔
    Orderly (agentSeats (Seat.all.zip seats))
      (ledger ((runMatch access spectatorCapability rounds).trace
        (host referee access.publicViewer.gameId) inputs s)) := by
  have hSettles := @runMatch_settles _ _ referee _ (fun result l m => result = some () →
    (CleanedUp access.publicViewer.gameId l m ↔ Orderly (agentSeats (Seat.all.zip seats)) l))
    access spectatorCapability rounds seats hCreated (fun _ _ hNever => by cases hNever)
    fun _ _ hClean _ => hClean
  exact ((hSettles [] s rfl rfl).run inputs fun _ _ _ _ => trivial).2 hReturned

/-! A match of Codex against a human. -/

def hookView (phase : GamePhase) : PublicProjection where
  schemaVersion := projectionSchemaVersion
  state := {
    gameId := hookId.asStr
    rulesetId := .englishV1
    ruleset := ⟨1, .englishV1, ""⟩
    lexicon := ⟨"", "", 1, "en", ⟨"", 1, ""⟩, ""⟩
    mode := .practice
    rngAlgorithm := .xoshiro256StarStarV1
    seedCommitment := ⟨.xoshiro256StarStarV1, ""⟩
    board := []
    scores := [.zero, .zero]
    currentPlayer := .one
    version := 0
    scorelessTurns := 0
    rackCounts := [7, 7]
    bagCount := 86
    phase := phase
    result := none }
  events := []

def hookManager : AgentMatchManager :=
  (AgentMatchManager.empty.insert (initialStatus hookId .english (hookView .active) hookMatch.seats
    0)).registerAgentCapability hookId .one ⟨"codex", seatCapabilityLifetimeMs⟩

theorem hookManager_created : Created hookId hookMatch.seats hookManager where
  valid := by decide +kernel
  shown := ⟨.english, hookView .active, 0, by decide +kernel⟩
  pending seat := by cases seat <;> decide +kernel

/-- A service that shows one view and accepts nothing. -/
def showing (view : Option PublicProjection) : Referee Unit Unit where
  look _ world _ := (view, world)
  act _ world _ _ := (none, world)

def hookInputs (succeeds : Bool) (_ : Nat) : HostInput Unit := ⟨0, succeeds, hookCatalog, ()⟩

def hookAccess : CreatedGameAccess := .new hookId 2

/-- A game that is over when the agent is ready is left clean. -/
theorem hook_cleans_up : CleanedUp hookId
    (ledger ((runMatch hookAccess "spectator" 1).trace
      (host (showing (some (hookView .finished))) hookId) (hookInputs true) ⟨hookManager, ()⟩))
    ((runMatch hookAccess "spectator" 1).alone
      (host (showing (some (hookView .finished))) hookId) (hookInputs true) ⟨hookManager, ()⟩).2.manager := by
  have hLedger : ledger ((runMatch hookAccess "spectator" 1).trace
      (host (showing (some (hookView .finished))) hookId) (hookInputs true) ⟨hookManager, ()⟩) =
      ⟨[.one], [.one], [.one], [hookCatalog], [some (hookView .finished)], []⟩ := by
    decide +kernel
  refine (runner_cleans_up (showing (some (hookView .finished))) hookAccess "spectator" 1
    hookMatch.seats ⟨hookManager, ()⟩ (hookInputs true) hookManager_created (by decide +kernel)).mpr ?_
  rw [show hookAccess.publicViewer.gameId = hookId from rfl, hLedger]
  exact ⟨[], .one, .codex, rfl, ⟨hookCatalog, List.mem_singleton_self _, by decide⟩,
    fun _ hNever => absurd hNever List.not_mem_nil,
    .inl ⟨List.mem_singleton_self _, hookView .finished, List.mem_singleton_self _, rfl⟩⟩

/-- A sandbox that is missing leaves the token of the agent behind. -/
theorem sandbox_keeps_token : ¬ ∀ (World Input : Type) (referee : Referee World Input)
    (access : CreatedGameAccess) (spectatorCapability : String) (rounds : Nat)
    (seats : List AgentSeatSelection) (s : HostState World) (inputs : Nat → HostInput Input),
    Created access.publicViewer.gameId seats s.manager →
    ((runMatch access spectatorCapability rounds).alone
      (host referee access.publicViewer.gameId) inputs s).1 = some () →
    CleanedUp access.publicViewer.gameId
      (ledger ((runMatch access spectatorCapability rounds).trace
        (host referee access.publicViewer.gameId) inputs s))
      ((runMatch access spectatorCapability rounds).alone
        (host referee access.publicViewer.gameId) inputs s).2.manager := by
  intro h
  have hClean := h Unit Unit (showing none) hookAccess "spectator" 0 hookMatch.seats
    ⟨hookManager, ()⟩ (hookInputs false) hookManager_created (by decide +kernel)
  exact absurd (hClean.taken .one) (by decide +kernel)

end WordArena.Server
