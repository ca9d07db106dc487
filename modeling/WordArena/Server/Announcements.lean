import WordArena.Server.Handlers
import WordArena.Service.Sweep

/-! Which committed moves are announced. A REST action announces what it returns
as accepted, the deadline worker what a whole batch returns, and an MCP action
tells MCP sessions only. -/
namespace WordArena.Server

open Fallible WordArena.Engine WordArena.Lexicon WordArena.Application WordArena.Service

/-! What a use case reports of its own commits. -/

theorem resolvedCommand_reads {event : ServiceEvent} (h : event.request.Reads) :
    resolvedCommand event = none := by
  obtain ⟨before, input, request, response⟩ := event
  cases request with
  | commitAction commit => exact absurd h id
  | _ => rfl

theorem resolvedCommand_stored (before : Store) (input : Input) (commit : ActionCommit) :
    resolvedCommand ⟨before, input, .commitAction commit, (.ok () : Except RepositoryError Unit)⟩ =
      commit.successor.map fun _ => ⟨commit.idempotency.gameId, commit.expectedVersion⟩ := by
  cases hSuccessor : commit.successor <;> simp only [resolvedCommand, hSuccessor] <;> rfl

theorem resolvedCommand_refused (before : Store) (input : Input) (commit : ActionCommit)
    (error : RepositoryError) : resolvedCommand ⟨before, input, .commitAction commit,
      (.error error : Except RepositoryError Unit)⟩ = none := by
  cases hSuccessor : commit.successor <;> simp only [resolvedCommand, hSuccessor]

/-- Events that move no game. -/
def Still (log : Log) : Prop :=
  ∀ event ∈ log, resolvedCommand event = none

theorem Still.append {log more : Log} (h : Still log) (h' : Still more) : Still (log ++ more) := by
  intro event hEvent
  rcases List.mem_append.mp hEvent with hOld | hNew
  · exact h event hOld
  · exact h' event hNew

theorem Still.one {event : ServiceEvent} (h : resolvedCommand event = none) : Still [event] := by
  intro other hOther
  rw [List.mem_singleton.mp hOther]
  exact h

theorem Still.read {event : ServiceEvent} (h : event.request.Reads) : Still [event] :=
  .one (resolvedCommand_reads h)

/-- An accepted result speaks of the only move that was made, and an error comes
without any. -/
def Reported (gameId : GameId) (expected : UInt64)
    (result : Except ApplicationError GameActionResult) (log : Log) : Prop :=
  match result with
  | .ok accepted => ∀ event ∈ log, ∀ command, resolvedCommand event = some command →
      command = ⟨gameId, expected⟩ ∧
        accepted.game.publicView.state.version.toNat = expected.toNat + 1
  | .error _ => Still log

theorem Reported.still {gameId : GameId} {expected : UInt64} {log : Log} (h : Still log)
    (result : Except ApplicationError GameActionResult) : Reported gameId expected result log := by
  cases result with
  | error error => exact h
  | ok accepted =>
      intro event hEvent command hSome
      rw [h event hEvent] at hSome
      cases hSome

theorem Reported.later {gameId : GameId} {expected : UInt64} {log more : Log}
    {result : Except ApplicationError GameActionResult} (hStill : Still log)
    (h : Reported gameId expected result more) : Reported gameId expected result (log ++ more) := by
  cases result with
  | error error => exact hStill.append h
  | ok accepted =>
      intro event hEvent command hSome
      rcases List.mem_append.mp hEvent with hOld | hNew
      · rw [hStill event hOld] at hSome
        cases hSome
      · exact h event hNew command hSome

/-- A rejected action whose commit moves the game all the same. -/
def Forced (event : ServiceEvent) : Prop :=
  ∃ commit rejection, event.request = .commitAction commit ∧
    commit.idempotency.outcome = .rejected rejection ∧ resolvedCommand event ≠ none

section

variable {inst : Installation} {p : ServicePromise (Except ApplicationError GameActionResult)}
  {log : Log} {s : Store} {id : CommandIdentity} {expected : UInt64} {seat : Seat} {action : Move}

/-- Attempts whose outcome tells what their commit does. -/
def Attempt.Frank (expected : UInt64) (attempt : Attempt) : Prop :=
  attempt.successor = none ∨ ∃ result, attempt.outcome = .accepted result ∧
    result.game.publicView.state.version.toNat = expected.toNat + 1

theorem Keeps.reportCommit {committedAt : UnixMillis} {attempt : Attempt}
    (hOwn : ∀ event u, p.own event u)
    (hPost : ∀ result more t, Reported id.gameId expected result more →
      p.post result (log ++ more) t)
    (hSincere : Sincere inst s (actionCommit id expected committedAt attempt))
    (hFrank : ∀ t input, p.may log ⟨t, input,
      .commitAction (actionCommit id expected committedAt attempt),
        (.ok () : Except RepositoryError Unit)⟩ → Attempt.Frank expected attempt) :
    Keeps inst p (commitAttempted id expected committedAt attempt) log s := by
  refine Keeps.commitAttempted (fun event _ => hOwn event event.before) hSincere ?_ ?_ ?_
  · intro t input u record next _ _ _ _ _ hMay
    refine ⟨hOwn _ u, fun w _ _ => hPost _ _ w ?_⟩
    rcases hFrank t input hMay with hNone | ⟨result, hOutcome, hVersion⟩
    · refine .still (.one ?_) _
      rw [resolvedCommand_stored]
      exact congrArg (Option.map _) hNone
    · rw [hOutcome]
      intro event hEvent command hSome
      rw [List.mem_singleton.mp hEvent, resolvedCommand_stored] at hSome
      obtain ⟨successor, -, rfl⟩ := Option.map_eq_some_iff.mp hSome
      exact ⟨rfl, hVersion⟩
  · intro t input error _ _ _ _ _ w _ _
    exact hPost _ _ w (.still (.one (resolvedCommand_refused _ _ _ _)) _)
  · intro t input u input' lookup _ _ _ _ _ _ _ _ w _ _
    rw [List.append_assoc]
    exact hPost _ _ w (.still ((Still.one (resolvedCommand_refused _ _ _ _)).append
      (.read (by trivial))) _)

/-- Deciding an action, unless it forces a move. -/
theorem Keeps.reportAction {countInvalid : Bool} (hOwn : ∀ event u, p.own event u)
    (hForced : countInvalid = true → ∀ log event, p.may log event → ¬ Forced event)
    (hPost : ∀ result more t, Reported id.gameId expected result more →
      p.post result (log ++ more) t) :
    Keeps inst p (executeAction inst id expected seat action countInvalid) log s := by
  have hIdle : Idles p := fun event _ => hOwn event event.before
  refine Keeps.executeAction hIdle (fun t _ _ _ _ _ u _ _ => hPost _ _ u (.still (.read (by trivial)) _)) ?_
  intro t input u clock record past g stored _ _ _ _ _ _ _ _ _ hBasis hWord
  have hReads : ∀ result more w, Reported id.gameId expected result more → p.post result (log ++
      [⟨t, input, .load id.gameId, (.ok stored : Except RepositoryError StoredGame)⟩] ++
      [⟨u, clock, .now, (clock.clock.toInt : UnixMillis)⟩] ++ more) w := by
    intro result more w hReported
    have hFront : Still
        ([⟨t, input, .load id.gameId, (.ok stored : Except RepositoryError StoredGame)⟩] ++
        [⟨u, clock, .now, (clock.clock.toInt : UnixMillis)⟩]) :=
      (Still.read (by trivial)).append (.read (by trivial))
    have hAll := hPost result _ w (hReported.later hFront)
    simpa only [List.append_assoc] using hAll
  refine Keeps.attempt hIdle (fun next event hMove => ?_) (fun error hError _ => ?_)
    (fun hTrue error prior attempt look v hLook hAttempt _ hv _ => ?_)
    fun _ error _ look w hLook => hReads _ _ w (.still (.read hLook) _)
  · obtain ⟨rfl, hAccepted⟩ := applyMove_eq_ok.mp hMove
    exact Keeps.reportCommit hOwn hReads (hBasis.accepted hMove hWord)
      fun _ _ _ => .inr ⟨_, rfl, hAccepted.version⟩
  · exact Keeps.reportCommit hOwn hReads (.stay rfl ⟨rejectionFromEngine inst.quote error, rfl⟩)
      fun _ _ _ => .inl rfl
  · obtain ⟨hSincere, hOutcome⟩ := (hBasis.later hv).counted hWord hAttempt
    refine Keeps.reportCommit hOwn (fun result more w hReported => ?_) hSincere fun w input hMay => ?_
    · have hAll := hReads result _ w (hReported.later (.read hLook))
      simpa only [List.append_assoc] using hAll
    · by_contra hNot
      refine hForced hTrue _ _ hMay ⟨_, _, rfl, hOutcome, fun hNone => hNot (.inl ?_)⟩
      rw [resolvedCommand_stored] at hNone
      exact Option.map_eq_none_iff.mp hNone

/-- A first lookup, and what follows when it finds nothing. -/
theorem Keeps.reportLookup (id : CommandIdentity) {task : Service.Task GameActionResult}
    (hOwn : ∀ event u, p.own event u)
    (hPost : ∀ result more t, Reported id.gameId expected result more →
      p.post result (log ++ more) t)
    (hTask : ∀ look t, look.request.Reads → Grows s t → Sane inst t →
      Keeps inst p task (log ++ [look]) t) :
    Keeps inst p (cachedOutcome id.gameId id.keyDigest id.payloadSha256 >>= fun
      | some result => Service.settle result
      | none => task) log s := by
  refine Keeps.cached id (fun event _ => hOwn event event.before)
    fun t ht hSane input lookup _ _ => ?_
  cases hReply : lookupReply lookup with
  | none => exact hTask _ t trivial ht hSane
  | some result => exact Keeps.settle fun u _ _ => hPost _ _ u (.still (.read (by trivial)) _)

theorem Keeps.reportAct {credential : CompetitiveSeatCredential} {command : GameActionCommand}
    (hOwn : ∀ event u, p.own event u) (hForced : ∀ log event, p.may log event → ¬ Forced event)
    (hPost : ∀ result more t, Reported command.gameId command.expectedVersion result more →
      p.post result (log ++ more) t) :
    Keeps inst p (act inst credential command) log s := by
  refine Keeps.cases (fun _ _ => ?_) fun error _ t _ _ => ?_
  · refine Keeps.reportLookup (command.identity inst.platform) hOwn hPost
      fun look t hLook _ _ => ?_
    refine Keeps.reportAction hOwn (fun _ => hForced) fun result more u hReported => ?_
    rw [List.append_assoc]
    exact hPost _ _ u (hReported.later (.read hLook))
  · have hNothing := hPost (.error error) [] t
      (.still (fun _ hEvent => absurd hEvent List.not_mem_nil) _)
    rwa [List.append_nil] at hNothing

/-- A timeout never forces a move against its own reply. -/
theorem Keeps.reportTimeout {command : TimeoutCommand} (hOwn : ∀ event u, p.own event u)
    (hPost : ∀ result more t, Reported command.gameId command.expectedVersion result more →
      p.post result (log ++ more) t) :
    Keeps inst p (resolveTimeout inst command) log s := by
  have hIdle : Idles p := fun event _ => hOwn event event.before
  have hStill : ∀ more : Log, Still more → ∀ result t, p.post result (log ++ more) t :=
    fun more h result t => hPost result more t (.still h result)
  refine Keeps.cases (fun key _ => ?_) fun error _ t _ _ => ?_
  · refine Keeps.reportLookup (command.identity inst key) hOwn hPost fun look t hLook _ _ => ?_
    refine Keeps.load hIdle (fun t _ _ _ _ _ u _ _ => ?_) fun t _ _ input record past g stored _ _ _ _ => ?_
    · rw [List.append_assoc]
      exact hStill _ ((Still.read hLook).append (.read (by trivial))) _ u
    · refine Keeps.due hIdle (fun more hNow v => ?_) fun deadline v clock _ _ _ _ _ _ => ?_
      · rw [List.append_assoc, List.append_assoc]
        refine hStill _ ((Still.read hLook).append ((Still.read (by trivial)).append ?_)) _ v
        intro event hEvent
        refine resolvedCommand_reads ?_
        rw [hNow event hEvent]
        trivial
      · refine Keeps.reportAction hOwn (fun hTrue => by cases hTrue) fun result more u hReported => ?_
        rw [List.append_assoc, List.append_assoc, List.append_assoc]
        exact hPost _ _ u (((hReported.later (.read (by trivial))).later
          (.read (by trivial))).later (.read hLook))
  · have hNothing := hStill [] (fun _ hEvent => absurd hEvent List.not_mem_nil) (.error error) t
    rwa [List.append_nil] at hNothing

end

/-! What a sweep reports. -/

/-- A sweep that has committed a move goes on unhindered. -/
def Undisturbed (log : Log) (event : ServiceEvent) : Prop :=
  ¬ Still log → Unhindered log event

/-- A sweep returns every move it has made, and fails only without any. -/
def SweepReported (result : Except ApplicationError (List TimeoutCommand)) (log : Log) : Prop :=
  match result with
  | .ok committed => ∀ event ∈ log, ∀ command, resolvedCommand event = some command →
      command ∈ committed
  | .error _ => Still log

/-- One command ends with at most its own commit, and when a commit was made
before, an error is a lost race. -/
def RoundReported (command : TimeoutCommand) (start : Log)
    (result : Except ApplicationError GameActionResult) (log : Log) : Prop :=
  ∃ more, log = start ++ more ∧ match result with
    | .ok _ => ∀ event ∈ more, ∀ other, resolvedCommand event = some other → other = command
    | .error error => Still more ∧ (¬ Still start → error.isRace = true)

section

variable {inst : Installation} {log : Log} {s : Store}

theorem RoundReported.first {command : TimeoutCommand} {more : Log}
    {result : Except ApplicationError GameActionResult} (hStill : Still log)
    (h : Reported command.gameId command.expectedVersion result more) :
    RoundReported command log result (log ++ more) := by
  refine ⟨more, rfl, ?_⟩
  cases result with
  | error error => exact ⟨h, fun hMoved => absurd hStill hMoved⟩
  | ok accepted => exact fun event hEvent other hSome => (h event hEvent other hSome).1

theorem RoundReported.unhindered {command : TimeoutCommand} {more : Log}
    {result : Except ApplicationError GameActionResult} (h : RoundEnd inst command log result more) :
    RoundReported command log result more := by
  obtain ⟨rest, rfl, hResult⟩ := h
  refine ⟨rest, rfl, ?_⟩
  cases result with
  | error error => exact ⟨List.filterMap_eq_nil_iff.mp hResult.2.collected.symm, fun _ => hResult.1⟩
  | ok accepted =>
      intro event hEvent other hSome
      have hCollected := List.mem_filterMap.mpr ⟨event, hEvent, hSome⟩
      rw [← hResult.collected] at hCollected
      exact List.mem_singleton.mp hCollected

theorem Keeps.reportRound {p : ServicePromise (Except ApplicationError GameActionResult)}
    {command : TimeoutCommand} (hOwn : ∀ event u, p.own event u) (hMay : p.may = Undisturbed)
    (hPost : ∀ result log' t, RoundReported command log result log' → p.post result log' t)
    (hExists : ∃ record, s.game command.gameId = some record) :
    Keeps inst p (resolveTimeout inst command) log s := by
  by_cases hStill : Still log
  · exact Keeps.reportTimeout hOwn fun result more t hReported =>
      hPost _ _ t (.first hStill hReported)
  · have hRound : Keeps inst { p with may := Unhindered } (resolveTimeout inst command) log s :=
      Keeps.round hOwn rfl (fun _ _ t hEnd => hPost _ _ t (.unhindered hEnd)) hExists
    refine Meets.mono hRound (fun _ _ hOwned => hOwned) (fun more event hPermitted => ?_)
      fun _ _ _ _ hEnd => hEnd
    rw [hMay] at hPermitted
    exact hPermitted fun hAll => hStill fun e he => hAll e (List.mem_append_left _ he)

/-- Where a sweep stands: what it has collected holds all its moves, and the
games of the rest are there. -/
def Gathering (rest committed : List TimeoutCommand) (log : Log) (s : Store) : Prop :=
  SweepReported (.ok committed) log ∧
    ∀ command ∈ rest, ∃ record, s.game command.gameId = some record

theorem Gathering.next {command : TimeoutCommand} {rest committed collected : List TimeoutCommand}
    {log more : Log} {s t : Store} (h : Gathering (command :: rest) committed log s)
    (hGrows : Grows s t) (hKept : ∀ other ∈ committed, other ∈ collected)
    (hMore : ∀ event ∈ more, ∀ other, resolvedCommand event = some other → other ∈ collected) :
    Gathering rest collected (log ++ more) t := by
  refine ⟨fun event hEvent other hSome => ?_, fun other hOther => ?_⟩
  · rcases List.mem_append.mp hEvent with hOld | hNew
    · exact hKept other (h.1 event hOld other hSome)
    · exact hMore event hNew other hSome
  · obtain ⟨record, hRecord⟩ := h.2 other (List.mem_cons_of_mem _ hOther)
    obtain ⟨new, hNew, -⟩ := hGrows.games other.gameId record hRecord
    exact ⟨new, hNew⟩

theorem Keeps.reportSweep {p : ServicePromise (Except ApplicationError (List TimeoutCommand))}
    {limit : UInt32} (hOwn : ∀ event u, p.own event u) (hMay : p.may = Undisturbed)
    (hPost : ∀ result log t, SweepReported result log → p.post result log t) :
    Keeps inst p (resolveDueTimeouts inst limit) [] s := by
  have hIdle : Idles p := fun event _ => hOwn event event.before
  refine Keeps.read hIdle trivial (fun _ _ => rfl) fun t _ _ clock _ => ?_
  refine Keeps.read hIdle trivial (fun _ _ => rfl) fun u _ hSane input _ => ?_
  have hStart : Still (([⟨t, clock, .now, (clock.clock.toInt : UnixMillis)⟩] : Log) ++
      [⟨u, input, .dueTimeouts clock.clock.toInt limit,
        (dueTimeouts u clock.clock.toInt limit : List TimeoutCommand)⟩]) :=
    (Still.read (by trivial)).append (.read (by trivial))
  refine Keeps.foldlM Gathering ?_ (fun committed log _ w hDone _ => hPost _ _ w hDone.1) hSane
    ⟨fun event hEvent command hSome => ?_, fun command hCommand => mem_dueTimeouts_game hCommand⟩
  · intro command rest committed log v hv hGathering
    have hRound : Keeps inst (p.ending fun result log' _ => RoundReported command log result log')
        (resolveTimeout inst command) log v :=
      Keeps.reportRound (fun _ _ => hOwn _ _) hMay (fun _ _ _ hEnd => hEnd)
        (hGathering.2 command List.mem_cons_self)
    refine Keeps.observe hv ((Meets.grown hRound).weaken fun result log' w _ hEnd => ?_)
    obtain ⟨hGrows, more, rfl, hResult⟩ := hEnd
    cases result with
    | ok accepted =>
        refine Keeps.settle fun x hx _ => hGathering.next (hGrows.trans hx)
          (fun _ hOther => List.mem_append_left _ hOther) fun event hEvent other hSome => ?_
        rw [hResult event hEvent other hSome]
        exact List.mem_append_right _ (List.mem_singleton_self _)
    | error error =>
        change Keeps inst _ (if error.isRace = true then Service.settle (.ok committed)
          else Service.settle (.error error)) _ w
        by_cases hRace : error.isRace = true
        · rw [if_pos hRace]
          refine Keeps.settle fun x hx _ => hGathering.next (hGrows.trans hx)
            (fun _ hOther => hOther) fun event hEvent other hSome => ?_
          rw [hResult.1 event hEvent] at hSome
          cases hSome
        · rw [if_neg hRace]
          have hStill : Still log := not_not.mp fun hMoved => hRace (hResult.2 hMoved)
          exact Keeps.settle fun _ _ _ y _ _ => hPost _ _ y (hStill.append hResult.1)
  · rw [hStart event hEvent] at hSome
    cases hSome

end

/-! What the entry points announce. -/

/-- Every move of a log is announced: some invalidation has at least its version,
and the MCP subscriptions of its game were notified. -/
def Announced (answer : Answer) (log : Log) : Prop :=
  ∀ event ∈ log, ∀ command, resolvedCommand event = some command →
    (∃ marker ∈ answer.published, marker.gameId = command.gameId ∧
      saturatingNext command.expectedVersion ≤ marker.version) ∧ command.gameId ∈ answer.notified

theorem Announced.still {answer : Answer} {log : Log} (h : Still log) : Announced answer log := by
  intro event hEvent command hSome
  rw [h event hEvent] at hSome
  cases hSome

theorem eq_saturatingNext {version expected : UInt64} (h : version.toNat = expected.toNat + 1) :
    version = saturatingNext expected := by
  have hWord := version.toNat_lt
  refine UInt64.toNat_inj.mp ?_
  rw [saturatingNext, Nat.min_eq_left (by omega), UInt64.toNat_ofNat_of_lt' (h ▸ hWord), h]

theorem gameActionAnswer_announced {gameId : GameId} {expected : UInt64}
    {result : Except ApplicationError GameActionResult} {log : Log}
    (h : Reported gameId expected result log) : Announced (gameActionAnswer gameId result) log := by
  cases result with
  | error error => exact .still h
  | ok accepted =>
      intro event hEvent command hSome
      obtain ⟨rfl, hVersion⟩ := h event hEvent command hSome
      refine ⟨⟨_, List.mem_singleton_self _, rfl, ?_⟩, List.mem_singleton_self _⟩
      rw [← eq_saturatingNext hVersion]
      exact UInt64.le_refl _

theorem deadlineAnswer_announced {result : Except ApplicationError (List TimeoutCommand)} {log : Log}
    (h : SweepReported result log) : Announced (deadlineAnswer result) log := by
  cases result with
  | error error => exact .still h
  | ok committed =>
      intro event hEvent command hSome
      have hCommitted : command ∈ committed := h event hEvent command hSome
      exact ⟨⟨_, List.mem_map_of_mem hCommitted, rfl, UInt64.le_refl _⟩,
        List.mem_map_of_mem hCommitted⟩

/-- What keeps an entry point from committing a move that it does not announce.
A REST action must not force a move against its rejection, an MCP action must
not move its game at all, and a batch that has moved a game must go on
unhindered. -/
def Entry.Heeds : Entry → Log → ServiceEvent → Prop
  | .create _, _, _ => True
  | .gameAction _ _ _, _, event => ¬ Forced event
  | .mcpAct _ _ _, _, event => resolvedCommand event = none
  | .deadlineBatch, log, event => Undisturbed log event

/-- One step of a run that heeds this. -/
def Heard (inst : Installation) (pool : ServerPool) : ServerAction → Prop
  | .start _ => True
  | .advance i input => ∀ entry log request next,
      pool.threads[i]? = some ⟨entry, log, .query request next⟩ →
        entry.Heeds log ⟨pool.store, input, request, (perform inst input pool.store request).1⟩

/-- A promise about what is announced. -/
def announcing (entry : Entry) : ServicePromise Answer where
  own _ _ := True
  may := entry.Heeds
  post answer log _ := Announced answer log

/-- Steps that leave the games alone, add one, or commit one. -/
def Commences (inst : Installation) (event : ServiceEvent) (u : Store) : Prop :=
  Quiet event ∧ u = event.before ∨ (∃ command, Opens inst command event u) ∨
    ∃ id expected seat countInvalid, Issued id expected seat countInvalid event u

/-- A promise about what is written. -/
def writing (inst : Installation) : ServicePromise Answer where
  own := Commences inst
  may _ _ := True
  post _ _ _ := True

section

variable {inst : Installation} {s : Store}

/-- No event of a creation moves a game. -/
theorem Keeps.createStill (command : CreateGameCommand) :
    Keeps inst ⟨fun _ _ => True, fun _ _ => True, fun _ log _ => Still log⟩ (createGame inst command)
      [] s := by
  have hOwn : Keeps inst ⟨fun event _ => resolvedCommand event = none, fun _ _ => True,
      fun _ _ _ => True⟩ (createGame inst command) [] s := by
    refine Keeps.createGame (fun event hQuiet => ?_) (fun event u hOpens => ?_)
      fun _ _ _ _ => trivial
    · rcases hQuiet with hReads | ⟨_, _, _, _, rfl⟩ | ⟨_, _, _, _, _, rfl⟩
      · exact resolvedCommand_reads hReads
      · exact resolvedCommand_refused _ _ _ _
      · rfl
    · obtain ⟨_, _, _, _, _, hEvent, -⟩ := hOpens
      rw [hEvent]
      rfl
  refine (Meets.recorded hOwn fun _ hEvent => absurd hEvent List.not_mem_nil).mono
    (fun _ _ _ => trivial) (fun _ _ _ => trivial) fun _ _ _ _ hAll event hEvent => ?_
  exact (hAll.2 event hEvent).own

theorem handle_writes (entry : Entry) (h : Sane inst s) :
    Meets (repository inst) (discipline inst) (writing inst) (handle inst entry) [] s := by
  cases entry with
  | create command =>
      exact Meets.bind h (Keeps.createGame (fun _ hQuiet => .inl ⟨hQuiet, rfl⟩)
        (fun _ _ hOpens => .inr (.inl ⟨command, hOpens⟩)) fun _ _ _ _ _ _ _ => trivial)
  | gameAction gameId credential request =>
      exact Meets.bind h (Keeps.act (fun _ hQuiet => .inl ⟨hQuiet, rfl⟩)
        (fun _ _ hIssued => .inr (.inr ⟨_, _, _, _, hIssued⟩)) fun _ _ _ _ _ _ _ => trivial)
  | mcpAct credential input action =>
      change Meets _ _ _ (mcpAct inst credential input action) [] s
      unfold mcpAct
      split
      · exact fun _ _ _ => trivial
      · exact Meets.bind h (Keeps.act (fun _ hQuiet => .inl ⟨hQuiet, rfl⟩)
          (fun _ _ hIssued => .inr (.inr ⟨_, _, _, _, hIssued⟩)) fun _ _ _ _ _ _ _ => trivial)
  | deadlineBatch =>
      exact Meets.bind h (Keeps.resolveDueTimeouts (fun _ hQuiet => .inl ⟨hQuiet, rfl⟩)
        (fun _ _ ⟨_, _, _, hIssued⟩ => .inr (.inr ⟨_, _, _, _, hIssued⟩)) fun _ _ _ _ _ _ => trivial)

theorem handle_announces (entry : Entry) (h : Sane inst s) :
    Meets (repository inst) (discipline inst) (announcing entry) (handle inst entry) [] s := by
  cases entry with
  | create command =>
      exact Meets.bind h ((Keeps.createStill command).mono (fun _ _ _ => trivial)
        (fun _ _ _ => trivial) fun _ _ _ _ hStill _ _ _ => .still hStill)
  | gameAction gameId credential request =>
      refine Meets.bind h (Keeps.reportAct (fun _ _ => trivial) (fun _ _ hHeeds => hHeeds)
        fun result more t hReported u _ _ => ?_)
      exact gameActionAnswer_announced hReported
  | mcpAct credential input action =>
      -- Whatever it does, no event that is considered moves a game.
      have hHeeding : Meets (repository inst) (discipline inst)
          { writing inst with may := (Entry.mcpAct credential input action).Heeds }
          (handle inst (.mcpAct credential input action)) [] s :=
        (handle_writes _ h).mono (fun _ _ hOwn => hOwn) (fun _ _ _ => trivial)
          fun _ _ _ _ _ => trivial
      refine (hHeeding.recorded fun _ hEvent => absurd hEvent List.not_mem_nil).mono
        (fun _ _ _ => trivial) (fun _ _ hMay => hMay) fun _ _ _ _ hAll => ?_
      exact .still fun event hEvent => (hAll.2 event hEvent).may.elim fun _ hMay => hMay
  | deadlineBatch =>
      refine Meets.bind h (Keeps.reportSweep (fun _ _ => trivial) rfl
        fun result log t hReported u _ _ => ?_)
      exact deadlineAnswer_announced hReported

/-- A request that has advanced the stored version of a game. -/
def Advances (inst : Installation) (event : ServiceEvent) (gameId : GameId) (version : UInt64) :
    Prop :=
  ∃ record next, event.before.game gameId = some record ∧
    (perform inst event.input event.before event.request).2.game gameId = some next ∧
    record.version < next.version ∧ next.version = version

theorem commits_advanced {commit : ActionCommit} {record next : GameRecord}
    (h : Commits commit record next) (hLess : record.version < next.version) :
    commit.successor ≠ none ∧ next.version.toNat = commit.expectedVersion.toNat + 1 := by
  obtain ⟨hProgress, -, -, -⟩ := h
  cases hProgress with
  | stay _ => exact absurd hLess (UInt64.lt_irrefl _)
  | advance hSuccessor hReplaces =>
      refine ⟨by rw [hSuccessor]; exact Option.some_ne_none _, hReplaces.version⟩

/-- A request that advances a game is the commit of the next version. -/
theorem Advances.resolved {event : ServiceEvent} {gameId : GameId} {version : UInt64}
    (h : Advances inst event gameId version) (hCovers : (writing inst).Covers (repository inst) event) :
    ∃ expected, resolvedCommand event = some ⟨gameId, expected⟩ ∧
      version = saturatingNext expected := by
  obtain ⟨record, next, hRecord, hNext, hLess, rfl⟩ := h
  have hOther : ∀ u : Store, (perform inst event.input event.before event.request).2 = u →
      u.game gameId = some record → False := by
    rintro u rfl hSame
    rw [hSame, Option.some.injEq] at hNext
    subst hNext
    exact UInt64.lt_irrefl _ hLess
  rcases hCovers.own with ⟨-, hStore⟩ | ⟨command, hOpens⟩ | ⟨id, expected, seat, counts, hIssued⟩
  · exact absurd hRecord (hOther event.before hStore)
  · obtain ⟨_, created, _, _, _, _, hInserts, -⟩ := hOpens
    have hGames : (perform inst event.input event.before event.request).2.games = _ := hInserts.games
    refine (hOther _ rfl ?_).elim
    rw [Store.game, hGames, List.find?_append]
    exact Option.or_eq_some_iff.mpr (.inl hRecord)
  · obtain ⟨_, committedAt, attempt, before, after, hEvent, hTouches, hCommits, -⟩ := hIssued
    by_cases hGame : gameId = id.gameId
    · subst hGame
      have hBefore := hTouches.before.symm.trans hRecord
      have hAfter := hTouches.after.symm.trans hNext
      rw [Option.some.injEq] at hBefore hAfter
      subst hBefore hAfter
      obtain ⟨hSome, hVersion⟩ := commits_advanced hCommits hLess
      refine ⟨expected, ?_, eq_saturatingNext hVersion⟩
      rw [hEvent, resolvedCommand_stored]
      obtain ⟨successor, hSuccessor⟩ := Option.ne_none_iff_exists'.mp hSome
      rw [hSuccessor]
      rfl
    · exact (hOther _ rfl ((hTouches.others gameId hGame).trans hRecord)).elim

/-- Promises of the entry points. -/
def entryPromise (inst : Installation) (entry : Entry) : ServicePromise Answer :=
  ((writing inst).both (announcing entry)).ending fun answer log _ => Announced answer log ∧
    ∀ event ∈ log, (writing inst).Covers (repository inst) event

theorem handle_meets (entry : Entry) (h : Sane inst s) :
    Meets (repository inst) (discipline inst) (entryPromise inst entry) (handle inst entry) [] s := by
  have hBoth := Meets.both (handle_writes entry h) (handle_announces entry h)
  refine (hBoth.recorded fun _ hEvent => absurd hEvent List.not_mem_nil).weaken
    fun answer log t _ hAll => ⟨hAll.1.2, fun event hEvent => ?_⟩
  obtain ⟨hPerformed, hOwn, -⟩ := hAll.2 event hEvent
  exact ⟨hPerformed, hOwn.1, log, trivial⟩

end

theorem Heard.permits {inst : Installation} {pool : ServerPool} {action : ServerAction}
    (h : Heard inst pool action) : Pool.Permits (repository inst) (fun _ => True)
      (fun _ => entryPromise inst) pool action := by
  cases action with
  | start entry => trivial
  | advance i input => exact fun entry log request next hThread => ⟨trivial, h _ _ _ _ hThread⟩

abbrev ServerThread := Thread Store Input Request Request.Response Entry Answer

/-- A call that has returned after what its log says. -/
def ServerPool.Returned (pool : ServerPool) (i : Nat) (entry : Entry) (log : Log) (answer : Answer) :
    Prop :=
  pool.threads[i]? = some (⟨entry, log, .done answer⟩ : ServerThread)

/-- Pools whose entry points keep their promises. -/
abbrev ServerPool.Sound (inst : Installation) (pool : ServerPool) : Prop :=
  Pool.Sound (repository inst) (discipline inst) (fun _ => entryPromise inst) .empty pool

theorem ServerPool.Sound.step {inst : Installation} {pool : ServerPool} (h : pool.Sound inst)
    {action : ServerAction} (hHeard : Heard inst pool action) :
    ((server inst).step pool action).2.Sound inst :=
  Pool.Sound.step (fun _ entry _ _ _ hSane => handle_meets entry hSane) h hHeard.permits

theorem ServerPool.sound_empty (inst : Installation) : ServerPool.empty.Sound inst :=
  ⟨.empty inst, .refl _, fun _ _ _ _ h => absurd h (by simp [ServerPool.empty])⟩

/-- A run in which no MCP action moves a game, no rejected action forces a move
and no batch is hindered after its first move announces every move: whenever a
call has returned, each version to which it has advanced a game was published to
the WebSocket clients of the game and notified to its MCP subscriptions. -/
theorem heard_moves_announced (inst : Installation) (actions : List ServerAction)
    (hHeard : (server inst).Conform (Heard inst) .empty actions) (i : Nat) (entry : Entry) (log : Log)
    (answer : Answer)
    (hReturned : ((server inst).after .empty actions).Returned i entry log answer)
    (event : ServiceEvent) (hEvent : event ∈ log) (gameId : GameId) (version : UInt64)
    (hAdvances : Advances inst event gameId version) :
    (∃ marker ∈ answer.published, marker.gameId = gameId ∧ version ≤ marker.version) ∧
      gameId ∈ answer.notified := by
  have hSound : ((server inst).after .empty actions).Sound inst :=
    (server inst).after_conform (fun _ _ hStep hPool => hPool.step hStep)
      (ServerPool.sound_empty inst) hHeard
  obtain ⟨hAnnounced, hCovers⟩ := hSound.finished hReturned
  obtain ⟨expected, hResolved, rfl⟩ := hAdvances.resolved (hCovers event hEvent)
  exact hAnnounced event hEvent _ hResolved

/-! Runs that end with a commit. -/

/-- A use case left alone reads, and ends with one other request. -/
def Ends (inst : Installation) (inputs : Nat → Input) {α : Type} (task : Service.Task α) (s : Store)
    (last : ServiceEvent) : Prop :=
  ∃ front, task.run.trace (repository inst) inputs s = front ++ [last] ∧
    ∀ event ∈ front, event.request.Reads

section

variable {inst : Installation} {inputs : Nat → Input} {α β : Type} {s : Store} {last : ServiceEvent}

theorem Ends.value {b : β} {f : β → Service.Task α} (h : Ends inst inputs (f b) s last) :
    Ends inst inputs (settle (.ok b) >>= f) s last :=
  h

theorem Ends.ask_bind {request : Request} {k : request.Response → Service.Task β}
    {f : β → Service.Task α} (hReads : request.Reads)
    (h : Ends inst (fun n => inputs (n + 1)) (k (perform inst (inputs 0) s request).1 >>= f)
      (perform inst (inputs 0) s request).2 last) :
    Ends inst inputs ((Service.ask request >>= k) >>= f) s last := by
  obtain ⟨front, hTrace, hFront⟩ := h
  refine ⟨⟨s, inputs 0, request, (perform inst (inputs 0) s request).1⟩ :: front,
    congrArg (_ :: ·) hTrace, fun event hEvent => ?_⟩
  rcases List.mem_cons.mp hEvent with rfl | hLater
  · exact hReads
  · exact hFront event hLater

theorem Ends.ask {request : Request} {f : request.Response → Service.Task α}
    (hReads : request.Reads) (h : Ends inst (fun n => inputs (n + 1))
      (f (perform inst (inputs 0) s request).1) (perform inst (inputs 0) s request).2 last) :
    Ends inst inputs (Service.ask request >>= f) s last :=
  Ends.ask_bind (k := fun response => settle (.ok response)) hReads h

/-- A commit that goes through is the last request. -/
theorem Ends.commitAttempted {id : CommandIdentity} {expected : UInt64} {committedAt : UnixMillis}
    {attempt : Attempt} {t : Store}
    (hCommit : commitActionRecord s (actionCommit id expected committedAt attempt) = .ok t) :
    Ends inst inputs (Service.commitAttempted id expected committedAt attempt) s ⟨s, inputs 0,
      .commitAction (actionCommit id expected committedAt attempt),
      (.ok () : Except RepositoryError Unit)⟩ := by
  have hPerform : perform inst (inputs 0) s
      (.commitAction (actionCommit id expected committedAt attempt)) = (.ok (), t) := by
    rw [perform, commitOr, hCommit]
    rfl
  exact ⟨[], (Program.trace_query hPerform).trans rfl, fun _ hEvent => absurd hEvent List.not_mem_nil⟩

end

/-- An accepted action of the current game ends with the commit of its move. -/
theorem Ends.executeAction {inst : Installation} {s : Store} {record : GameRecord}
    {past : List Game} {g g' : Game} {event : GameEvent} {expected : UInt64} {seat : Seat}
    {action : Move} (inputs : Nat → Input) (id : CommandIdentity) (countInvalid : Bool)
    (hTold : Told inst record past g) (hShelved : Shelved s g)
    (hRecord : s.game id.gameId = some record) (hId : id.Valid)
    (hFree : record.cached id.keyDigest = none) (hTime : record.createdAt ≤ (inputs 1).clock.toInt)
    (hMove : g.applyMove inst.platform seat expected action = .ok (g', event)) :
    ∃ commit result, commit.idempotency.outcome = .accepted result ∧
      Ends inst inputs (Service.executeAction inst id expected seat action countInvalid) s
        ⟨s, inputs 2, .commitAction commit, (.ok () : Except RepositoryError Unit)⟩ := by
  generalize hStored : (⟨id.gameId, record.createdAt, record.updatedAt, g.snapshot inst.platform,
    nextDeadline inst.policy g record.updatedAt⟩ : StoredGame) = stored
  have hBasis : Basis inst s id.gameId stored past g :=
    ⟨hTold.visited hRecord, by rw [← hStored], by rw [← hStored]⟩
  obtain ⟨t, hCommit⟩ := hTold.commit_move hRecord hId hFree hBasis.gameId (by rw [← hStored]) hTime
    hMove
  have hLoad : (perform inst (inputs 0) s (.load id.gameId)).1 = .ok stored :=
    (hTold.load hShelved hRecord).trans (congrArg Except.ok hStored)
  refine ⟨actionCommit id expected (inputs 1).clock.toInt
    (acceptedAttempt inst stored seat (inputs 1).clock.toInt g' event), _, rfl,
    Ends.ask_bind trivial ?_⟩
  rw [hLoad]
  refine Ends.value ?_
  rw [hBasis.resume]
  refine Ends.value (Ends.ask trivial ?_)
  change Ends inst _ (attemptAction inst stored g expected seat action countInvalid id.gameId
    (inputs 1).clock.toInt >>= Service.commitAttempted id expected (inputs 1).clock.toInt) s _
  unfold attemptAction
  rw [hMove]
  exact Ends.value (Ends.commitAttempted hCommit)

/-! A table whose first player passes. -/

/-- The pass of the first player ends with the commit of the first version. -/
theorem opened_pass_ends {clock : Int64} {actions : List ServiceAction} {s : Store}
    {record : GameRecord} {g : Game} (h : Opened clock actions s record g) (key : IdempotencyKey) :
    ∃ commit outcome result u, commit.idempotency.outcome = .accepted outcome ∧
      Ends hookInstallation (standing clock) (act hookInstallation hookSeat (hookPass key)) s
        ⟨s, standing clock 3, .commitAction commit, (.ok () : Except RepositoryError Unit)⟩ ∧
      Runs hookInstallation (standing clock) (act hookInstallation hookSeat (hookPass key)) s
        (.ok result) u ∧
      Advances hookInstallation
        ⟨s, standing clock 3, .commitAction commit, (.ok () : Except RepositoryError Unit)⟩ hookId 1 := by
  obtain ⟨g', moved, hMove, -⟩ := h.pass
  have hFree : record.cached ((hookPass key).identity basicPlatform).keyDigest = none := by
    rw [GameRecord.cached, h.idempotency]
    rfl
  obtain ⟨commit, outcome, hOutcome, hEnds⟩ := Ends.executeAction (fun n => standing clock (n + 1))
    ((hookPass key).identity basicPlatform) true h.told (h.sane.shelved h.stored h.told) h.stored
    (GameActionCommand.identity_valid _ _) hFree (Int.le_of_eq h.times.1) hMove
  have hMissing : lookupIdempotency s hookId ((hookPass key).identity basicPlatform).keyDigest
      ((hookPass key).identity basicPlatform).payloadSha256 = .missing :=
    lookup_missing_iff.mpr fun other hOther => by
      rw [h.stored, Option.some.injEq] at hOther
      rw [← hOther, hFree]
  have hAct : Ends hookInstallation (standing clock) (act hookInstallation hookSeat (hookPass key)) s
      ⟨s, standing clock 3, .commitAction commit, (.ok () : Except RepositoryError Unit)⟩ := by
    refine Ends.value (Ends.ask_bind trivial ?_)
    change Ends hookInstallation _ (match lookupReply (lookupIdempotency s hookId
      ((hookPass key).identity basicPlatform).keyDigest
      ((hookPass key).identity basicPlatform).payloadSha256) with
        | some result => Service.settle result
        | none => Service.executeAction hookInstallation ((hookPass key).identity basicPlatform) 0
            .one .pass true) s _
    rw [hMissing]
    exact hEnds
  obtain ⟨result, u, next, g'', hRun, -, hNext, hTold, -, hVersion, -⟩ := h.passes key
  refine ⟨commit, outcome, result, u, hOutcome, hAct, hRun, record, next, h.stored, ?_, ?_,
    hTold.version.trans hVersion⟩
  · obtain ⟨front, hTrace, -⟩ := hAct
    have hStore := Program.alone_trace (repository hookInstallation) hTrace
    rw [hRun] at hStore
    exact hStore ▸ hNext
  · rw [hTold.version, hVersion, h.told.version, h.version]
    decide

/-- A call left alone, in a run that heeds what the call needs. -/
theorem exists_heard {inst : Installation} (pool : ServerPool) {entry : Entry}
    {inputs : Nat → Input} {answer : Answer} {t : Store}
    (hAlone : (handle inst entry).alone (repository inst) inputs pool.store = (answer, t))
    (hHeeds : ∀ front event back, (handle inst entry).trace (repository inst) inputs pool.store =
      front ++ event :: back → entry.Heeds front event) :
    ∃ actions, (server inst).Conform (Heard inst) pool (.start entry :: actions) ∧
      (server inst).after pool (.start entry :: actions) =
        ⟨t, pool.threads ++ [⟨entry, (handle inst entry).trace (repository inst) inputs pool.store,
          .done answer⟩]⟩ := by
  rw [show t = ((handle inst entry).alone (repository inst) inputs pool.store).2 by rw [hAlone],
    show answer = ((handle inst entry).alone (repository inst) inputs pool.store).1 by rw [hAlone]]
  refine Pool.exists_served_conform pool entry inputs trivial ?_
  intro front event back other next hTrace hStore hThread entry' log request next' hSame
  obtain ⟨rfl, rfl, hQuery⟩ := Thread.mk.inj (Option.some.inj (hThread.symm.trans hSame))
  cases hQuery
  have hMem : event ∈ (handle inst entry).trace (repository inst) inputs pool.store := by
    rw [hTrace]
    exact List.mem_append_right _ List.mem_cons_self
  have hPerformed := Program.trace_performed (repository inst) hMem
  have hHeeded := hHeeds front event back hTrace
  obtain ⟨before, input, request, response⟩ := event
  cases hStore
  change response = (perform inst input other.store request).1 at hPerformed
  subst hPerformed
  exact hHeeded

/-- The table in a run of the server. -/
theorem exists_server_opened (clock : Int64) (hClock : 0 ≤ clock.toInt) :
    ∃ actions log answer opening s record g,
      (server hookInstallation).Conform (Heard hookInstallation) .empty actions ∧
      (server hookInstallation).after .empty actions =
        ⟨s, [⟨.create hookCreate, log, .done answer⟩]⟩ ∧ Opened clock opening s record g := by
  obtain ⟨created, s, record, g, hRun, -, -, hOpened⟩ := exists_dealt clock hClock
  obtain ⟨opening, log, hServed⟩ := exists_served .empty (serve_alone_create hRun)
  have hAlone : (handle hookInstallation (.create hookCreate)).alone (repository hookInstallation)
      (standing clock) .empty = (createAnswer (.ok created), s) := by
    rw [handle, Program.alone_map, hRun]
  obtain ⟨actions, hConform, hAfter⟩ := exists_heard .empty hAlone fun _ _ _ _ => trivial
  exact ⟨_, _, _, _, s, record, g, hConform, hAfter, hOpened _ log hServed⟩

/-- The pass of the first player as a REST request. -/
def hookRequest (key : IdempotencyKey) : GameActionRequest := ⟨0, 0, key, .pass⟩

/-- The same as the input of an MCP tool. -/
def hookInput (key : IdempotencyKey) : MutationInput := ⟨0, 0, key.asStr⟩

theorem unforced_of_ends {inst : Installation} {inputs : Nat → Input} {α : Type}
    {task : Service.Task α} {s t : Store} {input : Input} {commit : ActionCommit}
    {outcome : PersistedActionResult} (hOutcome : commit.idempotency.outcome = .accepted outcome)
    (h : Ends inst inputs task s
      ⟨t, input, .commitAction commit, (.ok () : Except RepositoryError Unit)⟩) :
    ∀ event ∈ task.run.trace (repository inst) inputs s, ¬ Forced event := by
  obtain ⟨front, hTrace, hFront⟩ := h
  rintro event hEvent ⟨other, rejection, hRequest, hRejected, -⟩
  rw [hTrace] at hEvent
  rcases List.mem_append.mp hEvent with hRead | hLast
  · have hReads := hFront event hRead
    rw [hRequest] at hReads
    exact hReads
  · rw [List.mem_singleton.mp hLast] at hRequest
    cases hRequest
    rw [hOutcome] at hRejected
    cases hRejected

/-- A pass of the table by REST is published and notified. -/
theorem rest_pass_announced : ∃ actions i entry log answer event,
    ((server hookInstallation).after .empty actions).Returned i entry log answer ∧ event ∈ log ∧
    Advances hookInstallation event hookId 1 ∧
    (∃ marker ∈ answer.published, marker.gameId = hookId ∧ 1 ≤ marker.version) ∧
      hookId ∈ answer.notified := by
  obtain ⟨first, log, answer, opening, s, record, g, hFirst, hAfter, hOpened⟩ :=
    exists_server_opened 0 (by decide)
  obtain ⟨commit, outcome, result, u, hOutcome, hEnds, hRun, hAdvances⟩ :=
    opened_pass_ends hOpened retryKey
  obtain ⟨entry, hEntry⟩ : ∃ entry, entry = Entry.gameAction hookId hookSeat (hookRequest retryKey) :=
    ⟨_, rfl⟩
  have hAlone : (handle hookInstallation entry).alone (repository hookInstallation) (standing 0) s =
      (gameActionAnswer hookId (.ok result), u) := by
    rw [hEntry, handle, gameAction, Program.alone_map]
    exact congrArg (fun end_ : _ × Store => (gameActionAnswer hookId end_.1, end_.2)) hRun
  have hTrace : (handle hookInstallation entry).trace (repository hookInstallation) (standing 0) s =
      (act hookInstallation hookSeat (hookPass retryKey)).run.trace (repository hookInstallation)
        (standing 0) s := by
    rw [hEntry]
    exact Program.trace_map _ _ _ _ _
  obtain ⟨second, hSecond, hServed⟩ := exists_heard
    ⟨s, [⟨.create hookCreate, log, .done answer⟩]⟩ hAlone fun front event back hSplit => by
      rw [hEntry]
      refine unforced_of_ends hOutcome hEnds event ?_
      rw [← hTrace, hSplit]
      exact List.mem_append_right _ List.mem_cons_self
  have hConform : (server hookInstallation).Conform (Heard hookInstallation) .empty
      (first ++ .start entry :: second) := by
    rw [Machine.conform_append, hAfter]
    exact ⟨hFirst, hSecond⟩
  have hThread : ((server hookInstallation).after .empty (first ++ .start entry :: second)).Returned 1
      entry ((handle hookInstallation entry).trace (repository hookInstallation) (standing 0) s)
      (gameActionAnswer hookId (.ok result)) := by
    rw [Machine.after_append, hAfter, hServed]
    rfl
  have hEvent : ⟨s, standing 0 3, .commitAction commit, (.ok () : Except RepositoryError Unit)⟩ ∈
      (handle hookInstallation entry).trace (repository hookInstallation) (standing 0) s := by
    obtain ⟨front, hFront, -⟩ := hEnds
    rw [hTrace, hFront]
    exact List.mem_append_right _ (List.mem_singleton_self _)
  exact ⟨_, _, _, _, _, _, hThread, hEvent, hAdvances,
    heard_moves_announced hookInstallation _ hConform _ _ _ _ hThread _ hEvent _ _ hAdvances⟩

/-- The same pass as an MCP action is never published. -/
theorem mcp_pass_unpublished : ∃ actions i credential input action log answer event,
    ((server hookInstallation).after .empty actions).Returned i (.mcpAct credential input action) log
      answer ∧ event ∈ log ∧ Advances hookInstallation event hookId 1 ∧
    ¬ ∃ marker ∈ answer.published, marker.gameId = hookId ∧ 1 ≤ marker.version := by
  obtain ⟨first, log, answer, opening, s, record, g, -, hAfter, hOpened⟩ :=
    exists_server_opened 0 (by decide)
  obtain ⟨commit, outcome, result, u, -, hEnds, hRun, hAdvances⟩ := opened_pass_ends hOpened retryKey
  have hKey : IdempotencyKey.new retryKey.asStr = .ok retryKey := dif_pos retryKey.valid
  have hHandle : handle hookInstallation (.mcpAct hookSeat (hookInput retryKey) .pass) =
      (act hookInstallation hookSeat (hookPass retryKey)).run >>= fun result =>
        .done (mcpActAnswer hookId result) := by
    change mcpAct hookInstallation hookSeat (hookInput retryKey) .pass = _
    unfold mcpAct
    rw [show (hookInput retryKey).idempotencyKey = retryKey.asStr from rfl, hKey]
    rfl
  obtain ⟨second, -, hServed⟩ := @Pool.exists_served_conform _ _ _ _ _ _ (repository hookInstallation)
    (handle hookInstallation) (fun _ _ => True) ⟨s, [⟨.create hookCreate, log, .done answer⟩]⟩
    (.mcpAct hookSeat (hookInput retryKey) .pass) (standing 0) trivial fun _ _ _ _ _ _ _ _ => trivial
  rw [hHandle, Program.alone_map, Program.trace_map, hRun] at hServed
  obtain ⟨front, hFront, -⟩ := hEnds
  refine ⟨first ++ .start (.mcpAct hookSeat (hookInput retryKey) .pass) :: second, 1, hookSeat,
    hookInput retryKey, .pass, (act hookInstallation hookSeat (hookPass retryKey)).run.trace
      (repository hookInstallation) (standing 0) s, mcpActAnswer hookId (.ok result),
    ⟨s, standing 0 3, .commitAction commit, (.ok () : Except RepositoryError Unit)⟩, ?_, ?_, hAdvances, ?_⟩
  · rw [Machine.after_append, hAfter]
    exact congrArg (fun pool : ServerPool => pool.threads[1]?) hServed
  · rw [hFront]
    exact List.mem_append_right _ (List.mem_singleton_self _)
  · rintro ⟨marker, hMarker, -⟩
    exact absurd hMarker List.not_mem_nil

end WordArena.Server
