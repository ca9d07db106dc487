import WordArena.Service.Consistency

/-! What every call keeps while others run: the discipline of the store, and a
promise about its own steps and its reply. -/
namespace WordArena.Service

open Fallible WordArena.Engine WordArena.Lexicon WordArena.Application

abbrev Log := List (Program.Event Store Input Request Request.Response)

abbrev ServiceEvent := Program.Event Store Input Request Request.Response

abbrev ServicePromise (α : Type) := Promise Store Input Request Request.Response α

/-- Requests that only read. -/
def Request.Reads : Request → Prop
  | .commitAction _ => False
  | .insertIdempotent _ _ => False
  | _ => True

/-- Requests that read, and writes that were refused. -/
def Quiet (event : ServiceEvent) : Prop :=
  event.request.Reads ∨
    (∃ before input commit error, event = ⟨before, input, .commitAction commit,
      (.error error : Except RepositoryError Unit)⟩) ∨
    ∃ before input record creation error, event = ⟨before, input, .insertIdempotent record creation,
      (.error error : Except RepositoryError Unit)⟩

/-- A promise that asks nothing of requests that change nothing. -/
def Idles {α : Type} (p : ServicePromise α) : Prop :=
  ∀ event, Quiet event → p.own event event.before

/-! Rules for single steps of a use case. -/

/-- A use case keeps a promise about its value or its error. -/
def Keeps (inst : Installation) {α : Type} (p : ServicePromise (Except ApplicationError α))
    (task : Task α) (log : Log) (s : Store) : Prop :=
  Meets (repository inst) (discipline inst) p task.run log s

section

variable {inst : Installation} {α β : Type} {p : ServicePromise (Except ApplicationError α)}
  {log : Log} {s : Store} {gameId : GameId}

theorem Keeps.settle {result : Except ApplicationError α}
    (h : ∀ t, Grows s t → Sane inst t → p.post result log t) : Keeps inst p (settle result) log s :=
  h

/-- A failed part fails the whole. -/
theorem Keeps.fail {error : ApplicationError} {f : β → Task α}
    (h : ∀ t, Grows s t → Sane inst t → p.post (.error error) log t) :
    Keeps inst p (Service.settle (.error error) >>= f) log s :=
  h

theorem Keeps.value {b : β} {f : β → Task α} (h : Keeps inst p (f b) log s) :
    Keeps inst p (Service.settle (.ok b) >>= f) log s :=
  h

/-- Continue with a value or stop with an error. -/
theorem Keeps.cases {result : Except ApplicationError β} {f : β → Task α}
    (hOk : ∀ b, result = .ok b → Keeps inst p (f b) log s)
    (hError : ∀ error, result = .error error →
      ∀ t, Grows s t → Sane inst t → p.post (.error error) log t) :
    Keeps inst p (Service.settle result >>= f) log s := by
  cases result with
  | ok b => exact Keeps.value (hOk b rfl)
  | error error => exact Keeps.fail (hError error rfl)

theorem Keeps.ask {request : Request} {f : request.Response → Task α}
    (h : ∀ t, Grows s t → Sane inst t → ∀ input response u,
      perform inst input t request = (response, u) → p.may log ⟨t, input, request, response⟩ →
      Sane inst u ∧ Grows t u ∧ p.own ⟨t, input, request, response⟩ u ∧
        Keeps inst p (f response) (log ++ [⟨t, input, request, response⟩]) u) :
    Keeps inst p (Service.ask request >>= f) log s :=
  fun t hGrows ht input hMay => h t hGrows ht input _ _ rfl hMay

/-- A request that leaves the store alone. -/
theorem Keeps.read {request : Request} {f : request.Response → Task α} (hOwn : Idles p)
    (hQuiet : request.Reads)
    (hRead : ∀ input t, (perform inst input t request).2 = t)
    (h : ∀ t, Grows s t → Sane inst t → ∀ input,
      p.may log ⟨t, input, request, (perform inst input t request).1⟩ →
      Keeps inst p (f (perform inst input t request).1)
        (log ++ [⟨t, input, request, (perform inst input t request).1⟩]) t) :
    Keeps inst p (Service.ask request >>= f) log s :=
  Meets.read (fun _ _ => hOwn _ (.inl hQuiet)) hRead h

/-- Loading a game either finds none or gives its current state. -/
theorem Keeps.load {f : StoredGame → Task α} (hOwn : Idles p)
    (hNone : ∀ t, Grows s t → Sane inst t → ∀ input,
      p.may log ⟨t, input, .load gameId, (.error .notFound : Except RepositoryError StoredGame)⟩ →
      t.game gameId = none →
      ∀ u, Grows t u → Sane inst u → p.post (.error (.repository .notFound)) (log ++
        [⟨t, input, .load gameId, (.error .notFound : Except RepositoryError StoredGame)⟩]) u)
    (hSome : ∀ t, Grows s t → Sane inst t → ∀ input record past g stored,
      p.may log ⟨t, input, .load gameId, (.ok stored : Except RepositoryError StoredGame)⟩ →
      t.game gameId = some record → Told inst record past g →
      stored = ⟨gameId, record.createdAt, record.updatedAt, g.snapshot inst.platform,
        nextDeadline inst.policy g record.updatedAt⟩ →
      Keeps inst p (f stored) (log ++
        [⟨t, input, .load gameId, (.ok stored : Except RepositoryError StoredGame)⟩]) t) :
    Keeps inst p (loadRecord inst gameId >>= f) log s := by
  refine Meets.read (fun _ _ => hOwn _ (.inl trivial)) (fun _ _ => rfl) fun t hGrows ht input => ?_
  change p.may log ⟨t, input, .load gameId, loadGame inst.platform t gameId⟩ → _
  rcases ht.load gameId with ⟨hMissing, hLoad⟩ | ⟨record, past, g, hRecord, hTold, hLoad⟩
  · intro hMay
    have hResponse : ((repository inst).perform input t (.load gameId)).1 = .error .notFound := hLoad
    rw [hResponse]
    rw [hLoad] at hMay
    exact hNone t hGrows ht input hMay hMissing
  · intro hMay
    have hResponse : ((repository inst).perform input t (.load gameId)).1 = .ok _ := hLoad
    rw [hResponse]
    rw [hLoad] at hMay
    exact hSome t hGrows ht input record past g _ hMay hRecord hTold rfl

theorem Keeps.cached (id : CommandIdentity)
    {f : Option (Except ApplicationError GameActionResult) → Task α} (hOwn : Idles p)
    (h : ∀ t, Grows s t → Sane inst t → ∀ input lookup,
      lookupIdempotency t id.gameId id.keyDigest id.payloadSha256 = lookup →
      p.may log ⟨t, input, .loadIdempotency id.gameId id.keyDigest id.payloadSha256, lookup⟩ →
      Keeps inst p (f (lookupReply lookup)) (log ++
        [⟨t, input, .loadIdempotency id.gameId id.keyDigest id.payloadSha256, lookup⟩]) t) :
    Keeps inst p (cachedOutcome id.gameId id.keyDigest id.payloadSha256 >>= f) log s :=
  Meets.read (fun _ _ => hOwn _ (.inl trivial)) (fun _ _ => rfl) fun t hGrows ht input hMay => h t hGrows ht input _ rfl hMay

end

/-! Cached outcomes. -/

/-- The outcome of a command is stored. -/
def Cached (s : Store) (id : CommandIdentity) (outcome : ActionOutcome) : Prop :=
  lookupIdempotency s id.gameId id.keyDigest id.payloadSha256 = .found outcome

/-- Outcomes that are stored for a retry. -/
def ActionOutcome.Final : ActionOutcome → Prop
  | .accepted _ => True
  | .rejected .versionConflict => True
  | .rejected (.illegalAction _) => True
  | .rejected _ => False

/-- A final reply is a stored one. -/
def Answered (s : Store) (id : CommandIdentity)
    (result : Except ApplicationError GameActionResult) : Prop :=
  ∀ outcome, outcome.Final → result = outcomeResult outcome → Cached s id outcome

theorem found_iff {s : Store} {gameId : GameId} {keyDigest : Digest} {payload : String}
    {outcome : ActionOutcome} : lookupIdempotency s gameId keyDigest payload = .found outcome ↔
      ∃ record row, s.game gameId = some record ∧ record.cached keyDigest = some row ∧
        row.payloadSha256 = payload ∧ row.outcome = outcome := by
  unfold lookupIdempotency
  constructor
  · intro h
    split at h
    · cases h
    · rename_i row hRow
      obtain ⟨record, hRecord, hCached⟩ := Option.bind_eq_some_iff.mp hRow
      split at h
      · cases h
      · rename_i hSame
        exact ⟨record, row, hRecord, hCached, not_not.mp hSame, IdempotencyLookup.found.inj h⟩
  · rintro ⟨record, row, hRecord, hCached, rfl, rfl⟩
    rw [hRecord, Option.bind_some, hCached]
    exact if_neg (not_not.mpr rfl)

theorem lookup_missing_iff {s : Store} {gameId : GameId} {keyDigest : Digest} {payload : String} :
    lookupIdempotency s gameId keyDigest payload = .missing ↔
      ∀ record, s.game gameId = some record → record.cached keyDigest = none := by
  unfold lookupIdempotency
  constructor
  · intro h record hRecord
    split at h
    · rename_i hNone
      rw [hRecord] at hNone
      exact hNone
    · split at h <;> cases h
  · intro h
    cases hRecord : s.game gameId with
    | none => rfl
    | some record =>
        rw [Option.bind_some, h record hRecord]

theorem Extends.cached {old new : GameRecord} (h : Extends old new) {keyDigest : Digest}
    {row : IdempotencyRecord} (hRow : old.cached keyDigest = some row) :
    new.cached keyDigest = some row := by
  obtain ⟨rest, hRest⟩ := h.idempotency
  rw [GameRecord.cached, ← hRest, List.find?_append]
  exact Option.or_eq_some_iff.mpr (.inl hRow)

theorem Cached.later {s t : Store} {id : CommandIdentity} {outcome : ActionOutcome}
    (h : Cached s id outcome) (hGrows : Grows s t) : Cached t id outcome := by
  obtain ⟨record, row, hRecord, hRow, hPayload, hOutcome⟩ := found_iff.mp h
  obtain ⟨new, hNew, hExtends⟩ := hGrows.games _ record hRecord
  exact found_iff.mpr ⟨new, row, hNew, hExtends.cached hRow, hPayload, hOutcome⟩

theorem outcomeResult_injective {a b : ActionOutcome} (h : outcomeResult a = outcomeResult b) :
    a = b := by
  cases a with
  | accepted result =>
      cases b with
      | accepted other =>
          cases result
          cases other
          simp only [outcomeResult, Except.ok.injEq, GameActionResult.mk.injEq] at h
          obtain ⟨rfl, rfl, rfl, rfl⟩ := h
          rfl
      | rejected rejection => cases h
  | rejected rejection =>
      cases b with
      | accepted other => cases h
      | rejected other =>
          simp only [outcomeResult, Except.error.injEq, ApplicationError.actionRejected.injEq] at h
          rw [h]

/-- Errors that no stored outcome explains. -/
theorem Answered.other {s : Store} {id : CommandIdentity} {error : ApplicationError}
    (h : ∀ outcome : ActionOutcome, outcome.Final → .error error ≠ outcomeResult outcome) :
    Answered s id (.error error) :=
  fun outcome hFinal hSame => absurd hSame (h outcome hFinal)

theorem Answered.cached {s : Store} {id : CommandIdentity} {outcome : ActionOutcome}
    (h : Cached s id outcome) : Answered s id (outcomeResult outcome) :=
  fun _ _ hSame => outcomeResult_injective hSame ▸ h

/-! Attempts. -/

/-- What is known of the game an action is decided on. -/
structure Basis (inst : Installation) (s : Store) (gameId : GameId) (stored : StoredGame)
    (past : List Game) (g : Game) : Prop where
  visited : Visited inst s gameId past g
  gameId : stored.gameId = gameId
  snapshot : stored.snapshot = g.snapshot inst.platform

section

variable {inst : Installation} {s : Store} {id : CommandIdentity} {expected : UInt64} {seat : Seat}
  {committedAt : UnixMillis} {stored : StoredGame} {past : List Game} {g : Game}

theorem Basis.later {gameId : GameId} {t : Store} (h : Basis inst s gameId stored past g)
    (hGrows : Grows s t) : Basis inst t gameId stored past g :=
  ⟨h.visited.later hGrows, h.gameId, h.snapshot⟩

theorem Basis.resume {gameId : GameId} (h : Basis inst s gameId stored past g) :
    resumeRecord inst stored = .ok g :=
  h.visited.lineage.resume h.snapshot

theorem Basis.sincere {action : Move} {next : Game} {event : GameEvent} {attempt : Attempt}
    (h : Basis inst s id.gameId stored past g)
    (hMove : g.applyMove inst.platform seat expected action = .ok (next, event))
    (hSuccessor : attempt.successor = some (successorRecord inst stored next committedAt))
    (hWord : committedAt < 2 ^ 63)
    (hOutcome : ∀ result, attempt.outcome = .accepted result → result.event = event ∧
      result.game = next.seatProjection seat ∧
        result.turnDeadline = nextDeadline inst.policy next result.committedAt) :
    Sincere inst s (actionCommit id expected committedAt attempt) := by
  obtain ⟨rfl, hAccepted⟩ := applyMove_eq_ok.mp hMove
  exact .move h.visited hAccepted rfl hSuccessor h.gameId rfl rfl hWord hOutcome

theorem Basis.accepted {action : Move} {next : Game} {event : GameEvent}
    (h : Basis inst s id.gameId stored past g)
    (hMove : g.applyMove inst.platform seat expected action = .ok (next, event))
    (hWord : committedAt < 2 ^ 63) : Sincere inst s (actionCommit id expected committedAt
      (acceptedAttempt inst stored seat committedAt next event)) := by
  refine h.sincere hMove rfl hWord fun result hResult => ?_
  cases hResult
  exact ⟨rfl, rfl, rfl⟩

/-- A forced move is a move of the game the attempt was decided on. -/
theorem Basis.forced {gameId : GameId} {count : UInt32} {next : Game}
    (h : Basis inst s gameId stored past g)
    (hForced : policyResponse inst stored expected seat count = .ok (some next)) :
    ∃ action event, g.applyMove inst.platform seat expected action = .ok (next, event) := by
  unfold policyResponse at hForced
  split at hForced
  · split at hForced
    · cases hForced
    · rename_i action _
      obtain ⟨game, hGame, hForced⟩ := bind_eq_ok.mp hForced
      obtain ⟨⟨moved, event⟩, hMove, hForced⟩ := bind_eq_ok.mp hForced
      rw [h.resume, Except.ok.injEq] at hGame
      rw [mapErr_eq_ok, ← hGame] at hMove
      rw [pure_eq_ok, Option.some.injEq] at hForced
      exact ⟨action, event, hForced ▸ hMove⟩
  · cases hForced

/-- A counted attempt stores its rejection, alone or with a forced move. -/
theorem Basis.counted {rejection : ActionRejection} {prior : Option InvalidAttemptState}
    {attempt : Attempt} (h : Basis inst s id.gameId stored past g) (hWord : committedAt < 2 ^ 63)
    (hAttempt : countedAttempt inst stored expected seat committedAt rejection prior = .ok attempt) :
    Sincere inst s (actionCommit id expected committedAt attempt) ∧
      attempt.outcome = .rejected rejection := by
  obtain ⟨forced, hForced, hAttempt⟩ := bind_eq_ok.mp hAttempt
  rw [pure_eq_ok] at hAttempt
  have hOutcome : attempt.outcome = .rejected rejection := by rw [← hAttempt]
  refine ⟨?_, hOutcome⟩
  cases forced with
  | none => exact .stay (by rw [← hAttempt]; rfl) ⟨rejection, hOutcome⟩
  | some next =>
      obtain ⟨action, event, hMove⟩ := h.forced hForced
      refine h.sincere hMove (by rw [← hAttempt]; rfl) hWord fun result hResult => ?_
      rw [hOutcome] at hResult
      cases hResult

end

/-! Deciding and committing an action. -/

/-- An error that is not a rejection of the action. -/
def ApplicationError.Failure (error : ApplicationError) : Prop :=
  ∀ rejection, error ≠ .actionRejected rejection

theorem resumeRecord_failure {inst : Installation} {stored : StoredGame} {error : ApplicationError}
    (h : resumeRecord inst stored = .error error) : error.Failure := by
  rcases bind_eq_error.mp h with hMissing | ⟨lexicon, -, hResume⟩
  · obtain ⟨-, rfl⟩ := okOr_eq_error.mp hMissing
    exact fun _ hSame => by cases hSame
  · obtain ⟨cause, -, rfl⟩ := mapErr_eq_error.mp hResume
    exact fun _ hSame => by cases hSame

theorem countedAttempt_failure {inst : Installation} {stored : StoredGame} {expected : UInt64}
    {seat : Seat} {committedAt : UnixMillis} {rejection : ActionRejection}
    {prior : Option InvalidAttemptState} {error : ApplicationError}
    (h : countedAttempt inst stored expected seat committedAt rejection prior = .error error) :
    error.Failure := by
  rcases bind_eq_error.mp h with hForced | ⟨forced, -, hDone⟩
  · unfold policyResponse at hForced
    split at hForced
    · split at hForced
      · cases hForced
      · rcases bind_eq_error.mp hForced with hResume | ⟨game, -, hRest⟩
        · exact resumeRecord_failure hResume
        · rcases bind_eq_error.mp hRest with hMove | ⟨pair, -, hDone⟩
          · obtain ⟨cause, -, rfl⟩ := mapErr_eq_error.mp hMove
            exact fun _ hSame => by cases hSame
          · cases hDone
    · cases hForced
  · cases hDone

section

variable {inst : Installation} {α : Type} {log : Log} {s : Store} {id : CommandIdentity}
  {expected : UInt64} {seat : Seat} {action : Move} {committedAt : UnixMillis} {stored : StoredGame}
  {past : List Game} {g : Game}

/-- A decided attempt is an accepted move, a rejection, or a counted rejection
that may force a move. -/
theorem Keeps.attempt {p : ServicePromise (Except ApplicationError α)} {f : Attempt → Task α}
    {countInvalid : Bool} (hOwn : Idles p)
    (hAccepted : ∀ next event, g.applyMove inst.platform seat expected action = .ok (next, event) →
      Keeps inst p (f (acceptedAttempt inst stored seat committedAt next event)) log s)
    (hRejected : ∀ error, g.applyMove inst.platform seat expected action = .error error →
      (countInvalid = true → rejectionFromEngine inst.quote error = .versionConflict) →
      Keeps inst p (f ⟨.rejected (rejectionFromEngine inst.quote error), none, none, none⟩) log s)
    (hCounted : countInvalid = true → ∀ error prior attempt look t, look.request.Reads →
      countedAttempt inst stored expected seat committedAt (rejectionFromEngine inst.quote error)
        prior = .ok attempt → rejectionFromEngine inst.quote error ≠ .versionConflict → Grows s t →
      loadInvalidAttempt t id.gameId expected seat = .ok prior →
      Keeps inst p (f attempt) (log ++ [look]) t)
    (hFailure : countInvalid = true → ∀ error : ApplicationError, error.Failure → ∀ look t,
      look.request.Reads → p.post (.error error) (log ++ [look]) t) :
    Keeps inst p (attemptAction inst stored g expected seat action countInvalid id.gameId
      committedAt >>= f) log s := by
  unfold attemptAction
  split
  · rename_i next event hMove
    exact Keeps.value (hAccepted next event hMove)
  · rename_i error hError
    by_cases hCount : countInvalid = true ∧ rejectionFromEngine inst.quote error ≠ .versionConflict
    · simp only [if_pos hCount]
      refine Meets.read (fun _ _ => hOwn _ (.inl trivial)) (fun _ _ => rfl) fun t hGrows _ input _ => ?_
      have hAnswer : ((repository inst).perform input t
        (.loadInvalidAttempt id.gameId expected seat)).1 =
          loadInvalidAttempt t id.gameId expected seat := rfl
      rw [hAnswer]
      cases hLoaded : loadInvalidAttempt t id.gameId expected seat with
      | error cause =>
          exact Keeps.settle fun u _ _ =>
            hFailure hCount.1 (.repository cause) (fun _ hSame => by cases hSame) _ u trivial
      | ok prior =>
          change Keeps inst p (Service.settle (countedAttempt inst stored expected seat committedAt
            (rejectionFromEngine inst.quote error) prior) >>= f) _ t
          refine Keeps.cases (fun attempt hAttempt => ?_) fun cause hCause u _ _ => ?_
          · exact hCounted hCount.1 error prior attempt _ t trivial hAttempt hCount.2 hGrows hLoaded
          · exact hFailure hCount.1 _ (countedAttempt_failure hCause) _ u trivial
    · simp only [if_neg hCount]
      refine Keeps.value (hRejected error hError fun hTrue => ?_)
      by_contra hOther
      exact hCount ⟨hTrue, hOther⟩

/-- A commit is stored, refused, or lost to a conflict that is looked up again. -/
theorem Keeps.commitAttempted {p : ServicePromise (Except ApplicationError GameActionResult)}
    {attempt : Attempt} (hOwn : Idles p)
    (hSincere : Sincere inst s (actionCommit id expected committedAt attempt))
    (hStored : ∀ t input u record next, Grows s t → Sane inst t →
      commitActionRecord t (actionCommit id expected committedAt attempt) = .ok u →
      Touches t u id.gameId record next →
      Commits (actionCommit id expected committedAt attempt) record next →
      p.may log ⟨t, input, .commitAction (actionCommit id expected committedAt attempt),
        (.ok () : Except RepositoryError Unit)⟩ →
      p.own ⟨t, input, .commitAction (actionCommit id expected committedAt attempt),
        (.ok () : Except RepositoryError Unit)⟩ u ∧ ∀ w, Grows u w → Sane inst w → p.post (outcomeResult attempt.outcome) (log ++
        [⟨t, input, .commitAction (actionCommit id expected committedAt attempt),
          (.ok () : Except RepositoryError Unit)⟩]) w)
    (hRefused : ∀ t input error, Grows s t → Sane inst t →
      commitActionRecord t (actionCommit id expected committedAt attempt) = .error error →
      error ≠ .conflict →
      p.may log ⟨t, input, .commitAction (actionCommit id expected committedAt attempt),
        (.error error : Except RepositoryError Unit)⟩ →
      ∀ w, Grows t w → Sane inst w → p.post (.error (.repository error)) (log ++
        [⟨t, input, .commitAction (actionCommit id expected committedAt attempt),
          (.error error : Except RepositoryError Unit)⟩]) w)
    (hRaced : ∀ t input u input' lookup, Grows s t → Sane inst t →
      commitActionRecord t (actionCommit id expected committedAt attempt) = .error .conflict →
      Grows t u → Sane inst u → lookupIdempotency u id.gameId id.keyDigest id.payloadSha256 = lookup →
      p.may log ⟨t, input, .commitAction (actionCommit id expected committedAt attempt),
        (.error .conflict : Except RepositoryError Unit)⟩ →
      p.may (log ++ [⟨t, input, .commitAction (actionCommit id expected committedAt attempt),
        (.error .conflict : Except RepositoryError Unit)⟩])
        ⟨u, input', .loadIdempotency id.gameId id.keyDigest id.payloadSha256, lookup⟩ →
      ∀ w, Grows u w → Sane inst w →
        p.post ((lookupReply lookup).getD (.error (.repository .conflict))) (log ++
          [⟨t, input, .commitAction (actionCommit id expected committedAt attempt),
            (.error .conflict : Except RepositoryError Unit)⟩] ++
          [⟨u, input', .loadIdempotency id.gameId id.keyDigest id.payloadSha256, lookup⟩]) w) :
    Keeps inst p (commitAttempted id expected committedAt attempt) log s := by
  refine Keeps.ask fun t hGrows ht input response u hPerform hMay => ?_
  rcases transact_cases t ((commitActionRecord t (actionCommit id expected committedAt attempt)).map
    fun u => ((), u)) with ⟨_, next, hAttempt, hAnswer⟩ | ⟨error, hAttempt, hAnswer⟩
  · obtain ⟨rfl, rfl⟩ := Prod.mk.inj (hAnswer.symm.trans hPerform)
    cases hCommit : commitActionRecord t (actionCommit id expected committedAt attempt) with
    | error error =>
        rw [hCommit] at hAttempt
        cases hAttempt
    | ok after =>
        rw [hCommit] at hAttempt
        cases hAttempt
        obtain ⟨record, row, hSane, hStep, hTouches, hCommits⟩ :=
          ht.commit (hSincere.later hGrows) hCommit
        obtain ⟨hOwned, hPost⟩ := hStored t input _ record row hGrows ht hCommit hTouches hCommits hMay
        exact ⟨hSane, hStep, hOwned, Keeps.settle hPost⟩
  · obtain ⟨rfl, rfl⟩ := Prod.mk.inj (hAnswer.symm.trans hPerform)
    refine ⟨ht, .refl _, hOwn _ (.inr (.inl ⟨_, _, _, _, rfl⟩)), ?_⟩
    cases hCommit : commitActionRecord t (actionCommit id expected committedAt attempt) with
    | ok after =>
        rw [hCommit] at hAttempt
        cases hAttempt
    | error cause =>
        rw [hCommit] at hAttempt
        cases hAttempt
        by_cases hConflict : error = .conflict
        · subst hConflict
          refine Keeps.cached id hOwn fun u hu hSane input' lookup hLookup hLook => ?_
          have hPost := hRaced _ input u input' lookup hGrows ht hCommit hu hSane hLookup hMay hLook
          cases lookup with
          | missing => exact Keeps.settle hPost
          | payloadConflict => exact Keeps.settle hPost
          | found outcome => exact Keeps.settle hPost
        · have hPost := hRefused _ input error hGrows ht hCommit hConflict hMay
          cases error with
          | conflict => exact absurd rfl hConflict
          | _ => exact Keeps.settle hPost

/-- An action is decided on the game that is loaded, at the time that is read. -/
theorem Keeps.executeAction {p : ServicePromise (Except ApplicationError GameActionResult)}
    {countInvalid : Bool} (hOwn : Idles p)
    (hNone : ∀ t input, Grows s t → Sane inst t → t.game id.gameId = none →
      p.may log ⟨t, input, .load id.gameId, (.error .notFound : Except RepositoryError StoredGame)⟩ →
      ∀ u, Grows t u → Sane inst u → p.post (.error (.repository .notFound)) (log ++
        [⟨t, input, .load id.gameId, (.error .notFound : Except RepositoryError StoredGame)⟩]) u)
    (hSome : ∀ t input u clock record past g stored, Grows s t → Sane inst t →
      t.game id.gameId = some record → Told inst record past g →
      stored = ⟨id.gameId, record.createdAt, record.updatedAt, g.snapshot inst.platform,
        nextDeadline inst.policy g record.updatedAt⟩ →
      p.may log ⟨t, input, .load id.gameId, (.ok stored : Except RepositoryError StoredGame)⟩ →
      Grows t u → Sane inst u →
      p.may (log ++
        [⟨t, input, .load id.gameId, (.ok stored : Except RepositoryError StoredGame)⟩])
        ⟨u, clock, .now, (clock.clock.toInt : UnixMillis)⟩ →
      Basis inst u id.gameId stored past g → clock.clock.toInt < 2 ^ 63 →
      Keeps inst p (attemptAction inst stored g expected seat action countInvalid id.gameId
        clock.clock.toInt >>= Service.commitAttempted id expected clock.clock.toInt) (log ++
          [⟨t, input, .load id.gameId, (.ok stored : Except RepositoryError StoredGame)⟩] ++
          [⟨u, clock, .now, (clock.clock.toInt : UnixMillis)⟩]) u) :
    Keeps inst p (executeAction inst id expected seat action countInvalid) log s := by
  refine Keeps.load hOwn (fun t hGrows ht input hMay hMissing => hNone t input hGrows ht hMissing hMay)
    fun t hGrows ht input record past g stored hMay hRecord hTold hStored => ?_
  have hBasis : Basis inst t id.gameId stored past g :=
    ⟨hTold.visited hRecord, by rw [hStored], by rw [hStored]⟩
  rw [hBasis.resume]
  refine Keeps.value (Keeps.read hOwn trivial (fun _ _ => rfl) fun u hu hSane clock hNow => ?_)
  exact hSome t input u clock record past g stored hGrows ht hRecord hTold hStored hMay hu hSane hNow
    (hBasis.later hu) clock.clock.toInt_lt

end

/-! Replies to actions. -/

section

variable {inst : Installation} {p : ServicePromise (Except ApplicationError GameActionResult)}
  {log : Log} {s : Store} {id : CommandIdentity} {expected : UInt64} {seat : Seat} {action : Move}

theorem Answered.failure {error : ApplicationError} (h : error.Failure) :
    Answered s id (.error error) := by
  refine .other ?_
  rintro (result | rejection) - hSame
  · cases hSame
  · exact h rejection (Except.error.inj hSame)

/-- A conflicting retry is answered from what is stored by then. -/
theorem Answered.lookup {lookup : IdempotencyLookup}
    {result : Except ApplicationError GameActionResult}
    (hLookup : lookupIdempotency s id.gameId id.keyDigest id.payloadSha256 = lookup)
    (hReply : lookupReply lookup = some result) : Answered s id result := by
  cases lookup with
  | missing => cases hReply
  | payloadConflict =>
      cases hReply
      refine .other ?_
      rintro (result | rejection) hFinal hSame
      · cases hSame
      · cases hSame
        exact hFinal
  | found outcome =>
      cases hReply
      exact .cached hLookup

theorem Answered.later {t : Store} {result : Except ApplicationError GameActionResult}
    (h : Answered s id result) (hGrows : Grows s t) : Answered t id result :=
  fun outcome hFinal hSame => (h outcome hFinal hSame).later hGrows

/-- The stored number of invalid attempts of a seat in a turn. -/
def GameRecord.counter (record : GameRecord) (turn : UInt64) (seat : Seat) : Nat :=
  ((record.attempt turn seat).map fun attempt => attempt.count.toNat).getD 0

/-- Rejections that count as an invalid attempt. -/
def ActionOutcome.Invalid : ActionOutcome → Prop
  | .rejected rejection => rejection ≠ .versionConflict
  | .accepted _ => False

/-- The counter a commit sets: one more than what is stored, for an invalid
attempt of a player, and none otherwise. -/
def CountsOne (record : GameRecord) (expected : UInt64) (seat : Seat) (countInvalid : Bool)
    (attempt : Attempt) : Prop :=
  (countInvalid = true ∧ attempt.outcome.Invalid → ∃ counted, attempt.invalidAttempt = some counted ∧
    counted.turn = expected ∧ counted.seat = seat ∧
    counted.count.toNat = record.counter expected seat + 1) ∧
  (¬ (countInvalid = true ∧ attempt.outcome.Invalid) → attempt.invalidAttempt = none)

/-- A commit that a command has made. -/
def Issued (id : CommandIdentity) (expected : UInt64) (seat : Seat) (countInvalid : Bool)
    (event : ServiceEvent) (u : Store) : Prop :=
  ∃ input committedAt attempt record next,
    event = ⟨event.before, input, .commitAction (actionCommit id expected committedAt attempt),
      (.ok () : Except RepositoryError Unit)⟩ ∧
    Touches event.before u id.gameId record next ∧
    Commits (actionCommit id expected committedAt attempt) record next ∧
    CountsOne record expected seat countInvalid attempt

/-- Whatever happens to a commit, a final reply is stored. -/
theorem Keeps.answerCommit {committedAt : UnixMillis} {attempt : Attempt} {countInvalid : Bool}
    (hIdle : Idles p) (hOwn : ∀ event u, Issued id expected seat countInvalid event u → p.own event u)
    (hPost : ∀ result log t, Answered t id result → p.post result log t)
    (hSincere : Sincere inst s (actionCommit id expected committedAt attempt))
    (hCounts : ∀ t record next, Grows s t → t.game id.gameId = some record →
      Recounts attempt.invalidAttempt record next → CountsOne record expected seat countInvalid attempt) :
    Keeps inst p (Service.commitAttempted id expected committedAt attempt) log s := by
  refine Keeps.commitAttempted hIdle hSincere ?_ ?_ ?_
  · intro t input u record next hGrows _ _ hTouches hCommits _
    have hCounted : CountsOne record expected seat countInvalid attempt := by
      obtain ⟨-, -, -, counts⟩ := hCommits
      exact hCounts t record _ hGrows hTouches.before counts
    refine ⟨hOwn _ u ⟨input, committedAt, attempt, record, next, rfl, hTouches, hCommits, hCounted⟩,
      fun w hw _ => hPost _ _ _ ?_⟩
    exact .cached (Cached.later (found_iff.mpr
      ⟨next, _, hTouches.after, hCommits.cached, rfl, rfl⟩) hw)
  · intro t input error _ _ _ _ _ w _ _
    exact hPost _ _ _ (.failure fun _ hSame => by cases hSame)
  · intro t input u input' lookup _ _ _ _ _ hLookup _ _ w hw _
    refine hPost _ _ _ (Answered.later ?_ hw)
    cases hReply : lookupReply lookup with
    | none => exact .failure fun _ hSame => by cases hSame
    | some result => exact .lookup hLookup hReply

/-- Nothing is counted without a counter. -/
theorem CountsOne.uncounted {record : GameRecord} {countInvalid : Bool} {attempt : Attempt}
    (hNone : attempt.invalidAttempt = none)
    (hValid : ¬ (countInvalid = true ∧ attempt.outcome.Invalid)) :
    CountsOne record expected seat countInvalid attempt :=
  ⟨fun hCount => absurd hCount hValid, fun _ => hNone⟩

/-- A counter that could be set is one more than the stored one: what was read
before is stored still. -/
theorem CountsOne.counted {t u : Store} {record next : GameRecord} {stored : StoredGame}
    {committedAt : UnixMillis} {rejection : ActionRejection} {prior : Option InvalidAttemptState}
    {attempt : Attempt} (hRejection : rejection ≠ .versionConflict)
    (hAttempt : countedAttempt inst stored expected seat committedAt rejection prior = .ok attempt)
    (hPrior : loadInvalidAttempt t id.gameId expected seat = .ok prior) (hGrows : Grows t u)
    (hRecord : u.game id.gameId = some record)
    (hCounts : Recounts attempt.invalidAttempt record next) :
    CountsOne record expected seat true attempt := by
  obtain ⟨forced, -, hAttempt⟩ := bind_eq_ok.mp hAttempt
  rw [pure_eq_ok] at hAttempt
  subst hAttempt
  refine ⟨fun _ => ⟨_, rfl, rfl, rfl, ?_⟩, fun hNot => absurd ⟨rfl, hRejection⟩ hNot⟩
  obtain ⟨-, hNext⟩ := hCounts.counted _ rfl
  change ∀ prior, record.attempt expected seat = some prior → _ at hNext
  change (nextCount prior).toNat = _
  cases hStored : record.attempt expected seat with
  | some current =>
      rw [GameRecord.counter, hStored, ← hNext current hStored]
      rfl
  | none =>
      have hNone : prior = none := by
        obtain ⟨-, -, hPrior⟩ := bind_eq_ok.mp hPrior
        rw [pure_eq_ok] at hPrior
        cases hOld : t.game id.gameId with
        | none => rw [← hPrior, hOld]; rfl
        | some old =>
            obtain ⟨new, hNew, hExtends⟩ := hGrows.games id.gameId old hOld
            rw [hRecord, Option.some.injEq] at hNew
            subst hNew
            cases hAt : old.attempt expected seat with
            | none => rw [← hPrior, hOld, Option.bind_some, hAt]
            | some _ =>
                have hSome := hExtends.attempts expected seat (by rw [hAt]; rfl)
                rw [hStored] at hSome
                cases hSome
      rw [GameRecord.counter, hStored, hNone]
      rfl

/-- Deciding an action ends in a reply that is stored when it is final. -/
theorem Keeps.answerAction {countInvalid : Bool} (hIdle : Idles p)
    (hOwn : ∀ event u, Issued id expected seat countInvalid event u → p.own event u)
    (hPost : ∀ result log t, Answered t id result → p.post result log t) :
    Keeps inst p (Service.executeAction inst id expected seat action countInvalid) log s := by
  have hFailure : ∀ error : ApplicationError, error.Failure → ∀ log t, p.post (.error error) log t :=
    fun error hError log t => hPost _ _ _ (.failure hError)
  refine Keeps.executeAction hIdle (fun t _ _ _ _ _ u _ _ => ?_) ?_
  · exact hFailure _ (fun _ hSame => by cases hSame) _ u
  · intro t input u clock record past g stored _ _ _ _ _ _ _ _ _ hBasis hWord
    refine Keeps.attempt hIdle (fun next event hMove => ?_) (fun error hError hStale => ?_)
      (fun hTrue error prior attempt _ v _ hAttempt hOther hv hPrior => ?_)
      fun _ error hError _ t _ => hFailure error hError _ t
    · exact .answerCommit hIdle hOwn hPost (hBasis.accepted hMove hWord)
        fun _ _ _ _ _ _ => .uncounted rfl fun hCount => hCount.2
    · refine .answerCommit hIdle hOwn hPost (.stay rfl ⟨rejectionFromEngine inst.quote error, rfl⟩)
        fun _ _ _ _ _ _ => .uncounted rfl fun hCount => hCount.2 (hStale hCount.1)
    · refine .answerCommit hIdle hOwn hPost ((hBasis.later hv).counted hWord hAttempt).1
        fun w row next hw hRow hCounts => ?_
      subst hTrue
      exact .counted hOther hAttempt hPrior hw hRow hCounts

end

end WordArena.Service
