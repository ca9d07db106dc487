import WordArena.Service.Contract

/-! What each call of the service promises while any number of other calls run,
and what follows for whole runs of the service. -/
namespace WordArena.Service

open Fallible WordArena.Engine WordArena.Lexicon WordArena.Application

/-! Rules for loops and observed results. -/

section

variable {inst : Installation} {α β γ : Type} {log : Log} {s : Store}

/-- Go on with the result of a use case, an error included. -/
theorem Keeps.observe {p : ServicePromise (Except ApplicationError β)} {task : Task α}
    {f : Except ApplicationError α → Task β} (hSane : Sane inst s)
    (h : Keeps inst (p.ending fun result log t => Keeps inst p (f result) log t) task log s) :
    Keeps inst p (Service.observe task >>= f) log s := by
  have hBound : Keeps inst p (ExceptT.mk (task.run >>= fun result => (f result).run)) log s :=
    Meets.bind hSane h
  have hSame : (Service.observe task >>= f).run = task.run >>= fun result => (f result).run := by
    change Program.bind (Program.bind task.run _) _ = Program.bind task.run _
    generalize task.run = program
    induction program with
    | done result => rfl
    | query request next ih => exact congrArg (Program.query request) (funext ih)
  rw [Keeps, hSame]
  exact hBound

/-- Sequencing two use cases. -/
theorem Keeps.bind {p : ServicePromise (Except ApplicationError β)} {task : Task α}
    {f : α → Task β} (hSane : Sane inst s)
    (h : Keeps inst (p.ending fun result log t => Keeps inst p (Service.settle result >>= f) log t)
      task log s) : Keeps inst p (task >>= f) log s :=
  Meets.bind hSane (h.weaken fun result _ _ _ hNext => by cases result <;> exact hNext)

/-- A loop keeps a promise when each round keeps an invariant of what is left,
what was collected, what was done and the store. -/
theorem Keeps.foldlM {p : ServicePromise (Except ApplicationError β)} {f : β → γ → Task β}
    (inv : List γ → β → Log → Store → Prop)
    (hStep : ∀ x xs b log t, Sane inst t → inv (x :: xs) b log t →
      Keeps inst (p.ending fun result log t => match result with
        | .ok b => inv xs b log t
        | .error error => ∀ u, Grows t u → Sane inst u → p.post (.error error) log u) (f b x) log t)
    (hDone : ∀ b log t u, inv [] b log t → Grows t u → p.post (.ok b) log u) {xs : List γ} {b : β}
    (hSane : Sane inst s) (h : inv xs b log s) : Keeps inst p (xs.foldlM f b) log s := by
  induction xs generalizing b log s with
  | nil => exact fun t hGrows _ => hDone b log s t h hGrows
  | cons x xs ih =>
      rw [List.foldlM_cons]
      refine Keeps.bind hSane ((hStep x xs b log s hSane h).weaken fun result log' t ht hNext => ?_)
      cases result with
      | ok b' => exact Keeps.value (ih ht hNext)
      | error error => exact Keeps.fail hNext

end

/-! Replies of single calls. -/

/-- A store with the same games and creations as another, in the same order. -/
def SameGames (s t : Store) : Prop :=
  s.games.map (·.gameId) = t.games.map (·.gameId) ∧ s.creations = t.creations

theorem ensureAuthority_failure {credential : CompetitiveSeatCredential}
    {command : GameActionCommand} {error : ApplicationError}
    (h : ensureAuthority credential command = .error error) : error.Failure := by
  have hCases : error = .wrongGameAuthority command.gameId ∨
      error = .wrongSeatAuthority credential.seat command.turn.seat ∨
      error = .turnVersionMismatch command.turn.number command.expectedVersion := by
    rcases bind_eq_error.mp h with hGame | ⟨-, -, hRest⟩
    · exact .inl (reject_eq_error.mp hGame).2.symm
    · rcases bind_eq_error.mp hRest with hSeat | ⟨-, -, hTurn⟩
      · exact .inr (.inl (reject_eq_error.mp hSeat).2.symm)
      · exact .inr (.inr (reject_eq_error.mp hTurn).2.symm)
  rcases hCases with rfl | rfl | rfl <;> exact fun _ hSame => by cases hSame

/-- An authorised command acts for the seat of its turn. -/
theorem ensureAuthority_seat {credential : CompetitiveSeatCredential} {command : GameActionCommand}
    {u : Unit} (h : ensureAuthority credential command = .ok u) :
    command.turn.seat = credential.seat := by
  obtain ⟨-, -, h⟩ := bind_eq_ok.mp h
  obtain ⟨_, hSeat, -⟩ := bind_eq_ok.mp h
  exact not_not.mp (reject_eq_ok.mp hSeat)

section

variable {inst : Installation} {log : Log} {s : Store}
  {p : ServicePromise (Except ApplicationError GameActionResult)}

/-- A first lookup answers at once or leaves the command to be executed. -/
theorem Keeps.lookup {task : Task GameActionResult} (id : CommandIdentity) (hOwn : Idles p)
    (hFound : ∀ lookup result log t, Grows s t →
      lookupIdempotency t id.gameId id.keyDigest id.payloadSha256 = lookup →
      lookupReply lookup = some result → ∀ u, Grows t u → p.post result log u)
    (hMissing : ∀ log t, Grows s t → Sane inst t →
      lookupIdempotency t id.gameId id.keyDigest id.payloadSha256 = .missing →
      Keeps inst p task log t) :
    Keeps inst p (cachedOutcome id.gameId id.keyDigest id.payloadSha256 >>= fun
      | some result => Service.settle result
      | none => task) log s := by
  refine Keeps.cached id hOwn fun t hGrows ht input lookup hLookup _ => ?_
  cases hReply : lookupReply lookup with
  | none =>
      refine hMissing _ t hGrows ht (hLookup.trans ?_)
      cases lookup with
      | missing => rfl
      | payloadConflict => cases hReply
      | found outcome => cases hReply
  | some result =>
      exact Keeps.settle fun u hu _ => hFound lookup result _ t hGrows hLookup hReply u hu

theorem Keeps.act {credential : CompetitiveSeatCredential} {command : GameActionCommand}
    (hIdle : Idles p) (hOwn : ∀ event u, Issued (command.identity inst.platform)
      command.expectedVersion command.turn.seat true event u → p.own event u)
    (hPost : ∀ result log t, Answered t (command.identity inst.platform) result →
      p.post result log t) :
    Keeps inst p (Service.act inst credential command) log s := by
  refine Keeps.cases (fun _ hAuthority => ?_) fun error hError t _ _ => ?_
  · rw [← ensureAuthority_seat hAuthority]
    refine .lookup (command.identity inst.platform) hIdle (fun lookup result log t _ hLookup hReply u hu => ?_) fun log t _ _ _ => ?_
    · exact hPost _ _ _ ((Answered.lookup hLookup hReply).later hu)
    · exact .answerAction hIdle hOwn hPost
  · exact hPost _ _ _ (.failure (ensureAuthority_failure hError))

theorem deadlineNotReached_answered {id : CommandIdentity} :
    Answered s id (.error (.actionRejected .deadlineNotReached)) := by
  refine .other ?_
  rintro (result | rejection) hFinal hSame
  · cases hSame
  · cases hSame
    exact hFinal

/-- A due deadline of the expected turn, or nothing but the reply that there is
none. -/
theorem Keeps.due {stored : StoredGame} {expected : UInt64} {f : TurnDeadline → Task GameActionResult}
    (hOwn : Idles p)
    (hEarly : ∀ more : Log, (∀ event ∈ more, event.request = .now) → ∀ t,
      p.post (.error (.actionRejected .deadlineNotReached)) (log ++ more) t)
    (hDue : ∀ deadline t clock, stored.turnDeadline = some deadline → deadline.turn = expected →
      Grows s t → Sane inst t → deadline.deadlineAt ≤ clock.clock.toInt →
      p.may log ⟨t, clock, .now, (clock.clock.toInt : UnixMillis)⟩ →
      Keeps inst p (f deadline) (log ++ [⟨t, clock, .now, (clock.clock.toInt : UnixMillis)⟩]) t) :
    Keeps inst p (dueDeadline stored expected >>= f) log s := by
  have hNever : ∀ t, p.post (.error (.actionRejected .deadlineNotReached)) log t := by
    intro t
    have hNone := hEarly [] (fun _ hEvent => absurd hEvent List.not_mem_nil) t
    rwa [List.append_nil] at hNone
  unfold dueDeadline
  split
  · exact Keeps.fail fun t _ _ => hNever t
  · rename_i deadline hDeadline
    by_cases hTurn : deadline.turn ≠ expected
    · rw [if_pos hTurn]
      exact Keeps.fail fun t _ _ => hNever t
    · rw [if_neg hTurn]
      refine Meets.read (fun _ _ => hOwn _ (.inl trivial)) (fun _ _ => rfl) fun t hGrows ht clock hMay => ?_
      change Keeps inst p ((if clock.clock.toInt < deadline.deadlineAt then
        Service.settle (.error (.actionRejected .deadlineNotReached))
          else Service.settle (.ok deadline)) >>= f) _ t
      by_cases hNow : clock.clock.toInt < deadline.deadlineAt
      · rw [if_pos hNow]
        refine Keeps.fail fun u _ _ => hEarly [_] (fun event hEvent => ?_) u
        rw [List.mem_singleton] at hEvent
        rw [hEvent]
      · rw [if_neg hNow]
        exact Keeps.value (hDue deadline t clock hDeadline (not_not.mp hTurn) hGrows ht
          (Int.not_lt.mp hNow) hMay)

theorem Keeps.resolveTimeout {command : TimeoutCommand} (hIdle : Idles p)
    (hOwn : ∀ event u, (∃ key seat, Issued (command.identity inst key) command.expectedVersion seat
      false event u) → p.own event u)
    (hPost : ∀ result log t id, id.gameId = command.gameId → Answered t id result →
      p.post result log t) :
    Keeps inst p (Service.resolveTimeout inst command) log s := by
  have hFailure : ∀ error : ApplicationError, error.Failure → ∀ log t, p.post (.error error) log t :=
    fun error hError log t => hPost _ _ _ ⟨command.gameId, .replicate 32 0, "", ""⟩ rfl
      (.failure hError)
  refine Keeps.cases (fun key _ => ?_) fun error hError t _ _ => ?_
  · have hReply : ∀ result log t, Answered t (command.identity inst key) result →
        p.post result log t :=
      fun result log t hAnswered => hPost result log t _ rfl hAnswered
    refine .lookup (command.identity inst key) hIdle
      (fun lookup result log t _ hLookup hFound u hu =>
        hReply _ _ _ ((Answered.lookup hLookup hFound).later hu)) fun log t _ _ _ => ?_
    refine Keeps.load hIdle (fun t _ _ _ _ _ u _ _ => ?_) fun t _ _ input record past g stored _ _ _ _ => ?_
    · exact hFailure (.repository .notFound) (fun _ hSame => by cases hSame) _ u
    · refine .due hIdle (fun more _ t => hReply _ _ _ deadlineNotReached_answered)
        fun deadline _ _ _ _ _ _ _ _ => ?_
      exact .answerAction hIdle (fun event u hIssued => hOwn event u ⟨key, deadline.seat, hIssued⟩)
        hReply
  · refine hFailure error ?_ _ t
    unfold timeoutKey IdempotencyKey.new at hError
    split at hError
    · cases hError
    · cases hError
      exact fun _ hSame => by cases hSame

end

/-! Creation. -/

/-- A creation reply that is stored under the key and payload of its command. -/
def CreatedAs (inst : Installation) (command : CreateGameCommand) (s : Store)
    (created : CreatedGame) : Prop :=
  ∃ row, s.creation (digestKey inst.platform command.idempotencyKey) = some row ∧
    row.payloadSha256 = payloadSha256 inst.platform command.payload.json ∧
    created = createdGame row.result

/-- A step that adds one game under a key that was not used before. -/
structure Creates (keyDigest : Digest) (s t : Store) : Prop where
  unused : s.creation keyDigest = none
  used : (t.creation keyDigest).isSome = true
  one : ∃ gameId, t.games.map (·.gameId) = s.games.map (·.gameId) ++ [gameId]

/-- An insert that a creation has made. -/
def Opens (inst : Installation) (command : CreateGameCommand) (event : ServiceEvent) (u : Store) :
    Prop :=
  ∃ input record creation ruleset first,
    event = ⟨event.before, input, .insertIdempotent record creation,
      (.ok () : Except RepositoryError Unit)⟩ ∧
    Inserts inst.platform event.before u record creation ruleset first ∧
    Creates (digestKey inst.platform command.idempotencyKey) event.before u

section

variable {inst : Installation} {log : Log} {s t : Store} {command : CreateGameCommand}

theorem Grows.creation (h : Grows s t) {keyDigest : Digest} {row : CreationIdempotencyRecord}
    (hRow : s.creation keyDigest = some row) : t.creation keyDigest = some row := by
  obtain ⟨rest, hRest⟩ := h.creations
  rw [Store.creation, ← hRest, List.find?_append]
  exact Option.or_eq_some_iff.mpr (.inl hRow)

theorem CreatedAs.later {created : CreatedGame} (h : CreatedAs inst command s created)
    (hGrows : Grows s t) : CreatedAs inst command t created := by
  obtain ⟨row, hRow, hRest⟩ := h
  exact ⟨row, hGrows.creation hRow, hRest⟩

/-- What a lookup replies is stored. -/
theorem CreatedAs.lookup {created : CreatedGame}
    (h : creationReply (loadCreationIdempotency s (digestKey inst.platform command.idempotencyKey)
      (payloadSha256 inst.platform command.payload.json)) = .ok (some created)) :
    CreatedAs inst command s created := by
  unfold loadCreationIdempotency at h
  split at h
  · cases h
  · rename_i row hRow
    split at h
    · cases h
    · rename_i hSame
      cases h
      exact ⟨row, hRow, not_not.mp hSame, rfl⟩

variable {p : ServicePromise (Except ApplicationError CreatedGame)}

theorem Keeps.cachedCreation {f : Option CreatedGame → Task CreatedGame} (hOwn : Idles p)
    (hPost : ∀ result log t, (∀ created, result = .ok created → CreatedAs inst command t created) →
      p.post result log t)
    (hMissing : ∀ log t, Grows s t → Sane inst t → Keeps inst p (f none) log t)
    (hFound : ∀ created, f (some created) = Service.settle (.ok created)) :
    Keeps inst p (Service.cachedCreation (digestKey inst.platform command.idempotencyKey)
      (payloadSha256 inst.platform command.payload.json) >>= f) log s := by
  refine Meets.read (fun _ _ => hOwn _ (.inl trivial)) (fun _ _ => rfl) fun t hGrows ht input _ => ?_
  change Keeps inst p (Service.settle (creationReply (loadCreationIdempotency t _ _)) >>= f) _ t
  refine Keeps.cases (fun reply hReply => ?_) fun error _ u _ _ => hPost _ _ _ fun _ hSame => by cases hSame
  cases reply with
  | none => exact hMissing _ t hGrows ht
  | some created =>
      rw [hFound]
      refine Keeps.settle fun u hu _ => hPost _ _ _ fun other hSame => ?_
      cases hSame
      exact (CreatedAs.lookup hReply).later hu

/-- Inserting a dealt game either stores it under an unused key or answers with
what is stored. -/
theorem Keeps.insertCreated {g : Game} {createdAt : UnixMillis}
    (hIdle : Idles p)
    (hInsert : ∀ event u, Opens inst command event u → p.own event u)
    (hPost : ∀ result log t, (∀ created, result = .ok created → CreatedAs inst command t created) →
      p.post result log t)
    (hLineage : Lineage inst command.gameId [] g) (hWord : createdAt < 2 ^ 63) :
    Keeps inst p (Service.insertCreated inst command g createdAt) log s := by
  refine Keeps.ask fun t hGrows ht input response u hPerform _ => ?_
  rcases transact_cases t ((insertGame inst.platform t (creationRecordOf inst command g createdAt)
    (creationIdempotencyOf inst command g createdAt)).map fun u => ((), u)) with
      ⟨_, next, hAttempt, hAnswer⟩ | ⟨error, hAttempt, hAnswer⟩
  · obtain ⟨rfl, rfl⟩ := Prod.mk.inj (hAnswer.symm.trans hPerform)
    cases hInserted : insertGame inst.platform t (creationRecordOf inst command g createdAt)
      (creationIdempotencyOf inst command g createdAt) with
    | error error =>
        rw [hInserted] at hAttempt
        cases hAttempt
    | ok after =>
        rw [hInserted] at hAttempt
        cases hAttempt
        obtain ⟨hSane, hStep, hCreations, hFresh, hIds⟩ := ht.insert hLineage rfl rfl hWord hInserted
        obtain ⟨ruleset, first, hInserts⟩ := insertGame_ok hInserted
        have hUnused : t.creation (digestKey inst.platform command.idempotencyKey) = none :=
          List.find?_eq_none.mpr fun row hRow => by
            simpa [creationIdempotencyOf] using (hFresh row hRow).symm
        have hUsed : next.creation (digestKey inst.platform command.idempotencyKey) =
            some (creationIdempotencyOf inst command g createdAt) := by
          rw [Store.creation] at hUnused ⊢
          rw [hCreations, List.find?_append, hUnused]
          simp [creationIdempotencyOf]
        refine ⟨hSane, hStep, hInsert _ _ ⟨input, _, _, ruleset, first, rfl, hInserts,
          hUnused, by rw [hUsed]; rfl, _, hIds⟩, ?_⟩
        refine Keeps.settle fun w hw _ => hPost _ _ _ fun created hSame => ?_
        cases hSame
        exact CreatedAs.later ⟨_, hUsed, rfl, rfl⟩ hw
  · obtain ⟨rfl, rfl⟩ := Prod.mk.inj (hAnswer.symm.trans hPerform)
    refine ⟨ht, .refl _, hIdle _ (.inr (.inr ⟨_, _, _, _, _, rfl⟩)), ?_⟩
    by_cases hRace : error = .conflict ∨ error = .alreadyExists
    · simp only [if_pos hRace]
      refine Keeps.cachedCreation hIdle hPost (fun log w _ _ => ?_) fun _ => rfl
      exact Keeps.settle fun _ _ _ => hPost _ _ _ fun _ hSame => by cases hSame
    · simp only [if_neg hRace]
      exact Keeps.settle fun _ _ _ => hPost _ _ _ fun _ hSame => by cases hSame

theorem Keeps.createGame (hIdle : Idles p)
    (hInsert : ∀ event u, Opens inst command event u → p.own event u)
    (hPost : ∀ result log t, (∀ created, result = .ok created → CreatedAs inst command t created) →
      p.post result log t) :
    Keeps inst p (Service.createGame inst command) log s := by
  have hError : ∀ error log t, p.post (.error error) log t :=
    fun error log t => hPost _ _ _ fun _ hSame => by cases hSame
  refine Keeps.cachedCreation hIdle hPost (fun log t _ _ => ?_) fun _ => rfl
  refine Keeps.cases (fun ruleset _ => ?_) fun error _ u _ _ => hError error _ u
  refine Keeps.cases (fun lexicon hLexicon => ?_) fun error _ u _ _ => hError error _ u
  refine Keeps.read hIdle trivial (fun _ _ => rfl) fun u _ _ clock _ => ?_
  refine Keeps.read hIdle trivial (fun _ _ => rfl) fun v _ _ input _ => ?_
  refine Keeps.cases (fun g hGame => ?_) fun error _ u _ _ => hError error _ u
  exact .insertCreated hIdle hInsert hPost
    (.fresh (okOr_eq_ok.mp hLexicon) (mapErr_eq_ok.mp hGame)) clock.clock.toInt_lt

end

/-! Whole calls. -/

section

variable {inst : Installation} {log : Log} {s : Store}

/-- A sweep that only has to keep the store sane. -/
theorem Keeps.resolveDueTimeouts {p : ServicePromise (Except ApplicationError (List TimeoutCommand))}
    {limit : UInt32} (hIdle : Idles p)
    (hOwn : ∀ event u, (∃ command key seat, Issued (TimeoutCommand.identity inst command key)
      command.expectedVersion seat false event u) → p.own event u)
    (hPost : ∀ result log t, p.post result log t) :
    Keeps inst p (Service.resolveDueTimeouts inst limit) log s := by
  refine Keeps.read hIdle trivial (fun _ _ => rfl) fun t _ _ clock _ => ?_
  refine Keeps.read hIdle trivial (fun _ _ => rfl) fun u _ hSane input _ => ?_
  refine Keeps.foldlM (fun _ _ _ _ => True) (fun command rest committed log t ht _ => ?_)
    (fun _ _ _ _ _ _ => hPost _ _ _) hSane trivial
  refine Keeps.observe ht (Keeps.resolveTimeout hIdle (fun event u hIssued => hOwn event u ⟨command, hIssued⟩)
    fun result log t _ _ _ => ?_)
  cases result with
  | ok result => exact Keeps.settle fun _ _ _ => trivial
  | error error =>
      change Keeps inst _ (if error.isRace = true then Service.settle (.ok committed)
        else Service.settle (.error error)) log t
      split
      · exact Keeps.settle fun _ _ _ => trivial
      · exact Keeps.settle fun _ _ _ _ _ _ => hPost _ _ _

end

/-- What the reply of a call says about every later store. -/
def Replied (inst : Installation) (s : Store) : ServiceCall → Reply → Prop
  | .create command, .created result =>
      ∀ created, result = .ok created → CreatedAs inst command s created
  | .act _ command, .acted result => Answered s (command.identity inst.platform) result
  | .timeout command, .acted result => ∃ id, id.gameId = command.gameId ∧ Answered s id result
  | .sweep _, .swept _ => True
  | _, _ => False

/-- What one step of a call writes. -/
def Writes (inst : Installation) (event : ServiceEvent) (u : Store) : ServiceCall → Prop
  | .create command => Quiet event ∧ u = event.before ∨ Opens inst command event u
  | .act _ command => Quiet event ∧ u = event.before ∨
      Issued (command.identity inst.platform) command.expectedVersion command.turn.seat true event u
  | .timeout command => Quiet event ∧ u = event.before ∨
      ∃ key seat, Issued (command.identity inst key) command.expectedVersion seat false event u
  | .sweep _ => Quiet event ∧ u = event.before ∨
      ∃ command key seat, Issued (TimeoutCommand.identity inst command key) command.expectedVersion seat
        false event u

/-- What one step of a call does to the games that exist. -/
def Allots (inst : Installation) (s t : Store) : ServiceCall → Prop
  | .create command => SameGames s t ∨
      Creates (digestKey inst.platform command.idempotencyKey) s t
  | _ => SameGames s t

/-- What every call promises. -/
def callPromise (inst : Installation) (call : ServiceCall) : ServicePromise Reply where
  own event u := Writes inst event u call
  may _ _ := True
  post reply _ t := Replied inst t call reply

theorem Issued.sameGames {id : CommandIdentity} {expected : UInt64} {seat : Seat} {countInvalid : Bool}
    {event : ServiceEvent} {u : Store} (h : Issued id expected seat countInvalid event u) :
    SameGames event.before u := by
  obtain ⟨_, _, _, _, _, -, hTouches, -⟩ := h
  exact ⟨hTouches.ids.symm, hTouches.creations.symm⟩

theorem Writes.allots {inst : Installation} {event : ServiceEvent} {u : Store} {call : ServiceCall}
    (h : Writes inst event u call) : Allots inst event.before u call := by
  cases call with
  | create command =>
      rcases h with ⟨-, rfl⟩ | ⟨_, _, _, _, _, -, -, hCreates⟩
      · exact .inl ⟨rfl, rfl⟩
      · exact .inr hCreates
  | act credential command =>
      rcases h with ⟨-, rfl⟩ | hIssued
      · exact ⟨rfl, rfl⟩
      · exact hIssued.sameGames
  | timeout command =>
      rcases h with ⟨-, rfl⟩ | ⟨_, _, hIssued⟩
      · exact ⟨rfl, rfl⟩
      · exact hIssued.sameGames
  | sweep limit =>
      rcases h with ⟨-, rfl⟩ | ⟨_, _, _, hIssued⟩
      · exact ⟨rfl, rfl⟩
      · exact hIssued.sameGames

theorem serve_meets (inst : Installation) (call : ServiceCall) {s : Store} (h : Sane inst s) :
    Meets (repository inst) (discipline inst) (callPromise inst call) (serve inst call) [] s := by
  cases call with
  | create command =>
      refine Meets.bind h (Keeps.createGame (p := _) (fun _ hQuiet => .inl ⟨hQuiet, rfl⟩)
        (fun _ _ hOpens => .inr hOpens) fun result log t hResult u hu hSane => ?_)
      exact fun created hSame => (hResult created hSame).later hu
  | act credential command =>
      refine Meets.bind h (Keeps.act (p := _) (fun _ hQuiet => .inl ⟨hQuiet, rfl⟩)
        (fun _ _ hIssued => .inr hIssued) fun result log t hResult u hu _ => ?_)
      exact hResult.later hu
  | timeout command =>
      refine Meets.bind h (Keeps.resolveTimeout (p := _) (fun _ hQuiet => .inl ⟨hQuiet, rfl⟩)
        (fun _ _ hIssued => .inr hIssued)
        fun result log t id hId hResult u hu _ => ?_)
      exact ⟨id, hId, hResult.later hu⟩
  | sweep limit =>
      exact Meets.bind h (Keeps.resolveDueTimeouts (p := _) (fun _ hQuiet => .inl ⟨hQuiet, rfl⟩)
        (fun _ _ hIssued => .inr hIssued)
        fun result log t u hu _ => trivial)

abbrev ServiceThread := Thread Store Input Request Request.Response ServiceCall Reply

/-- A call that has returned. -/
def ServicePool.Returned (pool : ServicePool) (i : Nat) (call : ServiceCall) (reply : Reply) :
    Prop :=
  ∃ log, pool.threads[i]? = some (⟨call, log, .done reply⟩ : ServiceThread)

/-- Pools whose calls all keep their promises. -/
abbrev ServicePool.Sound (inst : Installation) (origin : Store) (pool : ServicePool) : Prop :=
  Pool.Sound (repository inst) (discipline inst) (fun _ => callPromise inst) origin pool

/-- The promises ask nothing of a schedule. -/
theorem ServicePool.permits (inst : Installation) (pool : ServicePool) (action : ServiceAction) :
    Pool.Permits (repository inst) (fun _ => True) (fun _ => callPromise inst) pool action := by
  cases action with
  | start call => trivial
  | advance i input => exact fun _ _ _ _ _ => trivial

theorem ServicePool.Sound.step {inst : Installation} {origin : Store} {pool : ServicePool}
    (h : pool.Sound inst origin) (action : ServiceAction) :
    ((service inst).step pool action).2.Sound inst origin :=
  Pool.Sound.step (fun _ call _ _ _ hSane => serve_meets inst call hSane) h
    (pool.permits inst action)

theorem ServicePool.Sound.after {inst : Installation} {origin : Store} {pool : ServicePool}
    (h : pool.Sound inst origin) (actions : List ServiceAction) :
    ((service inst).after pool actions).Sound inst origin :=
  (service inst).after_invariant (fun _ action hSound => hSound.step action) h actions

/-- A step of a call does to the games what the call promises. -/
theorem ServicePool.Sound.allots {inst : Installation} {origin : Store} {pool : ServicePool}
    {i : Nat} {thread : ServiceThread} (h : pool.Sound inst origin)
    (hThread : pool.threads[i]? = some thread) (input : Input) :
    ((service inst).step pool (.advance i input)).2.store = pool.store ∨
      Allots inst pool.store ((service inst).step pool (.advance i input)).2.store thread.call := by
  rcases Pool.Sound.own (serve inst) h (pool.permits inst (.advance i input)) hThread with
    hKept | ⟨event, hBefore, hWrites⟩
  · exact .inl hKept
  · exact .inr (hBefore ▸ Writes.allots hWrites)

theorem ServicePool.Sound.grows_after {inst : Installation} {origin : Store} {pool : ServicePool}
    (h : pool.Sound inst origin) (actions : List ServiceAction) :
    Grows pool.store ((service inst).after pool actions).store :=
  (ServicePool.Sound.after ⟨h.inv, .refl _, h.threads⟩ actions).grows

theorem ServicePool.Sound.returned {inst : Installation} {origin : Store} {pool : ServicePool}
    (h : pool.Sound inst origin) {i : Nat} {call : ServiceCall} {reply : Reply}
    (hReturned : pool.Returned i call reply) : Replied inst pool.store call reply := by
  obtain ⟨log, hThread⟩ := hReturned
  exact h.finished hThread

theorem ServicePool.sound_empty (inst : Installation) : ServicePool.empty.Sound inst .empty :=
  ⟨.empty inst, .refl _, fun _ _ _ _ h => absurd h (by simp [ServicePool.empty])⟩

end WordArena.Service
