import WordArena.Scheduler.Repository

/-! What one scheduler request can do to the tables. -/
namespace WordArena.Scheduler

open Fallible WordArena.Application

def SchedulerStore.expire (s : SchedulerStore) (now : UnixMillis) : SchedulerStore :=
  { s with
    reservations := Table.update (ReservationRow.expired now) (ReservationRow.finish .expired now)
      s.reservations }

def ReservationRow.activeIn (tournamentId : String) (row : ReservationRow) : Bool :=
  row.request.tournamentId = tournamentId && row.status == .active

def ReservationRow.requestCancellation (now : UnixMillis) (row : ReservationRow) : ReservationRow :=
  { row with status := .cancelRequested, updatedAt := now }

def ReservationRow.renewable (reservation : ExecutionReservation) (now expires : UnixMillis)
    (row : ReservationRow) : Bool :=
  row.ownedBy reservation && row.status == .active && decide (now < row.expiresAt) &&
    decide (row.expiresAt < expires)

def ReservationRow.renewed (now expires : UnixMillis) (row : ReservationRow) : ReservationRow :=
  { row with expiresAt := expires, updatedAt := now }

def ReservationRow.releasable (reservation : ExecutionReservation) (row : ReservationRow) : Bool :=
  row.ownedBy reservation && row.isLive

def ReservationRequest.scopeRows (request : ReservationRequest) : List ScopeRow :=
  request.scopes.map fun scope => ⟨request.reservationId, scope.key⟩

/-- A new reservation and its scope rows. -/
def SchedulerStore.reserve (s : SchedulerStore) (request : ReservationRequest)
    (expiresAt : UnixMillis) : SchedulerStore :=
  { s with
    reservations := s.reservations ++ [⟨request, .active, expiresAt, request.now, none⟩]
    scopes := s.scopes ++ request.scopeRows }

/-- Why a request was granted a reservation: the match is open with the same
inputs, the tournament runs, every scope has room and its token was taken. -/
structure Granted (s : SchedulerStore) (request : ReservationRequest) (expiresAt : UnixMillis)
    (paid : SchedulerStore) : Prop where
  unfinished : s.loadTerminal request.matchId = .ok none
  inputs : (s.priorInputs request.matchId).any (· ≠ request.immutableInputsSha256) = false
  running : s.loadControl request.tournamentId = .running
  paying : ∃ stored consumed, scanScopes s request.now request.scopes [] none = .ok (some (stored, none)) ∧
    stored.mapM consumeToken = .ok consumed ∧ persistBuckets s consumed = .ok paid
  fresh : ∀ row ∈ s.reservations,
    ReservationRow.clash ⟨request, .active, expiresAt, request.now, none⟩ row = false

/-- One request, from the store before it to the store after it. -/
inductive Effect (s : SchedulerStore) : SchedulerRequest → SchedulerStore → Prop where
  | same (request : SchedulerRequest) : Effect s request s
  | configured {limits : List SchedulingLimit} {now : UnixMillis} {t : SchedulerStore}
      (ordered : List SchedulingLimit) (valid : ∀ limit ∈ ordered, limit.validate = true)
      (steps : ordered.foldlM (configureLimit now) s = .ok t) :
      Effect s (.configure limits now) t
  | controlled {tournamentId : String} {next : TournamentWorkerControl} {now : UnixMillis}
      {controls : List ControlRow} (write : s.upsertControl tournamentId next now = .ok controls)
      (goesOn : next ≠ .cancelled) :
      Effect s (.setControl tournamentId next now) { s with controls }
  | cancelled {tournamentId : String} {now : UnixMillis} {controls : List ControlRow}
      (write : s.upsertControl tournamentId .cancelled now = .ok controls) :
      Effect s (.setControl tournamentId .cancelled now)
        { s with
          controls
          reservations := Table.update (ReservationRow.activeIn tournamentId)
            (ReservationRow.requestCancellation now) s.reservations }
  | expired (request : SchedulerRequest) (now : UnixMillis) : Effect s request (s.expire now)
  | limited {request : ReservationRequest} {stored : List StoredLimit} {retryAt : UnixMillis}
      {t : SchedulerStore}
      (scan : scanScopes (s.expire request.now) request.now request.scopes [] none =
        .ok (some (stored, some retryAt)))
      (persist : persistBuckets (s.expire request.now) stored = .ok t) :
      Effect s (.acquire request) t
  | acquired {request : ReservationRequest} {expiresAt : UnixMillis} {paid : SchedulerStore}
      (granted : Granted (s.expire request.now) request expiresAt paid) :
      Effect s (.acquire request) (paid.reserve request expiresAt)
  | renewed {reservation : ExecutionReservation} {now expires : UnixMillis} {durationMs : Int} :
      Effect s (.renew reservation now durationMs)
        { s with
          reservations := Table.update (ReservationRow.renewable reservation now expires)
            (ReservationRow.renewed now expires) s.reservations }
  | released {reservation : ExecutionReservation} {now : UnixMillis} :
      Effect s (.release reservation now)
        { s with
          reservations := Table.update (ReservationRow.releasable reservation)
            (ReservationRow.finish .released now) s.reservations }
  | committed {reservation : ExecutionReservation} {result : TerminalMatchResult}
      {now : UnixMillis} (valid : result.validate = true)
      (unfinished : ∀ row ∈ s.results, row.result.matchId ≠ result.matchId)
      (publisher : ∃ row ∈ s.reservations, row.mayPublish reservation result now = true) :
      Effect s (.commitTerminal reservation result now)
        { s with
          reservations := Table.update (ReservationRow.mayPublish reservation result now)
            (ReservationRow.finish .completed now) s.reservations
          results := s.results ++ [⟨result, reservation.request.reservationId, now⟩] }

section

variable {s t : SchedulerStore}

theorem expireReservations_eq_ok {now : UnixMillis} {ids : List String}
    (h : expireReservations s now = .ok (ids, t)) : t = s.expire now := by
  obtain ⟨reservations, hUpdate, h⟩ := bind_eq_ok.mp h
  cases pure_eq_ok.mp h
  obtain ⟨-, rfl⟩ := Table.updateWhere_eq_some.mp (okOr_eq_ok.mp hUpdate)
  rfl

theorem insertScope_eq_ok {reservationId : String} {scope : SchedulerScope}
    (h : insertScope reservationId s scope = .ok t) :
    t = { s with scopes := s.scopes ++ [⟨reservationId, scope.key⟩] } := by
  obtain ⟨scopes, hInsert, h⟩ := bind_eq_ok.mp h
  cases pure_eq_ok.mp h
  obtain ⟨-, -, rfl⟩ := Table.insert_eq_some.mp (okOr_eq_ok.mp hInsert)
  rfl

theorem insertScopes_eq_ok {reservationId : String} {scopes : List SchedulerScope}
    (h : scopes.foldlM (insertScope reservationId) s = .ok t) :
    t = { s with scopes := s.scopes ++ scopes.map fun scope => ⟨reservationId, scope.key⟩ } := by
  induction scopes generalizing s with
  | nil =>
      cases pure_eq_ok.mp h
      simp
  | cons scope scopes ih =>
      rw [List.foldlM_cons, bind_eq_ok] at h
      obtain ⟨middle, hFirst, h⟩ := h
      rw [ih h, insertScope_eq_ok hFirst]
      simp

theorem insertReservation_eq_ok {request : ReservationRequest} {expiresAt : UnixMillis}
    (h : insertReservation s request expiresAt = .ok t) :
    (∀ row ∈ s.reservations,
      ReservationRow.clash ⟨request, .active, expiresAt, request.now, none⟩ row = false) ∧
    t = s.reserve request expiresAt := by
  obtain ⟨reservations, hInsert, h⟩ := bind_eq_ok.mp h
  obtain ⟨-, hFresh, rfl⟩ := Table.insert_eq_some.mp (okOr_eq_ok.mp hInsert)
  exact ⟨hFresh, insertScopes_eq_ok h⟩

theorem persistBucket_eq_ok {limit : StoredLimit} (h : persistBucket s limit = .ok t) :
    t = { s with buckets := t.buckets } := by
  unfold persistBucket at h
  split at h
  · cases pure_eq_ok.mp h
    rfl
  · obtain ⟨_, -, h⟩ := bind_eq_ok.mp h
    cases pure_eq_ok.mp h
    rfl

/-- Persisting buckets changes no other table. -/
theorem persistBuckets_eq_ok {limits : List StoredLimit} (h : persistBuckets s limits = .ok t) :
    t = { s with buckets := t.buckets } := by
  refine foldlM_invariant (fun t => t = { s with buckets := t.buckets }) h rfl ?_
  intro a limit b _ hPrior hStep
  rw [persistBucket_eq_ok hStep, hPrior]

/-- The outcomes of an acquisition: nothing reserved, buckets refilled only, or
a granted reservation. -/
theorem acquireReservation_eq_ok {request : ReservationRequest} {result : ReservationResult}
    (h : acquireReservation s request = .ok (result, t)) :
    (t = s.expire request.now ∧ (∀ reservation, result ≠ .acquired reservation) ∧
      ∀ retryAt, result ≠ .limited (some retryAt)) ∨
    (∃ stored retryAt, result = .limited (some retryAt) ∧
      scanScopes (s.expire request.now) request.now request.scopes [] none =
        .ok (some (stored, some retryAt)) ∧
      persistBuckets (s.expire request.now) stored = .ok t) ∨
    ∃ expiresAt paid, result = .acquired ⟨request, expiresAt, false⟩ ∧
      Granted (s.expire request.now) request expiresAt paid ∧ t = paid.reserve request expiresAt := by
  obtain ⟨_, -, h⟩ := bind_eq_ok.mp h
  obtain ⟨expiresAt, -, h⟩ := bind_eq_ok.mp h
  obtain ⟨⟨_, e⟩, hExpire, h⟩ := bind_eq_ok.mp h
  cases expireReservations_eq_ok hExpire
  obtain ⟨terminal, hTerminal, h⟩ := bind_eq_ok.mp h
  cases terminal with
  | some existing =>
      obtain ⟨_, -, h⟩ := bind_eq_ok.mp h
      cases pure_eq_ok.mp h
      exact .inl ⟨rfl, nofun, nofun⟩
  | none =>
      obtain ⟨_, hInputs, h⟩ := bind_eq_ok.mp h
      have hInputs := reject_eq_ok.mp hInputs
      split at h
      · cases pure_eq_ok.mp h
        exact .inl ⟨rfl, nofun, nofun⟩
      · cases pure_eq_ok.mp h
        exact .inl ⟨rfl, nofun, nofun⟩
      · cases pure_eq_ok.mp h
        exact .inl ⟨rfl, nofun, nofun⟩
      · rename_i hRunning
        obtain ⟨scanned, hScan, h⟩ := bind_eq_ok.mp h
        split at h
        · cases pure_eq_ok.mp h
          exact .inl ⟨rfl, nofun, nofun⟩
        · obtain ⟨next, hPersist, h⟩ := bind_eq_ok.mp h
          cases pure_eq_ok.mp h
          exact .inr (.inl ⟨_, _, rfl, hScan, hPersist⟩)
        · obtain ⟨consumed, hConsume, h⟩ := bind_eq_ok.mp h
          obtain ⟨paid, hPersist, h⟩ := bind_eq_ok.mp h
          obtain ⟨next, hInsert, h⟩ := bind_eq_ok.mp h
          cases pure_eq_ok.mp h
          obtain ⟨hFresh, rfl⟩ := insertReservation_eq_ok hInsert
          rw [persistBuckets_eq_ok hPersist] at hFresh
          refine .inr (.inr ⟨expiresAt, paid, rfl, ?_, rfl⟩)
          exact ⟨hTerminal, by simpa using hInputs, hRunning, ⟨_, consumed, hScan, hConsume, hPersist⟩,
            hFresh⟩

theorem uniqueLimits_valid {seen : List String} {limits : List SchedulingLimit} {u : Unit}
    (h : uniqueLimits seen limits = .ok u) : ∀ limit ∈ limits, limit.validate = true := by
  induction limits generalizing seen with
  | nil => exact fun _ h => absurd h List.not_mem_nil
  | cons limit limits ih =>
      obtain ⟨_, hValid, h⟩ := bind_eq_ok.mp h
      obtain ⟨_, -, h⟩ := bind_eq_ok.mp h
      exact List.forall_mem_cons.mpr ⟨by simpa using reject_eq_ok.mp hValid, ih h⟩

theorem configureLimits_effect {limits : List SchedulingLimit} {now : UnixMillis} {u : Unit}
    (h : configureLimits s limits now = .ok (u, t)) : Effect s (.configure limits now) t := by
  obtain ⟨_, -, h⟩ := bind_eq_ok.mp h
  obtain ⟨_, hUnique, h⟩ := bind_eq_ok.mp h
  obtain ⟨next, hSteps, h⟩ := bind_eq_ok.mp h
  cases pure_eq_ok.mp h
  exact .configured _ (fun limit hLimit => uniqueLimits_valid hUnique limit
    (List.mem_mergeSort.mp hLimit)) hSteps

theorem setControl_effect {tournamentId : String} {next : TournamentWorkerControl}
    {now : UnixMillis} {u : Unit} (h : setControl s tournamentId next now = .ok (u, t)) :
    Effect s (.setControl tournamentId next now) t := by
  obtain ⟨_, -, h⟩ := bind_eq_ok.mp h
  obtain ⟨_, -, h⟩ := bind_eq_ok.mp h
  obtain ⟨controls, hWrite, h⟩ := bind_eq_ok.mp h
  split at h
  · rename_i hCancelled
    obtain ⟨reservations, hUpdate, h⟩ := bind_eq_ok.mp h
    cases pure_eq_ok.mp h
    obtain ⟨-, rfl⟩ := Table.updateWhere_eq_some.mp (okOr_eq_ok.mp hUpdate)
    subst hCancelled
    exact .cancelled hWrite
  · rename_i hGoesOn
    cases pure_eq_ok.mp h
    exact .controlled hWrite hGoesOn

theorem acquireReservation_effect {request : ReservationRequest} {result : ReservationResult}
    (h : acquireReservation s request = .ok (result, t)) : Effect s (.acquire request) t := by
  rcases acquireReservation_eq_ok h with ⟨rfl, -⟩ | ⟨stored, retryAt, -, hScan, hPersist⟩ |
    ⟨expiresAt, paid, -, hGranted, rfl⟩
  · exact .expired _ _
  · exact .limited hScan hPersist
  · exact .acquired hGranted

theorem renewReservation_eq_ok {reservation renewal : ExecutionReservation} {now : UnixMillis}
    {durationMs : Int} (h : renewReservation s reservation now durationMs = .ok (renewal, t)) :
    ∃ expires, (∃ row ∈ s.reservations, row.renewable reservation now expires = true) ∧
      t = { s with
        reservations := Table.update (ReservationRow.renewable reservation now expires)
          (ReservationRow.renewed now expires) s.reservations } := by
  obtain ⟨_, -, h⟩ := bind_eq_ok.mp h
  obtain ⟨_, -, h⟩ := bind_eq_ok.mp h
  obtain ⟨expires, -, h⟩ := bind_eq_ok.mp h
  obtain ⟨reservations, hUpdate, h⟩ := bind_eq_ok.mp h
  obtain ⟨_, hOne, h⟩ := bind_eq_ok.mp h
  cases pure_eq_ok.mp h
  obtain ⟨-, rfl⟩ := Table.updateWhere_eq_some.mp (okOr_eq_ok.mp hUpdate)
  exact ⟨expires, Table.exists_of_countP_one (reject_eq_ok.mp hOne), rfl⟩

theorem releaseReservation_effect {reservation : ExecutionReservation} {now : UnixMillis} {u : Unit}
    (h : releaseReservation s reservation now = .ok (u, t)) :
    Effect s (.release reservation now) t := by
  obtain ⟨reservations, hUpdate, h⟩ := bind_eq_ok.mp h
  obtain ⟨_, -, h⟩ := bind_eq_ok.mp h
  cases pure_eq_ok.mp h
  obtain ⟨-, rfl⟩ := Table.updateWhere_eq_some.mp (okOr_eq_ok.mp hUpdate)
  exact .released

theorem loadTerminal_none {matchId : String} (h : s.loadTerminal matchId = .ok none) :
    ∀ row ∈ s.results, row.result.matchId ≠ matchId := by
  unfold SchedulerStore.loadTerminal at h
  split at h
  · rename_i hNone
    simpa using hNone
  · obtain ⟨_, -, h⟩ := bind_eq_ok.mp h
    cases pure_eq_ok.mp h

/-- A commit finds its own result, or publishes it for an open match. -/
theorem commitResult_eq_ok {reservation : ExecutionReservation} {result : TerminalMatchResult}
    {now : UnixMillis} {answer : TerminalCommitResult}
    (h : commitResult s reservation result now = .ok (answer, t)) :
    (answer = .alreadyApplied result ∧ t = s) ∨
    answer = .applied result ∧ result.validate = true ∧
      (∀ row ∈ s.results, row.result.matchId ≠ result.matchId) ∧
      (∃ row ∈ s.reservations, row.mayPublish reservation result now = true) ∧
      t = { s with
        reservations := Table.update (ReservationRow.mayPublish reservation result now)
          (ReservationRow.finish .completed now) s.reservations
        results := s.results ++ [⟨result, reservation.request.reservationId, now⟩] } := by
  obtain ⟨_, hValid, h⟩ := bind_eq_ok.mp h
  obtain ⟨_, -, h⟩ := bind_eq_ok.mp h
  obtain ⟨terminal, hTerminal, h⟩ := bind_eq_ok.mp h
  cases terminal with
  | some existing =>
      obtain ⟨_, hSame, h⟩ := bind_eq_ok.mp h
      have hSame := not_not.mp (reject_eq_ok.mp hSame)
      cases pure_eq_ok.mp h
      exact .inl ⟨by rw [hSame], rfl⟩
  | none =>
      obtain ⟨reservations, hUpdate, h⟩ := bind_eq_ok.mp h
      obtain ⟨_, hOne, h⟩ := bind_eq_ok.mp h
      obtain ⟨results, hInsert, h⟩ := bind_eq_ok.mp h
      cases pure_eq_ok.mp h
      obtain ⟨-, rfl⟩ := Table.updateWhere_eq_some.mp (okOr_eq_ok.mp hUpdate)
      obtain ⟨-, -, rfl⟩ := Table.insert_eq_some.mp (okOr_eq_ok.mp hInsert)
      exact .inr ⟨rfl, by simpa using reject_eq_ok.mp hValid, loadTerminal_none hTerminal,
        Table.exists_of_countP_one (reject_eq_ok.mp hOne), rfl⟩

theorem recovery_effect {now : UnixMillis} {snapshot : RecoverySnapshot}
    (h : recovery s now = .ok (snapshot, t)) : Effect s (.reconstruct now) t := by
  obtain ⟨⟨_, e⟩, hExpire, h⟩ := bind_eq_ok.mp h
  cases expireReservations_eq_ok hExpire
  obtain ⟨active, -, h⟩ := bind_eq_ok.mp h
  cases pure_eq_ok.mp h
  exact .expired _ _

/-- Every request has one of the listed effects, whatever it answers. -/
theorem step_effect (s : SchedulerStore) (request : SchedulerRequest) :
    Effect s request (schedulerRepository.step s request).2 := by
  have transacted {α : Type} {attempt : Except SchedulerRepositoryError (α × SchedulerStore)}
      (h : ∀ result t, attempt = .ok (result, t) → Effect s request t) :
      Effect s request (transact s attempt).2 := by
    rcases transact_cases s attempt with ⟨result, t, hOk, hEq⟩ | ⟨e, -, hEq⟩
    · rw [hEq]
      exact h result t hOk
    · rw [hEq]
      exact .same _
  cases request with
  | configure limits now => exact transacted fun _ _ => configureLimits_effect
  | setControl tournamentId control now => exact transacted fun _ _ => setControl_effect
  | acquire request => exact transacted fun _ _ => acquireReservation_effect
  | renew reservation now durationMs =>
      refine transacted fun _ _ h => ?_
      obtain ⟨expires, -, rfl⟩ := renewReservation_eq_ok h
      exact .renewed
  | release reservation now => exact transacted fun _ _ => releaseReservation_effect
  | commitTerminal reservation result now =>
      refine transacted fun _ _ h => ?_
      rcases commitResult_eq_ok h with ⟨-, rfl⟩ | ⟨-, hValid, hOpen, hPublisher, rfl⟩
      · exact .same _
      · exact .committed hValid hOpen hPublisher
  | reconstruct now => exact transacted fun _ _ => recovery_effect

end

end WordArena.Scheduler
