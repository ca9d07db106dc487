import WordArena.Jobs.Repository

/-! What one repository request can do to the job tables. Every invariant of
the queue is proved by cases on this relation. -/
namespace WordArena.Jobs

open Fallible WordArena.Application

def JobStore.recovered (s : JobStore) (now : UnixMillis) : JobStore where
  jobs := Table.update (JobRow.spent now) (JobRow.close now) s.jobs
  attempts := Table.update (JobAttempt.expired now) (JobAttempt.abandon s now) s.attempts

def JobRow.renewed (now expiresAt : UnixMillis) (row : JobRow) : JobRow :=
  { row with leaseExpiresAt := some expiresAt, updatedAt := now }

def JobAttempt.renewed (expiresAt : UnixMillis) (row : JobAttempt) : JobAttempt :=
  { row with leaseExpiresAt := expiresAt }

def JobRow.completed (outcome : JobHandlerOutcome) (now : UnixMillis) (status : JobStatus)
    (availableAt : UnixMillis) (finishedAt : Option UnixMillis) (row : JobRow) : JobRow :=
  { row with
    status, availableAt, finishedAt
    owner := none
    leasedAt := none
    leaseExpiresAt := none
    lastErrorCode := (outcomeColumns outcome).2
    updatedAt := now }

def JobAttempt.completed (outcome : JobHandlerOutcome) (now : UnixMillis) (status : JobStatus)
    (availableAt : UnixMillis) (row : JobAttempt) : JobAttempt :=
  { row with
    finishedAt := some now
    handlerOutcome := some (outcomeColumns outcome).1
    finalStatus := some status
    errorCode := (outcomeColumns outcome).2
    nextAvailableAt := if status = .queued then some availableAt else none }

def JobRow.cancelled (now : UnixMillis) (row : JobRow) : JobRow :=
  { row with
    status := .cancelled
    cancellationRequestedAt := some now
    updatedAt := now
    finishedAt := some now }

def JobRow.requestCancellation (now : UnixMillis) (row : JobRow) : JobRow :=
  { row with
    cancellationRequestedAt := row.cancellationRequestedAt.or (some now)
    updatedAt := now }

def JobRow.isAt (jobId : String) (status : JobStatus) (row : JobRow) : Bool :=
  row.jobId = jobId && row.status == status

/-- Every changed row satisfies the checks of its table. -/
def Checks (hit : JobRow → Bool) (change : JobRow → JobRow) (rows : List JobRow) : Prop :=
  ∀ row ∈ rows, hit row = true → (change row).check = true

/-- One request, from the store before it to the store after it. -/
inductive Effect (codec : JobCodec) (s : JobStore) : JobRequest → JobStore → Prop where
  | same (request : JobRequest) : Effect codec s request s
  | enqueued {job : NewJob} {now : UnixMillis} (valid : job.validate codec = true)
      (check : (job.row codec now).check = true)
      (fresh : ∀ row ∈ s.jobs, (job.row codec now).clash row = false) :
      Effect codec s (.enqueue job now) { s with jobs := s.jobs ++ [job.row codec now] }
  | recovered {request : ClaimJobs}
      (checks : Checks (JobRow.spent request.now) (JobRow.close request.now) s.jobs) :
      Effect codec s (.claim request) (s.recovered request.now)
  | claimed {request : ClaimJobs} {expiresAt : UnixMillis} {chosen : JobRow}
      (spent : Checks (JobRow.spent request.now) (JobRow.close request.now) s.jobs)
      (mem : chosen ∈ (s.recovered request.now).jobs)
      (claimable : chosen.claimable request = true)
      (checks : Checks (fun row => row.jobId = chosen.jobId)
        (JobRow.lease request.workerId request.now expiresAt) (s.recovered request.now).jobs) :
      Effect codec s (.claim request)
        { jobs := Table.update (fun row => row.jobId = chosen.jobId)
            (JobRow.lease request.workerId request.now expiresAt) (s.recovered request.now).jobs
          attempts := (s.recovered request.now).attempts ++
            [(chosen.lease request.workerId request.now expiresAt).attemptRow request.workerId
              request.now expiresAt] }
  | renewed {lease : JobLease} {now expiresAt : UnixMillis} {durationMs : Int} {held : JobRow}
      (mem : held ∈ s.jobs) (live : held.heldBy lease now = true)
      (checks : Checks (fun row => row.heldBy lease now && row.extends expiresAt)
        (JobRow.renewed now expiresAt) s.jobs)
      (longer : held.extends expiresAt = true) :
      Effect codec s (.renew lease now durationMs)
        { jobs := Table.update (fun row => row.heldBy lease now && row.extends expiresAt)
            (JobRow.renewed now expiresAt) s.jobs
          attempts := Table.update (JobAttempt.openFor lease) (JobAttempt.renewed expiresAt)
            s.attempts }
  | completed {lease : JobLease} {outcome : JobHandlerOutcome} {now : UnixMillis} {held : JobRow}
      {status : JobStatus} {availableAt : UnixMillis} {finishedAt : Option UnixMillis}
      (mem : held ∈ s.jobs) (live : held.heldBy lease now = true)
      (transition : completionTransition held.toJobRecord outcome now =
        .ok (status, availableAt, finishedAt))
      (checks : Checks (JobRow.heldBy lease now)
        (JobRow.completed outcome now status availableAt finishedAt) s.jobs) :
      Effect codec s (.complete lease outcome now)
        { jobs := Table.update (JobRow.heldBy lease now)
            (JobRow.completed outcome now status availableAt finishedAt) s.jobs
          attempts := Table.update (JobAttempt.openFor lease)
            (JobAttempt.completed outcome now status availableAt) s.attempts }
  | cancelled {jobId : String} {now : UnixMillis}
      (checks : Checks (JobRow.isAt jobId .queued) (JobRow.cancelled now) s.jobs) :
      Effect codec s (.cancel jobId now)
        { s with jobs := Table.update (JobRow.isAt jobId .queued) (JobRow.cancelled now) s.jobs }
  | requested {jobId : String} {now : UnixMillis}
      (checks : Checks (JobRow.isAt jobId .leased) (JobRow.requestCancellation now) s.jobs) :
      Effect codec s (.cancel jobId now)
        { s with
          jobs := Table.update (JobRow.isAt jobId .leased) (JobRow.requestCancellation now) s.jobs }

section

variable {codec : JobCodec} {s t : JobStore}

theorem recoverExpired_eq_ok {now : UnixMillis} (h : recoverExpired s now = .ok t) :
    Checks (JobRow.spent now) (JobRow.close now) s.jobs ∧ t = s.recovered now := by
  obtain ⟨attempts, hAttempts, h⟩ := bind_eq_ok.mp h
  obtain ⟨jobs, hJobs, h⟩ := bind_eq_ok.mp h
  cases pure_eq_ok.mp h
  obtain ⟨-, rfl⟩ := Table.updateWhere_eq_some.mp (okOr_eq_ok.mp hAttempts)
  obtain ⟨hChecks, rfl⟩ := Table.updateWhere_eq_some.mp (okOr_eq_ok.mp hJobs)
  exact ⟨hChecks, rfl⟩

theorem record_eq_ok {row : JobRow} {job : JobRecord} (h : row.record codec = .ok job) :
    job = row.toJobRecord := by
  unfold JobRow.record at h
  simp only at h
  split at h
  · cases h
  · cases h
    rfl

/-- The head of a sorted selection is one of the selected rows. -/
theorem head_selected {rows : List JobRow} {p : JobRow → Bool} {le : JobRow → JobRow → Bool}
    {row : JobRow} (h : ((rows.filter p).mergeSort le).head? = some row) :
    row ∈ rows ∧ p row = true := by
  have hSorted : row ∈ (rows.filter p).mergeSort le := List.mem_of_head? h
  exact List.mem_filter.mp (List.mem_mergeSort.mp hSorted)

theorem claimJob_effect {request : ClaimJobs} {result : Option JobLease}
    (h : claimJob codec s request = .ok (result, t)) : Effect codec s (.claim request) t := by
  obtain ⟨_, -, h⟩ := bind_eq_ok.mp h
  obtain ⟨expiresAt, -, h⟩ := bind_eq_ok.mp h
  obtain ⟨r, hRecover, h⟩ := bind_eq_ok.mp h
  obtain ⟨hSpent, rfl⟩ := recoverExpired_eq_ok hRecover
  split at h
  · cases pure_eq_ok.mp h
    exact .recovered hSpent
  · rename_i chosen hChosen
    obtain ⟨jobs, hJobs, h⟩ := bind_eq_ok.mp h
    obtain ⟨job, -, h⟩ := bind_eq_ok.mp h
    obtain ⟨attempts, hAttempts, h⟩ := bind_eq_ok.mp h
    cases pure_eq_ok.mp h
    obtain ⟨hChecks, rfl⟩ := Table.updateWhere_eq_some.mp (okOr_eq_ok.mp hJobs)
    obtain ⟨-, -, rfl⟩ := Table.insert_eq_some.mp (okOr_eq_ok.mp hAttempts)
    obtain ⟨hMem, hClaimable⟩ := head_selected hChosen
    exact .claimed hSpent hMem hClaimable hChecks

theorem renewJob_effect {lease : JobLease} {now : UnixMillis} {durationMs : Int}
    {result : RenewalResult} (h : renewJob s lease now durationMs = .ok (result, t)) :
    Effect codec s (.renew lease now durationMs) t := by
  obtain ⟨_, -, h⟩ := bind_eq_ok.mp h
  obtain ⟨expiresAt, -, h⟩ := bind_eq_ok.mp h
  obtain ⟨jobs, hJobs, h⟩ := bind_eq_ok.mp h
  obtain ⟨_, hOne, h⟩ := bind_eq_ok.mp h
  obtain ⟨attempts, hAttempts, h⟩ := bind_eq_ok.mp h
  obtain ⟨_, -, h⟩ := bind_eq_ok.mp h
  obtain ⟨row, -, h⟩ := bind_eq_ok.mp h
  cases pure_eq_ok.mp h
  obtain ⟨hChecks, rfl⟩ := Table.updateWhere_eq_some.mp (okOr_eq_ok.mp hJobs)
  obtain ⟨-, rfl⟩ := Table.updateWhere_eq_some.mp (okOr_eq_ok.mp hAttempts)
  obtain ⟨held, hMem, hHit⟩ := Table.exists_of_countP_one (reject_eq_ok.mp hOne)
  rw [Bool.and_eq_true] at hHit
  exact .renewed hMem hHit.1 hChecks hHit.2

theorem find_mem {jobId : String} {row : JobRow} (h : s.find jobId = some row) :
    row ∈ s.jobs ∧ row.jobId = jobId :=
  ⟨List.mem_of_find?_eq_some h, by simpa using List.find?_some h⟩

theorem validateActiveCompletion_heldBy {row : JobRow} {lease : JobLease}
    {outcome : JobHandlerOutcome} {now : UnixMillis} {u : Unit}
    (h : validateActiveCompletion row.toJobRecord lease outcome now = .ok u)
    (hId : row.jobId = lease.job.jobId) : row.heldBy lease now = true := by
  obtain ⟨expiry, hExpiry, h⟩ := bind_eq_ok.mp h
  have hExpiry := okOr_eq_ok.mp hExpiry
  have hGuard := reject_eq_ok.mp h
  simp only [not_or, not_not, not_le] at hGuard
  obtain ⟨hStatus, hAttempt, hOwner, hGeneration, hLive, -⟩ := hGuard
  simp [JobRow.heldBy, hId, hStatus, hAttempt, hOwner, hGeneration, hExpiry, hLive]

theorem completeJob_effect {lease : JobLease} {outcome : JobHandlerOutcome} {now : UnixMillis}
    {result : CompletionResult} (h : completeJob codec s lease outcome now = .ok (result, t)) :
    Effect codec s (.complete lease outcome now) t := by
  obtain ⟨_, -, h⟩ := bind_eq_ok.mp h
  obtain ⟨_, -, h⟩ := bind_eq_ok.mp h
  obtain ⟨existing, -, h⟩ := bind_eq_ok.mp h
  cases existing with
  | some job =>
      cases pure_eq_ok.mp h
      exact .same _
  | none =>
      obtain ⟨row, hRow, h⟩ := bind_eq_ok.mp h
      obtain ⟨current, hCurrent, h⟩ := bind_eq_ok.mp h
      obtain ⟨_, hActive, h⟩ := bind_eq_ok.mp h
      obtain ⟨⟨status, availableAt, finishedAt⟩, hTransition, h⟩ := bind_eq_ok.mp h
      obtain ⟨jobs, hJobs, h⟩ := bind_eq_ok.mp h
      obtain ⟨_, -, h⟩ := bind_eq_ok.mp h
      obtain ⟨attempts, hAttempts, h⟩ := bind_eq_ok.mp h
      obtain ⟨_, -, h⟩ := bind_eq_ok.mp h
      obtain ⟨_, -, h⟩ := bind_eq_ok.mp h
      obtain ⟨_, -, h⟩ := bind_eq_ok.mp h
      cases pure_eq_ok.mp h
      cases record_eq_ok hCurrent
      obtain ⟨hMem, hId⟩ := find_mem (okOr_eq_ok.mp hRow)
      obtain ⟨hChecks, rfl⟩ := Table.updateWhere_eq_some.mp (okOr_eq_ok.mp hJobs)
      obtain ⟨-, rfl⟩ := Table.updateWhere_eq_some.mp (okOr_eq_ok.mp hAttempts)
      exact .completed hMem (validateActiveCompletion_heldBy hActive hId) hTransition hChecks

theorem cancelJob_effect {jobId : String} {now : UnixMillis} {result : CancellationResult}
    (h : cancelJob s jobId now = .ok (result, t)) : Effect codec s (.cancel jobId now) t := by
  obtain ⟨_, -, h⟩ := bind_eq_ok.mp h
  obtain ⟨_, -, h⟩ := bind_eq_ok.mp h
  obtain ⟨row, -, h⟩ := bind_eq_ok.mp h
  split at h
  · cases pure_eq_ok.mp h
    exact .same _
  · split at h
    · obtain ⟨jobs, hJobs, h⟩ := bind_eq_ok.mp h
      obtain ⟨_, -, h⟩ := bind_eq_ok.mp h
      cases pure_eq_ok.mp h
      obtain ⟨hChecks, rfl⟩ := Table.updateWhere_eq_some.mp (okOr_eq_ok.mp hJobs)
      exact .cancelled hChecks
    · obtain ⟨jobs, hJobs, h⟩ := bind_eq_ok.mp h
      obtain ⟨_, -, h⟩ := bind_eq_ok.mp h
      cases pure_eq_ok.mp h
      obtain ⟨hChecks, rfl⟩ := Table.updateWhere_eq_some.mp (okOr_eq_ok.mp hJobs)
      exact .requested hChecks

theorem enqueueJob_effect (codec : JobCodec) (s : JobStore) (job : NewJob) (now : UnixMillis) :
    Effect codec s (.enqueue job now) (enqueueJob codec s job now).2 := by
  unfold enqueueJob
  split
  · exact .same _
  · rename_i hGuard
    simp only
    split
    · exact .same _
    · rename_i hCheck
      split
      · exact .same _
      · rename_i hFresh
        refine .enqueued ?_ ?_ ?_
        · simp_all
        · simpa using hCheck
        · simpa using hFresh

/-- Every request has one of the listed effects, whatever it answers. -/
theorem step_effect (codec : JobCodec) (s : JobStore) (request : JobRequest) :
    Effect codec s request ((jobRepository codec).step s request).2 := by
  have transacted {α : Type} {attempt : Except JobRepositoryError (α × JobStore)}
      (h : ∀ result t, attempt = .ok (result, t) → Effect codec s request t) :
      Effect codec s request (transact s attempt).2 := by
    rcases transact_cases s attempt with ⟨result, t, hOk, hEq⟩ | ⟨e, -, hEq⟩
    · rw [hEq]
      exact h result t hOk
    · rw [hEq]
      exact .same _
  cases request with
  | enqueue job now => exact enqueueJob_effect codec s job now
  | load jobId => exact .same _
  | claim request => exact transacted fun _ _ => claimJob_effect
  | renew lease now durationMs => exact transacted fun _ _ => renewJob_effect
  | complete lease outcome now => exact transacted fun _ _ => completeJob_effect
  | cancel jobId now => exact transacted fun _ _ => cancelJob_effect

end

end WordArena.Jobs
