import Mathlib.Tactic.Positivity
import WordArena.Jobs.Enqueue

/-! Completing an attempt. Its row keeps the outcome for good, so repetitions are
recognised whatever became of the job, and a retry waits for an exact time. -/
namespace WordArena.Jobs

open Fallible WordArena.Application

/-- The attempt a lease names, finished or not. -/
def JobAttempt.namedBy (lease : JobLease) (row : JobAttempt) : Bool :=
  row.jobId = lease.job.jobId && row.attempt == lease.job.attempt &&
    row.leaseGeneration == lease.leaseGeneration

/-- The attempt of a lease is closed with an outcome. -/
def JobStore.Recorded (s : JobStore) (lease : JobLease) (columns : AttemptOutcome × Option String) :
    Prop :=
  ∃ row, s.attempts.find? (JobAttempt.namedBy lease) = some row ∧ row.finishedAt.isSome = true ∧
    row.handlerOutcome = some columns.1 ∧ row.errorCode = columns.2

theorem outcomeColumns_injective : Function.Injective outcomeColumns := by
  intro a b h
  cases a <;> cases b <;> simp_all [outcomeColumns]

section

variable {codec : JobCodec} {s t : JobStore} {lease : JobLease}
  {columns : AttemptOutcome × Option String}

/-! Closed attempts stay as they are. -/

theorem JobStore.Recorded.update {hit : JobAttempt → Bool} {change : JobAttempt → JobAttempt}
    (h : s.Recorded lease columns) (keeps : Keeps change)
    (hOpen : ∀ row, hit row = true → row.finishedAt = none) (jobs : List JobRow) :
    JobStore.Recorded ⟨jobs, Table.update hit change s.attempts⟩ lease columns := by
  obtain ⟨row, hRow, hFinished, hColumns⟩ := h
  have hMiss : ¬ hit row = true := fun hHit => by simp [hOpen row hHit] at hFinished
  refine ⟨row, ?_, hFinished, hColumns⟩
  rw [Table.find?_update, hRow, Option.map_some, if_neg hMiss]
  intro other
  rw [JobAttempt.namedBy, keeps.jobId, keeps.attempt, keeps.generation, ← JobAttempt.namedBy]

theorem JobStore.Recorded.append (h : s.Recorded lease columns) (jobs : List JobRow)
    (row : JobAttempt) : JobStore.Recorded ⟨jobs, s.attempts ++ [row]⟩ lease columns := by
  obtain ⟨found, hFound, hColumns⟩ := h
  refine ⟨found, ?_, hColumns⟩
  rw [List.find?_append, hFound]
  rfl

theorem JobStore.Recorded.recovered (h : s.Recorded lease columns) (now : UnixMillis) :
    (s.recovered now).Recorded lease columns := by
  refine h.update (keeps_abandon s now) (fun row hHit => ?_) _
  simp only [JobAttempt.expired, Bool.and_eq_true, Option.isNone_iff_eq_none] at hHit
  exact hHit.1

theorem openFor_unfinished {row : JobAttempt} (h : row.openFor lease = true) :
    row.finishedAt = none := by
  simp only [JobAttempt.openFor, Bool.and_eq_true, Option.isNone_iff_eq_none] at h
  exact h.2

/-- No request reopens or rewrites a closed attempt. -/
theorem Effect.recorded {request : JobRequest} (effect : Effect codec s request t)
    (h : s.Recorded lease columns) : t.Recorded lease columns := by
  cases effect with
  | same => exact h
  | enqueued => exact h
  | recovered => exact h.recovered _
  | claimed => exact (h.recovered _).append _ _
  | renewed => exact h.update (keeps_renewed _) (fun _ => openFor_unfinished) _
  | completed => exact h.update (keeps_completed ..) (fun _ => openFor_unfinished) _
  | cancelled => exact h
  | requested => exact h

theorem recorded_after (h : s.Recorded lease columns) (requests : List JobRequest) :
    ((jobRepository codec).after s requests).Recorded lease columns :=
  Machine.after_invariant _ (fun s request => (step_effect codec s request).recorded) h requests

/-! Repetitions. -/

theorem existingCompletion_recorded {outcome : JobHandlerOutcome} (h : s.Recorded lease columns) :
    existingCompletion codec s lease outcome = (do
      reject (columns ≠ outcomeColumns outcome) .conflict
      let row ← okOr (s.find lease.job.jobId) .unavailable
      let job ← row.record codec
      pure (some job)) := by
  obtain ⟨row, hRow, -, hOutcome, hError⟩ := h
  have hFound : ((s.attempts.find? (JobAttempt.namedBy lease)).bind fun row =>
      row.handlerOutcome.map fun stored => (stored, row.errorCode)) = some columns := by
    rw [hRow, Option.bind_some, hOutcome, hError]
    rfl
  unfold existingCompletion
  simp only
  split
  · rename_i hNone
    exact absurd (hFound.symm.trans hNone) (Option.some_ne_none _)
  · rename_i found hSome
    cases hFound.symm.trans hSome
    rfl

/-- The answers to a completion whose outcome is known already. -/
theorem complete_recorded {outcome other : JobHandlerOutcome} {time : UnixMillis}
    (h : s.Recorded lease (outcomeColumns outcome)) (sound : AllSound codec s)
    (hJob : lease.job.jobId ∈ s.jobs.map (·.jobId)) (hTime : 0 ≤ time)
    (hValid : other.validate = true) :
    (other = outcome → ∃ job, (jobRepository codec).step s (.complete lease other time) =
      (.completed (.ok (.alreadyApplied job)), s)) ∧
    (other ≠ outcome → (jobRepository codec).step s (.complete lease other time) =
      (.completed (.error .conflict), s)) := by
  have hGuard : reject (other.validate = false) JobRepositoryError.corrupt = .ok () :=
    reject_eq_ok.mpr (by simp [hValid])
  have hClock : reject (time < 0) JobRepositoryError.corrupt = .ok () :=
    reject_eq_ok.mpr (Int.not_lt.mpr hTime)
  constructor
  · rintro rfl
    obtain ⟨job, hMem, hId⟩ := List.mem_map.mp hJob
    obtain ⟨row, hRow⟩ : ∃ row, s.find lease.job.jobId = some row :=
      Option.isSome_iff_exists.mp (List.find?_isSome.mpr ⟨job, hMem, by simpa using hId⟩)
    have hExisting : existingCompletion codec s lease other = .ok (some row.toJobRecord) := by
      rw [existingCompletion_recorded h, hRow]
      refine bind_eq_ok.mpr ⟨(), reject_eq_ok.mpr (not_not.mpr rfl), ?_⟩
      exact bind_eq_ok.mpr ⟨row, rfl, bind_eq_ok.mpr ⟨_, (sound row (find_mem hRow).1).record, rfl⟩⟩
    have hComplete : completeJob codec s lease other time = .ok (.alreadyApplied row.toJobRecord, s) := by
      rw [completeJob, hGuard, ok_bind, hClock, ok_bind, hExisting]
      rfl
    exact ⟨row.toJobRecord, congrArg (fun attempt => (transact s attempt).map JobResponse.completed id) hComplete⟩
  · intro hOther
    have hExisting : existingCompletion codec s lease other = .error .conflict := by
      rw [existingCompletion_recorded h, reject, if_pos (outcomeColumns_injective.ne hOther.symm)]
      rfl
    have hComplete : completeJob codec s lease other time = .error .conflict := by
      rw [completeJob, hGuard, ok_bind, hClock, ok_bind, hExisting]
      rfl
    exact congrArg (fun attempt => (transact s attempt).map JobResponse.completed id) hComplete

/-! The first completion. -/

/-- What an applied completion checked and wrote. -/
structure Applied (codec : JobCodec) (s : JobStore) (lease : JobLease) (outcome : JobHandlerOutcome)
    (now : UnixMillis) (t : JobStore) (held : JobRow) (status : JobStatus)
    (availableAt : UnixMillis) (finishedAt : Option UnixMillis) : Prop where
  fresh : existingCompletion codec s lease outcome = .ok none
  found : s.find lease.job.jobId = some held
  active : validateActiveCompletion held.toJobRecord lease outcome now = .ok ()
  transition : completionTransition held.toJobRecord outcome now = .ok (status, availableAt, finishedAt)
  unfinished : ∃ row ∈ s.attempts, row.openFor lease = true
  jobs : t.jobs = Table.update (JobRow.heldBy lease now)
    (JobRow.completed outcome now status availableAt finishedAt) s.jobs
  attempts : t.attempts = Table.update (JobAttempt.openFor lease)
    (JobAttempt.completed outcome now status availableAt) s.attempts

theorem completeJob_applied {outcome : JobHandlerOutcome} {now : UnixMillis} {job : JobRecord}
    (h : completeJob codec s lease outcome now = .ok (.applied job, t)) :
    outcome.validate = true ∧ 0 ≤ now ∧ ∃ held status availableAt finishedAt,
      Applied codec s lease outcome now t held status availableAt finishedAt := by
  obtain ⟨_, hValid, h⟩ := bind_eq_ok.mp h
  obtain ⟨_, hNow, h⟩ := bind_eq_ok.mp h
  refine ⟨by simpa using reject_eq_ok.mp hValid, Int.not_lt.mp (reject_eq_ok.mp hNow), ?_⟩
  obtain ⟨existing, hFresh, h⟩ := bind_eq_ok.mp h
  cases existing with
  | some existing => cases pure_eq_ok.mp h
  | none =>
      obtain ⟨held, hHeld, h⟩ := bind_eq_ok.mp h
      obtain ⟨current, hCurrent, h⟩ := bind_eq_ok.mp h
      obtain ⟨_, hActive, h⟩ := bind_eq_ok.mp h
      obtain ⟨⟨status, availableAt, finishedAt⟩, hTransition, h⟩ := bind_eq_ok.mp h
      obtain ⟨jobs, hJobs, h⟩ := bind_eq_ok.mp h
      obtain ⟨_, -, h⟩ := bind_eq_ok.mp h
      obtain ⟨attempts, hAttempts, h⟩ := bind_eq_ok.mp h
      obtain ⟨_, hOne, h⟩ := bind_eq_ok.mp h
      obtain ⟨_, -, h⟩ := bind_eq_ok.mp h
      obtain ⟨_, -, h⟩ := bind_eq_ok.mp h
      cases pure_eq_ok.mp h
      cases record_eq_ok hCurrent
      obtain ⟨-, hJobs⟩ := Table.updateWhere_eq_some.mp (okOr_eq_ok.mp hJobs)
      obtain ⟨-, hAttempts⟩ := Table.updateWhere_eq_some.mp (okOr_eq_ok.mp hAttempts)
      exact ⟨held, status, availableAt, finishedAt, hFresh, okOr_eq_ok.mp hHeld, hActive, hTransition,
        Table.exists_of_countP_one (reject_eq_ok.mp hOne), hJobs, hAttempts⟩

section

variable {outcome : JobHandlerOutcome} {now : UnixMillis} {held : JobRow} {status : JobStatus}
  {availableAt : UnixMillis} {finishedAt : Option UnixMillis}

/-- The attempt of a lease is the only one it names. -/
theorem Consistent.namedBy_unique (h : Consistent s) {a b : JobAttempt} (ha : a ∈ s.attempts)
    (hb : b ∈ s.attempts) (hNamedA : a.namedBy lease = true) (hNamedB : b.namedBy lease = true) :
    a = b := by
  simp only [JobAttempt.namedBy, Bool.and_eq_true, decide_eq_true_eq, beq_iff_eq] at hNamedA hNamedB
  obtain ⟨job, hJob, hId⟩ := List.mem_map.mp (h.owned a ha)
  have hNodup : ((attemptsOf s.attempts job.jobId).map (·.leaseGeneration)).Nodup := by
    rw [(h.fenced job hJob).generations]
    exact List.nodup_range'
  refine Table.eq_of_key hNodup (mem_attemptsOf.mpr ⟨ha, hId.symm⟩) (mem_attemptsOf.mpr ⟨hb, ?_⟩) ?_
  · rw [hNamedB.1.1, ← hNamedA.1.1, hId]
  · rw [hNamedA.2, hNamedB.2]

theorem Applied.recorded (h : Applied codec s lease outcome now t held status availableAt finishedAt)
    (consistent : Consistent s) : t.Recorded lease (outcomeColumns outcome) := by
  obtain ⟨row, hRow, hOpen⟩ := h.unfinished
  have hNamed : row.namedBy lease = true := by
    simp only [JobAttempt.openFor, Bool.and_eq_true] at hOpen
    simpa [JobAttempt.namedBy] using hOpen.1
  obtain ⟨found, hFound⟩ : ∃ found, s.attempts.find? (JobAttempt.namedBy lease) = some found :=
    Option.isSome_iff_exists.mp (List.find?_isSome.mpr ⟨row, hRow, hNamed⟩)
  obtain rfl : found = row := consistent.namedBy_unique (List.mem_of_find?_eq_some hFound) hRow
    (List.find?_some hFound) hNamed
  refine ⟨found.completed outcome now status availableAt, ?_, rfl, rfl, rfl⟩
  rw [h.attempts, Table.find?_update, hFound, Option.map_some, if_pos hOpen]
  exact fun _ => rfl

theorem Applied.find (h : Applied codec s lease outcome now t held status availableAt finishedAt) :
    held.heldBy lease now = true ∧ t.find lease.job.jobId =
      some (held.completed outcome now status availableAt finishedAt) := by
  have hHeld := validateActiveCompletion_heldBy h.active (find_mem h.found).2
  refine ⟨hHeld, ?_⟩
  have hFound : s.jobs.find? (fun row => row.jobId = lease.job.jobId) = some held := h.found
  rw [JobStore.find, h.jobs, Table.find?_update, hFound, Option.map_some, if_pos hHeld]
  exact fun _ => rfl

/-! Backoff. -/

/-- Saturation and the limit of the shift only matter beyond the largest backoff. -/
theorem retryBackoffMs_exact {initialMs maximumMs : Int} (attempt : Nat) (hInitial : 0 < initialMs)
    (hMaximum : maximumMs ≤ jobMaxBackoffMs) :
    retryBackoffMs initialMs maximumMs attempt = min (initialMs * 2 ^ (attempt - 1)) maximumMs := by
  have hCap : maximumMs ≤ 2 ^ 62 := hMaximum.trans (by decide)
  have hSaturate (z : Int) (hz : 0 ≤ z) : min (Checked.saturateI64 z) maximumMs = min z maximumMs := by
    unfold Checked.saturateI64
    omega
  have hPositive (e : Nat) : 0 ≤ initialMs * 2 ^ e := Int.mul_nonneg hInitial.le (by positivity)
  rw [retryBackoffMs, hSaturate _ (hPositive _)]
  rcases Nat.le_total (attempt - 1) 62 with hShort | hLong
  · rw [min_eq_left hShort]
  · have hLarge : ∀ e, 62 ≤ e → maximumMs ≤ initialMs * 2 ^ e := by
      intro e he
      calc maximumMs ≤ 1 * 2 ^ 62 := by rwa [one_mul]
        _ ≤ initialMs * 2 ^ e :=
          mul_le_mul hInitial (pow_le_pow_right₀ (by decide) he) (by positivity) hInitial.le
    rw [min_eq_right hLong, min_eq_right (hLarge 62 le_rfl), min_eq_right (hLarge _ hLong)]

theorem Sound.backoff {row : JobRow} (h : Sound codec row) :
    0 < row.retryInitialMs ∧ row.retryMaxMs ≤ jobMaxBackoffMs := by
  have hInput := h.input
  simp only [NewJob.validate, Bool.and_eq_true, decide_eq_true_eq] at hInput
  exact ⟨hInput.1.1.1.1.2, hInput.1.1.2⟩

/-- A retry queues the job again and lets nobody claim it before its time. -/
theorem Applied.retried {errorCode : String}
    (h : Applied codec s lease (.retryable errorCode) now t held status availableAt finishedAt)
    (hRoom : held.attempt < held.maxAttempts) (sound : Sound codec held) :
    status = .queued ∧ ∀ request : ClaimJobs,
      (held.completed (.retryable errorCode) now status availableAt finishedAt).claimable request = true ↔
        held.kind ∈ request.kinds ∧
          now + min (held.retryInitialMs * 2 ^ (held.attempt - 1)) held.retryMaxMs ≤ request.now := by
  have hTransition := h.transition
  rw [completionTransition, if_neg (Nat.not_le.mpr hRoom)] at hTransition
  obtain ⟨next, hNext, hTransition⟩ := bind_eq_ok.mp hTransition
  obtain ⟨-, rfl⟩ := Checked.addI64_eq_some.mp (okOr_eq_ok.mp hNext)
  cases pure_eq_ok.mp hTransition
  obtain ⟨hInitial, hMaximum⟩ := sound.backoff
  rw [retryBackoffMs_exact _ hInitial hMaximum]
  have hKept : held.cancellationRequestedAt = none := by
    obtain ⟨_, -, hActive⟩ := bind_eq_ok.mp h.active
    have hGuard := reject_eq_ok.mp hActive
    simp only [not_or] at hGuard
    by_contra hSome
    exact hGuard.2.2.2.2.2 ⟨Option.isSome_iff_ne_none.mpr hSome, nofun⟩
  refine ⟨rfl, fun request => ?_⟩
  simp [JobRow.claimable, JobRow.completed, JobRow.expiredAt, hKept, hRoom, and_comm]

theorem Applied.exhausted {errorCode : String}
    (h : Applied codec s lease (.retryable errorCode) now t held status availableAt finishedAt)
    (hLast : held.attempt = held.maxAttempts) : status = .exhausted := by
  have hTransition := h.transition
  rw [completionTransition, if_pos hLast.ge] at hTransition
  cases pure_eq_ok.mp hTransition
  rfl

end

end

/-- Completions are idempotent and exclusive. Once a completion was applied in a state
reached from the empty tables, and whatever happens later, the same completion is
answered as already applied and any other one of the lease as a conflict, both without
a change. A retryable completion before the last attempt makes the job claimable from
its backoff on, exactly computed, and at the last attempt exhausts it. -/
theorem completion_idempotent_exclusive (codec : JobCodec) (requests : List JobRequest)
    (lease : JobLease) (outcome : JobHandlerOutcome) (now : UnixMillis) (job : JobRecord) :
    let s := (jobRepository codec).after .empty requests
    let t := ((jobRepository codec).step s (.complete lease outcome now)).2
    ((jobRepository codec).step s (.complete lease outcome now)).1 =
      .completed (.ok (.applied job)) →
    (∀ (later : List JobRequest) (time : UnixMillis), 0 ≤ time →
      let u := (jobRepository codec).after t later
      (∃ current, (jobRepository codec).step u (.complete lease outcome time) =
        (.completed (.ok (.alreadyApplied current)), u)) ∧
      ∀ other : JobHandlerOutcome, other.validate = true → other ≠ outcome →
        (jobRepository codec).step u (.complete lease other time) =
          (.completed (.error .conflict), u)) ∧
    ∀ errorCode, outcome = .retryable errorCode →
      ∃ row, t.find lease.job.jobId = some row ∧ row.attempt = lease.job.attempt ∧
        (row.attempt < row.maxAttempts → row.status = .queued ∧ ∀ request : ClaimJobs,
          row.claimable request = true ↔ row.kind ∈ request.kinds ∧
            now + min (row.retryInitialMs * 2 ^ (row.attempt - 1)) row.retryMaxMs ≤ request.now) ∧
        (row.attempt = row.maxAttempts → row.status = .exhausted) := by
  intro s t h
  have hConsistent : Consistent s := consistent_after codec consistent_empty requests
  have hSound : AllSound codec s := allSound_after codec requests
  obtain ⟨next, hComplete⟩ : ∃ next, completeJob codec s lease outcome now = .ok (.applied job, next) :=
    transact_fst_ok.mp (JobResponse.completed.inj h)
  have hNext : t = next := by
    change (transact s (completeJob codec s lease outcome now)).2 = next
    rw [hComplete]
    rfl
  obtain ⟨hValid, hNow, held, status, availableAt, finishedAt, hApplied⟩ := completeJob_applied hComplete
  rw [← hNext] at hApplied
  obtain ⟨hHeld, hFound⟩ := hApplied.find
  constructor
  · intro later time hTime u
    have hRecorded : u.Recorded lease (outcomeColumns outcome) :=
      recorded_after (hApplied.recorded hConsistent) later
    have hRun : u = (jobRepository codec).after .empty (requests ++ .complete lease outcome now :: later) :=
      (Machine.after_append (jobRepository codec) .empty requests
        (.complete lease outcome now :: later)).symm
    have hLoads : AllSound codec u := hRun ▸ allSound_after codec _
    have hStays : lease.job.jobId ∈ u.jobs.map (·.jobId) := by
      have hThen : Consistent t := (step_effect codec s _).consistent hConsistent
      obtain ⟨hMem, hId⟩ := find_mem hFound
      obtain ⟨final, hFinal, hSame, -⟩ := advances_after codec hThen later _ hMem
      exact List.mem_map.mpr ⟨final, hFinal, hSame.trans hId⟩
    exact ⟨(complete_recorded hRecorded hLoads hStays hTime hValid).1 rfl,
      fun other hOther => (complete_recorded hRecorded hLoads hStays hTime hOther).2⟩
  · rintro errorCode rfl
    refine ⟨_, hFound, ?_, ?_, ?_⟩
    · simp only [JobRow.heldBy, Bool.and_eq_true, beq_iff_eq] at hHeld
      exact hHeld.1.1.2
    · exact fun hRoom => hApplied.retried hRoom (hSound held (find_mem hApplied.found).1)
    · exact fun hLast => hApplied.exhausted hLast

/-! One job that is retried once. -/

def demoLeased : List JobRequest := [.enqueue demoJob 0, .claim demoClaim]

/-- The job while it waits for its second attempt. -/
def demoWaiting : JobRecord :=
  (((demoJob.row demoCodec 0).lease "worker" 1 101).completed (.retryable "busy") 2 .queued 12
    none).toJobRecord

theorem demoJob_retried : ((jobRepository demoCodec).step
    ((jobRepository demoCodec).after .empty demoLeased)
      (.complete demoLease (.retryable "busy") 2)).1 = .completed (.ok (.applied demoWaiting)) := by
  rw [demoWaiting, demoLease, demoCodec_eq]
  decide +kernel

theorem demoJob_completion_known :
    let t := (jobRepository demoCodec).after .empty
      (demoLeased ++ [.complete demoLease (.retryable "busy") 2])
    (∃ current, (jobRepository demoCodec).step t (.complete demoLease (.retryable "busy") 50) =
      (.completed (.ok (.alreadyApplied current)), t)) ∧
    (jobRepository demoCodec).step t (.complete demoLease .succeeded 50) =
      (.completed (.error .conflict), t) ∧
    ∃ row, t.find "job" = some row ∧ row.attempt = 1 := by
  have hAfter : (jobRepository demoCodec).after .empty
      (demoLeased ++ [.complete demoLease (.retryable "busy") 2]) =
      ((jobRepository demoCodec).step ((jobRepository demoCodec).after .empty demoLeased)
        (.complete demoLease (.retryable "busy") 2)).2 := by
    rw [Machine.after_append, Machine.after_cons, Machine.after_nil]
  rw [hAfter]
  obtain ⟨hAgain, hRetry⟩ := completion_idempotent_exclusive demoCodec demoLeased demoLease
    (.retryable "busy") 2 demoWaiting demoJob_retried
  obtain ⟨hSame, hOther⟩ := hAgain [] 50 (by decide)
  rw [Machine.after_nil] at hSame hOther
  obtain ⟨row, hRow, hAttempt, -⟩ := hRetry "busy" rfl
  exact ⟨hSame, hOther .succeeded rfl nofun, row, hRow, hAttempt⟩

/-- A negative time and an outcome with an empty error code are refused before the
recorded completion is looked at. -/
theorem demoJob_completion_refused :
    let s := (jobRepository demoCodec).after .empty demoLeased
    let t := ((jobRepository demoCodec).step s (.complete demoLease (.retryable "busy") 2)).2
    ((jobRepository demoCodec).step s (.complete demoLease (.retryable "busy") 2)).1 =
      .completed (.ok (.applied demoWaiting)) ∧
    ((jobRepository demoCodec).step t (.complete demoLease (.retryable "busy") (-1))).1 =
      .completed (.error .corrupt) ∧
    ((jobRepository demoCodec).step t (.complete demoLease (.permanent "") 3)).1 =
      .completed (.error .corrupt) := by
  intro s t
  exact ⟨demoJob_retried, rfl, rfl⟩

end WordArena.Jobs
