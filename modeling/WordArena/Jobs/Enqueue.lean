import WordArena.Engine.Fresh
import WordArena.Jobs.Fencing

/-! Enqueueing an input again. Stored rows stay valid and keep their immutable
columns, but a retry rewrites the availability that the comparison reads. -/
namespace WordArena.Jobs

open Fallible WordArena.Application WordArena.Engine

/-- A row that reads back as a record. -/
structure Sound (codec : JobCodec) (row : JobRow) : Prop where
  check : row.check = true
  input : row.input.validate codec = true
  digest : row.payloadSha256 = hexDigest codec row.payloadJson

/-- A change that writes no immutable column. -/
structure Immutable (change : JobRow → JobRow) : Prop where
  input : ∀ row, (change row).input = { row.input with availableAt := (change row).availableAt }
  digest : ∀ row, (change row).payloadSha256 = row.payloadSha256

section

variable {codec : JobCodec}

theorem validate_availableAt {job : NewJob} {availableAt : UnixMillis}
    (h : job.validate codec = true) (hTime : 0 ≤ availableAt) :
    NewJob.validate codec { job with availableAt } = true := by
  simp only [NewJob.validate, Bool.and_eq_true, decide_eq_true_eq] at h ⊢
  obtain ⟨⟨⟨⟨⟨⟨⟨hText, -⟩, hAttempts⟩, hInitial⟩, hOrder⟩, hCap⟩, hKey⟩, hJson⟩ := h
  exact ⟨⟨⟨⟨⟨⟨⟨hText, hTime⟩, hAttempts⟩, hInitial⟩, hOrder⟩, hCap⟩, hKey⟩, hJson⟩

theorem JobRow.check_availableAt {row : JobRow} (h : row.check = true) : 0 ≤ row.availableAt := by
  simp only [JobRow.check, Bool.and_eq_true, decide_eq_true_eq] at h
  exact h.1.1.1.1.1.1.1.1.1.1.1

theorem Sound.change {row : JobRow} {change : JobRow → JobRow} (h : Sound codec row)
    (immutable : Immutable change) (check : (change row).check = true) : Sound codec (change row) where
  check := check
  input := by
    rw [immutable.input]
    exact validate_availableAt h.input (JobRow.check_availableAt check)
  digest := by
    have hPayload : (change row).payloadJson = row.payloadJson :=
      congrArg NewJob.payloadJson (immutable.input row)
    rw [immutable.digest, hPayload]
    exact h.digest

theorem Sound.record {row : JobRow} (h : Sound codec row) :
    row.record codec = .ok row.toJobRecord := by
  have hCheck := h.check
  simp only [JobRow.check, Bool.and_eq_true, decide_eq_true_eq, beq_iff_eq] at hCheck
  obtain ⟨⟨⟨⟨⟨⟨⟨⟨⟨⟨⟨-, hAttempt⟩, -⟩, hExpiry⟩, -⟩, -⟩, hUpdated⟩, -⟩, hLease⟩, hFinal⟩, -⟩, -⟩ := hCheck
  have hOrder : row.leasedAt.any
      (fun leased => row.leaseExpiresAt.any fun expires => decide (expires ≤ leased)) = false := by
    cases hLeased : row.leasedAt with
    | none => rfl
    | some leased =>
        cases hExpires : row.leaseExpiresAt with
        | none => rfl
        | some expires => simpa [hLeased, hExpires] using hExpiry
  simp only [JobRow.record, h.input, ← h.digest, hFinal, hOrder]
  rw [if_neg]
  by_cases hStatus : row.status = .leased
  · rw [if_pos hStatus] at hLease
    simp_all
  · rw [if_neg hStatus] at hLease
    simp_all

/-- Every row of a store reads back. -/
def AllSound (codec : JobCodec) (s : JobStore) : Prop := ∀ row ∈ s.jobs, Sound codec row

theorem AllSound.update {s : JobStore} {hit : JobRow → Bool} {change : JobRow → JobRow}
    {attempts : List JobAttempt} (h : AllSound codec s) (immutable : Immutable change)
    (checks : Checks hit change s.jobs) :
    AllSound codec ⟨Table.update hit change s.jobs, attempts⟩ := by
  intro row hRow
  obtain ⟨old, hOld, rfl⟩ := Table.mem_update.mp hRow
  split
  · rename_i hHit
    exact (h old hOld).change immutable (checks old hOld hHit)
  · exact h old hOld

theorem NewJob.row_sound {job : NewJob} {now : UnixMillis} (valid : job.validate codec = true)
    (check : (job.row codec now).check = true) : Sound codec (job.row codec now) :=
  ⟨check, valid, rfl⟩

theorem Effect.allSound {s t : JobStore} {request : JobRequest} (effect : Effect codec s request t)
    (h : AllSound codec s) : AllSound codec t := by
  have hClose (now : UnixMillis) : Immutable (JobRow.close now) := ⟨fun _ => rfl, fun _ => rfl⟩
  cases effect with
  | same => exact h
  | enqueued valid check fresh =>
      intro row hRow
      rw [List.mem_append, List.mem_singleton] at hRow
      rcases hRow with hOld | rfl
      · exact h row hOld
      · exact NewJob.row_sound valid check
  | recovered checks => exact h.update (hClose _) checks
  | claimed spent mem claimable checks =>
      exact AllSound.update (s := s.recovered _) (h.update (hClose _) spent)
        ⟨fun _ => rfl, fun _ => rfl⟩ checks
  | renewed mem live checks longer => exact h.update ⟨fun _ => rfl, fun _ => rfl⟩ checks
  | completed mem live transition checks => exact h.update ⟨fun _ => rfl, fun _ => rfl⟩ checks
  | cancelled checks => exact h.update ⟨fun _ => rfl, fun _ => rfl⟩ checks
  | requested checks => exact h.update ⟨fun _ => rfl, fun _ => rfl⟩ checks

end

/-! The row an input is compared with. -/

def JobStore.deduplicated (s : JobStore) (job : NewJob) : Option JobRow :=
  s.jobs.find? fun row => row.kind = job.kind && row.deduplicationKey = job.deduplicationKey

/-- The request completes an attempt with a retryable failure. -/
def JobRequest.retries : JobRequest → Prop
  | .complete _ (.retryable _) _ => True
  | _ => False

/-- The same input in both rows, up to its availability. -/
structure Follows (retried : Prop) (old new : JobRow) : Prop where
  input : new.input = { old.input with availableAt := new.availableAt }
  available : ¬ retried → new.availableAt = old.availableAt

section

variable {codec : JobCodec} {s t : JobStore} {job : NewJob}

theorem Follows.refl (retried : Prop) (row : JobRow) : Follows retried row row :=
  ⟨rfl, fun _ => rfl⟩

theorem Follows.trans {first second : Prop} {a b c : JobRow} (left : Follows first a b)
    (right : Follows second b c) : Follows (first ∨ second) a c where
  input := by
    rw [right.input, left.input]
  available := fun h => by
    rw [right.available fun hSecond => h (.inr hSecond), left.available fun hFirst => h (.inl hFirst)]

theorem deduplicated_update {hit : JobRow → Bool} {change : JobRow → JobRow}
    {attempts : List JobAttempt} (immutable : Immutable change) :
    JobStore.deduplicated ⟨Table.update hit change s.jobs, attempts⟩ job =
      (s.deduplicated job).map fun row => if hit row then change row else row := by
  refine Table.find?_update fun row => ?_
  have hKind : (change row).kind = row.kind := congrArg NewJob.kind (immutable.input row)
  have hKey : (change row).deduplicationKey = row.deduplicationKey :=
    congrArg NewJob.deduplicationKey (immutable.input row)
  rw [hKind, hKey]

theorem follows_update {retried : Prop} {hit : JobRow → Bool} {change : JobRow → JobRow}
    {attempts : List JobAttempt} {row : JobRow} (immutable : Immutable change)
    (available : ∀ row ∈ s.jobs, hit row = true → ¬ retried →
      (change row).availableAt = row.availableAt)
    (h : s.deduplicated job = some row) :
    ∃ next, JobStore.deduplicated ⟨Table.update hit change s.jobs, attempts⟩ job = some next ∧
      Follows retried row next := by
  refine ⟨if hit row then change row else row, ?_, ?_⟩
  · rw [deduplicated_update immutable, h]
    rfl
  split
  · rename_i hHit
    exact ⟨immutable.input row, available row (List.mem_of_find?_eq_some h) hHit⟩
  · exact .refl _ _

theorem completionTransition_available {current : JobRecord} {outcome : JobHandlerOutcome}
    {now availableAt : UnixMillis} {status : JobStatus} {finishedAt : Option UnixMillis}
    (h : completionTransition current outcome now = .ok (status, availableAt, finishedAt))
    (hOutcome : ∀ errorCode, outcome ≠ .retryable errorCode) :
    availableAt = current.availableAt := by
  cases outcome with
  | succeeded => cases pure_eq_ok.mp h; rfl
  | permanent errorCode => cases pure_eq_ok.mp h; rfl
  | cancelled => cases pure_eq_ok.mp h; rfl
  | retryable errorCode => exact absurd rfl (hOutcome errorCode)

/-- One request keeps the stored input, and its availability too unless the
request records a retryable failure. -/
theorem Effect.follows {request : JobRequest} {row : JobRow} (effect : Effect codec s request t)
    (consistent : Consistent s) (h : s.deduplicated job = some row) :
    ∃ next, t.deduplicated job = some next ∧ Follows request.retries row next := by
  have hClose (now : UnixMillis) : Immutable (JobRow.close now) := ⟨fun _ => rfl, fun _ => rfl⟩
  cases effect with
  | same => exact ⟨row, h, .refl _ _⟩
  | enqueued =>
      refine ⟨row, ?_, .refl _ _⟩
      rw [JobStore.deduplicated, List.find?_append]
      exact (congrArg (Option.or · _) h).trans Option.some_or
  | recovered => exact follows_update (hClose _) (fun _ _ _ _ => rfl) h
  | @claimed request expiresAt chosen =>
      have hLease : Immutable (JobRow.lease request.workerId request.now expiresAt) :=
        ⟨fun _ => rfl, fun _ => rfl⟩
      obtain ⟨middle, hMiddle, hFirst⟩ : ∃ middle, (s.recovered request.now).deduplicated job =
          some middle ∧ Follows False row middle :=
        follows_update (hClose request.now) (fun _ _ _ _ => rfl) h
      obtain ⟨next, hNext, (hSecond : Follows False middle next)⟩ :=
        follows_update hLease (fun _ _ _ _ => rfl) hMiddle
      exact ⟨next, hNext, by simpa [JobRequest.retries] using hFirst.trans hSecond⟩
  | renewed => exact follows_update ⟨fun _ => rfl, fun _ => rfl⟩ (fun _ _ _ _ => rfl) h
  | @completed lease outcome now held status availableAt finishedAt mem live transition checks =>
      refine follows_update ⟨fun _ => rfl, fun _ => rfl⟩ (fun row hRow hHit hFinal => ?_) h
      have hSame : row.jobId = held.jobId :=
        (heldBy_generation hHit).1.trans (heldBy_generation live).1.symm
      obtain rfl : row = held := Table.eq_of_key consistent.ids hRow mem hSame
      refine completionTransition_available transition fun errorCode hOutcome => hFinal ?_
      rw [hOutcome]
      trivial
  | cancelled => exact follows_update ⟨fun _ => rfl, fun _ => rfl⟩ (fun _ _ _ _ => rfl) h
  | requested => exact follows_update ⟨fun _ => rfl, fun _ => rfl⟩ (fun _ _ _ _ => rfl) h

/-- What a whole run keeps of a stored row. -/
theorem follows_after (codec : JobCodec) (requests : List JobRequest) {row : JobRow}
    (consistent : Consistent s) (h : s.deduplicated job = some row) :
    ∃ next, ((jobRepository codec).after s requests).deduplicated job = some next ∧
      Follows (∃ request ∈ requests, request.retries) row next := by
  induction requests generalizing s row with
  | nil => exact ⟨row, h, .refl _ _⟩
  | cons request requests ih =>
      have effect := step_effect codec s request
      obtain ⟨middle, hMiddle, hFirst⟩ := effect.follows consistent h
      obtain ⟨next, hNext, hSecond⟩ := ih (effect.consistent consistent) hMiddle
      refine ⟨next, hNext, ?_⟩
      have hBoth := hFirst.trans hSecond
      exact ⟨hBoth.input, fun hNone => hBoth.available (by simpa using hNone)⟩

theorem row_check {job : NewJob} {now : UnixMillis} (valid : job.validate codec = true)
    (hNow : 0 ≤ now) : (job.row codec now).check = true := by
  simp only [NewJob.validate, Bool.and_eq_true, decide_eq_true_eq] at valid
  have hAvailable : 0 ≤ job.availableAt := valid.1.1.1.1.1.1.2
  simp [JobRow.check, NewJob.row, hAvailable, hNow, JobStatus.isTerminal]

/-- Same input, with the caller's identifier and availability put back. -/
def JobRow.Matches (row : JobRow) (job : NewJob) : Prop :=
  { row.input with jobId := job.jobId, availableAt := job.availableAt } = job

theorem sameEnqueueIdentity_iff {row : JobRow} (sound : Sound codec row) :
    sameEnqueueIdentity row.toJobRecord job (hexDigest codec job.payloadJson) = true ↔
      row.Matches job ∧ row.availableAt = job.availableAt := by
  have hDigest := sound.digest
  cases job
  simp only [sameEnqueueIdentity, JobRow.Matches, JobRecord.input, Bool.and_eq_true, beq_iff_eq,
    NewJob.mk.injEq]
  constructor
  · rintro ⟨⟨⟨⟨⟨⟨⟨⟨⟨⟨h1, h2⟩, h3⟩, h4⟩, -⟩, h6⟩, h7⟩, h8⟩, h9⟩, h10⟩, h11⟩
    exact ⟨⟨h1, trivial, h2, h3, h4, h6, trivial, h8, h9, h10, h11⟩, h7⟩
  · rintro ⟨⟨h1, -, h2, h3, h4, h6, -, h8, h9, h10, h11⟩, h7⟩
    exact ⟨⟨⟨⟨⟨⟨⟨⟨⟨⟨h1, h2⟩, h3⟩, h4⟩, by rw [hDigest, h4]⟩, h6⟩, h7⟩, h8⟩, h9⟩, h10⟩, h11⟩

/-- Enqueueing an input that has a stored row compares the two. -/
theorem enqueueJob_stored {row : JobRow} {now : UnixMillis} (sound : AllSound codec s)
    (h : s.deduplicated job = some row) (valid : job.validate codec = true) (hNow : 0 ≤ now) :
    (enqueueJob codec s job now).1 =
      if sameEnqueueIdentity row.toJobRecord job (hexDigest codec job.payloadJson)
      then .ok (.existing row.toJobRecord) else .error .conflict := by
  have hRow := List.mem_of_find?_eq_some h
  have hKeys : row.kind = job.kind ∧ row.deduplicationKey = job.deduplicationKey := by
    simpa using List.find?_some h
  have hClash : s.jobs.any (job.row codec now).clash = true := by
    refine List.any_eq_true.mpr ⟨row, hRow, ?_⟩
    simp [JobRow.clash, NewJob.row, hKeys]
  have hLoad : s.loadDeduplicated codec job.kind job.deduplicationKey = .ok row.toJobRecord :=
    bind_eq_ok.mpr ⟨row, okOr_eq_ok.mpr h, (sound row hRow).record⟩
  rw [enqueueJob, if_neg (by simp [valid, hNow])]
  simp only [row_check valid hNow, Bool.not_true, Bool.false_eq_true, if_false, hClash, if_true, hLoad]
  rfl

/-- A successful enqueue leaves a matching row with the same availability. -/
theorem enqueueJob_ok {now : UnixMillis} {result : EnqueueResult} (sound : AllSound codec s)
    (h : (enqueueJob codec s job now).1 = .ok result) :
    job.validate codec = true ∧ ∃ row, (enqueueJob codec s job now).2.deduplicated job = some row ∧
      row.Matches job ∧ row.availableAt = job.availableAt := by
  unfold enqueueJob at h ⊢
  split at h
  · cases h
  rename_i hGuard
  have hValid : job.validate codec = true := by
    simp only [Bool.or_eq_true, Bool.not_eq_true', decide_eq_true_eq, not_or, Bool.not_eq_false] at hGuard
    exact hGuard.1
  refine ⟨hValid, ?_⟩
  rw [if_neg hGuard]
  simp only at h ⊢
  split at h
  · cases h
  rename_i hCheck
  rw [if_neg hCheck]
  split at h
  · -- The stored row was compared with the input and found equal.
    rename_i hClash
    rw [if_pos hClash]
    obtain ⟨existing, hLoad, h⟩ := bind_eq_ok.mp h
    obtain ⟨row, hRow, hRecord⟩ := bind_eq_ok.mp hLoad
    have hStored : s.deduplicated job = some row := okOr_eq_ok.mp hRow
    cases record_eq_ok hRecord
    refine ⟨row, hStored, ?_⟩
    split at h
    · rename_i hSame
      exact (sameEnqueueIdentity_iff (sound row (List.mem_of_find?_eq_some hStored))).mp hSame
    · cases h
  · -- No row has the deduplication key, so the new one is found.
    rename_i hClear
    rw [if_neg hClear]
    refine ⟨job.row codec now, ?_, rfl, rfl⟩
    have hNone : s.deduplicated job = none := by
      refine List.find?_eq_none.mpr fun row hRow hKeys => hClear ?_
      refine List.any_eq_true.mpr ⟨row, hRow, ?_⟩
      simp only [Bool.and_eq_true, decide_eq_true_eq] at hKeys
      simp [JobRow.clash, NewJob.row, hKeys]
    change (s.jobs ++ [job.row codec now]).find? _ = _
    rw [List.find?_append]
    refine (congrArg (Option.or · _) hNone).trans ?_
    simp [NewJob.row]

theorem allSound_after (codec : JobCodec) (requests : List JobRequest) :
    AllSound codec ((jobRepository codec).after .empty requests) :=
  Machine.after_invariant _ (fun s request => (step_effect codec s request).allSound)
    (fun _ h => absurd h List.not_mem_nil) requests

end

/-- A later enqueue of an input that was enqueued before finds the job exactly
when the stored availability is still the input's, and that is so unless some
attempt in between was completed with a retryable failure. -/
theorem enqueue_again_existing_iff (codec : JobCodec) (before later : List JobRequest) (job : NewJob)
    (first now : UnixMillis) (result : EnqueueResult)
    (h : ((jobRepository codec).step ((jobRepository codec).after .empty before)
      (.enqueue job first)).1 = .enqueued (.ok result)) :
    let t := (jobRepository codec).after .empty (before ++ .enqueue job first :: later)
    ((∃ record, ((jobRepository codec).step t (.enqueue job now)).1 =
        .enqueued (.ok (.existing record))) ↔
      0 ≤ now ∧ (t.deduplicated job).map (·.availableAt) = some job.availableAt) ∧
    ((∀ request ∈ later, ¬ request.retries) →
      (t.deduplicated job).map (·.availableAt) = some job.availableAt) := by
  intro t
  let s := (jobRepository codec).after .empty before
  have hEnqueued : (enqueueJob codec s job first).1 = .ok result := JobResponse.enqueued.inj h
  obtain ⟨hValid, row, hRow, hMatches, hAvailable⟩ :=
    enqueueJob_ok (allSound_after codec before) hEnqueued
  have hConsistent : Consistent (enqueueJob codec s job first).2 :=
    (enqueueJob_effect codec s job first).consistent (consistent_after codec consistent_empty before)
  have hRun : t = (jobRepository codec).after (enqueueJob codec s job first).2 later :=
    Machine.after_append ..
  obtain ⟨final, hFinal, hFollows⟩ := follows_after codec later hConsistent hRow
  rw [← hRun] at hFinal
  have hSound : AllSound codec t := allSound_after codec _
  have hStillMatches : final.Matches job := by
    rw [JobRow.Matches, hFollows.input]
    exact hMatches
  have hSame : sameEnqueueIdentity final.toJobRecord job (hexDigest codec job.payloadJson) = true ↔
      final.Matches job ∧ final.availableAt = job.availableAt :=
    sameEnqueueIdentity_iff (hSound final (List.mem_of_find?_eq_some hFinal))
  rw [hFinal, Option.map_some, Option.some.injEq]
  refine ⟨⟨?_, ?_⟩, ?_⟩
  · rintro ⟨record, hAgain⟩
    have hAgain : (enqueueJob codec t job now).1 = .ok (.existing record) :=
      JobResponse.enqueued.inj hAgain
    have hNow : 0 ≤ now := by
      by_contra hNegative
      rw [enqueueJob, if_pos (by simp [not_le.mp hNegative])] at hAgain
      cases hAgain
    rw [enqueueJob_stored hSound hFinal hValid hNow] at hAgain
    split at hAgain
    · rename_i hIdentity
      exact ⟨hNow, (hSame.mp hIdentity).2⟩
    · cases hAgain
  · rintro ⟨hNow, hAvailable⟩
    have hAgain : (enqueueJob codec t job now).1 = .ok (.existing final.toJobRecord) := by
      rw [enqueueJob_stored hSound hFinal hValid hNow]
      exact if_pos (hSame.mpr ⟨hStillMatches, hAvailable⟩)
    exact ⟨final.toJobRecord, congrArg JobResponse.enqueued hAgain⟩
  · intro hNone
    rw [← hAvailable]
    exact hFollows.available fun ⟨request, hMem, hRetries⟩ => hNone request hMem hRetries

/-! One job that is retried once. -/

/-- A codec that accepts the empty object as canonical. -/
def demoCodec : JobCodec := ⟨basicPlatform, fun bytes => bytes == Bytes.utf8 "\x7b\x7d"⟩

/-- The codec as it is evaluated. -/
theorem demoCodec_eq : demoCodec =
    ⟨⟨basicTables, Sha256.evaluate⟩, fun bytes => bytes == Bytes.utf8 "\x7b\x7d"⟩ := by
  rw [demoCodec, basicPlatform_eq]

def demoJob : NewJob where
  schemaVersion := 1
  jobId := "job"
  kind := "demo"
  payloadSchemaVersion := 1
  payloadJson := Bytes.utf8 "\x7b\x7d"
  priority := 0
  availableAt := 0
  maxAttempts := 2
  retryInitialMs := 10
  retryMaxMs := 10
  deduplicationKey := "once"

def demoClaim : ClaimJobs := ⟨"worker", ["demo"], 1, 100⟩

/-- The lease that a worker gets for the job. -/
def demoLease : JobLease :=
  ⟨((demoJob.row demoCodec 0).lease "worker" 1 101).toJobRecord, "worker", 1, 1, 101⟩

def demoRetry : List JobRequest :=
  [.claim demoClaim, .complete demoLease (.retryable "busy") 2]

theorem demoJob_enqueued : ((jobRepository demoCodec).step .empty (.enqueue demoJob 0)).1 =
    .enqueued (.ok (.inserted (demoJob.row demoCodec 0).toJobRecord)) := by
  rw [demoCodec_eq]
  decide +kernel

theorem demoJob_leased_found :
    ∃ record, ((jobRepository demoCodec).step ((jobRepository demoCodec).after .empty
      [.enqueue demoJob 0, .claim demoClaim]) (.enqueue demoJob 3)).1 =
        .enqueued (.ok (.existing record)) := by
  have hSame := enqueue_again_existing_iff demoCodec [] [.claim demoClaim] demoJob 0 3 _
    demoJob_enqueued
  refine hSame.1.mpr ⟨by decide, hSame.2 ?_⟩
  intro request hRequest
  cases List.mem_singleton.mp hRequest
  exact id

/-- The retry moved the stored availability, so the same input now conflicts. -/
theorem demoJob_retried_conflicts :
    ((jobRepository demoCodec).step .empty (.enqueue demoJob 0)).1 =
      .enqueued (.ok (.inserted (demoJob.row demoCodec 0).toJobRecord)) ∧
    ((jobRepository demoCodec).step ((jobRepository demoCodec).after .empty
      (.enqueue demoJob 0 :: demoRetry)) (.enqueue demoJob 3)).1 = .enqueued (.error .conflict) :=
  ⟨demoJob_enqueued, by
    rw [demoRetry, demoLease, demoCodec_eq]
    decide +kernel⟩

end WordArena.Jobs
