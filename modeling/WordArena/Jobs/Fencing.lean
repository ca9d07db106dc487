import Mathlib.Data.List.Count
import WordArena.Jobs.Transition

/-! Lease generations fence the workers of a job: one attempt row for every
generation, and at most the latest of them unfinished. -/
namespace WordArena.Jobs

open Fallible WordArena.Application

def attemptsOf (attempts : List JobAttempt) (jobId : String) : List JobAttempt :=
  attempts.filter fun row => row.jobId = jobId

/-- The job is leased until the time its attempt row records. -/
def Holds (job : JobRow) (row : JobAttempt) : Prop :=
  job.status = .leased ∧ job.leaseExpiresAt = some row.leaseExpiresAt

/-- A job and its attempt rows, which are listed in the order of their
generations. -/
structure Fenced (attempts : List JobAttempt) (job : JobRow) : Prop where
  generation : job.leaseGeneration = job.attempt
  bound : job.attempt ≤ job.maxAttempts
  generations : (attemptsOf attempts job.jobId).map (·.leaseGeneration) =
    List.range' 1 job.leaseGeneration
  numbered : ∀ row ∈ attemptsOf attempts job.jobId, row.attempt = row.leaseGeneration
  live : ∀ row ∈ attemptsOf attempts job.jobId, row.finishedAt = none →
    row.leaseGeneration = job.leaseGeneration ∧ Holds job row

structure Consistent (s : JobStore) : Prop where
  ids : (s.jobs.map (·.jobId)).Nodup
  owned : ∀ row ∈ s.attempts, row.jobId ∈ s.jobs.map (·.jobId)
  fenced : ∀ job ∈ s.jobs, Fenced s.attempts job

/-- A change of attempt rows that keeps their identity and reopens none. -/
structure Keeps (change : JobAttempt → JobAttempt) : Prop where
  jobId : ∀ row, (change row).jobId = row.jobId
  attempt : ∀ row, (change row).attempt = row.attempt
  generation : ∀ row, (change row).leaseGeneration = row.leaseGeneration
  finished : ∀ row, (change row).finishedAt = none → row.finishedAt = none

theorem keeps_abandon (s : JobStore) (now : UnixMillis) : Keeps (JobAttempt.abandon s now) :=
  ⟨fun _ => rfl, fun _ => rfl, fun _ => rfl, fun _ h => absurd h (Option.some_ne_none now)⟩

theorem keeps_renewed (expiresAt : UnixMillis) : Keeps (JobAttempt.renewed expiresAt) :=
  ⟨fun _ => rfl, fun _ => rfl, fun _ => rfl, fun _ => id⟩

theorem keeps_completed (outcome : JobHandlerOutcome) (now : UnixMillis) (status : JobStatus)
    (availableAt : UnixMillis) : Keeps (JobAttempt.completed outcome now status availableAt) :=
  ⟨fun _ => rfl, fun _ => rfl, fun _ => rfl, fun _ h => absurd h (Option.some_ne_none now)⟩

/-- The columns of a job row its attempt rows are compared with. -/
structure SameLease (old new : JobRow) : Prop where
  jobId : new.jobId = old.jobId
  generation : new.leaseGeneration = old.leaseGeneration
  attempt : new.attempt = old.attempt
  maxAttempts : new.maxAttempts = old.maxAttempts

theorem SameLease.refl (row : JobRow) : SameLease row row := ⟨rfl, rfl, rfl, rfl⟩

section

variable {attempts : List JobAttempt} {job next : JobRow} {hit : JobAttempt → Bool}
  {change : JobAttempt → JobAttempt}

theorem mem_attemptsOf {row : JobAttempt} {jobId : String} :
    row ∈ attemptsOf attempts jobId ↔ row ∈ attempts ∧ row.jobId = jobId := by
  simp [attemptsOf]

theorem attemptsOf_update (keeps : Keeps change) (jobId : String) :
    attemptsOf (Table.update hit change attempts) jobId =
      Table.update hit change (attemptsOf attempts jobId) :=
  Table.filter_update fun row => by rw [keeps.jobId]

/-- Rows change together: an open row of the new table belongs to an open row
of the old one, and the job must still hold its lease. -/
theorem Fenced.update (h : Fenced attempts job) (keeps : Keeps change)
    (same : SameLease job next)
    (live : ∀ row ∈ attemptsOf attempts job.jobId, row.finishedAt = none → Holds job row →
      (if hit row then change row else row).finishedAt = none →
      Holds next (if hit row then change row else row)) :
    Fenced (Table.update hit change attempts) next where
  generation := by rw [same.generation, same.attempt, h.generation]
  bound := by rw [same.attempt, same.maxAttempts]; exact h.bound
  generations := by
    rw [same.jobId, same.generation, attemptsOf_update keeps, Table.map_update keeps.generation]
    exact h.generations
  numbered := by
    intro row hRow
    rw [same.jobId, attemptsOf_update keeps] at hRow
    obtain ⟨old, hOld, rfl⟩ := Table.mem_update.mp hRow
    split
    · rw [keeps.attempt, keeps.generation]
      exact h.numbered old hOld
    · exact h.numbered old hOld
  live := by
    intro row hRow hOpen
    rw [same.jobId, attemptsOf_update keeps] at hRow
    obtain ⟨old, hOld, rfl⟩ := Table.mem_update.mp hRow
    have hOldOpen : old.finishedAt = none := by
      split at hOpen
      · exact keeps.finished old hOpen
      · exact hOpen
    obtain ⟨hGeneration, hHolds⟩ := h.live old hOld hOldOpen
    refine ⟨?_, live old hOld hOldOpen hHolds hOpen⟩
    rw [same.generation, ← hGeneration]
    split
    · exact keeps.generation old
    · rfl

end

section

variable {codec : JobCodec} {s : JobStore} {hit : JobRow → Bool} {change : JobRow → JobRow}
  {hitAttempt : JobAttempt → Bool} {changeAttempt : JobAttempt → JobAttempt}

/-- Updates of both tables that keep identities and leave every open attempt
with a leased job keep the fences. -/
theorem Consistent.update (h : Consistent s) (same : ∀ row, SameLease row (change row))
    (keeps : Keeps changeAttempt)
    (live : ∀ job ∈ s.jobs, ∀ row ∈ attemptsOf s.attempts job.jobId, row.finishedAt = none →
      Holds job row → (if hitAttempt row then changeAttempt row else row).finishedAt = none →
      Holds (if hit job then change job else job)
        (if hitAttempt row then changeAttempt row else row)) :
    Consistent ⟨Table.update hit change s.jobs, Table.update hitAttempt changeAttempt s.attempts⟩ where
  ids := by
    rw [Table.map_update fun row => (same row).jobId]
    exact h.ids
  owned := by
    intro row hRow
    obtain ⟨old, hOld, rfl⟩ := Table.mem_update.mp hRow
    rw [Table.map_update fun row => (same row).jobId]
    split
    · rw [keeps.jobId]
      exact h.owned old hOld
    · exact h.owned old hOld
  fenced := by
    intro job hJob
    obtain ⟨old, hOld, rfl⟩ := Table.mem_update.mp hJob
    refine (h.fenced old hOld).update keeps ?_ (live old hOld)
    split
    · exact same old
    · exact .refl old

/-- Updates of the jobs alone. -/
theorem Consistent.updateJobs (h : Consistent s) (same : ∀ row, SameLease row (change row))
    (live : ∀ job ∈ s.jobs, ∀ row ∈ attemptsOf s.attempts job.jobId, row.finishedAt = none →
      Holds job row → hit job = true → Holds (change job) row) :
    Consistent { s with jobs := Table.update hit change s.jobs } := by
  have keeps : Keeps id := ⟨fun _ => rfl, fun _ => rfl, fun _ => rfl, fun _ => id⟩
  have hNone : Table.update (fun _ => false) id s.attempts = s.attempts :=
    Table.update_of_forall_not fun _ _ => rfl
  rw [← hNone]
  refine h.update same keeps ?_
  intro job hJob row hRow hOpen hHolds _
  simp only [Bool.false_eq_true, if_false]
  split
  · rename_i hHit
    exact live job hJob row hRow hOpen hHolds hHit
  · exact hHolds

theorem Consistent.recovered (h : Consistent s) (now : UnixMillis) :
    Consistent (s.recovered now) := by
  refine h.update (fun _ => ⟨rfl, rfl, rfl, rfl⟩) (keeps_abandon s now) ?_
  intro job _ row _ hOpen hHolds hStill
  -- An open row that survives has not expired, and neither has the job's lease.
  have hFresh : JobAttempt.expired now row = false := by
    by_contra hExpired
    rw [Bool.not_eq_false] at hExpired
    rw [if_pos hExpired] at hStill
    cases hStill
  have hLive : JobRow.spent now job = false := by
    have hTime : ¬ row.leaseExpiresAt ≤ now := by simpa [JobAttempt.expired, hOpen] using hFresh
    simp [JobRow.spent, JobRow.expiredAt, hHolds.2, hTime]
  rw [hFresh, hLive]
  exact hHolds

/-- After recovery a claimable job has no open attempt. -/
theorem Consistent.closed_of_claimable {request : ClaimJobs} {chosen : JobRow}
    (h : Consistent s) (mem : chosen ∈ (s.recovered request.now).jobs)
    (claimable : chosen.claimable request = true) {row : JobAttempt}
    (hRow : row ∈ attemptsOf (s.recovered request.now).attempts chosen.jobId) :
    row.finishedAt ≠ none := by
  intro hOpen
  obtain ⟨-, hStatus, hExpiry⟩ := ((h.recovered request.now).fenced chosen mem).live row hRow hOpen
  have hExpired : row.leaseExpiresAt ≤ request.now := by
    simp only [JobRow.claimable, Bool.and_eq_true, Bool.or_eq_true] at claimable
    rcases claimable.1.2 with hQueued | hExpired
    · simp [hStatus] at hQueued
    · simpa [JobRow.expiredAt, hExpiry, hStatus] using hExpired
  obtain ⟨old, -, rfl⟩ := Table.mem_update.mp (mem_attemptsOf.mp hRow).1
  split at hOpen
  · cases hOpen
  · rename_i hFresh
    rw [if_neg hFresh] at hExpired
    exact hFresh (by simp [JobAttempt.expired, hOpen, hExpired])

theorem attemptsOf_append (attempts rows : List JobAttempt) (jobId : String) :
    attemptsOf (attempts ++ rows) jobId = attemptsOf attempts jobId ++ attemptsOf rows jobId :=
  List.filter_append ..

/-- Another job's attempt row does not matter. -/
theorem Fenced.append {attempts : List JobAttempt} {job : JobRow} {row : JobAttempt}
    (h : Fenced attempts job) (hOther : row.jobId ≠ job.jobId) : Fenced (attempts ++ [row]) job := by
  have hRows : attemptsOf (attempts ++ [row]) job.jobId = attemptsOf attempts job.jobId := by
    rw [attemptsOf_append]
    simp [attemptsOf, hOther]
  exact ⟨h.generation, h.bound, hRows ▸ h.generations, hRows ▸ h.numbered, hRows ▸ h.live⟩

/-- A claim opens the next generation of a job whose attempts are all closed. -/
theorem Fenced.lease {attempts : List JobAttempt} {job : JobRow} (h : Fenced attempts job)
    (closed : ∀ row ∈ attemptsOf attempts job.jobId, row.finishedAt ≠ none)
    (room : job.attempt < job.maxAttempts) (workerId : String) (now expiresAt : UnixMillis) :
    Fenced (attempts ++ [(job.lease workerId now expiresAt).attemptRow workerId now expiresAt])
      (job.lease workerId now expiresAt) := by
  let row := (job.lease workerId now expiresAt).attemptRow workerId now expiresAt
  have hRows : attemptsOf (attempts ++ [row]) job.jobId = attemptsOf attempts job.jobId ++ [row] := by
    rw [attemptsOf_append]
    simp [attemptsOf, row, JobRow.attemptRow, JobRow.lease]
  have hAttempt : row.attempt = row.leaseGeneration := by
    simp only [row, JobRow.attemptRow, JobRow.lease, h.generation]
  have hGeneration : row.leaseGeneration = 1 + job.leaseGeneration := Nat.add_comm ..
  constructor
  case generation => exact congrArg (· + 1) h.generation
  case bound => exact room
  case generations =>
    change (attemptsOf (attempts ++ [row]) job.jobId).map _ = List.range' 1 (job.leaseGeneration + 1)
    rw [hRows, List.map_append, h.generations, List.range'_1_concat, List.map_singleton, hGeneration]
  case numbered =>
    intro other hOther
    change other ∈ attemptsOf (attempts ++ [row]) job.jobId at hOther
    rw [hRows, List.mem_append, List.mem_singleton] at hOther
    rcases hOther with hOld | rfl
    · exact h.numbered other hOld
    · exact hAttempt
  case live =>
    intro other hOther hOpen
    change other ∈ attemptsOf (attempts ++ [row]) job.jobId at hOther
    rw [hRows, List.mem_append, List.mem_singleton] at hOther
    rcases hOther with hOld | rfl
    · exact absurd hOpen (closed other hOld)
    · exact ⟨rfl, rfl, rfl⟩

theorem Consistent.enqueued (h : Consistent s) {row : JobRow} (hZero : row.leaseGeneration = 0)
    (hAttempt : row.attempt = 0) (fresh : row.jobId ∉ s.jobs.map (·.jobId)) :
    Consistent { s with jobs := s.jobs ++ [row] } where
  ids := by
    rw [List.map_append, List.map_singleton, List.nodup_append]
    refine ⟨h.ids, List.nodup_singleton _, ?_⟩
    intro a ha b hb hEq
    cases List.mem_singleton.mp hb
    exact fresh (hEq ▸ ha)
  owned := by
    intro attempt hAttempt
    rw [List.map_append]
    exact List.mem_append_left _ (h.owned attempt hAttempt)
  fenced := by
    intro job hJob
    rw [List.mem_append, List.mem_singleton] at hJob
    rcases hJob with hOld | rfl
    · exact h.fenced job hOld
    · have hNone : attemptsOf s.attempts job.jobId = [] := by
        refine List.filter_eq_nil_iff.mpr fun row hRow hId => ?_
        have hOwned := h.owned row hRow
        rw [of_decide_eq_true hId] at hOwned
        exact fresh hOwned
      refine ⟨hZero.trans hAttempt.symm, hAttempt ▸ Nat.zero_le _, ?_, ?_, ?_⟩
      · rw [hNone, hZero, List.map_nil, List.range'_zero]
      · intro attempt hMem
        exact absurd (hNone ▸ hMem) List.not_mem_nil
      · intro attempt hMem
        exact absurd (hNone ▸ hMem) List.not_mem_nil

theorem Consistent.leased (h : Consistent s) {chosen : JobRow} (mem : chosen ∈ s.jobs)
    (closed : ∀ row ∈ attemptsOf s.attempts chosen.jobId, row.finishedAt ≠ none)
    (room : chosen.attempt < chosen.maxAttempts) (workerId : String) (now expiresAt : UnixMillis) :
    Consistent
      { jobs := Table.update (fun row => row.jobId = chosen.jobId)
          (JobRow.lease workerId now expiresAt) s.jobs
        attempts := s.attempts ++
          [(chosen.lease workerId now expiresAt).attemptRow workerId now expiresAt] } := by
  have hIds : (Table.update (fun row => row.jobId = chosen.jobId)
      (JobRow.lease workerId now expiresAt) s.jobs).map (·.jobId) = s.jobs.map (·.jobId) :=
    Table.map_update fun _ => rfl
  refine ⟨hIds ▸ h.ids, ?_, ?_⟩
  · intro row hRow
    rw [hIds]
    rw [List.mem_append, List.mem_singleton] at hRow
    rcases hRow with hOld | rfl
    · exact h.owned row hOld
    · change chosen.jobId ∈ s.jobs.map (·.jobId)
      exact List.mem_map_of_mem mem
  · intro job hJob
    obtain ⟨old, hOld, rfl⟩ := Table.mem_update.mp hJob
    split
    · rename_i hId
      obtain rfl : old = chosen := Table.eq_of_key h.ids hOld mem (of_decide_eq_true hId)
      exact (h.fenced old hOld).lease closed room workerId now expiresAt
    · rename_i hId
      exact (h.fenced old hOld).append (Ne.symm fun hEq => hId (decide_eq_true hEq))

/-- An open attempt of a job a lease holds is the lease's own attempt. -/
theorem Consistent.openFor (h : Consistent s) {lease : JobLease} {now : UnixMillis} {job : JobRow}
    (hJob : job ∈ s.jobs) (hHeld : job.heldBy lease now = true) {row : JobAttempt}
    (hRow : row ∈ attemptsOf s.attempts job.jobId) (hOpen : row.finishedAt = none) :
    row.openFor lease = true := by
  obtain ⟨hGeneration, -⟩ := (h.fenced job hJob).live row hRow hOpen
  have hNumbered := (h.fenced job hJob).numbered row hRow
  have hAttempt := (h.fenced job hJob).generation
  have hId := (mem_attemptsOf.mp hRow).2
  simp only [JobRow.heldBy, Bool.and_eq_true, decide_eq_true_eq, beq_iff_eq] at hHeld
  obtain ⟨⟨⟨⟨⟨hJobId, -⟩, -⟩, hHeldAttempt⟩, hHeldGeneration⟩, -⟩ := hHeld
  simp [JobAttempt.openFor, hOpen, hId, hJobId, hNumbered, hGeneration, hHeldGeneration,
    ← hHeldAttempt, ← hAttempt]

theorem Effect.consistent {request : JobRequest} {t : JobStore} (effect : Effect codec s request t)
    (h : Consistent s) : Consistent t := by
  cases effect with
  | same => exact h
  | enqueued valid check fresh =>
      refine h.enqueued rfl rfl fun hMem => ?_
      obtain ⟨row, hRow, hId⟩ := List.mem_map.mp hMem
      have hClear := fresh row hRow
      simp [JobRow.clash, hId] at hClear
  | recovered => exact h.recovered _
  | claimed spent mem claimable checks =>
      refine (h.recovered _).leased mem (fun row hRow => h.closed_of_claimable mem claimable hRow)
        ?_ _ _ _
      simp only [JobRow.claimable, Bool.and_eq_true, decide_eq_true_eq] at claimable
      exact claimable.1.1.2
  | @renewed lease now expiresAt _ held mem live checks longer =>
      refine h.update (fun _ => ⟨rfl, rfl, rfl, rfl⟩) (keeps_renewed _) ?_
      intro job hJob row hRow hOpen hHolds _
      by_cases hOwn : job.jobId = lease.job.jobId
      · -- The held row is the only one with its identifier, so both tables change.
        have hHeldId : held.jobId = lease.job.jobId := by
          simp only [JobRow.heldBy, Bool.and_eq_true, decide_eq_true_eq] at live
          exact live.1.1.1.1.1
        obtain rfl : job = held := Table.eq_of_key h.ids hJob mem (hOwn.trans hHeldId.symm)
        rw [if_pos (h.openFor hJob live hRow hOpen), live, longer]
        exact ⟨hHolds.1, rfl⟩
      · have hMiss : job.heldBy lease now = false := by simp [JobRow.heldBy, hOwn]
        have hMissRow : row.openFor lease = false := by
          simp [JobAttempt.openFor, (mem_attemptsOf.mp hRow).2, hOwn]
        rw [hMiss, hMissRow]
        exact hHolds
  | @completed lease outcome now held status availableAt finishedAt mem live transition checks =>
      refine h.update (fun _ => ⟨rfl, rfl, rfl, rfl⟩) (keeps_completed ..) ?_
      intro job hJob row hRow hOpen hHolds hStill
      have hClosed : row.openFor lease = false := by
        by_contra hRowOpen
        rw [if_pos (Bool.not_eq_false _ ▸ hRowOpen)] at hStill
        cases hStill
      have hMiss : job.heldBy lease now = false := by
        by_contra hHeld
        rw [h.openFor hJob (Bool.not_eq_false _ ▸ hHeld) hRow hOpen] at hClosed
        cases hClosed
      rw [hClosed, hMiss]
      exact hHolds
  | cancelled =>
      refine h.updateJobs (fun _ => ⟨rfl, rfl, rfl, rfl⟩) fun job _ row _ _ hHolds hHit => ?_
      simp [JobRow.isAt, hHolds.1] at hHit
  | requested =>
      exact h.updateJobs (fun _ => ⟨rfl, rfl, rfl, rfl⟩) fun job _ row _ _ hHolds _ => hHolds

end

/-! Fences over whole runs. -/

/-- Jobs stay, their generations never go back and their final states hold. -/
def Advances (s t : JobStore) : Prop :=
  ∀ job ∈ s.jobs, ∃ next ∈ t.jobs, next.jobId = job.jobId ∧
    job.leaseGeneration ≤ next.leaseGeneration ∧
    (job.status.isTerminal = true → next.status = job.status)

section

variable {codec : JobCodec} {s t r : JobStore}

theorem Advances.refl (s : JobStore) : Advances s s :=
  fun job hJob => ⟨job, hJob, rfl, le_rfl, fun _ => rfl⟩

theorem Advances.trans (left : Advances s t) (right : Advances t r) : Advances s r := by
  intro job hJob
  obtain ⟨middle, hMiddle, hId, hGeneration, hFinal⟩ := left job hJob
  obtain ⟨next, hNext, hId', hGeneration', hFinal'⟩ := right middle hMiddle
  refine ⟨next, hNext, hId'.trans hId, hGeneration.trans hGeneration', fun hTerminal => ?_⟩
  have hStatus := hFinal hTerminal
  rw [hFinal' (hStatus ▸ hTerminal), hStatus]

/-- An update advances the jobs when it touches no finished one. -/
theorem Advances.update {hit : JobRow → Bool} {change : JobRow → JobRow}
    {attempts : List JobAttempt} (hId : ∀ row, (change row).jobId = row.jobId)
    (hGeneration : ∀ row, row.leaseGeneration ≤ (change row).leaseGeneration)
    (hOpen : ∀ row ∈ s.jobs, hit row = true → row.status.isTerminal = false) :
    Advances s ⟨Table.update hit change s.jobs, attempts⟩ := by
  intro job hJob
  refine ⟨_, Table.mem_update.mpr ⟨job, hJob, rfl⟩, ?_⟩
  split
  · rename_i hHit
    refine ⟨hId job, hGeneration job, fun hTerminal => ?_⟩
    rw [hOpen job hJob hHit] at hTerminal
    cases hTerminal
  · exact ⟨rfl, le_rfl, fun _ => rfl⟩

theorem heldBy_leased {lease : JobLease} {now : UnixMillis} {row : JobRow}
    (h : row.heldBy lease now = true) : row.status = .leased := by
  simp only [JobRow.heldBy, Bool.and_eq_true, beq_iff_eq] at h
  exact h.1.1.1.1.2

theorem Advances.recovered (s : JobStore) (now : UnixMillis) : Advances s (s.recovered now) := by
  refine .update (fun _ => rfl) (fun _ => le_rfl) fun row _ hHit => ?_
  simp only [JobRow.spent, JobRow.expiredAt, Bool.and_eq_true, beq_iff_eq] at hHit
  rw [hHit.1.1]
  rfl

theorem Effect.advances {request : JobRequest} (effect : Effect codec s request t)
    (h : Consistent s) : Advances s t := by
  cases effect with
  | same => exact .refl s
  | enqueued =>
      intro job hJob
      exact ⟨job, List.mem_append_left _ hJob, rfl, le_rfl, fun _ => rfl⟩
  | recovered => exact .recovered s _
  | @claimed request expiresAt chosen spent mem claimable checks =>
      refine (Advances.recovered s request.now).trans
        (.update (fun _ => rfl) (fun _ => Nat.le_succ _) fun row hRow hHit => ?_)
      obtain rfl : row = chosen :=
        Table.eq_of_key (h.recovered request.now).ids hRow mem (of_decide_eq_true hHit)
      simp only [JobRow.claimable, JobRow.expiredAt, Bool.and_eq_true, Bool.or_eq_true,
        beq_iff_eq] at claimable
      rcases claimable.1.2 with ⟨hQueued, -⟩ | ⟨hLeased, -⟩
      · rw [hQueued]
        rfl
      · rw [hLeased]
        rfl
  | renewed =>
      refine .update (fun _ => rfl) (fun _ => le_rfl) fun row _ hHit => ?_
      rw [heldBy_leased (Bool.and_eq_true _ _ ▸ hHit).1]
      rfl
  | completed =>
      refine .update (fun _ => rfl) (fun _ => le_rfl) fun row _ hHit => ?_
      rw [heldBy_leased hHit]
      rfl
  | cancelled =>
      refine .update (fun _ => rfl) (fun _ => le_rfl) fun row _ hHit => ?_
      simp only [JobRow.isAt, Bool.and_eq_true, beq_iff_eq] at hHit
      rw [hHit.2]
      rfl
  | requested =>
      refine .update (fun _ => rfl) (fun _ => le_rfl) fun row _ hHit => ?_
      simp only [JobRow.isAt, Bool.and_eq_true, beq_iff_eq] at hHit
      rw [hHit.2]
      rfl

theorem consistent_after (codec : JobCodec) (h : Consistent s) (requests : List JobRequest) :
    Consistent ((jobRepository codec).after s requests) :=
  Machine.after_invariant _ (fun s request => (step_effect codec s request).consistent) h requests

theorem advances_after (codec : JobCodec) (h : Consistent s) (requests : List JobRequest) :
    Advances s ((jobRepository codec).after s requests) :=
  Machine.after_related _ Advances.refl (fun _ _ _ => Advances.trans)
    (fun s request => (step_effect codec s request).consistent)
    (fun s request => (step_effect codec s request).advances) h requests

theorem consistent_empty : Consistent .empty :=
  ⟨List.nodup_nil, fun _ h => absurd h List.not_mem_nil, fun _ h => absurd h List.not_mem_nil⟩

/-- A held row has the generation of the lease. -/
theorem heldBy_generation {lease : JobLease} {now : UnixMillis} {row : JobRow}
    (h : row.heldBy lease now = true) :
    row.jobId = lease.job.jobId ∧ row.leaseGeneration = lease.leaseGeneration := by
  simp only [JobRow.heldBy, Bool.and_eq_true, decide_eq_true_eq, beq_iff_eq] at h
  exact ⟨h.1.1.1.1.1, h.1.2⟩

/-- Renewals and completions of an older generation change nothing. -/
theorem Effect.stale {request : JobRequest} {lease : JobLease} {now : UnixMillis} {job : JobRow}
    (effect : Effect codec s request t) (h : Consistent s) (hJob : job ∈ s.jobs)
    (hId : lease.job.jobId = job.jobId) (hOld : lease.leaseGeneration < job.leaseGeneration)
    (hRequest : (∃ durationMs, request = .renew lease now durationMs) ∨
      ∃ outcome, request = .complete lease outcome now) : t = s := by
  have hNone {held : JobRow} (mem : held ∈ s.jobs) (live : held.heldBy lease now = true) : False := by
    obtain ⟨hHeldId, hGeneration⟩ := heldBy_generation live
    obtain rfl : held = job := Table.eq_of_key h.ids mem hJob (hHeldId.trans hId)
    omega
  rcases hRequest with ⟨_, rfl⟩ | ⟨_, rfl⟩
  · cases effect with
    | same => rfl
    | renewed mem live => exact (hNone mem live).elim
  · cases effect with
    | same => rfl
    | completed mem live => exact (hNone mem live).elim

/-- Exactly one row for each generation the job has had. -/
theorem Fenced.count_generation {attempts : List JobAttempt} {job : JobRow}
    (h : Fenced attempts job) (generation : Nat) :
    attempts.countP (fun row => row.jobId = job.jobId && row.leaseGeneration = generation) =
      if 1 ≤ generation ∧ generation ≤ job.leaseGeneration then 1 else 0 := by
  have hCount : attempts.countP (fun row => row.jobId = job.jobId && row.leaseGeneration = generation) =
      ((attemptsOf attempts job.jobId).map (·.leaseGeneration)).count generation := by
    rw [attemptsOf, List.count, List.countP_map, List.countP_filter]
    refine List.countP_congr fun row _ => ?_
    simp [and_comm]
  rw [hCount, h.generations, List.Nodup.count (List.nodup_range')]
  simp only [List.mem_range'_1]
  exact if_congr (by omega) rfl rfl

/-- At most one attempt of a job is unfinished. -/
theorem Fenced.count_open {attempts : List JobAttempt} {job : JobRow} (h : Fenced attempts job) :
    attempts.countP (fun row => row.jobId = job.jobId && row.finishedAt.isNone) ≤ 1 := by
  have hSub : attempts.countP (fun row => row.jobId = job.jobId && row.finishedAt.isNone) ≤
      attempts.countP fun row => row.jobId = job.jobId && row.leaseGeneration = job.leaseGeneration := by
    refine List.countP_mono_left fun row hRow hHit => ?_
    rw [Bool.and_eq_true, decide_eq_true_eq, Option.isNone_iff_eq_none] at hHit
    obtain ⟨hGeneration, -⟩ := h.live row (mem_attemptsOf.mpr ⟨hRow, hHit.1⟩) hHit.2
    simp [hHit.1, hGeneration]
  rw [h.count_generation] at hSub
  split at hSub <;> omega

end

/-- Lease fencing. In every state reached from the empty tables by any requests
at any times, a job's generation counts its attempts, each generation has one
attempt row, and only the latest can be unfinished, while the job is leased.
From then on renewals and completions of older generations change nothing,
and a final state never changes. -/
theorem job_leases_fenced (codec : JobCodec) (requests : List JobRequest) :
    let s := (jobRepository codec).after .empty requests
    (s.jobs.map (·.jobId)).Nodup ∧
    ∀ job ∈ s.jobs,
      job.leaseGeneration = job.attempt ∧ job.attempt ≤ job.maxAttempts ∧
      (∀ generation, s.attempts.countP
          (fun row => row.jobId = job.jobId && row.leaseGeneration = generation) =
        if 1 ≤ generation ∧ generation ≤ job.leaseGeneration then 1 else 0) ∧
      s.attempts.countP (fun row => row.jobId = job.jobId && row.finishedAt.isNone) ≤ 1 ∧
      (∀ row ∈ s.attempts, row.jobId = job.jobId → row.finishedAt = none →
        job.status = .leased ∧ row.leaseGeneration = job.leaseGeneration) ∧
      ∀ later : List JobRequest,
        let t := (jobRepository codec).after s later
        (∀ (lease : JobLease) (now : UnixMillis), lease.job.jobId = job.jobId →
          lease.leaseGeneration < job.leaseGeneration →
          (∀ durationMs, ((jobRepository codec).step t (.renew lease now durationMs)).2 = t) ∧
          ∀ outcome, ((jobRepository codec).step t (.complete lease outcome now)).2 = t) ∧
        (job.status.isTerminal = true →
          ∃ final ∈ t.jobs, final.jobId = job.jobId ∧ final.status = job.status) := by
  intro s
  have hConsistent : Consistent s := consistent_after codec consistent_empty requests
  refine ⟨hConsistent.ids, fun job hJob => ?_⟩
  have hFenced := hConsistent.fenced job hJob
  refine ⟨hFenced.generation, hFenced.bound, hFenced.count_generation, hFenced.count_open, ?_, ?_⟩
  · intro row hRow hId hOpen
    obtain ⟨hGeneration, hHolds⟩ := hFenced.live row (mem_attemptsOf.mpr ⟨hRow, hId⟩) hOpen
    exact ⟨hHolds.1, hGeneration⟩
  · intro later t
    have hLater : Consistent t := consistent_after codec hConsistent later
    obtain ⟨final, hFinal, hId, hGeneration, hStatus⟩ := advances_after codec hConsistent later job hJob
    refine ⟨fun lease now hLease hOld => ?_, fun hTerminal => ⟨final, hFinal, hId, hStatus hTerminal⟩⟩
    have hOlder := hOld.trans_le hGeneration
    have hSame := hLease.trans hId.symm
    exact ⟨fun durationMs => (step_effect codec t _).stale hLater hFinal hSame hOlder
        (.inl ⟨durationMs, rfl⟩),
      fun outcome => (step_effect codec t _).stale hLater hFinal hSame hOlder
        (.inr ⟨outcome, rfl⟩)⟩

end WordArena.Jobs
