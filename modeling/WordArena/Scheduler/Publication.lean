import WordArena.Scheduler.Capacity

/-! Terminal results are published once, by the worker that holds the match,
and never after its tournament was cancelled. -/
namespace WordArena.Scheduler

open Fallible WordArena.Application

/-- What the tables say about inputs, results and cancelled tournaments. -/
structure Settled (s : SchedulerStore) : Prop where
  inputs : ∀ a ∈ s.reservations, ∀ b ∈ s.reservations, a.request.matchId = b.request.matchId →
    a.request.immutableInputsSha256 = b.request.immutableInputsSha256
  results : (s.results.map (·.result.matchId)).Nodup
  valid : ∀ row ∈ s.results, row.result.validate = true
  cancelled : ∀ row ∈ s.reservations, s.loadControl row.request.tournamentId = .cancelled →
    row.status ≠ .active

/-- Nothing stored is lost and a cancellation stays. -/
structure Extends (s t : SchedulerStore) : Prop where
  results : ∀ row ∈ s.results, row ∈ t.results
  reservations : ∀ row ∈ s.reservations, ∃ next ∈ t.reservations, next.request = row.request
  cancelled : ∀ tournamentId, s.loadControl tournamentId = .cancelled →
    t.loadControl tournamentId = .cancelled

section

variable {s t r : SchedulerStore}

theorem Extends.refl (s : SchedulerStore) : Extends s s :=
  ⟨fun _ => id, fun row hRow => ⟨row, hRow, rfl⟩, fun _ => id⟩

theorem Extends.trans (left : Extends s t) (right : Extends t r) : Extends s r where
  results := fun row hRow => right.results row (left.results row hRow)
  reservations := by
    intro row hRow
    obtain ⟨middle, hMiddle, hSame⟩ := left.reservations row hRow
    obtain ⟨next, hNext, hSame'⟩ := right.reservations middle hMiddle
    exact ⟨next, hNext, hSame'.trans hSame⟩
  cancelled := fun tournamentId h => right.cancelled tournamentId (left.cancelled tournamentId h)

/-- A written control is read back, and a cancelled one is not overwritten. -/
theorem upsertControl_eq_ok {tournamentId : String} {next : TournamentWorkerControl}
    {now : UnixMillis} {controls : List ControlRow}
    (h : s.upsertControl tournamentId next now = .ok controls) :
    s.loadControl tournamentId ≠ .cancelled ∧ ∀ (other : String) (t : SchedulerStore),
      t.controls = controls →
        t.loadControl other = if other = tournamentId then next else s.loadControl other := by
  unfold SchedulerStore.upsertControl at h
  split at h
  · rename_i hNone
    cases pure_eq_ok.mp h
    refine ⟨by simp [SchedulerStore.loadControl, hNone], fun other t hControls => ?_⟩
    rw [SchedulerStore.loadControl, hControls, List.find?_append]
    split
    · rename_i hSame
      rw [hSame, hNone]
      simp
    · rename_i hOther
      simp [SchedulerStore.loadControl, Ne.symm hOther]
  · rename_i row hRow
    obtain ⟨_, hOpen, h⟩ := bind_eq_ok.mp h
    obtain ⟨_, -, h⟩ := bind_eq_ok.mp h
    cases pure_eq_ok.mp h
    have hOpen := (not_or.mp (reject_eq_ok.mp hOpen)).1
    refine ⟨by simpa [SchedulerStore.loadControl, hRow] using hOpen, fun other t hControls => ?_⟩
    rw [SchedulerStore.loadControl, hControls, Table.find?_update]
    swap
    · exact fun _ => rfl
    split
    · rename_i hSame
      have hKey : row.tournamentId = tournamentId := by simpa using List.find?_some hRow
      rw [hSame, hRow]
      simp [hKey]
    · rename_i hOther
      rw [SchedulerStore.loadControl]
      cases hFind : s.controls.find? (fun row => row.tournamentId = other) with
      | none => rfl
      | some found =>
          have hKey : found.tournamentId = other := by simpa using List.find?_some hFind
          simp [hKey, hOther]

/-- Rows are changed in place and results are only added. -/
theorem Extends.update {hit : ReservationRow → Bool} {change : ReservationRow → ReservationRow}
    {results : List ResultRow} (hRequest : ∀ row, (change row).request = row.request)
    (hResults : ∀ row ∈ s.results, row ∈ results) :
    Extends s { s with reservations := Table.update hit change s.reservations, results } := by
  refine ⟨hResults, fun row hRow => ?_, fun _ => id⟩
  refine ⟨_, Table.mem_update.mpr ⟨row, hRow, rfl⟩, ?_⟩
  split
  · exact hRequest row
  · rfl

theorem Extends.expire (s : SchedulerStore) (now : UnixMillis) : Extends s (s.expire now) := by
  refine Extends.update ?_ fun _ => id
  exact fun _ => rfl

theorem Extends.of_buckets (hSame : t = { s with buckets := t.buckets }) : Extends s t := by
  rw [hSame]
  exact ⟨fun _ => id, fun row hRow => ⟨row, hRow, rfl⟩, fun _ => id⟩

/-- A control of another state than cancelled, or the first cancellation. -/
theorem Extends.control {tournamentId : String} {next : TournamentWorkerControl} {now : UnixMillis}
    {controls : List ControlRow} (h : s.upsertControl tournamentId next now = .ok controls)
    {reservations : List ReservationRow}
    (hRows : ∀ row ∈ s.reservations, ∃ row' ∈ reservations, row'.request = row.request) :
    Extends s { s with controls, reservations } := by
  obtain ⟨hOpen, hRead⟩ := upsertControl_eq_ok h
  refine ⟨fun _ => id, hRows, fun other hCancelled => ?_⟩
  rw [hRead other _ rfl, if_neg]
  · exact hCancelled
  · rintro rfl
    exact hOpen hCancelled

theorem configureLimit_eq_ok {limit : SchedulingLimit} {now : UnixMillis}
    (h : configureLimit now s limit = .ok t) :
    t = { s with limits := t.limits, buckets := t.buckets } := by
  obtain ⟨_, -, h⟩ := bind_eq_ok.mp h
  obtain ⟨limits, -, h⟩ := bind_eq_ok.mp h
  cases pure_eq_ok.mp h
  rfl

theorem configured_eq_ok {limits : List SchedulingLimit} {now : UnixMillis}
    (h : limits.foldlM (configureLimit now) s = .ok t) :
    t = { s with limits := t.limits, buckets := t.buckets } := by
  refine foldlM_invariant (fun t => t = { s with limits := t.limits, buckets := t.buckets }) h rfl ?_
  intro a limit b _ hPrior hStep
  rw [configureLimit_eq_ok hStep, hPrior]

theorem Effect.grows {request : SchedulerRequest} (effect : Effect s request t) : Extends s t := by
  cases effect with
  | same => exact .refl s
  | configured ordered valid steps =>
      rw [configured_eq_ok steps]
      exact ⟨fun _ => id, fun row hRow => ⟨row, hRow, rfl⟩, fun _ => id⟩
  | controlled write => exact .control write fun row hRow => ⟨row, hRow, rfl⟩
  | cancelled write =>
      refine .control write fun row hRow => ⟨_, Table.mem_update.mpr ⟨row, hRow, rfl⟩, ?_⟩
      split <;> rfl
  | expired => exact .expire s _
  | limited scan persist =>
      exact (Extends.expire s _).trans (.of_buckets (persistBuckets_eq_ok persist))
  | @acquired request expiresAt paid granted =>
      refine (Extends.expire s request.now).trans ⟨?_, ?_, ?_⟩
      · rw [granted.paid_eq]
        exact fun _ => id
      · rw [granted.paid_eq]
        exact fun row hRow => ⟨row, List.mem_append_left _ hRow, rfl⟩
      · rw [granted.paid_eq]
        exact fun _ => id
  | renewed =>
      refine .update ?_ fun _ => id
      exact fun _ => rfl
  | released =>
      refine .update ?_ fun _ => id
      exact fun _ => rfl
  | committed =>
      refine .update ?_ fun row hRow => List.mem_append_left _ hRow
      exact fun _ => rfl

/-- All prior reservations of a granted match have the requested inputs. -/
theorem Granted.inputs_eq {request : ReservationRequest} {expiresAt : UnixMillis}
    {paid : SchedulerStore} (h : Granted s request expiresAt paid) (settled : Settled s)
    {row : ReservationRow} (hRow : row ∈ s.reservations)
    (hMatch : row.request.matchId = request.matchId) :
    row.request.immutableInputsSha256 = request.immutableInputsSha256 := by
  have hInputs := h.inputs
  unfold SchedulerStore.priorInputs at hInputs
  cases hHead : ((s.reservations.filter fun row => row.request.matchId = request.matchId).mergeSort
      fun a b => decide (a.request.now ≤ b.request.now)).head? with
  | none =>
      rw [List.head?_eq_none_iff] at hHead
      have hMem : row ∈ (s.reservations.filter fun row => row.request.matchId = request.matchId).mergeSort
          fun a b => decide (a.request.now ≤ b.request.now) :=
        List.mem_mergeSort.mpr (List.mem_filter.mpr ⟨hRow, decide_eq_true hMatch⟩)
      rw [hHead] at hMem
      cases hMem
  | some first =>
      rw [hHead] at hInputs
      have hFirst := List.mem_filter.mp (List.mem_mergeSort.mp (List.mem_of_head? hHead))
      rw [settled.inputs row hRow first hFirst.1 (hMatch.trans (of_decide_eq_true hFirst.2).symm)]
      simpa using hInputs

theorem Settled.update (h : Settled s) {hit : ReservationRow → Bool}
    {change : ReservationRow → ReservationRow} {results : List ResultRow}
    (hRequest : ∀ row, (change row).request = row.request)
    (hActive : ∀ row, hit row = true → (change row).status = .active → row.status = .active)
    (hResults : (results.map (·.result.matchId)).Nodup)
    (hValid : ∀ row ∈ results, row.result.validate = true) :
    Settled { s with reservations := Table.update hit change s.reservations, results } := by
  have hOld : ∀ row ∈ Table.update hit change s.reservations, ∃ old ∈ s.reservations,
      row.request = old.request ∧ (row.status = .active → old.status = .active) := by
    intro row hRow
    obtain ⟨old, hMem, rfl⟩ := Table.mem_update.mp hRow
    refine ⟨old, hMem, ?_⟩
    split
    · rename_i hHit
      exact ⟨hRequest old, hActive old hHit⟩
    · exact ⟨rfl, id⟩
  refine ⟨fun a ha b hb hMatch => ?_, hResults, hValid, fun row hRow hCancelled hStatus => ?_⟩
  · obtain ⟨a', ha', hA, -⟩ := hOld a ha
    obtain ⟨b', hb', hB, -⟩ := hOld b hb
    rw [hA, hB] at hMatch ⊢
    exact h.inputs a' ha' b' hb' hMatch
  · obtain ⟨old, hMem, hSame, hWas⟩ := hOld row hRow
    rw [hSame] at hCancelled
    exact h.cancelled old hMem hCancelled (hWas hStatus)

theorem Settled.expire (h : Settled s) (now : UnixMillis) : Settled (s.expire now) := by
  refine h.update ?_ ?_ h.results h.valid
  · exact fun _ => rfl
  · exact fun _ _ hStatus => absurd hStatus (by simp [ReservationRow.finish])

/-- A tournament's reservations lose their activity with its cancellation. -/
theorem Settled.cancel (h : Settled s) {tournamentId : String} {now : UnixMillis}
    {controls : List ControlRow}
    (write : s.upsertControl tournamentId .cancelled now = .ok controls) :
    Settled { s with
      controls
      reservations := Table.update (ReservationRow.activeIn tournamentId)
        (ReservationRow.requestCancellation now) s.reservations } := by
  have hKept : Settled { s with
      reservations := Table.update (ReservationRow.activeIn tournamentId)
        (ReservationRow.requestCancellation now) s.reservations } := by
    refine h.update ?_ ?_ h.results h.valid
    · exact fun _ => rfl
    · exact fun _ _ hStatus => absurd hStatus (by simp [ReservationRow.requestCancellation])
  refine ⟨hKept.inputs, h.results, h.valid, fun row hRow hCancelled hStatus => ?_⟩
  rw [(upsertControl_eq_ok write).2 _ _ rfl] at hCancelled
  split at hCancelled
  · rename_i hHere
    obtain ⟨old, -, rfl⟩ := Table.mem_update.mp hRow
    split at hStatus
    · cases hStatus
    · rename_i hMiss
      rw [if_neg hMiss] at hHere
      exact hMiss (by simp [ReservationRow.activeIn, hHere, hStatus])
  · exact hKept.cancelled row hRow hCancelled hStatus

theorem Settled.control (h : Settled s) {tournamentId : String} {next : TournamentWorkerControl}
    {now : UnixMillis} {controls : List ControlRow}
    (write : s.upsertControl tournamentId next now = .ok controls) (goesOn : next ≠ .cancelled) :
    Settled { s with controls } := by
  refine ⟨h.inputs, h.results, h.valid, fun row hRow hCancelled => ?_⟩
  rw [(upsertControl_eq_ok write).2 _ _ rfl] at hCancelled
  split at hCancelled
  · exact absurd hCancelled goesOn
  · exact h.cancelled row hRow hCancelled

theorem Settled.reserve (h : Settled s) {request : ReservationRequest} {expiresAt : UnixMillis}
    {paid : SchedulerStore} (granted : Granted s request expiresAt paid) :
    Settled (paid.reserve request expiresAt) := by
  have hInputs {row : ReservationRow} (hRow : row ∈ s.reservations)
      (hMatch : row.request.matchId = request.matchId) := granted.inputs_eq h hRow hMatch
  have hRunning := granted.running
  rw [granted.paid_eq]
  refine ⟨fun a ha b hb hMatch => ?_, h.results, h.valid, fun row hRow hCancelled => ?_⟩
  · change a ∈ s.reservations ++ [_] at ha
    change b ∈ s.reservations ++ [_] at hb
    rw [List.mem_append, List.mem_singleton] at ha hb
    rcases ha with ha | rfl <;> rcases hb with hb | rfl
    · exact h.inputs a ha b hb hMatch
    · exact hInputs ha hMatch
    · exact (hInputs hb hMatch.symm).symm
    · rfl
  · change row ∈ s.reservations ++ [_] at hRow
    rw [List.mem_append, List.mem_singleton] at hRow
    rcases hRow with hOld | rfl
    · exact h.cancelled row hOld hCancelled
    · exact absurd (hRunning.symm.trans hCancelled) nofun

theorem Effect.settled {request : SchedulerRequest} (effect : Effect s request t) (h : Settled s) :
    Settled t := by
  cases effect with
  | same => exact h
  | configured ordered valid steps =>
      rw [configured_eq_ok steps]
      exact ⟨h.inputs, h.results, h.valid, h.cancelled⟩
  | controlled write goesOn => exact h.control write goesOn
  | cancelled write => exact h.cancel write
  | expired => exact h.expire _
  | @limited request stored retryAt t scan persist =>
      rw [persistBuckets_eq_ok persist]
      have hExpired := h.expire request.now
      exact ⟨hExpired.inputs, hExpired.results, hExpired.valid, hExpired.cancelled⟩
  | acquired granted => exact (h.expire _).reserve granted
  | renewed =>
      refine h.update ?_ ?_ h.results h.valid
      · exact fun _ => rfl
      · exact fun _ _ => id
  | released =>
      refine h.update ?_ ?_ h.results h.valid
      · exact fun _ => rfl
      · exact fun _ _ hStatus => absurd hStatus (by simp [ReservationRow.finish])
  | committed valid unfinished publisher =>
      refine h.update ?_ ?_ ?_ ?_
      · exact fun _ => rfl
      · exact fun _ _ hStatus => absurd hStatus (by simp [ReservationRow.finish])
      · rw [List.map_append, List.map_singleton]
        refine List.nodup_append.mpr ⟨h.results, List.nodup_singleton _, fun a ha b hb hEq => ?_⟩
        obtain ⟨row, hRow, rfl⟩ := List.mem_map.mp ha
        exact unfinished row hRow (hEq.trans (List.mem_singleton.mp hb))
      · intro row hRow
        rw [List.mem_append, List.mem_singleton] at hRow
        rcases hRow with hOld | rfl
        · exact h.valid row hOld
        · exact valid

/-! Answers. -/

theorem Settled.loadTerminal (h : Settled s) {row : ResultRow} (hRow : row ∈ s.results) :
    s.loadTerminal row.result.matchId = .ok (some row.result) := by
  have hFind : s.results.find? (fun other => other.result.matchId = row.result.matchId) = some row :=
    (Table.find?_eq_some_iff_mem h.results).mpr ⟨hRow, rfl⟩
  rw [SchedulerStore.loadTerminal, hFind]
  exact bind_eq_ok.mpr ⟨(), by simp [h.valid row hRow], rfl⟩

/-- A commit for a match that has a result finds that result. -/
theorem Settled.commitResult (h : Settled s) {row : ResultRow} (hRow : row ∈ s.results)
    {reservation : ExecutionReservation} {result : TerminalMatchResult} {now : UnixMillis}
    (hMatch : result.matchId = row.result.matchId) :
    (result = row.result → reservation.request.matchId = result.matchId →
        reservation.request.immutableInputsSha256 = result.immutableInputsSha256 →
        commitResult s reservation result now = .ok (.alreadyApplied result, s)) ∧
      (result ≠ row.result → commitResult s reservation result now =
        .error (if result.validate then .conflict else .corrupt)) := by
  have hLoad := h.loadTerminal hRow
  rw [← hMatch] at hLoad
  constructor
  · rintro rfl hReservation hInputs
    refine bind_eq_ok.mpr ⟨(), by simp [h.valid row hRow], ?_⟩
    refine bind_eq_ok.mpr ⟨(), by simp [hReservation, hInputs], ?_⟩
    refine bind_eq_ok.mpr ⟨some row.result, hLoad, ?_⟩
    exact bind_eq_ok.mpr ⟨(), by simp, rfl⟩
  · intro hOther
    cases hValid : result.validate with
    | false => exact bind_eq_error.mpr (.inl (by simp [hValid]))
    | true =>
        refine bind_eq_error.mpr (.inr ⟨(), by simp [hValid], ?_⟩)
        by_cases hMismatch : result.matchId ≠ reservation.request.matchId ∨
            result.immutableInputsSha256 ≠ reservation.request.immutableInputsSha256
        · exact bind_eq_error.mpr (.inl (by simp [hMismatch]))
        · refine bind_eq_error.mpr (.inr ⟨(), by simp only [reject_eq_ok]; exact hMismatch, ?_⟩)
          refine bind_eq_error.mpr (.inr ⟨some row.result, hLoad, ?_⟩)
          exact bind_eq_error.mpr (.inl (by simp [Ne.symm hOther]))

end

end WordArena.Scheduler
