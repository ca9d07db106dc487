import WordArena.Statistics.Derivation
import WordArena.Statistics.Repository

/-! What a record comes to: when its transaction is accepted, which rows it adds, and
that they are found by every later lookup. -/
namespace WordArena.Statistics

open Fallible WordArena.Engine WordArena.Application

section Labels

/-- The identifier of an observation of a seat. -/
def observationId (sourceId : String) (seatNumber : Nat) : String :=
  sourceId ++ ":seat-" ++ toString seatNumber

theorem stripSuffix_observationId (sourceId : String) (seatNumber : Nat) :
    stripSuffix (observationId sourceId seatNumber) (":seat-" ++ toString seatNumber) =
      some sourceId := by
  have hSplit : (observationId sourceId seatNumber).toList =
      sourceId.toList ++ (":seat-" ++ toString seatNumber).toList := by
    simp [observationId]
  rw [stripSuffix, hSplit, if_pos (List.suffix_append _ _), List.length_append,
    Nat.add_sub_cancel, List.take_left, String.ofList_toList]

/-- Identifiers of the two seats determine the source and the seat. -/
theorem observationId_inj {a b : String} {m n : Nat} (hm : m = 1 ∨ m = 2) (hn : n = 1 ∨ n = 2)
    (h : observationId a m = observationId b n) : a = b ∧ m = n := by
  have hChars : a.toList ++ (":seat-" ++ toString m).toList =
      b.toList ++ (":seat-" ++ toString n).toList := by
    have := congrArg String.toList h
    simpa [observationId] using this
  have hLength : ∀ k, k = 1 ∨ k = 2 → (":seat-" ++ toString k).toList.length = 7 := by
    rintro k (rfl | rfl) <;> rfl
  obtain ⟨hSource, hSeat⟩ := List.append_inj' hChars ((hLength m hm).trans (hLength n hn).symm)
  refine ⟨String.toList_inj.mp hSource, ?_⟩
  rcases hm with rfl | rfl <;> rcases hn with rfl | rfl
  · rfl
  · exact absurd hSeat (by decide)
  · exact absurd hSeat (by decide)
  · rfl

/-- Observations that are labelled by their source and their seat. -/
def Labelled (source : MatchStatisticsInput) (derived : Vector StatisticsObservation 2) : Prop :=
  ∀ k : Fin 2, (derived.get k).sourceId = observationId source.sourceId (k.val + 1) ∧
    (derived.get k).scope.seatNumber = k.val + 1 ∧
    (derived.get k).schemaVersion = statisticsSchemaVersion

theorem labelled_of_derive {platform : Platform} {source : MatchStatisticsInput}
    {derived : Vector StatisticsObservation 2} (h : source.derive platform = .ok derived) :
    Labelled source derived := by
  obtain ⟨ruleset, result, -, hKept⟩ := derive_kept h
  intro k
  refine ⟨(hKept k).sourceId, ?_, (hKept k).schemaVersion⟩
  rw [(hKept k).scope]
  rfl

theorem toList_two {α : Type} (pair : Vector α 2) : pair.toList = [pair.get 0, pair.get 1] := by
  refine List.ext_getElem (by simp) fun i hi hj => ?_
  simp only [List.length_cons, List.length_nil] at hj
  match i, hj with
  | 0, _ => rfl
  | 1, _ => rfl

end Labels

section Store

def sourceRow (source : MatchStatisticsInput) (derived : Vector StatisticsObservation 2)
    (now : UnixMillis) : SourceRow :=
  ⟨source.sourceId, source.schemaVersion, source.tournamentId, source.matchId, source.gameId,
    source.finishedAt, source, derived, now⟩

def observationRow (sourceId : String) (observation : StatisticsObservation) : ObservationRow :=
  ⟨observation.sourceId, sourceId, observation.schemaVersion, observation.scope, observation⟩

def StatisticsStore.extend (s : StatisticsStore) (source : MatchStatisticsInput)
    (derived : Vector StatisticsObservation 2) (now : UnixMillis) : StatisticsStore where
  sources := s.sources ++ [sourceRow source derived now]
  observations := s.observations ++ derived.toList.map (observationRow source.sourceId)

/-- Every observation belongs to a recorded source and names its seat. -/
structure Attributed (s : StatisticsStore) : Prop where
  sources : ∀ row ∈ s.observations, ∃ source ∈ s.sources, source.sourceId = row.sourceId
  seats : ∀ row ∈ s.observations, row.scope.seatNumber = 1 ∨ row.scope.seatNumber = 2
  ids : ∀ row ∈ s.observations,
    row.observationId = observationId row.sourceId row.scope.seatNumber

theorem Attributed.empty : Attributed .empty := by
  constructor <;> simp [StatisticsStore.empty]

/-- A store in which a source can be recorded. -/
structure Admits (s : StatisticsStore) (source : MatchStatisticsInput)
    (derived : Vector StatisticsObservation 2) (now : UnixMillis) : Prop where
  version : 0 < source.schemaVersion
  finished : 0 ≤ source.finishedAt
  time : 0 ≤ now
  fresh : ∀ old ∈ s.sources, source.sourceId ≠ old.sourceId
  scopes : ∀ k : Fin 2, scopeCheck (derived.get k).scope = true

variable {s t : StatisticsStore} {source : MatchStatisticsInput}
  {derived observations : Vector StatisticsObservation 2} {now : UnixMillis}

theorem insertRow_eq_ok {ρ : Type} {check : ρ → Bool} {clash : ρ → ρ → Bool} {added : ρ}
    {rows next : List ρ} : insertRow check clash added rows = .ok next ↔
      check added = true ∧ (∀ other ∈ rows, clash added other = false) ∧ next = rows ++ [added] := by
  rw [insertRow, okOr_eq_ok, Table.insert_eq_some]

theorem insertSource_eq_ok {row : SourceRow} : insertSource row s = .ok t ↔
    (0 < row.schemaVersion ∧ 0 ≤ row.finishedAt ∧ 0 ≤ row.recordedAt ∧
      ∀ old ∈ s.sources, row.sourceId ≠ old.sourceId) ∧
    t = { s with sources := s.sources ++ [row] } := by
  rw [insertSource, bind_eq_ok]
  simp only [insertRow_eq_ok, pure_eq_ok, SourceRow.check, Bool.and_eq_true, decide_eq_true_eq,
    beq_eq_false_iff_ne]
  constructor
  · rintro ⟨rows, ⟨⟨⟨hVersion, hFinished⟩, hTime⟩, hClear, rfl⟩, rfl⟩
    exact ⟨⟨hVersion, hFinished, hTime, hClear⟩, rfl⟩
  · rintro ⟨⟨hVersion, hFinished, hTime, hClear⟩, rfl⟩
    exact ⟨_, ⟨⟨⟨hVersion, hFinished⟩, hTime⟩, hClear, rfl⟩, rfl⟩

/-- An observation is added when its scope is well formed, its source is there and its
place is free. -/
theorem insertObservation_eq_ok {o : StatisticsObservation} {sourceId : String}
    (hLabel : o.sourceId = observationId sourceId o.scope.seatNumber)
    (hVersion : o.schemaVersion = statisticsSchemaVersion) :
    insertObservation s o = .ok t ↔
      (scopeCheck o.scope = true ∧ (∃ source ∈ s.sources, source.sourceId = sourceId) ∧
        ∀ old ∈ s.observations, o.sourceId ≠ old.observationId ∧
          ¬ (sourceId = old.sourceId ∧ o.scope.seatNumber = old.scope.seatNumber)) ∧
      t = { s with observations := s.observations ++ [observationRow sourceId o] } := by
  have hStrip : stripSuffix o.sourceId (":seat-" ++ toString o.scope.seatNumber) =
      some sourceId := by
    rw [hLabel]
    exact stripSuffix_observationId _ _
  simp only [insertObservation, bind_eq_ok, okOr_eq_ok, hStrip, Option.some.injEq,
    exists_eq_left', insertRow_eq_ok, pure_eq_ok, Bool.and_eq_true, decide_eq_true_eq,
    List.any_eq_true, beq_iff_eq, Bool.or_eq_false_iff, Bool.and_eq_false_iff,
    beq_eq_false_iff_ne, hVersion]
  constructor
  · rintro ⟨rows, ⟨⟨⟨-, hScope⟩, hSource⟩, hClear, rfl⟩, rfl⟩
    refine ⟨⟨hScope, hSource, fun old hOld => ⟨(hClear old hOld).1, ?_⟩⟩, ?_⟩
    · exact not_and_or.mpr (hClear old hOld).2
    · rw [observationRow, hVersion]
  · rintro ⟨⟨hScope, hSource, hClear⟩, rfl⟩
    refine ⟨_, ⟨⟨⟨Nat.one_pos, hScope⟩, hSource⟩, fun old hOld => ⟨(hClear old hOld).1, ?_⟩, rfl⟩,
      ?_⟩
    · exact not_and_or.mp (hClear old hOld).2
    · rw [observationRow, hVersion]

/-- The places of a new source are free. -/
theorem Attributed.free (h : Attributed s) (hFresh : ∀ old ∈ s.sources, source.sourceId ≠ old.sourceId)
    {seatNumber : Nat} (hSeat : seatNumber = 1 ∨ seatNumber = 2) :
    ∀ old ∈ s.observations, observationId source.sourceId seatNumber ≠ old.observationId ∧
      ¬ (source.sourceId = old.sourceId ∧ seatNumber = old.scope.seatNumber) := by
  intro old hOld
  obtain ⟨row, hRow, hSame⟩ := h.sources old hOld
  have hOther : source.sourceId ≠ old.sourceId := fun hEq => hFresh row hRow (hEq.trans hSame.symm)
  refine ⟨fun hClash => hOther ?_, fun hClash => hOther hClash.1⟩
  rw [h.ids old hOld] at hClash
  exact (observationId_inj hSeat (h.seats old hOld) hClash).1

/-- A transaction records exactly what the store admits. -/
theorem apply_eq_ok (h : Attributed s) (hLabelled : Labelled source derived) :
    s.apply source derived now = .ok (observations, t) ↔
      observations = derived ∧ Admits s source derived now ∧ t = s.extend source derived now := by
  obtain ⟨hLabel₀, hSeat₀, hVersion₀⟩ := hLabelled 0
  obtain ⟨hLabel₁, hSeat₁, hVersion₁⟩ := hLabelled 1
  have hOne : (derived.get 0).sourceId =
      observationId source.sourceId (derived.get 0).scope.seatNumber := by rw [hSeat₀, hLabel₀]
  have hTwo : (derived.get 1).sourceId =
      observationId source.sourceId (derived.get 1).scope.seatNumber := by rw [hSeat₁, hLabel₁]
  have hApart : (derived.get 1).sourceId ≠ (derived.get 0).sourceId := by
    rw [hLabel₀, hLabel₁]
    intro hSame
    have := (observationId_inj (.inr rfl) (.inl rfl) hSame).2
    cases this
  simp only [StatisticsStore.apply, toList_two, List.foldlM_cons, List.foldlM_nil, bind_eq_ok,
    pure_eq_ok, Prod.mk.injEq, insertSource_eq_ok, insertObservation_eq_ok hOne hVersion₀,
    insertObservation_eq_ok hTwo hVersion₁]
  constructor
  · rintro ⟨_, ⟨⟨hVersion, hFinished, hTime, hFresh⟩, rfl⟩, _, ⟨_, ⟨⟨hScope₀, -, -⟩, rfl⟩, _,
      ⟨⟨hScope₁, -, -⟩, rfl⟩, rfl⟩, rfl, rfl⟩
    refine ⟨rfl, ⟨hVersion, hFinished, hTime, hFresh, fun k => ?_⟩, ?_⟩
    · revert k
      exact Fin.forall_fin_two.mpr ⟨hScope₀, hScope₁⟩
    · simp [StatisticsStore.extend, toList_two, sourceRow]
  · rintro ⟨rfl, hAdmits, rfl⟩
    have hFree₀ := h.free hAdmits.fresh (.inl hSeat₀)
    have hFree₁ := h.free hAdmits.fresh (.inr hSeat₁)
    rw [← hOne] at hFree₀
    rw [← hTwo] at hFree₁
    have hOwn : ∀ rows : List SourceRow, ∃ row ∈ rows ++ [sourceRow source observations now],
        row.sourceId = source.sourceId :=
      fun rows => ⟨_, List.mem_append_right _ List.mem_cons_self, rfl⟩
    refine ⟨_, ⟨⟨hAdmits.version, hAdmits.finished, hAdmits.time, hAdmits.fresh⟩, rfl⟩, _,
      ⟨_, ⟨⟨hAdmits.scopes 0, hOwn _, hFree₀⟩, rfl⟩, _, ⟨⟨hAdmits.scopes 1, hOwn _, ?_⟩, rfl⟩,
        rfl⟩, rfl, ?_⟩
    · intro old hOld
      rcases List.mem_append.mp hOld with hRows | hNew
      · exact hFree₁ old hRows
      · rw [List.mem_singleton.mp hNew]
        refine ⟨hApart, fun hSame => ?_⟩
        have hSeats : (observations.get 1).scope.seatNumber =
            (observations.get 0).scope.seatNumber := hSame.2
        rw [hSeat₀, hSeat₁] at hSeats
        cases hSeats
    · simp [StatisticsStore.extend, toList_two, sourceRow]

/-- A recorded source keeps every observation attributed. -/
theorem Attributed.extend (h : Attributed s) (hLabelled : Labelled source derived) :
    Attributed (s.extend source derived now) := by
  have hRow : ∀ row ∈ derived.toList.map (observationRow source.sourceId),
      ∃ k : Fin 2, row = observationRow source.sourceId (derived.get k) := by
    intro row hRow
    rw [toList_two] at hRow
    rcases List.mem_cons.mp hRow with rfl | hRow
    · exact ⟨0, rfl⟩
    · exact ⟨1, List.mem_singleton.mp hRow⟩
  constructor
  · intro row hMem
    rcases List.mem_append.mp hMem with hOld | hNew
    · obtain ⟨found, hFound, hSame⟩ := h.sources row hOld
      exact ⟨found, List.mem_append_left _ hFound, hSame⟩
    · obtain ⟨k, rfl⟩ := hRow row hNew
      exact ⟨sourceRow source derived now, List.mem_append_right _ List.mem_cons_self, rfl⟩
  · intro row hMem
    rcases List.mem_append.mp hMem with hOld | hNew
    · exact h.seats row hOld
    · obtain ⟨k, rfl⟩ := hRow row hNew
      rw [observationRow, (hLabelled k).2.1]
      match k with
      | 0 => exact .inl rfl
      | 1 => exact .inr rfl
  · intro row hMem
    rcases List.mem_append.mp hMem with hOld | hNew
    · exact h.ids row hOld
    · obtain ⟨k, rfl⟩ := hRow row hNew
      simp only [observationRow]
      rw [(hLabelled k).1, (hLabelled k).2.1]

end Store

section Lookup

variable {platform : Platform} {s t : StatisticsStore} {source : MatchStatisticsInput}
  {derived : Vector StatisticsObservation 2} {now : UnixMillis}

theorem prepare_eq_ok : prepare platform source now = .ok derived ↔
    source.derive platform = .ok derived ∧ 0 ≤ now := by
  simp only [prepare, bind_eq_ok, mapErr_eq_ok, reject_eq_ok, Int.not_lt, pure_eq_ok]
  constructor
  · rintro ⟨_, hDerive, _, hTime, rfl⟩
    exact ⟨hDerive, hTime⟩
  · rintro ⟨hDerive, hTime⟩
    exact ⟨derived, hDerive, (), hTime, rfl⟩

theorem validId_of_derive (h : source.derive platform = .ok derived) :
    validId source.sourceId 256 = true ∧ source.schemaVersion = statisticsSchemaVersion := by
  obtain ⟨ruleset, result, counted, hValid, -⟩ := derive_eq_ok.mp h
  obtain ⟨_, hHeader, -⟩ := bind_eq_ok.mp hValid
  simp only [reject_eq_ok, not_or, not_not, Bool.not_eq_false] at hHeader
  exact ⟨hHeader.2.1, hHeader.1⟩

/-- A source that was never recorded is absent. -/
theorem lookup_absent (hDerive : source.derive platform = .ok derived)
    (hFresh : ∀ old ∈ s.sources, source.sourceId ≠ old.sourceId) :
    s.lookup platform source derived = .ok none := by
  have hNone : s.sources.find? (·.sourceId == source.sourceId) = none := by
    rw [List.find?_eq_none]
    intro row hRow hSame
    exact hFresh row hRow (beq_iff_eq.mp hSame).symm
  have hLoad : s.loadSource platform source.sourceId = .error (some .notFound) := by
    simp [StatisticsStore.loadSource, (validId_of_derive hDerive).1, hNone, reject, okOr, bind,
      Except.bind]
  rw [StatisticsStore.lookup, hLoad]

/-- The rows of a source that was just recorded. -/
theorem Attributed.own_rows (h : Attributed s) (hLabelled : Labelled source derived)
    (hFresh : ∀ old ∈ s.sources, source.sourceId ≠ old.sourceId) :
    validateObservationRows (s.extend source derived now) source.sourceId derived = .ok () := by
  have hOld : s.observations.filter (·.sourceId == source.sourceId) = [] := by
    refine List.filter_eq_nil_iff.mpr fun row hRow hSame => ?_
    obtain ⟨found, hFound, hId⟩ := h.sources row hRow
    exact hFresh found hFound ((beq_iff_eq.mp hSame).symm.trans hId.symm)
  have hRows : (s.extend source derived now).observations.filter
      (·.sourceId == source.sourceId) =
      [observationRow source.sourceId (derived.get 0),
        observationRow source.sourceId (derived.get 1)] := by
    rw [StatisticsStore.extend, List.filter_append, hOld, toList_two]
    simp [observationRow]
  have hSorted : [observationRow source.sourceId (derived.get 0),
      observationRow source.sourceId (derived.get 1)].insertionSort (fun a b =>
        a.scope.seatNumber ≤ b.scope.seatNumber) =
      [observationRow source.sourceId (derived.get 0),
        observationRow source.sourceId (derived.get 1)] := by
    refine List.Pairwise.insertionSort_eq (List.pairwise_pair.mpr ?_)
    simp only [observationRow, (hLabelled 0).2.1, (hLabelled 1).2.1]
    decide
  have hAgrees : ∀ k : Fin 2, observationAgrees (observationRow source.sourceId (derived.get k))
      (derived.get k) = true := by
    intro k
    simp [observationAgrees, observationRow, (hLabelled k).2.2]
  rw [validateObservationRows, hRows, hSorted, toList_two]
  refine bind_eq_ok.mpr ⟨(), reject_eq_ok.mpr (by simp), ?_⟩
  simp only [List.zip_cons_cons, List.zip_nil_right, forM_eq_ok, List.forall_mem_cons,
    reject_eq_ok, hAgrees]
  simp

/-- A recorded source is found with its observations. -/
theorem lookup_recorded (h : Attributed s) (hDerive : source.derive platform = .ok derived)
    (hAdmits : Admits s source derived now) :
    (s.extend source derived now).lookup platform source derived = .ok (some derived) := by
  obtain ⟨hId, hVersion⟩ := validId_of_derive hDerive
  have hFind : (s.extend source derived now).sources.find? (·.sourceId == source.sourceId) =
      some (sourceRow source derived now) := by
    rw [StatisticsStore.extend, List.find?_append, List.find?_eq_none.mpr fun row hRow hSame =>
      hAdmits.fresh row hRow (beq_iff_eq.mp hSame).symm]
    simp [sourceRow]
  have hParse : parseSource (sourceRow source derived now) = .ok source := by
    refine bind_eq_ok.mpr ⟨(), reject_eq_ok.mpr ?_, rfl⟩
    simp [sourceRow, hVersion, hAdmits.time]
  have hRows : validateObservationRows (s.extend source derived now) source.sourceId derived =
      .ok () := h.own_rows (labelled_of_derive hDerive) hAdmits.fresh
  have hLoad : (s.extend source derived now).loadSource platform source.sourceId =
      .ok (source, derived) := by
    refine bind_eq_ok.mpr ⟨(), reject_eq_ok.mpr (by simp [hId]), ?_⟩
    refine bind_eq_ok.mpr ⟨_, okOr_eq_ok.mpr hFind, ?_⟩
    refine bind_eq_ok.mpr ⟨source, mapErr_eq_ok.mpr hParse, ?_⟩
    refine bind_eq_ok.mpr ⟨derived, mapErr_eq_ok.mpr hDerive, ?_⟩
    refine bind_eq_ok.mpr ⟨(), reject_eq_ok.mpr (by simp [sourceRow]), ?_⟩
    exact bind_eq_ok.mpr ⟨(), mapErr_eq_ok.mpr hRows, rfl⟩
  rw [StatisticsStore.lookup, hLoad]
  exact if_pos ⟨rfl, rfl⟩

theorem Attributed.recordSource {result : StatisticsRecordResult} (h : Attributed s)
    (hRecord : s.recordSource platform source now = .ok (result, t)) : Attributed t := by
  obtain ⟨derived, hPrepare, hRecord⟩ := bind_eq_ok.mp hRecord
  obtain ⟨found, -, hRecord⟩ := bind_eq_ok.mp hRecord
  have hLabelled := labelled_of_derive (prepare_eq_ok.mp hPrepare).1
  cases found with
  | some existing =>
      cases pure_eq_ok.mp hRecord
      exact h
  | none =>
      obtain ⟨⟨observations, next⟩, hApply, hRecord⟩ := bind_eq_ok.mp hRecord
      cases pure_eq_ok.mp hRecord
      obtain ⟨-, -, rfl⟩ := (apply_eq_ok h hLabelled).mp (mapErr_eq_ok.mp hApply)
      exact h.extend hLabelled

/-- Every sequence of records keeps the observations attributed. -/
theorem attributed_after (platform : Platform)
    (requests : List (MatchStatisticsInput × UnixMillis)) :
    Attributed ((statisticsMachine platform).after .empty requests) := by
  refine Machine.after_invariant _ ?_ Attributed.empty requests
  intro s request hAttributed
  rcases transact_cases s (s.recordSource platform request.1 request.2) with
    ⟨result, next, hRecord, hDone⟩ | ⟨e, -, hDone⟩
  · simp only [statisticsMachine, hDone]
    exact hAttributed.recordSource hRecord
  · simp only [statisticsMachine, hDone]
    exact hAttributed

end Lookup

end WordArena.Statistics
