import WordArena.Library.Submission
import WordArena.Rating.Projection
import WordArena.Statistics.Records

/-! Repeated submissions of one rating period, and of one statistics source. Both
repositories look the identifier up on the pool and then open a transaction. -/
namespace WordArena

open Fallible WordArena.Engine WordArena.Application

namespace Rating

section Submit

variable {ι : Type} {system : RatingSystem} {s t : RatingStore} {period : RatingPeriod}
  {derived : List (String × RatingValue)} {now : ι → UnixMillis}

/-- Submissions of one period. What is derived does not depend on the time. -/
def ratingSubmission (system : RatingSystem) (period : RatingPeriod) (now : ι → UnixMillis) :
    Submission ι RatingStore StoredRatingPeriod RatingRepositoryError where
  prepare i := do
    let _ ← prepare system period (now i)
    return ()
  lookup s := do
    let derived ← prepare system period 0
    s.lookup system period derived
  commit i s := do
    let derived ← prepare system period 0
    s.apply system period derived (now i)

/-- A period that a store can take. -/
def Acceptable (system : RatingSystem) (s : RatingStore) (period : RatingPeriod) : Prop :=
  ∃ derived poolKey, period.derive system = .ok derived ∧
    period.pool.key system.platform = .ok poolKey ∧ Admits s (periodRow poolKey period derived 0)

/-- The time of a commit is only checked against the epoch. -/
theorem Admits.at_time {poolKey : String} {before after : UnixMillis}
    (h : Admits s (periodRow poolKey period derived before)) (hTime : 0 ≤ after) :
    Admits s (periodRow poolKey period derived after) :=
  ⟨h.bounded, h.sequence, h.previous, h.version, hTime, h.fresh, h.games, h.unused, h.matchIds,
    h.inputs, h.outputs, h.entrants⟩

theorem prepared_iff {i : ι} : (ratingSubmission system period now).prepare i = .ok () ↔
    0 ≤ now i ∧ ∃ derived, period.derive system = .ok derived := by
  simp only [ratingSubmission, bind_eq_ok, pure_eq_ok, and_true, prepare_eq_ok, exists_and_left]

theorem commit_eq_ok {i : ι} {stored : StoredRatingPeriod} :
    (ratingSubmission system period now).commit i s = .ok (stored, t) ↔
      ∃ derived, period.derive system = .ok derived ∧
        s.apply system period derived (now i) = .ok (stored, t) := by
  simp only [ratingSubmission, bind_eq_ok, prepare_eq_ok, le_refl, true_and]

theorem lookup_eq (hDerive : period.derive system = .ok derived) :
    (ratingSubmission system period now).lookup s = s.lookup system period derived := by
  simp only [ratingSubmission, prepare_eq_ok.mpr ⟨le_refl (0 : UnixMillis), hDerive⟩, ok_bind]

/-- A period is found once it was committed, and cannot be committed again. -/
theorem Recorded.lawful (h : Recorded system s) :
    (ratingSubmission system period now).Lawful s := by
  constructor
  · intro i stored t hPrepare hCommit
    obtain ⟨derived, hDerive, hApply⟩ := commit_eq_ok.mp hCommit
    obtain ⟨poolKey, hKey, hAdmits, rfl, rfl⟩ := apply_eq_ok.mp hApply
    have hRecorded := h.extend (sound_periodRow hDerive hKey) hAdmits
    have hLoad : (s.extend (periodRow poolKey period derived (now i))).loadPeriod system
        period.periodId = .ok ⟨period, derived, now i⟩ :=
      hRecorded.loadPeriod (List.mem_append_right _ List.mem_cons_self)
    rw [lookup_eq hDerive, RatingStore.lookup, hLoad]
    exact if_pos ⟨rfl, rfl⟩
  · intro i stored t hCommit j
    obtain ⟨derived, hDerive, hApply⟩ := commit_eq_ok.mp hCommit
    obtain ⟨poolKey, hKey, -, rfl, rfl⟩ := apply_eq_ok.mp hApply
    rcases ok_or_error ((ratingSubmission system period now).commit j
      (s.extend (periodRow poolKey period derived (now i)))) with ⟨⟨again, next⟩, hAgain⟩ | hError
    · obtain ⟨other, -, hApply⟩ := commit_eq_ok.mp hAgain
      obtain ⟨otherKey, -, hAdmits, -, -⟩ := apply_eq_ok.mp hApply
      have hStored : periodRow poolKey period derived (now i) ∈
          (s.extend (periodRow poolKey period derived (now i))).periods :=
        List.mem_append_right _ List.mem_cons_self
      exact absurd rfl (hAdmits.fresh _ hStored).1
    · exact hError

variable [DecidableEq ι] [Nonempty ι]

/-- Racing submissions of a period are idempotent exactly when the period can be taken
and whoever looks first commits before anyone else looks. -/
theorem Recorded.idempotent_iff (h : Recorded system s) {schedule : List ι}
    (hSettled : ((ratingSubmission system period now).run s schedule).Settled) :
    ((ratingSubmission system period now).run s schedule).Idempotent ↔
      (∀ i, 0 ≤ now i) ∧ Acceptable system s period ∧
        ∃ first rest, schedule = first :: first :: rest := by
  rw [Submission.idempotent_iff h.lawful hSettled]
  constructor
  · rintro ⟨hPrepare, -, first, rest, rfl, stored, t, hCommit⟩
    obtain ⟨derived, hDerive, hApply⟩ := commit_eq_ok.mp hCommit
    obtain ⟨poolKey, hKey, hAdmits, -, -⟩ := apply_eq_ok.mp hApply
    exact ⟨fun i => (prepared_iff.mp (hPrepare i)).1,
      ⟨derived, poolKey, hDerive, hKey, hAdmits.at_time (le_refl _)⟩, first, rest, rfl⟩
  · rintro ⟨hTimes, ⟨derived, poolKey, hDerive, hKey, hAdmits⟩, first, rest, rfl⟩
    refine ⟨fun i => prepared_iff.mpr ⟨hTimes i, derived, hDerive⟩, ?_, first, rest, rfl, _, _,
      commit_eq_ok.mpr ⟨derived, hDerive, apply_eq_ok.mpr
        ⟨poolKey, hKey, hAdmits.at_time (hTimes first), rfl, rfl⟩⟩⟩
    have hValid := (distinct_of_validate (derive_eq_ok.mp hDerive).1).periodId
    rw [lookup_eq hDerive, RatingStore.lookup,
      loadPeriod_absent hValid fun row hRow hSame => (hAdmits.fresh row hRow).1 hSame.symm]

end Submit

end Rating

namespace Statistics

section Submit

variable {ι : Type} {platform : Platform} {s t : StatisticsStore} {source : MatchStatisticsInput}
  {derived observations : Vector StatisticsObservation 2} {now : ι → UnixMillis}

/-- Submissions of one source. What is derived does not depend on the time. -/
def statisticsSubmission (platform : Platform) (source : MatchStatisticsInput)
    (now : ι → UnixMillis) :
    Submission ι StatisticsStore (Vector StatisticsObservation 2) RecordFault where
  prepare i := do
    let _ ← prepare platform source (now i)
    return ()
  lookup s := do
    let derived ← prepare platform source 0
    s.lookup platform source derived
  commit i s := do
    let derived ← prepare platform source 0
    mapErr .error (s.apply source derived (now i))

/-- A source that a store can take. -/
def Acceptable (platform : Platform) (s : StatisticsStore) (source : MatchStatisticsInput) : Prop :=
  ∃ derived, source.derive platform = .ok derived ∧ Admits s source derived 0

theorem Admits.at_time {before after : UnixMillis} (h : Admits s source derived before)
    (hTime : 0 ≤ after) : Admits s source derived after :=
  ⟨h.version, h.finished, hTime, h.fresh, h.scopes⟩

theorem prepared_iff {i : ι} : (statisticsSubmission platform source now).prepare i = .ok () ↔
    0 ≤ now i ∧ ∃ derived, source.derive platform = .ok derived := by
  simp only [statisticsSubmission, bind_eq_ok, pure_eq_ok, and_true, prepare_eq_ok,
    exists_and_right]
  exact and_comm

theorem commit_eq_ok (h : Attributed s) {i : ι} :
    (statisticsSubmission platform source now).commit i s = .ok (observations, t) ↔
      source.derive platform = .ok observations ∧ Admits s source observations (now i) ∧
        t = s.extend source observations (now i) := by
  simp only [statisticsSubmission, bind_eq_ok, prepare_eq_ok, le_refl, and_true, mapErr_eq_ok]
  constructor
  · rintro ⟨derived, hDerive, hApply⟩
    obtain ⟨rfl, hAdmits, rfl⟩ := (apply_eq_ok h (labelled_of_derive hDerive)).mp hApply
    exact ⟨hDerive, hAdmits, rfl⟩
  · rintro ⟨hDerive, hAdmits, rfl⟩
    exact ⟨observations, hDerive,
      (apply_eq_ok h (labelled_of_derive hDerive)).mpr ⟨rfl, hAdmits, rfl⟩⟩

theorem lookup_eq (hDerive : source.derive platform = .ok derived) :
    (statisticsSubmission platform source now).lookup s = s.lookup platform source derived := by
  simp only [statisticsSubmission, prepare_eq_ok.mpr ⟨hDerive, le_refl (0 : UnixMillis)⟩, ok_bind]

/-- A source is found once it was recorded, and cannot be recorded again. -/
theorem Attributed.lawful (h : Attributed s) :
    (statisticsSubmission platform source now).Lawful s := by
  constructor
  · intro i observations t hPrepare hCommit
    obtain ⟨hDerive, hAdmits, rfl⟩ := (commit_eq_ok h).mp hCommit
    rw [lookup_eq hDerive]
    exact lookup_recorded h hDerive hAdmits
  · intro i observations t hCommit j
    obtain ⟨hDerive, hAdmits, rfl⟩ := (commit_eq_ok h).mp hCommit
    have hNext : Attributed (s.extend source observations (now i)) :=
      h.extend (labelled_of_derive hDerive)
    rcases ok_or_error ((statisticsSubmission platform source now).commit j
      (s.extend source observations (now i))) with ⟨⟨again, next⟩, hAgain⟩ | hError
    · obtain ⟨-, hFresh, -⟩ := (commit_eq_ok hNext).mp hAgain
      have hStored : sourceRow source observations (now i) ∈
          (s.extend source observations (now i)).sources :=
        List.mem_append_right _ List.mem_cons_self
      exact absurd rfl (hFresh.fresh _ hStored)
    · exact hError

variable [DecidableEq ι] [Nonempty ι]

theorem Attributed.idempotent_iff (h : Attributed s) {schedule : List ι}
    (hSettled : ((statisticsSubmission platform source now).run s schedule).Settled) :
    ((statisticsSubmission platform source now).run s schedule).Idempotent ↔
      (∀ i, 0 ≤ now i) ∧ Acceptable platform s source ∧
        ∃ first rest, schedule = first :: first :: rest := by
  rw [Submission.idempotent_iff h.lawful hSettled]
  constructor
  · rintro ⟨hPrepare, -, first, rest, rfl, observations, t, hCommit⟩
    obtain ⟨hDerive, hAdmits, -⟩ := (commit_eq_ok h).mp hCommit
    exact ⟨fun i => (prepared_iff.mp (hPrepare i)).1,
      ⟨observations, hDerive, hAdmits.at_time (le_refl _)⟩, first, rest, rfl⟩
  · rintro ⟨hTimes, ⟨derived, hDerive, hAdmits⟩, first, rest, rfl⟩
    refine ⟨fun i => prepared_iff.mpr ⟨hTimes i, derived, hDerive⟩, ?_, first, rest, rfl, _, _,
      (commit_eq_ok h).mpr ⟨hDerive, hAdmits.at_time (hTimes first), rfl⟩⟩
    rw [lookup_eq hDerive]
    exact lookup_absent hDerive hAdmits.fresh

end Submit

end Statistics

/-- Submissions of one period, or of one source, to a store that earlier requests left
behind: one of them is applied and all others repeat it exactly when the store can take
it and the submission that looks first commits before any other one looks. -/
theorem identical_submissions_idempotent (n : Nat) :
    (∀ (system : Rating.RatingSystem) (earlier : List (Rating.RatingPeriod × UnixMillis))
      (period : Rating.RatingPeriod) (now : Fin (n + 1) → UnixMillis)
      (schedule : List (Fin (n + 1))),
      ((Rating.ratingSubmission system period now).run
        ((Rating.ratingMachine system).after .empty earlier) schedule).Settled →
      (((Rating.ratingSubmission system period now).run
          ((Rating.ratingMachine system).after .empty earlier) schedule).Idempotent ↔
        (∀ i, 0 ≤ now i) ∧
          Rating.Acceptable system ((Rating.ratingMachine system).after .empty earlier) period ∧
          ∃ first rest, schedule = first :: first :: rest)) ∧
    (∀ (platform : Platform) (earlier : List (Statistics.MatchStatisticsInput × UnixMillis))
      (source : Statistics.MatchStatisticsInput) (now : Fin (n + 1) → UnixMillis)
      (schedule : List (Fin (n + 1))),
      ((Statistics.statisticsSubmission platform source now).run
        ((Statistics.statisticsMachine platform).after .empty earlier) schedule).Settled →
      (((Statistics.statisticsSubmission platform source now).run
          ((Statistics.statisticsMachine platform).after .empty earlier) schedule).Idempotent ↔
        (∀ i, 0 ≤ now i) ∧
          Statistics.Acceptable platform
            ((Statistics.statisticsMachine platform).after .empty earlier) source ∧
          ∃ first rest, schedule = first :: first :: rest)) := by
  constructor
  · intro system earlier period now schedule hSettled
    exact (Rating.recorded_after system earlier).idempotent_iff hSettled
  · intro platform earlier source now schedule hSettled
    exact (Statistics.attributed_after platform earlier).idempotent_iff hSettled

section Demonstration

open Rating Statistics

/-- A game that its second player leaves at once. -/
def demoSource : MatchStatisticsInput where
  schemaVersion := statisticsSchemaVersion
  sourceId := "match-1"
  tournamentId := none
  matchId := "match-1"
  gameId := "game-1"
  finishedAt := 7
  participants := #v[⟨"north", none⟩, ⟨"south", none⟩]
  events :=
    [⟨0, .publicEvent, (Ruleset.builtin .englishV1).lexicon, .created "game-1"
        (Ruleset.builtin .englishV1) .competitive .xoshiro256StarStarV1
        ⟨.xoshiro256StarStarV1, demoRatingPool.rulesetSha256⟩ [7, 7] 86⟩,
      ⟨1, .publicEvent, (Ruleset.builtin .englishV1).lexicon, .resigned .two
        ⟨"game-1", .englishV1, (Ruleset.builtin .englishV1).lexicon, [.zero, .zero], some .one, 1,
          .resignation .two⟩⟩]
  invalidAttempts := #v[0, 2]
  telemetry := Vector.replicate 2 ⟨none, .unavailable, .unavailable, .unavailable, .unavailable⟩

theorem demoPeriod_acceptable : Rating.Acceptable demoSystem .empty demoPeriod := by
  have hDerive : demoPeriod.derive demoSystem = .ok
      [("north", ⟨1500000, 350000, 60000000⟩), ("south", ⟨1400000, 350000, 60000000⟩)] := by
    decide
  have hKey : demoPeriod.pool.key demoSystem.platform = .ok _ :=
    key_eq_ok.mpr ⟨by decide, rfl⟩
  have hUpdates : ∀ input ∈ demoPeriod.updates, ratingCheck input.previous = true ∧
      (input.entrantId, input.previous) ∈ [("north", (⟨1500000, 350000, 60000000⟩ : RatingValue)),
        ("south", ⟨1400000, 350000, 60000000⟩)] := by
    decide
  refine ⟨_, _, hDerive, hKey, ?_⟩
  constructor
  · decide
  · rfl
  · exact nofun
  · decide
  · decide
  · exact nofun
  · exact nofun
  · exact nofun
  · decide
  · exact fun input hInput => ⟨(hUpdates input hInput).1, nofun⟩
  · intro input hInput
    obtain ⟨hCheck, hMem⟩ := hUpdates input hInput
    exact ⟨input.previous, (Ordered.ofList_eq_some (nodup_derived hDerive)).mpr hMem, hCheck, nofun⟩
  · decide

/-- The record of such a game, under any rules of that name. -/
theorem resigned_validated (platform : Platform) {ruleset : Ruleset} (hId : ruleset.id = .englishV1)
    (commitment : SeedCommitment) :
    ({ demoSource with
        events := [⟨0, .publicEvent, ruleset.lexicon, .created "game-1" ruleset .competitive
            .xoshiro256StarStarV1 commitment [7, 7] 86⟩,
          ⟨1, .publicEvent, ruleset.lexicon, .resigned .two ⟨"game-1", .englishV1, ruleset.lexicon,
            [.zero, .zero], some .one, 1, .resignation .two⟩⟩] } :
        MatchStatisticsInput).validate platform =
      .ok (ruleset, ⟨"game-1", .englishV1, ruleset.lexicon, [.zero, .zero], some .one, 1,
        .resignation .two⟩) := by
  refine bind_eq_ok.mpr ⟨(), reject_eq_ok.mpr ?_, bind_eq_ok.mpr ⟨(), reject_eq_ok.mpr ?_, ?_⟩⟩
  · simp [demoSource]
    decide
  · simp [demoSource, validParticipant]
    decide
  refine bind_eq_ok.mpr ⟨(), rfl, bind_eq_ok.mpr ⟨_, rfl, ?_⟩⟩
  refine bind_eq_ok.mpr ⟨_, rfl, bind_eq_ok.mpr ⟨(), reject_eq_ok.mpr ?_, ?_⟩⟩
  · simp [demoSource]
  refine bind_eq_ok.mpr ⟨some ⟨"game-1", .englishV1, ruleset.lexicon, [.zero, .zero], some .one, 1,
    .resignation .two⟩, ?_, bind_eq_ok.mpr ⟨_, rfl, ?_⟩⟩
  · simp [checkEvent, nextTerminal, eventResult, eventResultIsConsistent, reject, bind,
      Except.bind, pure, Except.pure]
  refine bind_eq_ok.mpr ⟨(), reject_eq_ok.mpr ?_, bind_eq_ok.mpr ⟨(), rfl, ?_⟩⟩
  · simp [demoSource, Ruleset.identity, hId]
  exact bind_eq_ok.mpr ⟨_, rfl, bind_eq_ok.mpr ⟨(), rfl, rfl⟩⟩

theorem scopeCheck_emptyObservation {platform : Platform} {input : MatchStatisticsInput}
    {ruleset : Ruleset} {result : GameResult} {k : Fin 2}
    (hPack : validSha256 ruleset.lexicon.contentSha256 = true)
    (hAgent : (input.participants.get k).agentManifestSha256 = none) (hTime : 0 ≤ input.finishedAt) :
    scopeCheck (emptyObservation platform input ruleset result k).scope = true := by
  have hDigest : validSha256 (ruleset.identity platform).contentSha256 = true :=
    validSha256_hexLower _
  have hSeat : ∀ k : Fin 2, (k.val + 1 == 1 || k.val + 1 == 2) = true := by decide
  simp only [scopeCheck, emptyObservation, hDigest, hPack, hAgent, hTime, hSeat, Option.all_none,
    decide_true, Bool.and_true]

theorem demoSource_acceptable : Statistics.Acceptable basicPlatform .empty demoSource := by
  have hValid : demoSource.validate basicPlatform = .ok (Ruleset.builtin .englishV1,
      ⟨"game-1", .englishV1, (Ruleset.builtin .englishV1).lexicon, [.zero, .zero], some .one, 1,
          .resignation .two⟩) :=
    resigned_validated basicPlatform (builtin_id .englishV1) _
  have hFinish : ∀ (k : Fin 2) (o : StatisticsObservation),
      ∃ next, finishObservation demoSource k o = .ok next :=
    Fin.forall_fin_two.mpr ⟨fun _ => ⟨_, rfl⟩, fun _ => ⟨_, rfl⟩⟩
  obtain ⟨derived, hDerive⟩ : ∃ derived, demoSource.derive basicPlatform = .ok derived := by
    obtain ⟨one, hOne⟩ := hFinish 0 _
    obtain ⟨two, hTwo⟩ := hFinish 1 _
    refine ⟨#v[one, two], derive_eq_ok.mpr ⟨_, _, _, hValid, rfl, fun k => ?_⟩⟩
    revert k
    exact Fin.forall_fin_two.mpr ⟨hOne, hTwo⟩
  refine ⟨derived, hDerive, by decide, by decide, by decide, (fun old hMem => by cases hMem),
    fun k => ?_⟩
  obtain ⟨ruleset, result, hOutcome, hKept⟩ := derive_kept hDerive
  obtain ⟨hRuleset, hResult⟩ := Prod.mk.inj (Except.ok.inj (hValid.symm.trans hOutcome))
  subst hRuleset hResult
  have hPack : validSha256 (Ruleset.builtin .englishV1).lexicon.contentSha256 = true := by
    rw [(builtin_pins .englishV1).2]
    decide +kernel
  rw [(hKept k).scope]
  revert k
  exact Fin.forall_fin_two.mpr
    ⟨scopeCheck_emptyObservation hPack rfl (by decide), scopeCheck_emptyObservation hPack rfl (by decide)⟩

/-- Two submissions that take turns: the first one is applied, the second one repeats. -/
theorem demo_submissions_idempotent :
    ((ratingSubmission demoSystem demoPeriod fun _ : Fin 2 => 5).run .empty [0, 0, 1, 1]).Idempotent ∧
    ((statisticsSubmission basicPlatform demoSource fun _ : Fin 2 => 8).run .empty
      [1, 1, 0, 0]).Idempotent := by
  obtain ⟨hRating, hStatistics⟩ := identical_submissions_idempotent 1
  constructor
  · refine (hRating demoSystem [] demoPeriod (fun _ => 5) [0, 0, 1, 1] ?_).mpr
      ⟨by decide, demoPeriod_acceptable, 0, [1, 1], rfl⟩
    exact Submission.settled_of_count (by decide)
  · refine (hStatistics basicPlatform [] demoSource (fun _ => 8) [1, 1, 0, 0] ?_).mpr
      ⟨by decide, demoSource_acceptable, 1, [0, 0], rfl⟩
    exact Submission.settled_of_count (by decide)

/-- Two submissions that both look before either one commits. -/
theorem demo_submissions_conflict :
    ¬ ((ratingSubmission demoSystem demoPeriod fun _ : Fin 2 => 5).run .empty [0, 1, 0, 1]).Idempotent ∧
    ¬ ((statisticsSubmission basicPlatform demoSource fun _ : Fin 2 => 8).run .empty
      [0, 1, 0, 1]).Idempotent := by
  have hApart : ¬ ∃ (first : Fin 2) (rest : List (Fin 2)), [0, 1, 0, 1] = first :: first :: rest := by
    rintro ⟨first, rest, hSplit⟩
    simp only [List.cons.injEq] at hSplit
    exact absurd (hSplit.1.trans hSplit.2.1.symm) (by decide)
  constructor
  · intro h
    have hSettled : ((ratingSubmission demoSystem demoPeriod fun _ : Fin 2 => 5).run .empty
        [0, 1, 0, 1]).Settled := Submission.settled_of_count (by decide)
    exact hApart (((Recorded.empty demoSystem).idempotent_iff hSettled).mp h).2.2
  · intro h
    have hSettled : ((statisticsSubmission basicPlatform demoSource fun _ : Fin 2 => 8).run .empty
        [0, 1, 0, 1]).Settled := Submission.settled_of_count (by decide)
    exact hApart ((Attributed.empty.idempotent_iff hSettled).mp h).2.2

end Demonstration

end WordArena
