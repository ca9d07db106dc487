import WordArena.Engine.Fresh
import WordArena.Rating.Rebuild

/-! Current ratings as a rebuildable projection of any sequence of commits. Pools are
told apart by the digest of their identity, so two pools of one run must not collide. -/
namespace WordArena.Rating

open Fallible WordArena.Engine WordArena.Application

section Keys

variable {platform : Platform} {pools : List RatingPool} {pool other : RatingPool}
  {poolKey : String}

/-- The digest tells the identities of some pools apart. -/
def CollisionFree (platform : Platform) (pools : List RatingPool) : Prop :=
  ∀ pool ∈ pools, ∀ other ∈ pools,
    platform.sha256 (Bytes.utf8 pool.json) = platform.sha256 (Bytes.utf8 other.json) →
      Bytes.utf8 pool.json = Bytes.utf8 other.json

theorem append_left_inj_text {start left right : String} (h : start ++ left = start ++ right) :
    left = right := by
  have hChars := congrArg String.toList h
  rw [String.toList_append, String.toList_append] at hChars
  exact String.toList_inj.mp (List.append_cancel_left hChars)

/-- A pool is determined by its text. -/
theorem json_injective : Function.Injective RatingPool.json := by
  have hText : ∀ pool : RatingPool, pool.json = "\x7b\"language\":" ++ (Json.text pool.language ++
      (",\"ruleset_id\":" ++ (Json.text pool.rulesetId ++ (",\"ruleset_sha256\":" ++
        (Json.text pool.rulesetSha256 ++ (",\"rated_format_policy\":" ++
          (Json.text pool.ratedFormatPolicy ++ "\x7d"))))))) := by
    intro pool
    have hNames : Json.text "language" = "\"language\"" ∧ Json.text "ruleset_id" = "\"ruleset_id\"" ∧
        Json.text "ruleset_sha256" = "\"ruleset_sha256\"" ∧
        Json.text "rated_format_policy" = "\"rated_format_policy\"" := by decide
    have hJoin : ∀ a b c d : String,
        ",".intercalate [a, b, c, d] = a ++ "," ++ b ++ "," ++ c ++ "," ++ d :=
      fun _ _ _ _ => rfl
    rw [RatingPool.json, Json.object]
    simp only [List.map_cons, List.map_nil, hNames.1, hNames.2.1, hNames.2.2.1, hNames.2.2.2, hJoin]
    rw [← String.toList_inj]
    simp
  intro pool other h
  rw [hText, hText] at h
  obtain ⟨hLanguage, h⟩ := Json.text_append_inj (append_left_inj_text h)
  obtain ⟨hRuleset, h⟩ := Json.text_append_inj (append_left_inj_text h)
  obtain ⟨hSha, h⟩ := Json.text_append_inj (append_left_inj_text h)
  obtain ⟨hPolicy, -⟩ := Json.text_append_inj (append_left_inj_text h)
  cases pool
  cases other
  simp only [RatingPool.mk.injEq]
  exact ⟨hLanguage, hRuleset, hSha, hPolicy⟩

theorem key_eq_ok : pool.key platform = .ok poolKey ↔ pool.valid = true ∧
    poolKey = Bytes.hexLower (platform.sha256 (Bytes.utf8 pool.json)).toList := by
  simp only [RatingPool.key, bind_eq_ok, reject_eq_ok, pure_eq_ok, Bool.not_eq_false]
  constructor
  · rintro ⟨_, hValid, hKey⟩
    exact ⟨hValid, hKey.symm⟩
  · rintro ⟨hValid, hKey⟩
    exact ⟨(), hValid, hKey.symm⟩

/-- Pools that are told apart have keys of their own. -/
theorem CollisionFree.eq_of_key (h : CollisionFree platform pools) (hPool : pool ∈ pools)
    (hOther : other ∈ pools) (hKey : pool.key platform = .ok poolKey)
    (hSame : other.key platform = .ok poolKey) : pool = other := by
  obtain ⟨-, rfl⟩ := key_eq_ok.mp hKey
  obtain ⟨-, hDigest⟩ := key_eq_ok.mp hSame
  have hBytes := Vector.toList_inj.mp (Bytes.hexLower_injective hDigest)
  exact json_injective (Bytes.utf8_injective (h pool hPool other hOther hBytes))

end Keys

section Runs

variable {system : RatingSystem} {s : RatingStore} {row : PeriodRow}
  {requests : List (RatingPeriod × UnixMillis)}

/-- A commit stores no other period than the one it was given. -/
theorem mem_commit {request : RatingPeriod × UnixMillis}
    (h : row ∈ ((ratingMachine system).step s request).2.periods) :
    row ∈ s.periods ∨ row.period = request.1 := by
  rcases transact_cases s (s.commitPeriod system request.1 request.2) with
    ⟨result, next, hCommit, hDone⟩ | ⟨e, -, hDone⟩
  · simp only [ratingMachine, hDone] at h
    obtain ⟨derived, -, hCommit⟩ := bind_eq_ok.mp hCommit
    obtain ⟨found, -, hCommit⟩ := bind_eq_ok.mp hCommit
    cases found with
    | some existing =>
        cases pure_eq_ok.mp hCommit
        exact .inl h
    | none =>
        obtain ⟨⟨stored, last⟩, hApply, hCommit⟩ := bind_eq_ok.mp hCommit
        cases pure_eq_ok.mp hCommit
        obtain ⟨poolKey, -, -, -, rfl⟩ := apply_eq_ok.mp hApply
        rcases List.mem_append.mp h with hOld | hNew
        · exact .inl hOld
        · rw [List.mem_singleton.mp hNew]
          exact .inr rfl
  · simp only [ratingMachine, hDone] at h
    exact .inl h

theorem mem_after (h : row ∈ ((ratingMachine system).after s requests).periods) :
    row ∈ s.periods ∨ row.period ∈ requests.map Prod.fst := by
  induction requests generalizing s with
  | nil => exact .inl h
  | cons request requests ih =>
      rcases ih h with hStep | hLater
      · rcases mem_commit hStep with hOld | hNew
        · exact .inl hOld
        · exact .inr (hNew ▸ List.mem_cons_self)
      · exact .inr (List.mem_cons_of_mem _ hLater)

/-- What the history of a pool looks like in a store. -/
structure Rebuildable (system : RatingSystem) (s : RatingStore) (pool : RatingPool)
    (poolKey : String) : Prop where
  rebuilt : s.rebuildPool system pool = .ok (s.currentRatings poolKey)
  sequences : (s.poolPeriods poolKey).map (·.sequence) =
    List.range (s.poolPeriods poolKey).length
  matchIds : (s.poolPeriods poolKey).Pairwise fun a b =>
    ∀ game ∈ a.period.games, ∀ other ∈ b.period.games, game.matchId ≠ other.matchId
  chain : ∀ earlier last skipped row rest,
    s.poolPeriods poolKey = earlier ++ last :: skipped ++ row :: rest →
    ∀ input ∈ row.period.updates, ∀ rating, (input.entrantId, rating) ∈ last.derived →
      (∀ other ∈ skipped, input.entrantId ∉ other.period.updates.map (·.entrantId)) →
      input.previous = rating

theorem Recorded.rebuildable (h : Recorded system s) {pool : RatingPool} {poolKey : String}
    (hKey : pool.key system.platform = .ok poolKey)
    (hPool : ∀ row ∈ s.poolPeriods poolKey, row.period.pool = pool) :
    Rebuildable system s pool poolKey := by
  refine ⟨h.rebuildPool hKey hPool, h.sequences poolKey, ?_, ?_⟩
  · refine (h.games.sublist List.filter_sublist).imp_of_mem ?_
    intro a b ha hb hGames
    exact hGames ((mem_poolPeriods.mp ha).2.trans (mem_poolPeriods.mp hb).2.symm)
  · intro earlier last skipped row rest hSplit input hInput rating hRating hSkipped
    have hMem : ∀ other ∈ earlier ++ last :: skipped, other ∈ s.periods := by
      intro other hOther
      have hPeriods : other ∈ s.poolPeriods poolKey := by
        rw [hSplit]
        exact List.mem_append_left _ hOther
      exact (mem_poolPeriods.mp hPeriods).1
    have hAbsent : ∀ other ∈ skipped, ratingIn other input.entrantId = none := by
      intro other hOther
      have hSound := h.sound other (hMem other (by simp [hOther]))
      exact (Ordered.ofList_eq_none (nodup_derived hSound.derive)).mpr
        (mt (mem_derived hSound.derive).mp (hSkipped other hOther))
    have hLast : ratingIn last input.entrantId = some rating :=
      (Ordered.ofList_eq_some (nodup_derived (h.sound last (hMem last (by simp))).derive)).mpr hRating
    refine (h.chain poolKey _ row rest hSplit input hInput rating ?_).symm
    rw [List.append_cons, lastRating_append_absent hAbsent, lastRating_concat, hLast,
      Option.some_or]

/-- After any commits, every pool with a well-formed identity rebuilds to its current
ratings from periods without gaps, repeated matches or broken chains, and a commit that
fails changes nothing. -/
theorem ratings_rebuild {pool : RatingPool} (hPool : pool.valid = true)
    (hFree : CollisionFree system.platform (pool :: requests.map (·.1.pool))) :
    (∃ poolKey, pool.key system.platform = .ok poolKey ∧
      Rebuildable system ((ratingMachine system).after .empty requests) pool poolKey) ∧
    ∀ request e, ((ratingMachine system).step
        ((ratingMachine system).after .empty requests) request).1 = .error e →
      ((ratingMachine system).step ((ratingMachine system).after .empty requests) request).2 =
        (ratingMachine system).after .empty requests := by
  constructor
  · have hKey : pool.key system.platform = .ok _ := key_eq_ok.mpr ⟨hPool, rfl⟩
    have hRecorded := recorded_after system requests
    refine ⟨_, hKey, hRecorded.rebuildable hKey fun row hRow => ?_⟩
    obtain ⟨hMem, hSame⟩ := mem_poolPeriods.mp hRow
    have hRequest : row.period.pool ∈ requests.map (·.1.pool) := by
      rcases mem_after hMem with hNone | hPeriod
      · cases hNone
      · obtain ⟨request, hRequest, hPeriod⟩ := List.mem_map.mp hPeriod
        exact List.mem_map.mpr ⟨request, hRequest, by rw [hPeriod]⟩
    refine hFree.eq_of_key (List.mem_cons_of_mem _ hRequest) List.mem_cons_self ?_ hKey
    rw [← hSame]
    exact (hRecorded.sound row hMem).key
  · intro request e hFailed
    rcases transact_cases ((ratingMachine system).after .empty requests)
      (((ratingMachine system).after .empty requests).commitPeriod system request.1 request.2) with
      ⟨result, next, -, hDone⟩ | ⟨e, -, hDone⟩
    · simp only [ratingMachine] at hFailed hDone
      rw [hDone] at hFailed
      cases hFailed
    · simp only [ratingMachine] at hDone ⊢
      rw [hDone]

end Runs

section Demonstration

def demoRatingPool : RatingPool :=
  ⟨"en", "classic", "0123456789abcdef0123456789abcdef0123456789abcdef0123456789abcdef", "single"⟩

/-- Two entrants who did not play: an update keeps a deviation that is at its bound. -/
def demoPeriod : RatingPeriod :=
  ⟨ratingSchemaVersion, "week-1", 0, demoRatingPool, [],
    [⟨"north", ⟨1500000, 350000, 60000000⟩, []⟩, ⟨"south", ⟨1400000, 350000, 60000000⟩, []⟩]⟩

def demoSystem : RatingSystem := ⟨basicPlatform, fun value _ => .ok value⟩

theorem demoPeriod_rebuilds : ∃ poolKey, demoRatingPool.key basicPlatform = .ok poolKey ∧
    Rebuildable demoSystem ((ratingMachine demoSystem).after .empty [(demoPeriod, 5)])
      demoRatingPool poolKey := by
  have hFree : CollisionFree demoSystem.platform
      (demoRatingPool :: [(demoPeriod, (5 : UnixMillis))].map (·.1.pool)) := by
    intro pool hPool other hOther _
    have hOnly : ∀ pool ∈ demoRatingPool :: [(demoPeriod, (5 : UnixMillis))].map (·.1.pool),
        pool = demoRatingPool := by
      intro pool hPool
      rcases List.mem_cons.mp hPool with rfl | hPool
      · rfl
      · exact List.mem_singleton.mp hPool
    rw [hOnly pool hPool, hOnly other hOther]
  exact (ratings_rebuild (by decide) hFree).1

/-- A pool without a language. -/
def blankPool : RatingPool := ⟨"", "classic", demoRatingPool.rulesetSha256, "single"⟩

theorem blankPool_not_rebuilt :
    ((ratingMachine demoSystem).after .empty []).rebuildPool demoSystem blankPool =
      .error .corrupt := by
  have hKey : blankPool.key demoSystem.platform = .error .invalidInput := rfl
  rw [RatingStore.rebuildPool, hKey]
  rfl

end Demonstration

end WordArena.Rating
