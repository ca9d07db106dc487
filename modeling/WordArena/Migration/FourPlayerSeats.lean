import WordArena.Library.Rebuild
import WordArena.Migration.Schema

/-! The migration that opens seats three and four. It rebuilds eleven tables outside a
transaction, so a cut leaves every statement that was already run. -/
namespace WordArena.Migration

open Sql

/-- The seat check of schema 13, -/
def oneOrTwo : Value → Bool := among [1, 2]

/-- and that of schema 14. -/
def oneToFour : Value → Bool := between 1 4

def indexes : List Index := [
  ⟨"private_events_seat_idx", "private_events", ["game_id", "seat_number", "sequence"], false⟩,
  ⟨"agent_runs_status_idx", "agent_runs", ["status", "created_at_ms", "run_id"], false⟩,
  ⟨"agent_runs_manifest_idx", "agent_runs", ["manifest_sha256", "created_at_ms"], false⟩,
  ⟨"agent_runs_result_identity_idx", "agent_runs", ["run_id", "manifest_sha256"], true⟩,
  ⟨"agent_runs_replay_identity_idx", "agent_runs",
    ["run_id", "game_id", "seat_number", "manifest_sha256"], true⟩,
  ⟨"capabilities_active_idx", "capabilities",
    ["game_id", "authority_kind", "seat_number", "expires_at_ms", "revoked_at_ms"], false⟩,
  ⟨"capabilities_agent_run_idx", "capabilities",
    ["agent_run_id", "issued_at_ms", "capability_id"], false⟩,
  ⟨"audit_records_game_time_idx", "audit_records",
    ["game_id", "occurred_at_ms", "audit_id"], false⟩,
  ⟨"game_replay_agents_manifest_idx", "game_replay_agents",
    ["manifest_sha256", "game_id", "version", "seat_number"], false⟩,
  ⟨"agent_run_telemetry_correlation_idx", "agent_run_telemetry",
    ["tournament_id", "match_id", "game_id", "run_id"], false⟩,
  ⟨"agent_run_telemetry_expiry_idx", "agent_run_telemetry", ["expires_at_ms", "run_id"], false⟩]

def script : List Statement := ([
  .foreignKeys false,
  .rename "agent_run_budget_telemetry" "agent_run_budget_telemetry_seat_v13",
  .rename "agent_run_telemetry" "agent_run_telemetry_seat_v13",
  .rename "game_replay_agents" "game_replay_agents_seat_v13",
  .rename "agent_run_results" "agent_run_results_seat_v13",
  .rename "capabilities" "capabilities_seat_v13",
  .rename "audit_records" "audit_records_seat_v13",
  .rename "agent_runs" "agent_runs_seat_v13",
  .rename "private_events" "private_events_seat_v13",
  .rename "turn_deadlines" "turn_deadlines_seat_v13",
  .rename "invalid_attempt_counters" "invalid_attempt_counters_seat_v13",
  .rename "seats" "seats_seat_v13",
  .create (seats oneToFour),
  .create (privateEvents oneToFour),
  .create (agentRuns oneToFour),
  .create (capabilities oneToFour),
  .create (auditRecords oneToFour),
  .create (turnDeadlines oneToFour),
  .create (invalidAttemptCounters oneToFour),
  .create agentRunResults,
  .create (gameReplayAgents oneToFour),
  .create agentRunBudgetTelemetry,
  .create (agentRunTelemetry oneToFour),
  .copy "seats" "seats_seat_v13",
  .copy "private_events" "private_events_seat_v13",
  .copy "agent_runs" "agent_runs_seat_v13",
  .copy "capabilities" "capabilities_seat_v13",
  .copy "audit_records" "audit_records_seat_v13",
  .copy "turn_deadlines" "turn_deadlines_seat_v13",
  .copy "invalid_attempt_counters" "invalid_attempt_counters_seat_v13",
  .copy "agent_run_results" "agent_run_results_seat_v13",
  .copy "game_replay_agents" "game_replay_agents_seat_v13",
  .copy "agent_run_budget_telemetry" "agent_run_budget_telemetry_seat_v13",
  .copy "agent_run_telemetry" "agent_run_telemetry_seat_v13",
  .drop "agent_run_budget_telemetry_seat_v13",
  .drop "agent_run_telemetry_seat_v13",
  .drop "game_replay_agents_seat_v13",
  .drop "agent_run_results_seat_v13",
  .drop "capabilities_seat_v13",
  .drop "audit_records_seat_v13",
  .drop "agent_runs_seat_v13",
  .drop "private_events_seat_v13",
  .drop "turn_deadlines_seat_v13",
  .drop "invalid_attempt_counters_seat_v13",
  .drop "seats_seat_v13"] : List Statement) ++ indexes.map .createIndex ++
  ([.setVersion "14", .foreignKeys true] : List Statement)

/-- The script is cut off after so many statements, again and again, and run from its start
each time: it is recorded only when it went through. -/
def interrupted (cuts : List Nat) (db : Database) : Database :=
  cuts.foldl (fun db n => db.connect.attempt script n) db

/-! The script as a rebuild of tables. -/

def rebuilt : List String := [
  "agent_run_budget_telemetry", "agent_run_telemetry", "game_replay_agents", "agent_run_results",
  "capabilities", "audit_records", "agent_runs", "private_events", "turn_deadlines",
  "invalid_attempt_counters", "seats"]

def aside (table : String) : String := table ++ "_seat_v13"

/-- The rebuilt tables, by the check of the seat number. -/
def definitions : List ((Value → Bool) → Schema) := [seats, privateEvents, agentRuns, capabilities,
  auditRecords, turnDeadlines, invalidAttemptCounters, fun _ => agentRunResults, gameReplayAgents,
  fun _ => agentRunBudgetTelemetry, agentRunTelemetry]

def rebuild : Rebuild := ⟨rebuilt, aside, definitions.map (· oneToFour), indexes, "14"⟩

/-! Databases before and after. -/

/-- A table with these rows, whose definition, unique indexes and foreign keys they satisfy. -/
structure Holds (db : Database) (schema : Schema) (rows : List Row) : Prop where
  found : db.tables schema.name = some ⟨schema, rows⟩
  admitted : ∀ row ∈ rows, schema.admits row = true
  keyed : ∀ key ∈ schema.keys, rows.Pairwise fun a b => schema.clash key b a = false
  indexed : ∀ index ∈ indexes, index.unique = true → index.table = schema.name →
    rows.Pairwise fun a b => schema.clash index.columns b a = false
  referenced : ∀ key ∈ schema.foreignKeys, ∀ row ∈ rows, key.satisfied db schema row = true

/-- The other tables of the migrations before this one, with the tables they refer to. -/
def otherTables : List (String × List String) := [
  ("schema_metadata", []), ("rulesets", []), ("lexicon_packs", []),
  ("games", ["rulesets", "lexicon_packs"]), ("public_events", ["games"]),
  ("game_snapshots", ["games"]), ("tournaments", []),
  ("tournament_entries", ["tournaments", "agent_manifests"]),
  ("matches", ["tournaments", "games", "rulesets", "lexicon_packs"]), ("agent_manifests", []),
  ("idempotency_records", ["games"]), ("creation_idempotency_records", ["games"]),
  ("game_replays", ["games"]), ("tournament_schedules", ["tournaments"]),
  ("tournament_series", ["tournaments", "tournament_entries", "tournament_entries"]),
  ("tournament_match_schedule", ["matches", "tournament_series"]),
  ("tournament_match_seats", ["tournament_match_schedule", "tournament_entries"]),
  ("tournament_byes", ["tournament_entries"]), ("tournament_lifecycle_events", ["tournaments"]),
  ("jobs", []), ("job_attempts", ["jobs"]), ("scheduler_limits", []),
  ("scheduler_buckets", ["scheduler_limits"]), ("tournament_worker_controls", []),
  ("execution_reservations", []),
  ("execution_reservation_scopes", ["execution_reservations", "scheduler_limits"]),
  ("terminal_match_results", ["execution_reservations"]), ("rating_periods", []),
  ("rating_match_inputs", ["rating_periods"]), ("rating_period_inputs", ["rating_periods"]),
  ("rating_updates", ["rating_period_inputs"]), ("current_ratings", ["rating_updates"]),
  ("statistics_sources", []), ("statistics_observations", ["statistics_sources"]),
  ("local_agent_matches", ["games"]), ("_sqlx_migrations", []), ("sqlite_sequence", [])]

/-- The indexes of those tables. -/
def otherIndexes : List (String × String) := [
  ("games_status_updated_idx", "games"), ("games_ruleset_idx", "games"),
  ("games_lexicon_idx", "games"), ("public_events_game_time_idx", "public_events"),
  ("game_snapshots_latest_idx", "game_snapshots"), ("tournaments_status_idx", "tournaments"),
  ("matches_tournament_status_idx", "matches"), ("matches_telemetry_identity_idx", "matches"),
  ("tournament_series_round_idx", "tournament_series"),
  ("tournament_match_schedule_round_idx", "tournament_match_schedule"), ("jobs_claim_idx", "jobs"),
  ("jobs_lease_expiry_idx", "jobs"), ("job_attempts_open_idx", "job_attempts"),
  ("execution_reservations_live_match_idx", "execution_reservations"),
  ("execution_reservations_expiry_idx", "execution_reservations"),
  ("execution_reservation_scopes_limit_idx", "execution_reservation_scopes"),
  ("rating_periods_pool_idx", "rating_periods"),
  ("statistics_observations_scope_idx", "statistics_observations"),
  ("local_agent_matches_recent_idx", "local_agent_matches")]

structure AtSchema13 (db : Database) : Prop where
  tables : ∀ define ∈ definitions, ∃ rows, Holds db (define oneOrTwo) rows
  others : ∀ name, name ∉ rebuilt → (db.tables name).map (fun table =>
    table.schema.foreignKeys.map (·.parent)) = otherTables.lookup name
  indexed : ∀ index ∈ indexes, index ∈ db.indexes
  known : ∀ index ∈ db.indexes, index ∈ indexes ∨ (index.name, index.table) ∈ otherIndexes
  version : db.version = "13"

/-- Every rebuilt table has the rows it had, column by column, under the new definition. -/
structure Migrated (db out : Database) : Prop where
  tables : ∀ define ∈ definitions, ∃ rows,
    db.tables (define oneOrTwo).name = some ⟨define oneOrTwo, rows⟩ ∧
      Holds out (define oneToFour) rows ∧ ∀ row ∈ rows, ∀ column,
        (define oneToFour).field row column = (define oneOrTwo).field row column
  others : ∀ name, name ∉ rebuilt → out.tables name = db.tables name
  indexed : ∀ index ∈ indexes, index ∈ out.indexes
  version : out.version = "14"
  enforced : out.enforced = true

/-- A cut is harmless before the first table is moved and after the last old one is dropped. -/
def Harmless (cut : Nat) : Prop := cut ≤ 1 ∨ 45 ≤ cut

section

variable {db out : Database}

theorem rebuild_proper : rebuild.Proper where
  nodup := by decide
  perm := by decide +kernel
  injective := by decide +kernel
  apart := by decide +kernel
  indexNodup := by decide
  indexTables := by decide
  indexApart := by decide +kernel

theorem oneToFour_of_oneOrTwo (value : Value) (h : oneOrTwo value = true) : oneToFour value = true := by
  cases value with
  | integer number =>
      rw [oneOrTwo, among, List.contains_iff_mem, List.mem_cons, List.mem_singleton] at h
      rcases h with rfl | rfl <;> rfl
  | _ => cases h

theorem definitions_relax {define : (Value → Bool) → Schema} (h : define ∈ definitions) :
    (define oneOrTwo).Relaxes (define oneToFour) := by
  have hColumn : ∀ column : Column, column.name = column.name ∧ column.type = column.type ∧
      column.notNull = column.notNull ∧ ∀ value, column.check value = true → column.check value = true :=
    fun _ => ⟨rfl, rfl, rfl, fun _ h => h⟩
  simp only [definitions, List.mem_cons, List.not_mem_nil, or_false] at h
  rcases h with rfl | rfl | rfl | rfl | rfl | rfl | rfl | rfl | rfl | rfl | rfl <;>
    refine ⟨?_, rfl, rfl, rfl⟩ <;>
    repeat' first
      | exact .nil
      | exact hColumn _
      | exact ⟨rfl, rfl, rfl, oneToFour_of_oneOrTwo⟩
      | refine .cons ?_ ?_

theorem mem_rebuilt {define : (Value → Bool) → Schema} (h : define ∈ definitions) (seat : Value → Bool) :
    (define seat).name ∈ rebuilt := by
  simp only [definitions, List.mem_cons, List.not_mem_nil, or_false] at h
  rcases h with rfl | rfl | rfl | rfl | rfl | rfl | rfl | rfl | rfl | rfl | rfl <;>
    simp [rebuilt, seats, privateEvents, agentRuns, capabilities, auditRecords, turnDeadlines,
      invalidAttemptCounters, agentRunResults, gameReplayAgents, agentRunBudgetTelemetry,
      agentRunTelemetry]

/-- A definition keeps its table's name. -/
theorem name_eq {define : (Value → Bool) → Schema} (h : define ∈ definitions) (a b : Value → Bool) :
    (define a).name = (define b).name := by
  simp only [definitions, List.mem_cons, List.not_mem_nil, or_false] at h
  rcases h with rfl | rfl | rfl | rfl | rfl | rfl | rfl | rfl | rfl | rfl | rfl <;> rfl

theorem mem_created {schema : Schema} : schema ∈ rebuild.created ↔
    ∃ define ∈ definitions, define oneToFour = schema :=
  List.mem_map

/-- The rows of a table, none where there is no table. -/
def rowsOf (db : Database) (name : String) : List Row := ((db.tables name).map (·.rows)).getD []

theorem Holds.rowsOf {schema : Schema} {rows : List Row} (h : Holds db schema rows) :
    rowsOf db schema.name = rows := by
  rw [Migration.rowsOf, h.found]
  rfl

theorem AtSchema13.others_eq_none (h : AtSchema13 db) {name : String} (hName : name ∉ rebuilt)
    (hUnknown : otherTables.lookup name = none) : db.tables name = none := by
  have hOther := h.others name hName
  rwa [hUnknown, Option.map_eq_none_iff] at hOther

/-- The names of the migration and of the rest of the schema do not collide. -/
theorem names_apart :
    (∀ table ∈ rebuilt, aside table ∉ rebuilt ∧ otherTables.lookup (aside table) = none) ∧
    (∀ entry ∈ otherIndexes,
      (entry.1 ∉ rebuilt ∧ entry.1 ∉ rebuild.olds) ∧ entry.1 ∉ rebuild.indexNames) ∧
    (∀ entry ∈ otherTables, ∀ parent ∈ entry.2, parent ∉ rebuilt) ∧
    ∀ name ∈ rebuild.indexNames, name ∉ rebuilt ∧ otherTables.lookup name = none := by
  decide +kernel

theorem AtSchema13.ready (h : AtSchema13 db) : rebuild.Ready (rowsOf db) db db where
  live table hTable := by
    obtain ⟨_, hSchema, rfl⟩ := rebuild_proper.exists_schema hTable
    obtain ⟨define, hDefine, rfl⟩ := mem_created.mp hSchema
    obtain ⟨rows, hRows⟩ := h.tables define hDefine
    have hName := name_eq hDefine oneToFour oneOrTwo
    refine ⟨_, hName ▸ hRows.found, by rw [hName, hRows.rowsOf], fun other hOther hSame => ?_⟩
    rw [rebuild_proper.unique hOther hSchema hSame]
    exact (definitions_relax hDefine).columns.length_eq
  old table hTable := by
    obtain ⟨hRebuilt, hLookup⟩ := names_apart.1 table hTable
    exact h.others_eq_none hRebuilt hLookup
  others _ _ _ := rfl
  named index hIndex := by
    rcases h.known index hIndex with hOurs | hTheirs
    · exact rebuild_proper.indexApart index hOurs
    · exact (names_apart.2.1 _ hTheirs).1
  freed index hIndex hName := by
    rcases h.known index hIndex with hOurs | hTheirs
    · exact rebuild_proper.indexTables index hOurs
    · exact absurd hName (names_apart.2.1 _ hTheirs).2

theorem AtSchema13.apart (h : AtSchema13 db) : rebuild.Apart db where
  foreign name table hName hTable key hKey := by
    have hParents := h.others name hName
    rw [hTable, Option.map_some] at hParents
    obtain ⟨before, rest, hEntries, -⟩ := List.lookup_eq_some_iff.mp hParents.symm
    refine names_apart.2.2.1 (name, _) ?_ key.parent (List.mem_map_of_mem hKey)
    rw [hEntries]
    exact List.mem_append_right _ List.mem_cons_self
  indexNames name hName := by
    obtain ⟨hRebuilt, hLookup⟩ := names_apart.2.2.2 name hName
    exact h.others_eq_none hRebuilt hLookup

theorem AtSchema13.fits (h : AtSchema13 db) : rebuild.Fits (rowsOf db) where
  admitted schema hSchema row hRow := by
    obtain ⟨define, hDefine, rfl⟩ := mem_created.mp hSchema
    obtain ⟨rows, hRows⟩ := h.tables define hDefine
    rw [name_eq hDefine oneToFour oneOrTwo, hRows.rowsOf] at hRow
    exact (definitions_relax hDefine).admits (hRows.admitted row hRow)
  keyed schema hSchema key hKey := by
    obtain ⟨define, hDefine, rfl⟩ := mem_created.mp hSchema
    obtain ⟨rows, hRows⟩ := h.tables define hDefine
    have hRelax := definitions_relax hDefine
    rw [name_eq hDefine oneToFour oneOrTwo, hRows.rowsOf]
    rw [← hRelax.keys] at hKey
    exact (hRows.keyed key hKey).imp fun hApart => (hRelax.clash ..).symm.trans hApart
  indexed index hIndex hUnique schema hSchema hName := by
    obtain ⟨define, hDefine, rfl⟩ := mem_created.mp hSchema
    obtain ⟨rows, hRows⟩ := h.tables define hDefine
    rw [name_eq hDefine oneToFour oneOrTwo] at hName ⊢
    rw [hRows.rowsOf]
    exact (hRows.indexed index hIndex hUnique hName.symm).imp fun hApart =>
      ((definitions_relax hDefine).clash ..).symm.trans hApart

/-- The rebuilt tables hold their rows under the new definitions. -/
theorem AtSchema13.migrated (h : AtSchema13 db) (hRebuilt : rebuild.Rebuilt (rowsOf db) db out)
    (hIndexed : ∀ index ∈ indexes, index ∈ out.indexes) (hVersion : out.version = "14")
    (hEnforced : out.enforced = true) : Migrated db out := by
  have hFound : ∀ define ∈ definitions, ∃ rows, Holds db (define oneOrTwo) rows ∧
      out.tables (define oneToFour).name = some ⟨define oneToFour, rows⟩ := by
    intro define hDefine
    obtain ⟨rows, hRows⟩ := h.tables define hDefine
    refine ⟨rows, hRows, ?_⟩
    rw [hRebuilt.live _ (mem_created.mpr ⟨define, hDefine, rfl⟩), name_eq hDefine oneToFour oneOrTwo,
      hRows.rowsOf]
  have hOthers : ∀ name, name ∉ rebuilt → out.tables name = db.tables name := by
    intro name hName
    by_cases hOld : name ∈ rebuild.olds
    · obtain ⟨table, hTable, rfl⟩ := Rebuild.mem_olds.mp hOld
      rw [hRebuilt.old table hTable, h.ready.old table hTable]
    · exact hRebuilt.others name hName hOld
  refine ⟨fun define hDefine => ?_, hOthers, hIndexed, hVersion, hEnforced⟩
  obtain ⟨rows, hRows, hNew⟩ := hFound define hDefine
  have hRelax := definitions_relax hDefine
  have hName := name_eq hDefine oneToFour oneOrTwo
  refine ⟨rows, hRows.found, ⟨hNew, fun row hRow => hRelax.admits (hRows.admitted row hRow), ?_, ?_, ?_⟩,
    fun row _ column => congrFun (hRelax.field row).symm column⟩
  · intro key hKey
    exact (hRows.keyed key (hRelax.keys ▸ hKey)).imp fun hApart => (hRelax.clash ..).symm.trans hApart
  · intro index hIndex hUnique hTable
    exact (hRows.indexed index hIndex hUnique (hTable.trans hName)).imp fun hApart =>
      (hRelax.clash ..).symm.trans hApart
  · intro key hKey row hRow
    rw [← hRelax.foreignKeys] at hKey
    rw [← ForeignKey.satisfied_congr hRelax (a := db) ?_ row]
    · exact hRows.referenced key hKey row hRow
    · by_cases hParent : key.parent ∈ rebuilt
      · obtain ⟨_, hSchema, hParentName⟩ := rebuild_proper.exists_schema hParent
        obtain ⟨parent, hParentIn, rfl⟩ := mem_created.mp hSchema
        obtain ⟨parentRows, hBefore, hAfter⟩ := hFound parent hParentIn
        refine .inr ⟨_, _, parentRows, definitions_relax hParentIn, ?_, hParentName ▸ hAfter⟩
        rw [← hParentName, name_eq hParentIn oneToFour oneOrTwo]
        exact hBefore.found
      · exact .inl (hOthers _ hParent).symm

/-- After any cuts the migration goes through without loss exactly when each of them was
harmless. -/
theorem migration_completes_iff (h : AtSchema13 db) (cuts : List Nat) :
    (∃ out, (interrupted cuts db).connect.run script = .ok out ∧ Migrated db out) ↔
      ∀ cut ∈ cuts, Harmless cut := by
  refine ⟨fun ⟨_, hRun, _⟩ => h.ready.harmless rebuild_proper h.apart h.fits hRun, fun hCuts => ?_⟩
  obtain ⟨out, hRun, hRebuilt, hIndexed, hVersion, hEnforced⟩ :=
    h.ready.completes_resumed rebuild_proper h.apart h.fits hCuts
  exact ⟨out, hRun, h.migrated hRebuilt hIndexed hVersion hEnforced⟩

end

/-! A database with one game of two seats. -/

def twoSeats : List Row := [
  [.text "game", .integer 1, .text "human", .text "ada", .integer 5],
  [.text "game", .integer 2, .text "unassigned", .null, .integer 5]]

def demo : Database where
  enforced := true
  tables name := match definitions.find? fun define => (define oneOrTwo).name = name with
    | some define => some ⟨define oneOrTwo, if name = "seats" then twoSeats else []⟩
    | none => (otherTables.lookup name).map fun parents =>
        ⟨⟨name, if name = "games" then [required "game_id" .text] else [], [], [],
            parents.map fun parent => references [] parent []⟩,
          if name = "games" then [[.text "game"]] else []⟩
  indexes := indexes ++ otherIndexes.map fun entry => ⟨entry.1, entry.2, [], false⟩
  version := "13"

theorem holds_of_empty {db : Database} {schema : Schema} (h : db.tables schema.name = some ⟨schema, []⟩) :
    Holds db schema [] :=
  ⟨h, fun _ hRow => absurd hRow List.not_mem_nil, fun _ _ => .nil, fun _ _ _ _ => .nil,
    fun _ _ _ hRow => absurd hRow List.not_mem_nil⟩

theorem demo_seats : Holds demo (seats oneOrTwo) twoSeats where
  found := rfl
  admitted := by decide
  keyed := by decide
  indexed := by decide
  referenced := by decide

theorem demo_at_schema13 : AtSchema13 demo where
  tables define hDefine := by
    simp only [definitions, List.mem_cons, List.not_mem_nil, or_false] at hDefine
    rcases hDefine with rfl | rfl | rfl | rfl | rfl | rfl | rfl | rfl | rfl | rfl | rfl
    · exact ⟨_, demo_seats⟩
    all_goals exact ⟨[], holds_of_empty rfl⟩
  others name hName := by
    have hNone : definitions.find? (fun define => (define oneOrTwo).name = name) = none := by
      rw [List.find?_eq_none]
      intro define hDefine hSame
      exact hName (of_decide_eq_true hSame ▸ mem_rebuilt hDefine oneOrTwo)
    simp only [demo, hNone, Option.map_map]
    refine (congrArg (Option.map · (otherTables.lookup name)) (funext fun parents => ?_)).trans
      Option.map_id'
    change (parents.map _).map _ = parents
    rw [List.map_map]
    exact List.map_id parents
  indexed _ hIndex := List.mem_append_left _ hIndex
  known index hIndex := by
    rcases List.mem_append.mp hIndex with hOurs | hTheirs
    · exact .inl hOurs
    · obtain ⟨entry, hEntry, rfl⟩ := List.mem_map.mp hTheirs
      exact .inr hEntry
  version := rfl

/-- Cut off before it moved a table, after the last drop, among the indexes and before it was
recorded, the migration goes through. -/
theorem demo_migrates : ∃ out, (interrupted [1, 45, 50, 58] demo).connect.run script = .ok out ∧
    Migrated demo out :=
  (migration_completes_iff demo_at_schema13 [1, 45, 50, 58]).mpr (by simp [Harmless])

/-- Cut off after its first rename it fails on every later run. -/
theorem demo_stays_stuck : AtSchema13 demo ∧
    ((interrupted [2] demo).connect.run script = .error (.noSuchTable "agent_run_budget_telemetry")) :=
  ⟨demo_at_schema13, rfl⟩

end WordArena.Migration
