import WordArena.Library.Sql

/-! The tables with a seat number and those that refer to them, as the migrations define
them. They differ between schema 13 and schema 14 in the check of the seat number
alone, which is a parameter here. -/
namespace WordArena.Migration

open Sql

def required (name : String) (type : ColumnType) (check : Value → Bool := fun _ => true) : Column :=
  ⟨name, type, true, check⟩

def nullable (name : String) (type : ColumnType) (check : Value → Bool := fun _ => true) : Column :=
  ⟨name, type, false, check⟩

def atLeast (bound : Int) : Value → Bool
  | .integer number => decide (bound ≤ number)
  | _ => false

def between (low high : Int) : Value → Bool
  | .integer number => decide (low ≤ number ∧ number ≤ high)
  | _ => false

/-- `IN` a list of numbers, -/
def among (numbers : List Int) : Value → Bool
  | .integer number => numbers.contains number
  | _ => false

/-- or of texts. -/
def oneOf (texts : List String) : Value → Bool
  | .text text => texts.contains text
  | _ => false

/-- The characters `length` and `GLOB` see: those before the first NUL. -/
def written (text : String) : List Char := text.toList.takeWhile (· ≠ Char.ofNat 0)

def length : Value → Nat
  | .text text => (written text).length
  | .blob bytes => bytes.length
  | _ => 0

def filled (value : Value) : Bool := decide (0 < length value)

def sha256 : Value → Bool
  | .text text => decide ((written text).length = 64) &&
      (written text).all fun c => c.isDigit || ('a'.toNat ≤ c.toNat && c.toNat ≤ 'f'.toNat)
  | _ => false

/-- `a >= b` on integers, which passes when either side is NULL. -/
def notBefore (a b : String) (field : String → Value) : Bool :=
  match field a, field b with
  | .integer a, .integer b => decide (b ≤ a)
  | .null, _ => true
  | _, .null => true
  | _, _ => false

def after (a b : String) (field : String → Value) : Bool :=
  match field a, field b with
  | .integer a, .integer b => decide (b < a)
  | .null, _ => true
  | _, .null => true
  | _, _ => false

def given (name : String) (field : String → Value) : Bool := decide (field name ≠ .null)

/-- `a IS NULL OR b IS NOT NULL` -/
def onlyWith (a b : String) (field : String → Value) : Bool := !given a field || given b field

/-- The column of a kind is one text exactly when the other column has a value. -/
def tied (kind text other : String) (field : String → Value) : Bool :=
  decide (field kind = .text text) == given other field

def references (columns : List String) (parent : String) (parentColumns : List String) : ForeignKey :=
  ⟨columns, parent, parentColumns⟩

section

variable (seat : Value → Bool)

def seats : Schema where
  name := "seats"
  columns := [required "game_id" .text, required "seat_number" .integer seat,
    required "participant_kind" .text (oneOf ["unassigned", "human", "agent"]),
    nullable "participant_id" .text, required "created_at_ms" .integer (atLeast 0)]
  checks := [fun field => !tied "participant_kind" "unassigned" "participant_id" field]
  keys := [["game_id", "seat_number"]]
  foreignKeys := [references ["game_id"] "games" ["game_id"]]

def privateEvents : Schema where
  name := "private_events"
  columns := [required "game_id" .text, required "sequence" .integer (atLeast 1),
    required "seat_number" .integer seat, required "event_schema_version" .integer (atLeast 1),
    required "payload_json" .blob filled, required "committed_at_ms" .integer (atLeast 0)]
  checks := []
  keys := [["game_id", "sequence", "seat_number"]]
  foreignKeys := [references ["game_id", "seat_number"] "seats" ["game_id", "seat_number"],
    references ["game_id", "sequence"] "public_events" ["game_id", "sequence"]]

def agentRuns : Schema where
  name := "agent_runs"
  columns := [required "run_id" .text, nullable "match_id" .text, required "game_id" .text,
    required "seat_number" .integer seat, required "manifest_sha256" .text,
    required "status" .text
      (oneOf ["pending", "starting", "running", "finished", "failed", "cancelled"]),
    nullable "started_at_ms" .integer (atLeast 0), nullable "finished_at_ms" .integer (atLeast 0),
    required "created_at_ms" .integer (atLeast 0)]
  checks := [onlyWith "finished_at_ms" "started_at_ms", notBefore "started_at_ms" "created_at_ms",
    notBefore "finished_at_ms" "started_at_ms"]
  keys := [["run_id"], ["game_id", "seat_number"]]
  foreignKeys := [references ["match_id"] "matches" ["match_id"],
    references ["game_id", "seat_number"] "seats" ["game_id", "seat_number"],
    references ["manifest_sha256"] "agent_manifests" ["manifest_sha256"]]

def capabilities : Schema where
  name := "capabilities"
  columns := [required "capability_id" .text, required "game_id" .text,
    nullable "seat_number" .integer seat,
    required "authority_kind" .text (oneOf ["public", "seat", "human_spectator", "administrator"]),
    required "scopes" .text filled,
    required "token_digest" .blob (fun value => decide (length value = 32)),
    required "digest_version" .integer (atLeast 1), required "issued_at_ms" .integer (atLeast 0),
    required "expires_at_ms" .integer, nullable "revoked_at_ms" .integer,
    nullable "agent_run_id" .text]
  checks := [after "expires_at_ms" "issued_at_ms", notBefore "revoked_at_ms" "issued_at_ms",
    tied "authority_kind" "seat" "seat_number"]
  keys := [["capability_id"], ["token_digest"]]
  foreignKeys := [references ["agent_run_id"] "agent_runs" ["run_id"],
    references ["game_id"] "games" ["game_id"],
    references ["game_id", "seat_number"] "seats" ["game_id", "seat_number"]]

def auditRecords : Schema where
  name := "audit_records"
  columns := [required "audit_id" .integer, nullable "game_id" .text,
    required "actor_kind" .text
      (oneOf ["public", "seat", "human_spectator", "administrator", "system"]),
    nullable "seat_number" .integer seat, required "action" .text filled,
    required "outcome" .text filled, nullable "metadata_json" .blob filled,
    required "occurred_at_ms" .integer (atLeast 0)]
  checks := [tied "actor_kind" "seat" "seat_number", onlyWith "seat_number" "game_id"]
  keys := [["audit_id"]]
  foreignKeys := [references ["game_id"] "games" ["game_id"],
    references ["game_id", "seat_number"] "seats" ["game_id", "seat_number"]]

def turnDeadlines : Schema where
  name := "turn_deadlines"
  columns := [required "game_id" .text, required "turn_number" .integer (atLeast 0),
    required "seat_number" .integer seat, required "deadline_at_ms" .integer (atLeast 0),
    required "policy_version" .integer (atLeast 1)]
  checks := []
  keys := [["game_id", "turn_number"]]
  foreignKeys := [references ["game_id"] "games" ["game_id"]]

def invalidAttemptCounters : Schema where
  name := "invalid_attempt_counters"
  columns := [required "game_id" .text, required "turn_number" .integer (atLeast 0),
    required "seat_number" .integer seat, required "policy_version" .integer (atLeast 1),
    required "attempt_count" .integer (atLeast 1), required "updated_at_ms" .integer (atLeast 0)]
  checks := []
  keys := [["game_id", "turn_number", "seat_number"]]
  foreignKeys := [references ["game_id"] "games" ["game_id"]]

def agentRunResults : Schema where
  name := "agent_run_results"
  columns := [required "run_id" .text, required "manifest_sha256" .text sha256,
    required "result_schema_version" .integer (atLeast 1),
    required "outcome_kind" .text (oneOf ["finished", "failed", "cancelled"]),
    required "completed_at_ms" .integer (atLeast 0)]
  checks := []
  keys := [["run_id"]]
  foreignKeys := [references ["run_id", "manifest_sha256"] "agent_runs" ["run_id", "manifest_sha256"]]

def gameReplayAgents : Schema where
  name := "game_replay_agents"
  columns := [required "game_id" .text, required "version" .integer (atLeast 0),
    required "seat_number" .integer seat, required "run_id" .text,
    required "manifest_sha256" .text sha256]
  checks := []
  keys := [["game_id", "version", "seat_number"], ["run_id", "game_id", "version"]]
  foreignKeys := [references ["game_id", "version"] "game_replays" ["game_id", "version"],
    references ["run_id", "game_id", "seat_number", "manifest_sha256"] "agent_runs"
      ["run_id", "game_id", "seat_number", "manifest_sha256"]]

def agentRunBudgetTelemetry : Schema where
  name := "agent_run_budget_telemetry"
  columns := [required "run_id" .text, required "manifest_sha256" .text sha256,
    required "capability_schema_version" .integer (atLeast 1),
    required "telemetry_schema_version" .integer (atLeast 1),
    required "telemetry_json" .blob filled, required "recorded_at_ms" .integer (atLeast 0)]
  checks := []
  keys := [["run_id"]]
  foreignKeys := [references ["run_id"] "agent_run_results" ["run_id"],
    references ["run_id", "manifest_sha256"] "agent_runs" ["run_id", "manifest_sha256"]]

def agentRunTelemetry : Schema where
  name := "agent_run_telemetry"
  columns := [required "run_id" .text, required "manifest_sha256" .text sha256,
    required "telemetry_schema_version" .integer (atLeast 1),
    required "redaction_policy_version" .integer (atLeast 1), nullable "tournament_id" .text,
    nullable "match_id" .text, required "game_id" .text, required "seat_number" .integer seat,
    required "telemetry_json" .blob (fun value => filled value && decide (length value ≤ 33554432)),
    required "retention_kind" .text (oneOf ["retain", "expire"]),
    nullable "expires_at_ms" .integer (atLeast 0), required "recorded_at_ms" .integer (atLeast 0)]
  checks := [tied "retention_kind" "expire" "expires_at_ms", onlyWith "tournament_id" "match_id"]
  keys := [["run_id"]]
  foreignKeys := [references ["tournament_id"] "tournaments" ["tournament_id"],
    references ["match_id"] "matches" ["match_id"],
    references ["match_id", "tournament_id"] "matches" ["match_id", "tournament_id"],
    references ["run_id"] "agent_run_results" ["run_id"],
    references ["run_id", "game_id", "seat_number", "manifest_sha256"] "agent_runs"
      ["run_id", "game_id", "seat_number", "manifest_sha256"]]

end

end WordArena.Migration
