import WordArena.Agent.Workspace
import WordArena.Library.Json
import WordArena.Library.Toml
import Mathlib.Data.List.Basic

/-! The configuration files of a seat workspace. They give the endpoint of the server to
harnesses, some as JSON and some as TOML. -/
namespace WordArena.Agent

open Fallible WordArena.Lexicon

section Payloads

def seatCapabilityEnv : String := "WORD_ARENA_SEAT_CAPABILITY"

/-- What a line of the pretty JSON printer begins with. -/
def margin (depth : Nat) : String := "\n" ++ String.ofList (List.replicate (2 * depth) ' ')

mutual

/-- The pretty JSON printer. An empty array or object stays on one line. -/
def pretty (depth : Nat) : JsonValue → String
  | .null => "null"
  | .bool value => Json.boolean value
  | .number text => text
  | .string text => Json.text text
  | .array [] => "[]"
  | .array (value :: values) =>
      "[" ++ margin (depth + 1) ++ pretty (depth + 1) value ++ prettyValues (depth + 1) values ++
        margin depth ++ "]"
  | .object [] => "\x7b\x7d"
  | .object ((key, value) :: fields) =>
      "\x7b" ++ margin (depth + 1) ++ Json.text key ++ ": " ++ pretty (depth + 1) value ++
        prettyFields (depth + 1) fields ++ margin depth ++ "\x7d"

def prettyValues (depth : Nat) : List JsonValue → String
  | [] => ""
  | value :: values => "," ++ margin depth ++ pretty depth value ++ prettyValues depth values

def prettyFields (depth : Nat) : List (String × JsonValue) → String
  | [] => ""
  | (key, value) :: fields =>
      "," ++ margin depth ++ Json.text key ++ ": " ++ pretty depth value ++
        prettyFields depth fields

end

/-- The document of `mcp.json`, with its fields in their order in the file. -/
def commonConfig (mcpUrl : String) : JsonValue :=
  .object [("mcpServers", .object [("word_arena", .object [
      ("headers", .object [("Authorization", .string ("Bearer $\x7b" ++ seatCapabilityEnv ++ "\x7d"))]),
      ("type", .string "http"), ("url", .string mcpUrl)])]),
    ("schema_version", .number "1")]

/-- The document of `word-arena-cli.json`. -/
def cliConfig (mcpUrl : String) : JsonValue :=
  .object [("authorization", .object [("environment", .string seatCapabilityEnv),
      ("kind", .string "bearer_env")]),
    ("schema_version", .number "1"), ("server_url", .string mcpUrl)]

/-- The lines of the Codex file after the address. The workspace is quoted by the JSON
encoder. -/
def codexRest (workspace : String) : String :=
  "bearer_token_env_var = \"" ++ seatCapabilityEnv ++ "\"\nrequired = true\n\n[projects." ++
    Json.text workspace ++ "]\ntrust_level = \"trusted\"\n"

/-- The Codex file. The address is put between the quotes as it is. -/
def codexConfig (workspace mcpUrl : String) : String :=
  "[mcp_servers.word_arena]" ++ "\n" ++ ("url = \"" ++ mcpUrl ++ "\"") ++ "\n" ++
    codexRest workspace

def harnessConfigPayloads (workspace mcpUrl : String) : List (String × List UInt8) :=
  [("config/mcp.json", Bytes.utf8 (pretty 0 (commonConfig mcpUrl) ++ "\n")),
    ("config/codex.toml", Bytes.utf8 (codexConfig workspace mcpUrl)),
    ("config/word-arena-cli.json", Bytes.utf8 (pretty 0 (cliConfig mcpUrl) ++ "\n")),
    ("state/config.toml", Bytes.utf8 (codexConfig workspace mcpUrl))]

end Payloads

section Validation

/-- The refusal of an address, among the errors of workspaces. -/
inductive EndpointError where
  | invalidMcpEndpoint
deriving DecidableEq

/-- A text before and after the first occurrence of a pattern. -/
def splitOnce (pattern : List Char) : List Char → Option (List Char × List Char)
  | [] => none
  | c :: rest =>
      if pattern.isPrefixOf (c :: rest) then some ([], (c :: rest).drop pattern.length)
      else (splitOnce pattern rest).map fun parts => (c :: parts.1, parts.2)

def validateMcpUrl (value : String) : Except EndpointError Unit := do
  let (scheme, authorityAndPath) ←
    okOr (splitOnce "://".toList value.toList) .invalidMcpEndpoint
  let authority := authorityAndPath.takeWhile (· ≠ '/')
  reject (scheme ∉ ["http".toList, "https".toList] ∨ authority = [] ∨ '@' ∈ authority ∨
    (∃ c ∈ ['\x00', '\n', '\r', '"', '#', '?'], c ∈ value.toList) ∨
    2048 < (Bytes.utf8 value).length) .invalidMcpEndpoint

theorem validateMcpUrl_bare {value : String} (h : validateMcpUrl value = .ok ()) :
    '"' ∉ value.toList ∧ '\n' ∉ value.toList := by
  obtain ⟨⟨scheme, rest⟩, -, hChecked⟩ := bind_eq_ok.mp h
  simp only [reject_eq_ok, not_or] at hChecked
  have hNone := hChecked.2.2.2.1
  constructor
  · exact fun hMem => hNone ⟨'"', by decide, hMem⟩
  · exact fun hMem => hNone ⟨'\n', by decide, hMem⟩

end Validation

section Reading

/-- The text between the quotes of a line that gives a key a quoted value. -/
def quoted (key : String) (line : List Char) : Option (List Char) :=
  let opening := (key ++ " = \"").toList
  if opening.isPrefixOf line ∧ (line.drop opening.length).getLast? = some '"' then
    some (line.drop opening.length).dropLast
  else none

/-- The text between the quotes of the first line of a TOML file for a key. -/
def tomlText (key : String) (file : String) : Option (List Char) :=
  (file.toList.splitOn '\n').findSome? (quoted key)

/-- The string of a TOML file for a key. -/
def tomlString (key : String) (file : String) : Option String :=
  ((tomlText key file).bind (Toml.decode 0)).map String.ofList

/-- The string of a document at a path. -/
def jsonString : List String → JsonValue → Option String
  | [], .string text => some text
  | key :: path, .object fields =>
      (fields.find? fun field => field.1 == key).bind fun field => jsonString path field.2
  | _, _ => none

variable {workspace mcpUrl : String}

theorem quoted_line (key : String) (text : List Char) :
    quoted key ((key ++ " = \"").toList ++ (text ++ ['"'])) = some text := by
  simp [quoted]

theorem quoted_other {key : String} {line : List Char} (h : line.head? ≠ key.toList.head?)
    (hKey : key.toList ≠ []) : quoted key line = none := by
  have hOpening : ¬ (key ++ " = \"").toList.isPrefixOf line = true := by
    intro hPrefix
    obtain ⟨c, rest, hCons⟩ := List.exists_cons_of_ne_nil hKey
    obtain ⟨after, rfl⟩ := List.isPrefixOf_iff_prefix.mp hPrefix
    rw [String.toList_append, hCons] at h
    exact h rfl
  rw [quoted, if_neg fun hBoth => hOpening hBoth.1]

/-- The text of the line for the address is the address. -/
theorem tomlText_codexConfig (h : '\n' ∉ mcpUrl.toList) :
    tomlText "url" (codexConfig workspace mcpUrl) = some mcpUrl.toList := by
  have hHeader : '\n' ∉ "[mcp_servers.word_arena]".toList := by decide
  have hLine : '\n' ∉ "url = \"".toList ++ (mcpUrl.toList ++ ['"']) := by
    simp [h]
  have hBreak : "\n".toList = ['\n'] := rfl
  have hQuote : "\"".toList = ['"'] := rfl
  rw [tomlText]
  unfold codexConfig
  generalize codexRest workspace = rest
  simp only [String.toList_append, hBreak, hQuote, List.append_assoc, List.singleton_append]
  rw [List.cons_append, List.splitOn_append_cons_self_of_not_mem hHeader, List.findSome?_cons,
    quoted_other (by decide) (by decide)]
  dsimp only
  rw [List.splitOn_append_cons_self_of_not_mem hLine, List.findSome?_cons,
    show quoted "url" ("url = \"".toList ++ (mcpUrl.toList ++ ['"'])) = some mcpUrl.toList from
      quoted_line "url" mcpUrl.toList]

end Reading

section Endpoints

/-- Addresses that hold no backslash and no control character of ASCII but tabs. -/
def Unescaped (mcpUrl : String) : Prop :=
  ∀ c ∈ mcpUrl.toList, c ≠ '\\' ∧ (c.toNat < 0x20 → c = '\t') ∧ c.toNat ≠ 0x7f

variable {workspace mcpUrl : String}

theorem plain_iff {c : Char} (h : c ≠ '"') :
    Toml.plain c = true ↔ c ≠ '\\' ∧ (c.toNat < 0x20 → c = '\t') ∧ c.toNat ≠ 0x7f := by
  by_cases hTab : c = '\t'
  · subst hTab
    decide
  · simp only [Toml.plain, Bool.or_eq_true, beq_iff_eq, hTab, false_or, Bool.and_eq_true,
      decide_eq_true_eq, bne_iff_ne, h, ne_eq, not_false_eq_true, and_true, imp_false, Nat.not_lt]
    constructor
    · intro ⟨⟨hLow, hSlash⟩, hDelete⟩
      exact ⟨hSlash, hLow, hDelete⟩
    · intro ⟨hSlash, hLow, hDelete⟩
      exact ⟨⟨hLow, hSlash⟩, hDelete⟩

/-- The Codex file names the address when its line needs no escape, and only then. -/
theorem tomlString_codexConfig (h : validateMcpUrl mcpUrl = .ok ()) :
    tomlString "url" (codexConfig workspace mcpUrl) = some mcpUrl ↔ Unescaped mcpUrl := by
  obtain ⟨hQuote, hBreak⟩ := validateMcpUrl_bare h
  have hDecode : tomlString "url" (codexConfig workspace mcpUrl) = some mcpUrl ↔
      Toml.decode 0 mcpUrl.toList = some mcpUrl.toList := by
    rw [tomlString, tomlText_codexConfig hBreak, Option.bind_some, Option.map_eq_some_iff]
    constructor
    · intro ⟨decoded, hDecoded, hText⟩
      rw [hDecoded, ← hText, String.toList_ofList]
    · intro hDecoded
      exact ⟨mcpUrl.toList, hDecoded, String.ofList_toList⟩
  rw [hDecode, Toml.decode_eq_self_iff, Unescaped]
  apply forall₂_congr
  intro c hMem
  apply plain_iff
  rintro rfl
  exact hQuote hMem

/-- The files of a workspace all name the address that they were made for, exactly when no
TOML escape is needed for it. -/
theorem endpoints_agree_iff (workspace mcpUrl : String) (h : validateMcpUrl mcpUrl = .ok ()) :
    ∃ common cli codex,
      harnessConfigPayloads workspace mcpUrl =
        [("config/mcp.json", Bytes.utf8 (pretty 0 common ++ "\n")),
          ("config/codex.toml", Bytes.utf8 codex),
          ("config/word-arena-cli.json", Bytes.utf8 (pretty 0 cli ++ "\n")),
          ("state/config.toml", Bytes.utf8 codex)] ∧
      (tomlString "url" codex = some mcpUrl ∧
          jsonString ["mcpServers", "word_arena", "url"] common = some mcpUrl ∧
          jsonString ["server_url"] cli = some mcpUrl ↔
        Unescaped mcpUrl) := by
  refine ⟨commonConfig mcpUrl, cliConfig mcpUrl, codexConfig workspace mcpUrl, rfl, ?_⟩
  rw [tomlString_codexConfig h]
  constructor
  · exact fun hAll => hAll.1
  · exact fun hUnescaped => ⟨hUnescaped, rfl, rfl⟩

theorem local_endpoints_agree :
    ∃ common cli codex,
      harnessConfigPayloads "/seat/workspace" "http://h/mcp" =
        [("config/mcp.json", Bytes.utf8 (pretty 0 common ++ "\n")),
          ("config/codex.toml", Bytes.utf8 codex),
          ("config/word-arena-cli.json", Bytes.utf8 (pretty 0 cli ++ "\n")),
          ("state/config.toml", Bytes.utf8 codex)] ∧
      (tomlString "url" codex = some "http://h/mcp" ∧
          jsonString ["mcpServers", "word_arena", "url"] common = some "http://h/mcp" ∧
          jsonString ["server_url"] cli = some "http://h/mcp" ↔
        Unescaped "http://h/mcp") :=
  endpoints_agree_iff "/seat/workspace" "http://h/mcp" (by decide +kernel)

/-- A backslash in an accepted address is read as an escape. -/
theorem backslash_endpoint : validateMcpUrl "http://h/a\\b" = .ok () ∧
    tomlText "url" (codexConfig "/seat/workspace" "http://h/a\\b") =
      some "http://h/a\\b".toList ∧
    tomlString "url" (codexConfig "/seat/workspace" "http://h/a\\b") ≠ some "http://h/a\\b" ∧
    jsonString ["server_url"] (cliConfig "http://h/a\\b") = some "http://h/a\\b" := by
  have hValid : validateMcpUrl "http://h/a\\b" = .ok () := by decide +kernel
  refine ⟨hValid, tomlText_codexConfig (by decide), ?_, rfl⟩
  rw [Ne, tomlString_codexConfig hValid]
  exact fun hUnescaped => (hUnescaped '\\' (by decide)).1 rfl

end Endpoints

end WordArena.Agent
