import WordArena.Cli.Notifications
import WordArena.Library.Replace
import WordArena.Library.Url
import WordArena.Server.Resources

/-! Addresses of games: the resources that the server lists and the endpoints that the command
line client asks for. Both are built by writing the game's identifier between slashes. -/
namespace WordArena.Cli

open WordArena.Service (GameId printable)
open WordArena.Server (ResourceKind parseResourceUri resourceUri)

section Endpoints

def validateGameId (value : String) : Except CliError String :=
  if value = "" ∨ 128 < value.utf8ByteSize ∨
      ¬ value.toList.all fun c => decide (0x21 ≤ c.toNat ∧ c.toNat ≤ 0x7e) then
    .error (.config "game_id is invalid")
  else .ok value

/-- The endpoints of a game that the client uses. -/
inductive Endpoint where
  | seat
  | actions
  | mcp
deriving DecidableEq

def Endpoint.slug : Endpoint → List Char
  | .seat => "seat".toList
  | .actions => "actions".toList
  | .mcp => "mcp".toList

def gamesPath : List Char := "api/v1/games/".toList

/-- A server's address with an empty path; origins are left out. -/
def emptyPath : List (List Char) := [[]]

/-- The path of the address that the client asks for. -/
def endpointPath (base : List (List Char)) (gameId : GameId) (endpoint : Endpoint) : List Char :=
  Url.render (Url.join base (gamesPath ++ gameId.asStr.toList ++ '/' :: endpoint.slug))

/-- The route of an endpoint, and the segment in the place of the game's identifier. -/
def matchRoute (endpoint : Endpoint) (path : List Char) : Option (List Char) :=
  match path.splitOn '/' with
  | [root, api, v1, games, gameId, slug] =>
      if root = [] ∧ api = "api".toList ∧ v1 = "v1".toList ∧ games = "games".toList ∧
          gameId ≠ [] ∧ slug = endpoint.slug then some gameId
      else none
  | _ => none

/-- The identifier that a handler is given. -/
def routedGameId (endpoint : Endpoint) (path : List Char) : Option String :=
  (matchRoute endpoint path).bind fun segment => Bytes.decode (Url.decode segment)

end Endpoints

section Routes

variable {gameId : GameId} {endpoint : Endpoint} {rest : List Char}

/-- Neither an end of a segment nor an escape, and not a dot segment. -/
def Addressable (gameId : GameId) : Prop :=
  (∀ c ∈ gameId.asStr.toList, Url.ends c = false) ∧ Url.escaped gameId.asStr.toList = false ∧
    gameId.asStr ≠ "." ∧ gameId.asStr ≠ ".."

theorem ascii_gameId (gameId : GameId) : ∀ c ∈ gameId.asStr.toList, c.toNat < 128 := by
  have hValid := gameId.valid
  rw [printable, Bool.and_eq_true] at hValid
  intro c hMem
  have hRange := of_decide_eq_true (List.all_eq_true.mp hValid.2 c hMem)
  omega

/-- The literal parts of the address. -/
def literals (endpoint : Endpoint) : List (List Char) :=
  ["api".toList, "v1".toList, "games".toList, endpoint.slug]

theorem literals_plain (endpoint : Endpoint) : ∀ literal ∈ literals endpoint, ∀ c ∈ literal,
    Url.ends c = false ∧ c ≠ '%' ∧ c ≠ '.' := by
  cases endpoint <;> decide

theorem join_games (rest : List Char) : Url.join emptyPath (gamesPath ++ rest) =
    Url.pathState ["api".toList, "v1".toList, "games".toList] [] rest := by
  show Url.pathState [] [] ("api".toList ++ '/' :: ("v1".toList ++ '/' ::
    ("games".toList ++ '/' :: rest))) = _
  rw [Url.pathState_segment (by decide) (by decide) (by decide),
    Url.pathState_segment (by decide) (by decide) (by decide),
    Url.pathState_segment (by decide) (by decide) (by decide)]
  rfl

/-- No segment of the address holds a slash. -/
theorem segments_not_slash {segment : List Char}
    (h : segment ∈ Url.join emptyPath (gamesPath ++ rest)) : '/' ∉ segment := by
  have hNothing : ∀ c ∈ ([] : List Char), Url.ends c = false := nofun
  rcases Url.piece_of_pathState hNothing h with hOld | hPiece
  · exact absurd hOld List.not_mem_nil
  · exact hPiece.not_slash

theorem splitOn_render {path : List (List Char)} (h : ∀ segment ∈ path, '/' ∉ segment) :
    (Url.render path).splitOn '/' = [] :: path := by
  apply List.splitOn_intercalate
  · intro segment hMem
    rcases List.mem_cons.mp hMem with rfl | hPath
    · exact List.not_mem_nil
    · exact h segment hPath
  · exact List.cons_ne_nil _ _

theorem matchRoute_render {path : List (List Char)} (h : ∀ segment ∈ path, '/' ∉ segment)
    {segment : List Char} : matchRoute endpoint (Url.render path) = some segment ↔
      path = ["api".toList, "v1".toList, "games".toList, segment, endpoint.slug] ∧
        segment ≠ [] := by
  rw [matchRoute, splitOn_render h]
  constructor
  · intro hMatch
    split at hMatch
    · next root api v1 games found slug hList =>
        split_ifs at hMatch with hSame
        obtain ⟨-, rfl, rfl, rfl, hSome, rfl⟩ := hSame
        cases hMatch
        exact ⟨(List.cons.inj hList).2, hSome⟩
    · cases hMatch
  · intro ⟨hPath, hSome⟩
    rw [hPath]
    simp [hSome]

theorem decode_unescaped_gameId (h : Url.escaped gameId.asStr.toList = false) :
    Bytes.decode (Url.decode (Url.encode gameId.asStr.toList)) = some gameId.asStr := by
  rw [Url.decode_encode, Url.decode_unescaped h, Bytes.decode_eq_some, Bytes.utf8_toList]

/-- Identifiers that do not look like a dot segment are not one when they are encoded. -/
theorem not_dots (hAddressable : Addressable gameId) :
    Url.singleDot (Url.encode gameId.asStr.toList) = false ∧
      Url.doubleDot (Url.encode gameId.asStr.toList) = false := by
  obtain ⟨-, hEscaped, hDot, hDots⟩ := hAddressable
  have hSelf := decode_unescaped_gameId hEscaped
  constructor
  · by_contra hSingle
    rw [Bool.not_eq_false] at hSingle
    rw [Url.decode_singleDot hSingle] at hSelf
    have hText : Bytes.decode [46] = some "." := by decide +kernel
    exact hDot (Option.some.inj (hSelf.symm.trans hText))
  · by_contra hDouble
    rw [Bool.not_eq_false] at hDouble
    rw [Url.decode_doubleDot hDouble] at hSelf
    have hText : Bytes.decode [46, 46] = some ".." := by decide +kernel
    exact hDots (Option.some.inj (hSelf.symm.trans hText))

/-- The identifier is a segment of its own. -/
theorem join_addressable (hAddressable : Addressable gameId) :
    Url.join emptyPath (gamesPath ++ (gameId.asStr.toList ++ '/' :: endpoint.slug)) =
      ["api".toList, "v1".toList, "games".toList, Url.encode gameId.asStr.toList, endpoint.slug] := by
  obtain ⟨hSingle, hDouble⟩ := not_dots hAddressable
  rw [join_games, Url.pathState_segment hAddressable.1 hSingle hDouble]
  cases endpoint <;> rfl

theorem routed_of_addressable (hAddressable : Addressable gameId) :
    routedGameId endpoint (endpointPath emptyPath gameId endpoint) = some gameId.asStr := by
  have hMatch : matchRoute endpoint (endpointPath emptyPath gameId endpoint) =
      some (Url.encode gameId.asStr.toList) := by
    rw [endpointPath, List.append_assoc, matchRoute_render fun segment hMem => segments_not_slash hMem]
    refine ⟨join_addressable hAddressable, ?_⟩
    intro hNone
    have hSelf := decode_unescaped_gameId hAddressable.2.1
    rw [hNone] at hSelf
    have hEmpty : Bytes.decode (Url.decode []) = some "" := by decide +kernel
    exact Server.gameId_ne_empty gameId (Option.some.inj (hSelf.symm.trans hEmpty))
  rw [routedGameId, hMatch, Option.bind_some, decode_unescaped_gameId hAddressable.2.1]

theorem encoded_length (gameId : GameId) :
    (Bytes.utf8 gameId.asStr).length = gameId.asStr.toList.length := by
  rw [Bytes.utf8_toList, List.length_flatMap]
  have hOne : ∀ c ∈ gameId.asStr.toList, (String.utf8EncodeChar c).length = 1 := fun c hMem =>
    Url.length_encodeChar_ascii (ascii_gameId gameId c hMem)
  rw [List.map_congr_left hOne]
  simp

/-- A piece of the address that stands for the identifier is a literal part that equals it, or
the identifier itself. -/
theorem piece_of_gameId {p : List Char}
    (hInfix : p <:+: gamesPath ++ (gameId.asStr.toList ++ '/' :: endpoint.slug))
    (hPlain : ∀ c ∈ p, Url.ends c = false) :
    p <:+: gameId.asStr.toList ∨ ∃ literal ∈ literals endpoint, p <:+: literal := by
  have hSlash : '/' ∉ p := fun hMem => absurd (hPlain '/' hMem) (by decide)
  have hParts : p <:+: "api".toList ++ '/' :: ("v1".toList ++ '/' :: ("games".toList ++ '/' ::
    (gameId.asStr.toList ++ '/' :: endpoint.slug))) := hInfix
  rcases Replace.infix_of_fence hSlash hParts with hApi | hParts
  · exact .inr ⟨_, by simp [literals], hApi⟩
  rcases Replace.infix_of_fence hSlash hParts with hV1 | hParts
  · exact .inr ⟨_, by simp [literals], hV1⟩
  rcases Replace.infix_of_fence hSlash hParts with hGames | hParts
  · exact .inr ⟨_, by simp [literals], hGames⟩
  rcases Replace.infix_of_fence hSlash hParts with hGame | hSlug
  · exact .inl hGame
  · exact .inr ⟨_, by simp [literals], hSlug⟩

/-- The dot segments lead elsewhere. -/
theorem dots_not_routed {dots : String} (hDots : dots = "." ∨ dots = "..") (h : gameId.asStr = dots) :
    routedGameId endpoint (endpointPath emptyPath gameId endpoint) = none := by
  rw [endpointPath, h]
  rcases hDots with rfl | rfl
  · cases endpoint <;> decide +kernel
  · cases endpoint <;> decide +kernel

theorem addressable_of_routed
    (h : routedGameId endpoint (endpointPath emptyPath gameId endpoint) = some gameId.asStr) :
    Addressable gameId := by
  have hDots : gameId.asStr ≠ "." ∧ gameId.asStr ≠ ".." := by
    constructor
    · intro hDot
      rw [dots_not_routed (.inl rfl) hDot] at h
      cases h
    · intro hDots
      rw [dots_not_routed (.inr rfl) hDots] at h
      cases h
  rw [routedGameId, Option.bind_eq_some_iff] at h
  obtain ⟨segment, hMatch, hDecoded⟩ := h
  rw [endpointPath, List.append_assoc,
    matchRoute_render fun segment hMem => segments_not_slash hMem] at hMatch
  obtain ⟨hPath, hSome⟩ := hMatch
  have hMem : segment ∈ Url.join emptyPath
      (gamesPath ++ (gameId.asStr.toList ++ '/' :: endpoint.slug)) := by
    rw [hPath]
    simp
  have hNothing : ∀ c ∈ ([] : List Char), Url.ends c = false := nofun
  rcases Url.piece_of_pathState hNothing hMem with hOld | hEmpty | ⟨p, hInfix, hPlain, rfl⟩
  · exact absurd hOld List.not_mem_nil
  · exact absurd hEmpty hSome
  rw [Url.decode_encode, Bytes.decode_eq_some] at hDecoded
  rw [List.nil_append] at hInfix
  rcases piece_of_gameId hInfix hPlain with hGame | ⟨literal, hLiteral, hWithin⟩
  · -- no piece of the identifier but all of it is long enough
    have hAscii : ∀ c ∈ p, c.toNat < 128 := fun c hc => ascii_gameId gameId c (hGame.subset hc)
    obtain ⟨hShort, hShorter⟩ := Url.length_decode hAscii
    rw [← hDecoded, encoded_length] at hShort hShorter
    have hSame : p = gameId.asStr.toList :=
      hGame.eq_of_length (Nat.le_antisymm hGame.length_le hShort)
    refine ⟨hSame ▸ hPlain, ?_, hDots⟩
    by_contra hEscaped
    rw [Bool.not_eq_false, ← hSame] at hEscaped
    have hLess := hShorter hEscaped
    rw [hSame] at hLess
    exact absurd hLess (Nat.lt_irrefl _)
  · -- a literal part has nothing in it that is read in another way
    have hPercent : '%' ∉ p := fun hc =>
      (literals_plain endpoint literal hLiteral '%' (hWithin.subset hc)).2.1 rfl
    have hText : gameId.asStr = String.ofList p := by
      apply Bytes.utf8_injective
      rw [hDecoded, Url.decode_unescaped (Url.escaped_of_not_mem hPercent), Bytes.utf8_toList,
        String.toList_ofList]
    have hList : gameId.asStr.toList = p := by rw [hText, String.toList_ofList]
    exact ⟨hList ▸ hPlain, hList ▸ Url.escaped_of_not_mem hPercent, hDots⟩

/-- All addresses of a game lead back to it exactly if nothing in its identifier ends a segment or
is an escape, and the identifier is not a dot segment. -/
theorem addresses_round_trip_iff (gameId : GameId) :
    ((∀ kind, parseResourceUri (resourceUri gameId kind) = some (gameId.asStr, kind)) ∧
      ∀ endpoint, routedGameId endpoint (endpointPath emptyPath gameId endpoint) =
        some gameId.asStr) ↔ Addressable gameId := by
  constructor
  · exact fun h => addressable_of_routed (h.2 .seat)
  · intro h
    have hSlash : '/' ∉ gameId.asStr.toList := fun hMem => absurd (h.1 '/' hMem) (by decide)
    exact ⟨fun kind => Server.parse_resourceUri_iff.mpr hSlash, fun endpoint =>
      routed_of_addressable h⟩

def slashId : GameId := ⟨"a/b", by decide +kernel⟩

/-- A slash in an identifier makes its resources unreadable and its endpoints unreachable. -/
theorem slash_address : validateGameId slashId.asStr = .ok slashId.asStr ∧
    parseResourceUri (resourceUri slashId .publicGame) = none ∧
    routedGameId .seat (endpointPath emptyPath slashId .seat) = none := by
  refine ⟨?_, ?_, ?_⟩
  · decide +kernel
  · decide +kernel
  · decide +kernel

end Routes

end WordArena.Cli
