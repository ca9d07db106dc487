import WordArena.Server.Gateway

/-! Resource addresses as the server lists them and takes them apart. -/
namespace WordArena.Server

open WordArena.Service

def ResourceKind.slug : ResourceKind → String
  | .publicGame => "public"
  | .privateSeat => "seat"
  | .eventHistory => "history"
  | .ruleset => "ruleset"
  | .lexiconManifest => "lexicon-manifest"

def resourceUri (gameId : GameId) (kind : ResourceKind) : String :=
  resourcePrefix ++ gameId.asStr ++ "/" ++ kind.slug

variable {gameId : GameId} {kind : ResourceKind}

theorem resourceKind_slug (kind : ResourceKind) : resourceKind? kind.slug = some kind := by
  cases kind <;> rfl

theorem not_slash_slug (kind : ResourceKind) : '/' ∉ kind.slug.toList := by
  cases kind <;> decide

theorem gameId_ne_empty (gameId : GameId) : gameId.asStr ≠ "" := by
  have hValid := gameId.valid
  simp only [printable, Bool.and_eq_true, decide_eq_true_eq, ne_eq] at hValid
  exact hValid.1.1

/-- The segments of a resource address. -/
theorem split_resourceUri :
    ((resourceUri gameId kind).toList.drop resourcePrefix.toList.length).splitOn '/' =
      gameId.asStr.toList.splitOn '/' ++ [kind.slug.toList] := by
  have hText : (resourceUri gameId kind).toList.drop resourcePrefix.toList.length =
      gameId.asStr.toList ++ '/' :: kind.slug.toList := by
    rw [resourceUri, String.append_assoc, String.append_assoc, String.toList_append,
      List.drop_left, String.toList_append, String.toList_append]
    rfl
  rw [hText, List.splitOn_append_cons_self, List.splitOn_eq_singleton (not_slash_slug kind)]

/-- A game is found again exactly if its identifier has no slash. -/
theorem parse_resourceUri_iff :
    parseResourceUri (resourceUri gameId kind) = some (gameId.asStr, kind) ↔
      '/' ∉ gameId.asStr.toList := by
  have hPrefix : resourcePrefix.toList.isPrefixOf (resourceUri gameId kind).toList = true := by
    rw [List.isPrefixOf_iff_prefix, resourceUri, String.append_assoc, String.append_assoc,
      String.toList_append]
    exact List.prefix_append _ _
  rw [parseResourceUri, if_pos hPrefix, split_resourceUri]
  constructor
  · intro h hMem
    obtain ⟨before, after, hSplit⟩ := List.append_of_mem hMem
    rw [hSplit, List.splitOn_append_cons_self] at h
    have hBefore := List.length_pos_of_ne_nil (List.splitOn_ne_nil '/' before)
    have hAfter := List.length_pos_of_ne_nil (List.splitOn_ne_nil '/' after)
    split at h
    · next game other hList =>
        have hLength := congrArg List.length hList
        simp only [List.length_map, List.length_append, List.length_cons, List.length_nil] at hLength
        omega
    · cases h
  · intro hSlash
    rw [List.splitOn_eq_singleton hSlash]
    simp [gameId_ne_empty, resourceKind_slug]

end WordArena.Server
