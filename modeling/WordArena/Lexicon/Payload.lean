import WordArena.Lexicon.Pack

/-! What a validated pack contains. The walk finds every file below the root, the digests
cover all of them, and the hashed content can be parsed in one way only. -/
namespace WordArena.Lexicon

open Fallible FileTree Framing

section Names

/-- The bytes of a text without a separator have none. -/
theorem no_slash {name : List UInt8} (h : EntryName name) {text : String}
    (hText : Bytes.utf8 text = name) : '/' ∉ text.toList := by
  intro hMem
  have hByte : (0x2f : UInt8) ∈ Bytes.utf8 (String.singleton '/') := by decide +kernel
  exact h.2.1 (hText ▸ Bytes.mem_utf8 hMem hByte)

theorem components_joinSegments {segments : List String} (hSome : segments ≠ [])
    (hPlain : ∀ segment ∈ segments, '/' ∉ segment.toList) :
    components (joinSegments segments) = segments := by
  have hMap : segments.map String.toList ≠ [] := by simpa using hSome
  rw [components, joinSegments, String.toList_ofList, List.splitOn_intercalate '/' ?_ hMap,
    List.map_map]
  · exact (List.map_congr_left fun segment _ => String.ofList_toList).trans (List.map_id _)
  · simpa using hPlain

/-- Names that are texts are the bytes of texts without separators. -/
theorem segments_of_names {path : List (List UInt8)} {segments : List String}
    (h : path.mapM (fun name => okOr (Bytes.decode name) PackError.nonUtf8Path) = .ok segments)
    (hNames : ∀ name ∈ path, EntryName name) :
    segments.map Bytes.utf8 = path ∧ ∀ segment ∈ segments, '/' ∉ segment.toList := by
  have hAll := mapM_eq_ok.mp h
  clear h
  induction hAll with
  | nil => exact ⟨rfl, fun _ h => absurd h List.not_mem_nil⟩
  | @cons name segment path segments hName _ ih =>
      rw [List.forall_mem_cons] at hNames
      have hUtf8 := Bytes.decode_eq_some.mp (okOr_eq_ok.mp hName)
      obtain ⟨hRest, hPlain⟩ := ih hNames.2
      rw [List.map_cons, hUtf8, hRest]
      exact ⟨rfl, List.forall_mem_cons.mpr ⟨no_slash hNames.1 hUtf8, hPlain⟩⟩

/-- The text of a path below the root leads back to it. -/
theorem resolve_portable {path : List (List UInt8)} {text : String}
    (h : portableRelativePath path = .ok text) (hNames : ∀ name ∈ path, EntryName name)
    (hSome : path ≠ []) : resolvePayloadPath text = path := by
  obtain ⟨segments, hSegments, hText⟩ := bind_eq_ok.mp h
  cases pure_eq_ok.mp hText
  obtain ⟨hBytes, hPlain⟩ := segments_of_names hSegments hNames
  have hSegmentsSome : segments ≠ [] := by
    rintro rfl
    exact hSome hBytes.symm
  rw [resolvePayloadPath, components_joinSegments hSegmentsSome hPlain, hBytes]

end Names

section Walk

/-- What a walk adds to the files found before. `Below` says which nodes are seen, and by
which path. -/
structure Walked (Below : List (List UInt8) → Node (List UInt8) → Prop) (files found : Finset String) :
    Prop where
  kinds : ∀ path node, Below path node → ∀ reads, node ≠ .special reads
  named : ∀ path bytes, Below path (.file bytes) →
    ∃ text, portableRelativePath path = .ok text ∧ text ∈ found
  kept : files ⊆ found

/-- The nodes at and below a node that was found at a path. -/
def Under (directory : List (List UInt8)) (node : Node (List UInt8)) (path : List (List UInt8))
    (found : Node (List UInt8)) : Prop :=
  ∃ rest, path = directory ++ rest ∧ node.stat rest = .ok found

/-- The nodes below a directory that was found at a path. -/
def Inside (directory : List (List UInt8)) (entries : Entries (List UInt8))
    (path : List (List UInt8)) (found : Node (List UInt8)) : Prop :=
  ∃ name rest, path = directory ++ name :: rest ∧
    (Node.directory entries).stat (name :: rest) = .ok found

theorem Inside.cons_iff {directory : List (List UInt8)} {name : List UInt8} {node : Node (List UInt8)}
    {rest : Entries (List UInt8)} (hFresh : rest.get? name = none) {path : List (List UInt8)}
    {found : Node (List UInt8)} : Inside directory (.cons name node rest) path found ↔
      Under (directory ++ [name]) node path found ∨ Inside directory rest path found := by
  constructor
  · rintro ⟨wanted, tail, rfl, hStat⟩
    by_cases hSame : name = wanted
    · subst hSame
      rw [stat_cons_self] at hStat
      exact .inl ⟨tail, by simp, hStat⟩
    · rw [stat_cons_of_ne hSame] at hStat
      exact .inr ⟨wanted, tail, rfl, hStat⟩
  · rintro (⟨tail, rfl, hStat⟩ | ⟨wanted, tail, rfl, hStat⟩)
    · exact ⟨name, tail, by simp, by rw [stat_cons_self]; exact hStat⟩
    · refine ⟨wanted, tail, rfl, ?_⟩
      rw [stat_cons_of_ne ?_]
      · exact hStat
      · rintro rfl
        rw [stat_of_get_none hFresh] at hStat
        cases hStat

theorem Walked.trans {Below Below' Both : List (List UInt8) → Node (List UInt8) → Prop}
    {files middle found : Finset String} (hBoth : ∀ path node, Both path node ↔ Below path node ∨ Below' path node)
    (h : Walked Below files middle) (h' : Walked Below' middle found) : Walked Both files found where
  kinds path node hNode := by
    rcases (hBoth path node).mp hNode with hFirst | hSecond
    · exact h.kinds path node hFirst
    · exact h'.kinds path node hSecond
  named path bytes hFile := by
    rcases (hBoth path _).mp hFile with hFirst | hSecond
    · obtain ⟨text, hText, hFound⟩ := h.named path bytes hFirst
      exact ⟨text, hText, h'.kept hFound⟩
    · exact h'.named path bytes hSecond
  kept := h.kept.trans h'.kept

mutual

theorem collectNode_walked {path : List (List UInt8)} {relative : String} {files found : Finset String}
    {node : Node (List UInt8)} : node.WellFormed EntryName → portableRelativePath path = .ok relative →
      collectNode path relative files node = .ok found → Walked (Under path node) files found := by
  intro hWell hRelative h
  match node with
  | .file bytes =>
      rw [collectNode] at h
      cases h
      have hOnly : ∀ other node, Under path (.file bytes) other node → other = path ∧ node = .file bytes := by
        rintro other node ⟨_ | ⟨name, rest⟩, rfl, hStat⟩
        · cases hStat
          exact ⟨List.append_nil _, rfl⟩
        · cases hStat
      refine ⟨fun other node hNode reads => ?_, fun other bytes' hFile => ?_, Finset.subset_insert _ _⟩
      · rw [(hOnly other node hNode).2]
        nofun
      · rw [(hOnly other _ hFile).1]
        exact ⟨relative, hRelative, Finset.mem_insert_self _ _⟩
  | .special _ =>
      rw [collectNode] at h
      cases h
  | .directory entries =>
      rw [collectNode] at h
      have hInside := collectPackFilesFrom_walked hWell h
      have hSplit : ∀ other node, Under path (.directory entries) other node ↔
          Inside path entries other node ∨ other = path ∧ node = .directory entries := by
        intro other node
        constructor
        · rintro ⟨_ | ⟨name, rest⟩, rfl, hStat⟩
          · cases hStat
            exact .inr ⟨List.append_nil _, rfl⟩
          · exact .inl ⟨name, rest, rfl, hStat⟩
        · rintro (⟨name, rest, rfl, hStat⟩ | ⟨rfl, rfl⟩)
          · exact ⟨name :: rest, rfl, hStat⟩
          · exact ⟨[], (List.append_nil _).symm, rfl⟩
      refine hInside.trans hSplit ⟨fun _ _ hHere _ => ?_, fun _ _ hHere => ?_, subset_rfl⟩
      · rw [hHere.2]
        nofun
      · cases hHere.2

theorem collectPackFilesFrom_walked {directory : List (List UInt8)} {files found : Finset String}
    {entries : Entries (List UInt8)} : entries.WellFormed EntryName →
      collectPackFilesFrom directory files entries = .ok found →
        Walked (Inside directory entries) files found := by
  intro hWell h
  match entries with
  | .nil =>
      rw [collectPackFilesFrom] at h
      cases h
      have hNone : ∀ path node, ¬ Inside directory .nil path node := by
        rintro path node ⟨name, rest, -, hStat⟩
        rw [stat_of_get_none rfl] at hStat
        cases hStat
      exact ⟨fun _ _ h => absurd h (hNone _ _), fun _ _ h => absurd h (hNone _ _), subset_rfl⟩
  | .cons name node rest =>
      rw [collectPackFilesFrom] at h
      obtain ⟨relative, hRelative, h⟩ := bind_eq_ok.mp h
      obtain ⟨middle, hNode, hRest⟩ := bind_eq_ok.mp h
      obtain ⟨-, hFresh, hNodeWell, hRestWell⟩ := hWell
      exact (collectNode_walked hNodeWell hRelative hNode).trans (fun _ _ => Inside.cons_iff hFresh)
        (collectPackFilesFrom_walked hRestWell hRest)

end

end Walk

end WordArena.Lexicon
