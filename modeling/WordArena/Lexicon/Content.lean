import WordArena.Lexicon.Payload
import WordArena.Library.Sha256
import WordArena.Library.Slots

/-! The bytes behind the content digest of a pack. Each payload file contributes its path
and its bytes, both behind their lengths, so that the digest covers where one file ends
and the next one starts. -/
namespace WordArena.Lexicon

open Fallible FileTree Framing

section Reading

theorem flatten_windows (bytes : List UInt8) (width count : Nat) :
    ((List.range count).map fun i => (bytes.drop (i * width)).take width).flatten =
      bytes.take (count * width) := by
  induction count with
  | zero => simp
  | succ count ih =>
      rw [List.range_succ, List.map_append, List.flatten_append, ih, Nat.succ_mul, List.take_add]
      simp

/-- Reading delivers every byte once, in order. -/
theorem readChunks_flatten (bytes : List UInt8) : (readChunks bytes).flatten = bytes := by
  rw [readChunks, flatten_windows, List.take_of_length_le]
  have hSize : 0 < readBufferSize := by decide
  have hDiv := Nat.div_add_mod (bytes.length + (readBufferSize - 1)) readBufferSize
  have hMod := Nat.mod_lt (bytes.length + (readBufferSize - 1)) hSize
  rw [Nat.mul_comm] at hDiv
  omega

theorem foldlM_update {chunks : List (List UInt8)} {reader reader' : PayloadReader}
    (h : chunks.foldlM PayloadReader.update reader = .ok reader') :
    reader' = ⟨reader.content ++ chunks.flatten, reader.file ++ chunks.flatten,
      reader.observedSize + chunks.flatten.length⟩ := by
  induction chunks generalizing reader with
  | nil =>
      cases pure_eq_ok.mp h
      simp
  | cons chunk chunks ih =>
      rw [List.foldlM_cons, bind_eq_ok] at h
      obtain ⟨next, hNext, h⟩ := h
      obtain ⟨_, -, hNext⟩ := bind_eq_ok.mp hNext
      cases pure_eq_ok.mp hNext
      rw [ih h]
      simp [Nat.add_assoc]

end Reading

section Stream

/-- A payload file that is there as its record says. -/
structure Recorded (tools : PackTools) (root : PackRoot) (descriptor : FileDescriptor)
    (bytes : List UInt8) : Prop where
  file : root.stat (resolvePayloadPath descriptor.path) = .ok (.file bytes)
  size : bytes.length = descriptor.sizeBytes.toNat
  digest : tools.digestHex bytes = descriptor.sha256
  fits : (Bytes.utf8 descriptor.path).length < 2 ^ 64

/-- The bytes that stand for one file. -/
def framed (payload : String × List UInt8) : List UInt8 :=
  (Bytes.bigEndian 8 (Bytes.utf8 payload.1).length ++ Bytes.utf8 payload.1) ++
    (Bytes.bigEndian 8 payload.2.length ++ payload.2)

theorem framed_ne_nil (payload : String × List UInt8) : framed payload ≠ [] := by
  intro h
  have hLength := congrArg List.length h
  simp only [framed, List.length_append, Bytes.length_bigEndian, List.length_nil] at hLength
  omega

/-- Where a file ends and what it is called cannot be mistaken. -/
theorem delimits_framed : Delimits (fun payload : String × List UInt8 =>
    (Bytes.utf8 payload.1).length < 256 ^ 8 ∧ payload.2.length < 256 ^ 8) framed :=
  ((delimits_bigEndian 8).counted.comap Bytes.utf8_injective).pair (delimits_bigEndian 8).counted

theorem hashPayload_eq_ok {tools : PackTools} {root : PackRoot} {content content' : List UInt8}
    {descriptor : FileDescriptor} (h : hashPayload tools root content descriptor = .ok content') :
    ∃ bytes, Recorded tools root descriptor bytes ∧
      content' = content ++ framed (descriptor.path, bytes) := by
  obtain ⟨node, hNode, h⟩ := bind_eq_ok.mp h
  rw [mapErr_eq_ok] at hNode
  match node with
  | .directory _ => cases h
  | .special _ => cases h
  | .file bytes =>
      obtain ⟨_, hSize, h⟩ := bind_eq_ok.mp h
      obtain ⟨_, hFits, h⟩ := bind_eq_ok.mp h
      obtain ⟨reader, hReader, h⟩ := bind_eq_ok.mp h
      obtain ⟨_, -, h⟩ := bind_eq_ok.mp h
      obtain ⟨_, hDigest, h⟩ := bind_eq_ok.mp h
      cases pure_eq_ok.mp h
      rw [reject_eq_ok, not_not] at hSize hDigest
      have hRead := foldlM_update hReader
      rw [readChunks_flatten] at hRead
      rw [hRead] at hDigest ⊢
      rw [List.nil_append] at hDigest
      refine ⟨bytes, ⟨hNode, hSize, hDigest, Nat.lt_of_not_le (reject_eq_ok.mp hFits)⟩, ?_⟩
      simp only [framed, hSize, List.append_assoc]

/-- Files that are all recorded give the stream of their frames. -/
theorem foldlM_hashPayload {tools : PackTools} {root : PackRoot} {files : List FileDescriptor}
    {content stream : List UInt8} (h : files.foldlM (hashPayload tools root) content = .ok stream) :
    ∃ payloads : List (String × List UInt8),
      List.Forall₂ (fun descriptor payload => payload.1 = descriptor.path ∧
        Recorded tools root descriptor payload.2) files payloads ∧
      stream = content ++ payloads.flatMap framed := by
  induction files generalizing content with
  | nil =>
      cases pure_eq_ok.mp h
      exact ⟨[], .nil, by simp⟩
  | cons descriptor files ih =>
      rw [List.foldlM_cons, bind_eq_ok] at h
      obtain ⟨next, hNext, h⟩ := h
      obtain ⟨bytes, hRecorded, rfl⟩ := hashPayload_eq_ok hNext
      obtain ⟨payloads, hAll, rfl⟩ := ih h
      exact ⟨(descriptor.path, bytes) :: payloads, .cons ⟨rfl, hRecorded⟩ hAll, by simp⟩

/-- The payload files behind a content stream. -/
structure Streamed (tools : PackTools) (root : PackRoot) (files : List FileDescriptor)
    (payloads : List (String × List UInt8)) : Prop where
  listed : ∀ descriptor ∈ files, ∃ bytes, (descriptor.path, bytes) ∈ payloads ∧
    Recorded tools root descriptor bytes
  only : ∀ payload ∈ payloads, ∃ descriptor ∈ files, payload.1 = descriptor.path ∧
    Recorded tools root descriptor payload.2

theorem contentStream_eq_ok {tools : PackTools} {root : PackRoot} {files : List FileDescriptor}
    {stream : List UInt8} (h : contentStream tools root files = .ok stream) :
    ∃ payloads, Streamed tools root files payloads ∧
      stream = contentHashDomain ++ payloads.flatMap framed := by
  obtain ⟨_, -, h⟩ := bind_eq_ok.mp h
  obtain ⟨payloads, hAll, rfl⟩ := foldlM_hashPayload h
  refine ⟨payloads, ⟨fun descriptor hMem => ?_, fun payload hMem => ?_⟩, rfl⟩
  · obtain ⟨payload, hPayload, hSame, hRecorded⟩ :=
      Slots.exists_of_forall₂_left hAll ((List.mem_insertionSort _).mpr hMem)
    exact ⟨payload.2, hSame ▸ hPayload, hRecorded⟩
  · obtain ⟨descriptor, hDescriptor, hSame, hRecorded⟩ :=
      Slots.exists_of_forall₂_right hAll hMem
    exact ⟨descriptor, (List.mem_insertionSort _).mp hDescriptor, hSame, hRecorded⟩

/-- Two packs with one stream hold the same payload files. -/
theorem Streamed.same {tools tools' : PackTools} {root root' : PackRoot}
    {files files' : List FileDescriptor} {payloads payloads' : List (String × List UInt8)}
    (h : Streamed tools root files payloads) (h' : Streamed tools' root' files' payloads')
    (hSame : payloads.flatMap framed = payloads'.flatMap framed) : payloads = payloads' := by
  have hFits : ∀ {tools : PackTools} {root : PackRoot} {files : List FileDescriptor}
      {payloads : List (String × List UInt8)}, Streamed tools root files payloads →
      ∀ payload ∈ payloads, (Bytes.utf8 payload.1).length < 256 ^ 8 ∧ payload.2.length < 256 ^ 8 := by
    intro tools root files payloads h payload hMem
    obtain ⟨descriptor, -, hPath, hRecorded⟩ := h.only payload hMem
    have hSize := descriptor.sizeBytes.toNat_lt
    rw [hPath, hRecorded.size]
    exact ⟨hRecorded.fits, hSize⟩
  exact delimits_framed.flatMap_inj framed_ne_nil (hFits h) (hFits h') hSame

end Stream

section Order

/-- Distinct paths are put into one order. -/
theorem sorted_of_perm {files files' : List FileDescriptor} (hNodup : (files.map (·.path)).Nodup)
    (hPerm : files.Perm files') :
    files.insertionSort (fun left right => left.path ≤ right.path) =
      files'.insertionSort fun left right => left.path ≤ right.path := by
  have hInjective : ∀ left ∈ files, ∀ right ∈ files, left.path = right.path → left = right :=
    fun left hLeft right hRight => List.inj_on_of_nodup_map hNodup hLeft hRight
  have hSame : ∀ left right, left ∈ files.insertionSort (fun left right => left.path ≤ right.path) →
      right ∈ files'.insertionSort (fun left right => left.path ≤ right.path) →
      left.path ≤ right.path → right.path ≤ left.path → left = right := by
    intro left right hLeft hRight hLe hGe
    exact hInjective left ((List.mem_insertionSort _).mp hLeft) right
      (hPerm.mem_iff.mpr ((List.mem_insertionSort _).mp hRight)) (le_antisymm hLe hGe)
  exact List.Perm.eq_of_pairwise hSame (List.pairwise_insertionSort _ _)
    (List.pairwise_insertionSort _ _)
    (((List.perm_insertionSort _ _).trans hPerm).trans (List.perm_insertionSort _ _).symm)

theorem contentStream_of_perm {tools : PackTools} {root : PackRoot} {files files' : List FileDescriptor}
    {stream : List UInt8} (hPerm : files.Perm files')
    (h : contentStream tools root files = .ok stream) : contentStream tools root files' = .ok stream := by
  obtain ⟨paths, hPaths, h⟩ := bind_eq_ok.mp h
  obtain ⟨⟨hAll, hNodup⟩, -⟩ := recordPaths_eq_ok.mp hPaths
  refine bind_eq_ok.mpr ⟨_, recordPaths_eq_ok.mpr ⟨⟨fun file hFile => ?_, ?_⟩, rfl⟩, ?_⟩
  · exact hAll file (hPerm.mem_iff.mpr hFile)
  · exact (hPerm.map _).nodup_iff.mp hNodup
  · rw [← sorted_of_perm hNodup hPerm]
    exact h

end Order

section Validated

/-- The payload file that a validated pack holds under a relative path. -/
def ValidatedPack.Holds (validated : ValidatedPack) (root : PackRoot) (relative : String)
    (bytes : List UInt8) : Prop :=
  relative ∈ validated.manifest.files.map (·.path) ∧
    root.stat (resolvePayloadPath relative) = .ok (.file bytes)

theorem Streamed.mem_iff {tools : PackTools} {root : PackRoot} {validated : ValidatedPack}
    {payloads : List (String × List UInt8)}
    (h : Streamed tools root validated.manifest.files payloads) {relative : String}
    {bytes : List UInt8} : (relative, bytes) ∈ payloads ↔ validated.Holds root relative bytes := by
  constructor
  · intro hMem
    obtain ⟨descriptor, hDescriptor, rfl, hRecorded⟩ := h.only _ hMem
    exact ⟨List.mem_map_of_mem hDescriptor, hRecorded.file⟩
  · rintro ⟨hListed, hFile⟩
    obtain ⟨descriptor, hDescriptor, rfl⟩ := List.mem_map.mp hListed
    obtain ⟨found, hMem, hRecorded⟩ := h.listed descriptor hDescriptor
    rw [hRecorded.file] at hFile
    cases hFile
    exact hMem

/-- Files that are all found by the walk, and no others but the manifest. -/
theorem validateCompleteFileSet_eq_ok {root : PackRoot} {files : List FileDescriptor} {u : Unit}
    (h : validateCompleteFileSet root files = .ok u) :
    ∃ actual, collectPackFiles root = .ok actual ∧ (∀ file ∈ files, file.path ∈ actual) ∧
      ∀ relative ∈ actual, relative = manifestFile ∨ relative ∈ files.map (·.path) := by
  obtain ⟨actual, hActual, h⟩ := bind_eq_ok.mp h
  obtain ⟨_, hFound, h⟩ := bind_eq_ok.mp h
  refine ⟨actual, hActual, fun file hFile => ?_, fun relative hMem => ?_⟩
  · exact not_not.mp (reject_eq_ok.mp (forM_eq_ok.mp hFound file hFile))
  · by_contra hOther
    have hExtra : relative ∈ actual \ insert manifestFile (files.map (·.path)).toFinset := by
      rw [Finset.mem_sdiff, Finset.mem_insert, List.mem_toFinset]
      exact ⟨hMem, hOther⟩
    rw [dif_pos ⟨relative, hExtra⟩] at h
    cases h

/-- What stands below the root of a pack with a complete file set. -/
theorem entries_of_complete {root : PackRoot} {files : List FileDescriptor} {u : Unit}
    (h : validateCompleteFileSet root files = .ok u) {path : List (List UInt8)}
    {node : Node (List UInt8)} (hBelow : path ≠ []) (hNode : root.stat path = .ok node) :
    (∃ entries, node = .directory entries) ∨ ∃ relative bytes, node = .file bytes ∧
      path = resolvePayloadPath relative ∧
        (relative = manifestFile ∨ relative ∈ files.map (·.path)) := by
  obtain ⟨actual, hActual, -, hOnly⟩ := validateCompleteFileSet_eq_ok h
  have hWalked := collectPackFilesFrom_walked root.wellFormed hActual
  obtain ⟨name, rest, rfl⟩ := List.exists_cons_of_ne_nil hBelow
  have hInside : Inside [] root.entries (name :: rest) node := ⟨name, rest, rfl, hNode⟩
  cases node with
  | directory entries => exact .inl ⟨entries, rfl⟩
  | special reads => exact absurd rfl (hWalked.kinds _ _ hInside reads)
  | file bytes =>
      obtain ⟨relative, hPortable, hMem⟩ := hWalked.named _ bytes hInside
      have hNames := Entries.WellFormed.names root.wellFormed hNode
      exact .inr ⟨relative, bytes, rfl, (resolve_portable hPortable hNames hBelow).symm,
        hOnly relative hMem⟩

/-- A manifest that can be read is a file, because the walk meets no links. -/
theorem manifest_of_read {root : PackRoot} {files : List FileDescriptor} {u : Unit} {text : String}
    (hRead : readManifest root = .ok text) (h : validateCompleteFileSet root files = .ok u) :
    root.stat (resolvePayloadPath manifestFile) = .ok (.file (Bytes.utf8 text)) := by
  obtain ⟨bytes, hBytes, hText⟩ := bind_eq_ok.mp hRead
  obtain ⟨node, hNode, hBytes⟩ := bind_eq_ok.mp (mapErr_eq_ok.mp hBytes)
  rcases entries_of_complete h (by decide) hNode with ⟨entries, rfl⟩ | ⟨_, found, rfl, -⟩
  · cases hBytes
  · cases hBytes
    rw [hNode, Bytes.decode_eq_some.mp (okOr_eq_ok.mp hText)]

/-- The parts of a successful validation. -/
theorem validatePack_eq_ok {tools : PackTools} {root : PackRoot} {validated : ValidatedPack}
    (h : validatePack tools root = .ok validated) :
    (∃ text, readManifest root = .ok text ∧ tools.parseManifest text = some validated.manifest) ∧
      validated.identity = validated.manifest.identity ∧
      validateCompleteFileSet root validated.manifest.files = .ok () ∧
      ∃ stream, contentStream tools root validated.manifest.files = .ok stream ∧
        tools.digestHex stream = validated.manifest.contentSha256 := by
  obtain ⟨text, hRead, h⟩ := bind_eq_ok.mp h
  obtain ⟨manifest, hManifest, h⟩ := bind_eq_ok.mp h
  obtain ⟨_, -, h⟩ := bind_eq_ok.mp h
  obtain ⟨_, hComplete, h⟩ := bind_eq_ok.mp h
  obtain ⟨calculated, hCalculated, h⟩ := bind_eq_ok.mp h
  obtain ⟨_, hSame, h⟩ := bind_eq_ok.mp h
  obtain ⟨stream, hStream, hDigest⟩ := bind_eq_ok.mp hCalculated
  cases pure_eq_ok.mp h
  cases pure_eq_ok.mp hDigest
  exact ⟨⟨text, hRead, okOr_eq_ok.mp hManifest⟩, rfl, hComplete, stream, hStream,
    not_not.mp (reject_eq_ok.mp hSame)⟩

theorem digestHex_inj {tools : PackTools} {a b : List UInt8}
    (h : tools.digestHex a = tools.digestHex b) : tools.sha256 a = tools.sha256 b :=
  Vector.toList_inj.mp (Bytes.hexLower_injective h)

/-- A validated pack holds its manifest, the listed files as they are recorded, and nothing
else but directories. The order of the list is not hashed. Another validated pack with the
same content digest holds the same payload, unless the hashed streams are a collision. -/
theorem validated_pack_payload {tools : PackTools} {root : PackRoot} {validated : ValidatedPack}
    (h : validatePack tools root = .ok validated) :
    (∀ path node, path ≠ [] → root.stat path = .ok node →
      (∃ entries, node = .directory entries) ∨ ∃ relative bytes, node = .file bytes ∧
        path = resolvePayloadPath relative ∧
          (relative = manifestFile ∨ validated.Holds root relative bytes)) ∧
    (∃ text, root.stat (resolvePayloadPath manifestFile) = .ok (.file (Bytes.utf8 text)) ∧
      tools.parseManifest text = some validated.manifest) ∧
    (∀ descriptor ∈ validated.manifest.files, ∃ bytes, Recorded tools root descriptor bytes) ∧
    (∀ files, validated.manifest.files.Perm files →
      contentStream tools root files = contentStream tools root validated.manifest.files) ∧
    ∀ (root' : PackRoot) (validated' : ValidatedPack), validatePack tools root' = .ok validated' →
      validated.identity.contentSha256 = validated'.identity.contentSha256 →
      (∀ relative bytes, validated.Holds root relative bytes ↔ validated'.Holds root' relative bytes) ∨
        ∃ stream stream', contentStream tools root validated.manifest.files = .ok stream ∧
          contentStream tools root' validated'.manifest.files = .ok stream' ∧
          stream ≠ stream' ∧ tools.sha256 stream = tools.sha256 stream' := by
  obtain ⟨⟨text, hRead, hManifest⟩, hIdentity, hComplete, stream, hStream, hDigest⟩ :=
    validatePack_eq_ok h
  obtain ⟨payloads, hPayloads, hFrames⟩ := contentStream_eq_ok hStream
  refine ⟨fun path node hBelow hNode => ?_, ⟨text, manifest_of_read hRead hComplete, hManifest⟩,
    fun descriptor hDescriptor => ?_, fun files hPerm => ?_, fun root' validated' h' hSame => ?_⟩
  · rcases entries_of_complete hComplete hBelow hNode with
      hDirectory | ⟨relative, bytes, rfl, rfl, hManifestFile | hListed⟩
    · exact .inl hDirectory
    · exact .inr ⟨relative, bytes, rfl, rfl, .inl hManifestFile⟩
    · exact .inr ⟨relative, bytes, rfl, rfl, .inr ⟨hListed, hNode⟩⟩
  · obtain ⟨bytes, -, hRecorded⟩ := hPayloads.listed descriptor hDescriptor
    exact ⟨bytes, hRecorded⟩
  · rw [hStream, contentStream_of_perm hPerm hStream]
  · obtain ⟨-, hIdentity', -, stream', hStream', hDigest'⟩ := validatePack_eq_ok h'
    obtain ⟨payloads', hPayloads', hFrames'⟩ := contentStream_eq_ok hStream'
    by_cases hEqual : stream = stream'
    · left
      rw [hFrames, hFrames', List.append_cancel_left_eq] at hEqual
      have hPayload := hPayloads.same hPayloads' hEqual
      intro relative bytes
      rw [← hPayloads.mem_iff, ← hPayloads'.mem_iff, hPayload]
    · rw [hIdentity, hIdentity'] at hSame
      exact .inr ⟨stream, stream', hStream, hStream', hEqual,
        digestHex_inj (hDigest.trans (hSame.trans hDigest'.symm))⟩

end Validated

end WordArena.Lexicon
