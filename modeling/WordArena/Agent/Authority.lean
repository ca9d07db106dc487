import WordArena.Agent.Workspace

/-! Authority that agents must not have: the capabilities of spectators and administrators, known
by their digests only, and the words that give such authority away. The digest is a parameter. -/
namespace WordArena.Agent

open Fallible

section Markers

inductive ForbiddenAuthorityKind where
  | humanSpectator
  | administrator
deriving DecidableEq, Repr

/-- Upper and lower case are the same, and so are the separators. -/
def normalizeCharacter (c : Char) : Char :=
  let lower := c.toLower
  if lower = '-' ∨ lower = ' ' ∨ lower = '.' then '_' else lower

def humanSpectatorMarkers : List String :=
  ["human_spectator", "observe_spectator", "spectator_credential", "spectator_capability"]

def administratorMarkers : List String :=
  ["administrator", "observe_admin", "admin_credential", "admin_capability"]

def forbiddenAuthorityMarker (value : String) : Option ForbiddenAuthorityKind :=
  let normalized := value.toList.map normalizeCharacter
  if humanSpectatorMarkers.any fun marker => decide (marker.toList <:+: normalized) then
    some .humanSpectator
  else if administratorMarkers.any fun marker => decide (marker.toList <:+: normalized) then
    some .administrator
  else none

def normalizeByte (byte : UInt8) : UInt8 :=
  let lower := if 65 ≤ byte ∧ byte ≤ 90 then byte + 32 else byte
  if lower = 45 ∨ lower = 32 ∨ lower = 46 then 95 else lower

/-- A marker occurs in these bytes, whether or not they are a text. -/
def Marked (bytes : List UInt8) : Prop :=
  ∃ marker ∈ humanSpectatorMarkers ++ administratorMarkers,
    Bytes.utf8 marker <:+: bytes.map normalizeByte

theorem normalizeCharacter_basic : ∀ n < 128, (normalizeCharacter (Char.ofNat n)).toNat < 128 ∧
    UInt8.ofNat (normalizeCharacter (Char.ofNat n)).toNat = normalizeByte (UInt8.ofNat n) := by
  decide +kernel

theorem normalizeCharacter_high {c : Char} (h : 128 ≤ c.toNat) : normalizeCharacter c = c := by
  rw [normalizeCharacter, Ascii.toLower_of_lt (by omega)]
  apply if_neg
  intro hSeparator
  rcases hSeparator with rfl | rfl | rfl <;> exact absurd h (by decide)

theorem normalizeByte_high {b : UInt8} (h : 128 ≤ b.toNat) : normalizeByte b = b := by
  have hUpper : ¬ (65 ≤ b ∧ b ≤ 90) := by
    intro ⟨_, hHigh⟩
    rw [UInt8.le_iff_toNat_le] at hHigh
    have hZ : (90 : UInt8).toNat = 90 := rfl
    omega
  rw [normalizeByte]
  simp only [if_neg hUpper]
  apply if_neg
  intro hSeparator
  rcases hSeparator with rfl | rfl | rfl <;> exact absurd h (by decide)

theorem markers_basic : ∀ marker ∈ humanSpectatorMarkers ++ administratorMarkers,
    (∀ c ∈ marker.toList, c.toNat < 128) ∧ marker.toList ≠ [] := by decide +kernel

/-- Markers are found in a text as they are found in its bytes. -/
theorem marker_infix_iff {marker value : String}
    (h : marker ∈ humanSpectatorMarkers ++ administratorMarkers) :
    Bytes.utf8 marker <:+: (Bytes.utf8 value).map normalizeByte ↔
      marker.toList <:+: value.toList.map normalizeCharacter := by
  obtain ⟨hBasic, hNonempty⟩ := markers_basic marker h
  have hMap := Ascii.encode_map (f := normalizeCharacter) (g := normalizeByte)
    (fun c hLow => by simpa using normalizeCharacter_basic c.toNat hLow)
    (fun c => normalizeCharacter_high) (fun b => normalizeByte_high) value.toList
  rw [Ascii.utf8_eq_encode, Ascii.utf8_eq_encode, ← hMap, Ascii.encode_infix_iff hBasic hNonempty]

theorem forbiddenAuthorityMarker_eq_none {value : String} :
    forbiddenAuthorityMarker value = none ↔ ¬ Marked (Bytes.utf8 value) := by
  have hMarked : Marked (Bytes.utf8 value) ↔
      ∃ marker ∈ humanSpectatorMarkers ++ administratorMarkers,
        marker.toList <:+: value.toList.map normalizeCharacter := by
    constructor
    · intro ⟨marker, hMem, hInfix⟩
      exact ⟨marker, hMem, (marker_infix_iff hMem).mp hInfix⟩
    · intro ⟨marker, hMem, hInfix⟩
      exact ⟨marker, hMem, (marker_infix_iff hMem).mpr hInfix⟩
  rw [hMarked, forbiddenAuthorityMarker]
  simp only [List.any_eq_true, decide_eq_true_eq, List.mem_append]
  split_ifs with hSpectator hAdministrator
  · obtain ⟨marker, hMem, hInfix⟩ := hSpectator
    simp only [false_iff, not_not]
    exact ⟨marker, .inl hMem, hInfix⟩
  · obtain ⟨marker, hMem, hInfix⟩ := hAdministrator
    simp only [false_iff, not_not]
    exact ⟨marker, .inr hMem, hInfix⟩
  · simp only [true_iff]
    intro ⟨marker, hMem, hInfix⟩
    rcases hMem with hMem | hMem
    · exact hSpectator ⟨marker, hMem, hInfix⟩
    · exact hAdministrator ⟨marker, hMem, hInfix⟩

end Markers

section Capabilities

def capabilityPrefix : List UInt8 := Bytes.utf8 "wa_cap_v1."

def capabilityIdBytes : Nat := 32

def capabilitySecretBytes : Nat := 64

def capabilityWireBytes : Nat :=
  capabilityPrefix.length + capabilityIdBytes + 1 + capabilitySecretBytes

def isCapability (candidate : List UInt8) : Bool :=
  decide (candidate.length = capabilityWireBytes) && capabilityPrefix.isPrefixOf candidate &&
    candidate[capabilityPrefix.length + capabilityIdBytes]? == some 46 &&
    ((candidate.drop capabilityPrefix.length).take capabilityIdBytes ++
      candidate.drop (capabilityPrefix.length + capabilityIdBytes + 1)).all fun byte =>
        (48 ≤ byte && byte ≤ 57) || (97 ≤ byte && byte ≤ 102)

inductive AuthorityPolicyError where
  | invalidCapability
  | duplicateFingerprint
deriving DecidableEq, Repr

structure ForbiddenAuthorityFingerprint (Digest : Type) where
  authority : ForbiddenAuthorityKind
  digest : Digest

/-- The kinds by their digests, each of which is there once. -/
structure ForbiddenAuthorityPolicy (Digest : Type) where
  fingerprints : List (Digest × ForbiddenAuthorityKind)
  distinct : (fingerprints.map Prod.fst).Nodup

variable {Digest : Type} {sha256 : List UInt8 → Digest}

def ForbiddenAuthorityFingerprint.new (sha256 : List UInt8 → Digest)
    (authority : ForbiddenAuthorityKind) (rawCapability : String) :
    Except AuthorityPolicyError (ForbiddenAuthorityFingerprint Digest) :=
  if isCapability (Bytes.utf8 rawCapability) then
    .ok ⟨authority, sha256 (Bytes.utf8 rawCapability)⟩
  else .error .invalidCapability

variable {registered : List (ForbiddenAuthorityKind × String)}

/-- Capabilities become fingerprints of their own digests. -/
theorem fingerprints_of_mapM {fingerprints : List (ForbiddenAuthorityFingerprint Digest)}
    (h : registered.mapM (fun (authority, rawCapability) =>
      ForbiddenAuthorityFingerprint.new sha256 authority rawCapability) = .ok fingerprints) :
    (∀ r ∈ registered, isCapability (Bytes.utf8 r.2) = true) ∧
      fingerprints.map (·.digest) = registered.map fun r => sha256 (Bytes.utf8 r.2) := by
  rw [mapM_eq_ok] at h
  induction h with
  | nil => exact ⟨nofun, rfl⟩
  | @cons r fingerprint registered fingerprints hNew _ ih =>
      have hOk : ForbiddenAuthorityFingerprint.new sha256 r.1 r.2 = .ok fingerprint := hNew
      rw [ForbiddenAuthorityFingerprint.new] at hOk
      split_ifs at hOk with hCapability
      cases hOk
      constructor
      · intro other hOther
        rcases List.mem_cons.mp hOther with rfl | hOther
        · exact hCapability
        · exact ih.1 other hOther
      · rw [List.map_cons, List.map_cons, ih.2]

variable [DecidableEq Digest] {policy : ForbiddenAuthorityPolicy Digest}

def ForbiddenAuthorityPolicy.insert (policy : ForbiddenAuthorityPolicy Digest)
    (fingerprint : ForbiddenAuthorityFingerprint Digest) :
    Except AuthorityPolicyError (ForbiddenAuthorityPolicy Digest) :=
  if h : fingerprint.digest ∈ policy.fingerprints.map Prod.fst then .error .duplicateFingerprint
  else .ok ⟨(fingerprint.digest, fingerprint.authority) :: policy.fingerprints,
    List.nodup_cons.mpr ⟨h, policy.distinct⟩⟩

def ForbiddenAuthorityPolicy.new (fingerprints : List (ForbiddenAuthorityFingerprint Digest)) :
    Except AuthorityPolicyError (ForbiddenAuthorityPolicy Digest) :=
  fingerprints.foldlM ForbiddenAuthorityPolicy.insert ⟨[], List.nodup_nil⟩

/-- The parts of some bytes that have a width. -/
def windows (width : Nat) (bytes : List UInt8) : List (List UInt8) :=
  (List.range (bytes.length + 1 - width)).map fun i => (bytes.drop i).take width

def ForbiddenAuthorityPolicy.find (sha256 : List UInt8 → Digest)
    (policy : ForbiddenAuthorityPolicy Digest) (bytes : List UInt8) :
    Option ForbiddenAuthorityKind :=
  ((windows capabilityWireBytes bytes).filter isCapability).findSome? fun candidate =>
    policy.fingerprints.lookup (sha256 candidate)

theorem mem_windows {width : Nat} {bytes part : List UInt8} :
    part ∈ windows width bytes ↔ part <:+: bytes ∧ part.length = width := by
  simp only [windows, List.mem_map, List.mem_range]
  constructor
  · intro ⟨i, hi, hPart⟩
    subst hPart
    refine ⟨(List.take_prefix _ _).isInfix.trans (List.drop_suffix i bytes).isInfix, ?_⟩
    rw [List.length_take, List.length_drop]
    omega
  · intro ⟨⟨before, after, hSplit⟩, hLength⟩
    refine ⟨before.length, ?_, ?_⟩
    · rw [← hSplit]
      simp only [List.length_append]
      omega
    · rw [← hSplit, List.append_assoc, List.drop_left, ← hLength, List.take_left]

/-- A policy knows the digests of the fingerprints it was built from. -/
theorem digests_of_new {fingerprints : List (ForbiddenAuthorityFingerprint Digest)}
    (h : ForbiddenAuthorityPolicy.new fingerprints = .ok policy) (digest : Digest) :
    digest ∈ policy.fingerprints.map Prod.fst ↔ digest ∈ fingerprints.map (·.digest) := by
  have hRun : ∀ start, fingerprints.foldlM ForbiddenAuthorityPolicy.insert start = .ok policy →
      (digest ∈ policy.fingerprints.map Prod.fst ↔
        digest ∈ start.fingerprints.map Prod.fst ∨ digest ∈ fingerprints.map (·.digest)) := by
    clear h
    induction fingerprints with
    | nil =>
        intro start h
        cases h
        simp
    | cons fingerprint fingerprints ih =>
        intro start h
        rw [List.foldlM_cons] at h
        obtain ⟨next, hInsert, hRest⟩ := bind_eq_ok.mp h
        rw [ih next hRest]
        rw [ForbiddenAuthorityPolicy.insert] at hInsert
        split_ifs at hInsert with hKnown
        cases hInsert
        simp only [List.map_cons, List.mem_cons, or_assoc, or_left_comm]
  simpa using hRun _ h

/-- A policy for these capabilities, each with its kind. -/
def ForbiddenAuthorityPolicy.ofCapabilities (sha256 : List UInt8 → Digest)
    (registered : List (ForbiddenAuthorityKind × String)) :
    Except AuthorityPolicyError (ForbiddenAuthorityPolicy Digest) := do
  let fingerprints ← registered.mapM fun (authority, rawCapability) =>
    ForbiddenAuthorityFingerprint.new sha256 authority rawCapability
  ForbiddenAuthorityPolicy.new fingerprints

theorem length_of_isCapability {candidate : List UInt8} (h : isCapability candidate = true) :
    candidate.length = capabilityWireBytes := by
  simp only [isCapability, Bool.and_eq_true, decide_eq_true_eq] at h
  exact h.1.1.1

/-- A policy finds nothing exactly in bytes without a registered capability. -/
theorem find_eq_none (h : ForbiddenAuthorityPolicy.ofCapabilities sha256 registered = .ok policy)
    (hInjective : ∀ a b, isCapability a = true → isCapability b = true → sha256 a = sha256 b → a = b)
    {bytes : List UInt8} :
    policy.find sha256 bytes = none ↔ ∀ r ∈ registered, ¬ Bytes.utf8 r.2 <:+: bytes := by
  obtain ⟨fingerprints, hFingerprints, hNew⟩ := bind_eq_ok.mp h
  obtain ⟨hCapabilities, hDigests⟩ := fingerprints_of_mapM hFingerprints
  have hKnown : ∀ candidate, policy.fingerprints.lookup (sha256 candidate) = none ↔
      ∀ r ∈ registered, sha256 (Bytes.utf8 r.2) ≠ sha256 candidate := by
    intro candidate
    have hMem := digests_of_new hNew (sha256 candidate)
    rw [hDigests] at hMem
    rw [List.lookup_eq_none_iff]
    constructor
    · intro hNone r hr hSame
      obtain ⟨entry, hEntry, hFirst⟩ := List.mem_map.mp (hMem.mpr (hSame ▸ List.mem_map_of_mem hr))
      exact bne_iff_ne.mp (hNone entry hEntry) hFirst.symm
    · intro hOther entry hEntry
      apply bne_iff_ne.mpr
      intro hSame
      obtain ⟨r, hr, hDigest⟩ :=
        List.mem_map.mp (hMem.mp (hSame ▸ List.mem_map_of_mem hEntry))
      exact hOther r hr hDigest
  rw [ForbiddenAuthorityPolicy.find, List.findSome?_eq_none_iff]
  simp only [List.mem_filter, mem_windows, hKnown]
  constructor
  · intro hNone r hMem hInfix
    have hCapability := hCapabilities r hMem
    exact hNone _ ⟨⟨hInfix, length_of_isCapability hCapability⟩, hCapability⟩ r hMem rfl
  · intro hAbsent candidate hCandidate r hMem hSame
    have hBytes := hInjective _ _ (hCapabilities r hMem) hCandidate.2 hSame
    exact hAbsent r hMem (hBytes ▸ hCandidate.1.1)

end Capabilities

end WordArena.Agent
