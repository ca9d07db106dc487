import WordArena.Library.Ascii
import WordArena.Library.Fallible
import WordArena.Lexicon.Identity

/-! Normalization of source spellings to exact-membership keys. The Unicode
tables behind uppercasing, canonical decomposition and combining marks stay
arbitrary, apart from leaving the basic uppercase letters alone. -/
namespace WordArena.Lexicon

open Fallible

/-- Per-character Unicode data used by normalization. The three laws are the
only facts about it that the engine depends on. -/
structure CharacterTables where
  toUppercase : Char → List Char
  nfd : Char → List Char
  isCombiningMark : Char → Bool
  toUppercase_upper : ∀ c : Char, c.isUpper = true → toUppercase c = [c]
  nfd_upper : ∀ c : Char, c.isUpper = true → nfd c = [c]
  isCombiningMark_upper : ∀ c : Char, c.isUpper = true → isCombiningMark c = false

inductive NormalizedKeyError where
  | empty
  | forbiddenCharacter (character : Char)
  | unsupportedProfile (profile : String)
  | unsupportedCharacter (profile : String) (character : Char)
deriving DecidableEq, Repr

/-- Unicode general category `Cc`. -/
def isControl (c : Char) : Bool :=
  c.toNat ≤ 0x1f || (0x7f ≤ c.toNat && c.toNat ≤ 0x9f)

/-- Unicode property `White_Space`. -/
def isWhitespace (c : Char) : Bool :=
  (0x09 ≤ c.toNat && c.toNat ≤ 0x0d) || c.toNat == 0x20 || c.toNat == 0x85 ||
    c.toNat == 0xa0 || c.toNat == 0x1680 || (0x2000 ≤ c.toNat && c.toNat ≤ 0x200a) ||
    c.toNat == 0x2028 || c.toNat == 0x2029 || c.toNat == 0x202f || c.toNat == 0x205f ||
    c.toNat == 0x3000

/-- A nonempty key without control characters or whitespace. -/
structure NormalizedKey where
  value : String
  nonempty : value ≠ ""
  allowed : value.toList.find? (fun c => isControl c || isWhitespace c) = none
deriving DecidableEq

def NormalizedKey.new (value : String) : Except NormalizedKeyError NormalizedKey :=
  if hEmpty : value = "" then .error .empty
  else
    match hFound : value.toList.find? (fun c => isControl c || isWhitespace c) with
    | some character => .error (.forbiddenCharacter character)
    | none => .ok ⟨value, hEmpty, hFound⟩

def pushBasicLatin (profile : String) (output : List Char) (character : Char) :
    Except NormalizedKeyError (List Char) :=
  if character.isUpper then .ok (output ++ [character])
  else .error (.unsupportedCharacter profile character)

def uppercaseBasicLatin (tables : CharacterTables) (profile source : String) :
    Except NormalizedKeyError (List Char) :=
  (source.toList.flatMap tables.toUppercase).foldlM (pushBasicLatin profile) []

/-- One source character under a folding profile. Ligatures are expanded only
for French and are then pushed without any further check. -/
def foldCharacter (tables : CharacterTables) (profile : String) (expandLigatures : Bool)
    (output : List Char) (character : Char) : Except NormalizedKeyError (List Char) :=
  if expandLigatures && (character == 'œ' || character == 'Œ') then .ok (output ++ ['O', 'E'])
  else if expandLigatures && (character == 'æ' || character == 'Æ') then
    .ok (output ++ ['A', 'E'])
  else
    (((tables.toUppercase character).flatMap tables.nfd).filter
      (fun decomposed => !tables.isCombiningMark decomposed)).foldlM (pushBasicLatin profile) output

def latinFold (tables : CharacterTables) (profile source : String) (expandLigatures : Bool) :
    Except NormalizedKeyError (List Char) :=
  source.toList.foldlM (foldCharacter tables profile expandLigatures) []

/-- The profile selects the expansion; an unknown profile is an error. -/
def expandSource (tables : CharacterTables) (profile source : String) :
    Except NormalizedKeyError (List Char) :=
  if profile = englishNormalizationProfile then uppercaseBasicLatin tables profile source
  else if profile = frenchNormalizationProfile then latinFold tables profile source true
  else if profile = germanNormalizationProfile ∨ profile = spanishNormalizationProfile then
    latinFold tables profile source false
  else .error (.unsupportedProfile profile)

def normalizeKey (tables : CharacterTables) (profile source : String) :
    Except NormalizedKeyError NormalizedKey := do
  let normalized ← expandSource tables profile source
  NormalizedKey.new (String.ofList normalized)

/-- A spelling over the basic uppercase letters only. -/
def IsUpper (text : String) : Prop := ∀ c ∈ text.toList, c.isUpper = true

theorem not_forbidden_of_isUpper {c : Char} (h : c.isUpper = true) :
    (isControl c || isWhitespace c) = false := by
  have hRange := Ascii.isUpper_iff.mp h
  simp only [isControl, isWhitespace, Bool.or_eq_false_iff, Bool.and_eq_false_iff,
    decide_eq_false_iff_not, beq_eq_false_iff_ne]
  omega

theorem new_of_isUpper {text : String} (hText : text ≠ "") (h : IsUpper text) :
    ∃ key, NormalizedKey.new text = .ok key ∧ key.value = text := by
  have hFound : text.toList.find? (fun c => isControl c || isWhitespace c) = none := by
    rw [List.find?_eq_none]
    intro c hc
    simp [not_forbidden_of_isUpper (h c hc)]
  refine ⟨⟨text, hText, hFound⟩, ?_, rfl⟩
  unfold NormalizedKey.new
  rw [dif_neg hText]
  split
  · rename_i heq
    rw [hFound] at heq
    cases heq
  · rfl

theorem value_of_new {text : String} {key : NormalizedKey} (h : NormalizedKey.new text = .ok key) :
    key.value = text := by
  unfold NormalizedKey.new at h
  split at h
  · cases h
  · split at h
    · cases h
    · cases h
      rfl

theorem foldlM_push_eq_ok {profile : String} {characters output result : List Char} :
    characters.foldlM (pushBasicLatin profile) output = .ok result ↔
      (∀ c ∈ characters, c.isUpper = true) ∧ result = output ++ characters := by
  induction characters generalizing output with
  | nil => simp [@eq_comm _ output]
  | cons c characters ih =>
      by_cases hc : c.isUpper = true
      · simp [List.foldlM_cons, bind_eq_ok, pushBasicLatin, hc, ih]
      · simp [List.foldlM_cons, bind_eq_ok, pushBasicLatin, hc]

theorem uppercase_flatMap {tables : CharacterTables} {characters : List Char}
    (h : ∀ c ∈ characters, c.isUpper = true) : characters.flatMap tables.toUppercase = characters := by
  induction characters with
  | nil => rfl
  | cons c characters ih =>
      rw [List.flatMap_cons, tables.toUppercase_upper c (h c List.mem_cons_self),
        ih (fun d hd => h d (List.mem_cons_of_mem _ hd))]
      rfl

theorem foldCharacter_upper {tables : CharacterTables} {profile : String} {expand : Bool}
    {output : List Char} {c : Char} (h : c.isUpper = true) :
    foldCharacter tables profile expand output c = .ok (output ++ [c]) := by
  have hOe : c ≠ 'œ' ∧ c ≠ 'Œ' := by constructor <;> (rintro rfl; exact absurd h (by decide))
  have hAe : c ≠ 'æ' ∧ c ≠ 'Æ' := by constructor <;> (rintro rfl; exact absurd h (by decide))
  simp [foldCharacter, hOe, hAe, tables.toUppercase_upper c h, tables.nfd_upper c h,
    tables.isCombiningMark_upper c h, pushBasicLatin, h]

theorem latinFold_upper {tables : CharacterTables} {profile : String} {expand : Bool}
    {characters output : List Char} (h : ∀ c ∈ characters, c.isUpper = true) :
    characters.foldlM (foldCharacter tables profile expand) output = .ok (output ++ characters) := by
  induction characters generalizing output with
  | nil => simp
  | cons c characters ih =>
      rw [List.foldlM_cons, foldCharacter_upper (h c List.mem_cons_self)]
      change characters.foldlM _ (output ++ [c]) = _
      rw [ih (fun d hd => h d (List.mem_cons_of_mem _ hd)), List.append_assoc]
      rfl

/-- Only the folding and basic profiles of the four curated languages exist. -/
def Supported (profile : String) : Prop :=
  profile = englishNormalizationProfile ∨ profile = frenchNormalizationProfile ∨
    profile = germanNormalizationProfile ∨ profile = spanishNormalizationProfile

/-- Every supported profile leaves a nonempty uppercase spelling unchanged. -/
theorem normalizeKey_upper (tables : CharacterTables) {profile text : String}
    (hProfile : Supported profile) (hText : text ≠ "") (h : IsUpper text) :
    ∃ key, normalizeKey tables profile text = .ok key ∧ key.value = text := by
  obtain ⟨key, hKey, hValue⟩ := new_of_isUpper hText h
  refine ⟨key, ?_, hValue⟩
  unfold normalizeKey
  rw [bind_eq_ok]
  refine ⟨text.toList, ?_, by rw [String.ofList_toList]; exact hKey⟩
  have hUpper : uppercaseBasicLatin tables profile text = .ok text.toList := by
    rw [uppercaseBasicLatin, uppercase_flatMap h]
    exact foldlM_push_eq_ok.mpr ⟨h, rfl⟩
  have hFold : ∀ expand, latinFold tables profile text expand = .ok text.toList := by
    intro expand
    rw [latinFold, latinFold_upper h]
    rfl
  unfold expandSource
  split
  · exact hUpper
  · split
    · exact hFold true
    · rename_i hEnglish hFrench
      rw [if_pos (by rcases hProfile with h | h | h <;> simp_all)]
      exact hFold false

theorem foldCharacter_isUpper {tables : CharacterTables} {profile : String} {expand : Bool}
    {output result : List Char} {c : Char} (hOutput : ∀ d ∈ output, d.isUpper = true)
    (h : foldCharacter tables profile expand output c = .ok result) :
    ∀ d ∈ result, d.isUpper = true := by
  unfold foldCharacter at h
  split at h
  · cases h
    simpa [or_imp, forall_and] using hOutput
  · split at h
    · cases h
      simpa [or_imp, forall_and] using hOutput
    · obtain ⟨hPushed, rfl⟩ := foldlM_push_eq_ok.mp h
      intro d hd
      rcases List.mem_append.mp hd with hd | hd
      · exact hOutput d hd
      · exact hPushed d hd

/-- Normalization under any profile produces basic uppercase letters only. -/
theorem isUpper_of_normalizeKey {tables : CharacterTables} {profile source : String}
    {key : NormalizedKey} (h : normalizeKey tables profile source = .ok key) : IsUpper key.value := by
  unfold normalizeKey at h
  obtain ⟨normalized, hNormalized, h⟩ := bind_eq_ok.mp h
  rw [value_of_new h, IsUpper, String.toList_ofList]
  have hFold : ∀ expand, latinFold tables profile source expand = .ok normalized →
      ∀ c ∈ normalized, c.isUpper = true := by
    intro expand hRun
    exact foldlM_invariant (fun output => ∀ c ∈ output, c.isUpper = true) hRun (by simp)
      (fun _ _ _ _ hOutput hStep => foldCharacter_isUpper hOutput hStep)
  unfold expandSource at hNormalized
  split at hNormalized
  · obtain ⟨hPushed, rfl⟩ := foldlM_push_eq_ok.mp hNormalized
    simpa using hPushed
  · split at hNormalized
    · exact hFold true hNormalized
    · split at hNormalized
      · exact hFold false hNormalized
      · cases hNormalized

end WordArena.Lexicon
