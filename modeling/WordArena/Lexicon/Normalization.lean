import WordArena.Lexicon.Key

/-! What normalization computes. Each profile expands every character on its own, and a source
spelling is its whole expansion or the first character of it that no board has. -/
namespace WordArena.Lexicon

open Fallible

/-- What one source character stands for on the board of a profile. -/
def expandCharacter (tables : CharacterTables) (profile : String) (c : Char) : List Char :=
  if profile = englishNormalizationProfile then tables.toUppercase c
  else if profile = frenchNormalizationProfile ∧ (c = 'œ' ∨ c = 'Œ') then ['O', 'E']
  else if profile = frenchNormalizationProfile ∧ (c = 'æ' ∨ c = 'Æ') then ['A', 'E']
  else ((tables.toUppercase c).flatMap tables.nfd).filter fun d => !tables.isCombiningMark d

def expansion (tables : CharacterTables) (profile source : String) : List Char :=
  source.toList.flatMap (expandCharacter tables profile)

section

variable {tables : CharacterTables} {profile : String}

theorem expansion_append (source other : String) :
    expansion tables profile (source ++ other) =
      expansion tables profile source ++ expansion tables profile other := by
  rw [expansion, String.toList_append, List.flatMap_append]
  rfl

/-- A board letter stands for itself under every profile. -/
theorem expandCharacter_upper {c : Char} (h : c.isUpper = true) :
    expandCharacter tables profile c = [c] := by
  have hOe : ¬ (c = 'œ' ∨ c = 'Œ') := by
    rintro (rfl | rfl) <;> exact absurd h (by decide)
  have hAe : ¬ (c = 'æ' ∨ c = 'Æ') := by
    rintro (rfl | rfl) <;> exact absurd h (by decide)
  simp [expandCharacter, hOe, hAe, tables.toUppercase_upper c h, tables.nfd_upper c h,
    tables.isCombiningMark_upper c h]

theorem expansion_upper {characters : List Char} (h : ∀ c ∈ characters, c.isUpper = true) :
    expansion tables profile (String.ofList characters) = characters := by
  rw [expansion, String.toList_ofList]
  induction characters with
  | nil => rfl
  | cons c characters ih =>
      rw [List.forall_mem_cons] at h
      rw [List.flatMap_cons, expandCharacter_upper h.1, ih h.2]
      rfl

theorem foldlM_flatMap {f : Char → List Char} {characters output : List Char} :
    (characters.flatMap f).foldlM (pushBasicLatin profile) output =
      characters.foldlM (fun output c => (f c).foldlM (pushBasicLatin profile) output) output := by
  induction characters generalizing output with
  | nil => rfl
  | cons c characters ih =>
      rw [List.flatMap_cons, List.foldlM_append, List.foldlM_cons]
      exact congrArg _ (funext fun output => ih)

/-- A folding profile pushes the expansion of each character. The ligatures of French skip the
check that every other character passes. -/
theorem foldCharacter_eq (hEnglish : profile ≠ englishNormalizationProfile) (output : List Char)
    (c : Char) :
    foldCharacter tables profile (profile = frenchNormalizationProfile) output c =
      (expandCharacter tables profile c).foldlM (pushBasicLatin profile) output := by
  have hPair : ∀ a b : Char, a.isUpper = true → b.isUpper = true →
      [a, b].foldlM (pushBasicLatin profile) output = .ok (output ++ [a, b]) := by
    intro a b ha hb
    exact foldlM_push_eq_ok.mpr ⟨by simp [ha, hb], rfl⟩
  have hTest : ∀ a b : Char, ((decide (profile = frenchNormalizationProfile) &&
      (c == a || c == b)) = true) = (profile = frenchNormalizationProfile ∧ (c = a ∨ c = b)) := by
    intro a b
    simp
  unfold foldCharacter expandCharacter
  simp only [hTest, if_neg hEnglish]
  split_ifs with hOe hAe
  · rw [hPair _ _ (by decide) (by decide)]
  · rw [hPair _ _ (by decide) (by decide)]
  · rfl

theorem expandSource_eq (hProfile : Supported profile) (source : String) :
    expandSource tables profile source =
      (expansion tables profile source).foldlM (pushBasicLatin profile) [] := by
  by_cases hEnglish : profile = englishNormalizationProfile
  · rw [expandSource, if_pos hEnglish, uppercaseBasicLatin, expansion]
    congr 2
    funext c
    rw [expandCharacter, if_pos hEnglish]
  · have hFold : latinFold tables profile source (profile = frenchNormalizationProfile) =
        (expansion tables profile source).foldlM (pushBasicLatin profile) [] := by
      rw [latinFold, expansion, foldlM_flatMap]
      congr 1
      funext output c
      exact foldCharacter_eq hEnglish output c
    rw [expandSource, if_neg hEnglish]
    by_cases hFrench : profile = frenchNormalizationProfile
    · rw [if_pos hFrench]
      simpa [hFrench] using hFold
    · rw [if_neg hFrench, if_pos (by rcases hProfile with h | h | h <;> simp_all)]
      simpa [hFrench] using hFold

theorem expandSource_unsupported (hProfile : ¬ Supported profile) (source : String) :
    expandSource tables profile source = .error (.unsupportedProfile profile) := by
  simp only [Supported, not_or] at hProfile
  obtain ⟨hEnglish, hFrench, hGerman, hSpanish⟩ := hProfile
  rw [expandSource, if_neg hEnglish, if_neg hFrench, if_neg (not_or.mpr ⟨hGerman, hSpanish⟩)]

/-- Pushing stops at the first character that is no board letter. -/
theorem foldlM_push_eq_error {characters output : List Char} {e : NormalizedKeyError} :
    characters.foldlM (pushBasicLatin profile) output = .error e ↔
      ∃ c, characters.find? (fun c => !c.isUpper) = some c ∧
        e = .unsupportedCharacter profile c := by
  induction characters generalizing output with
  | nil => simp
  | cons c characters ih =>
      by_cases hc : c.isUpper = true
      · simp [List.foldlM_cons, bind_eq_error, pushBasicLatin, hc, ih]
      · rw [List.foldlM_cons, pushBasicLatin, if_neg hc, error_bind]
        simp [hc, @eq_comm _ e]

theorem normalizedKey_ext {key other : NormalizedKey} (h : key.value = other.value) : key = other := by
  cases key
  cases other
  subst h
  rfl

theorem new_eq_error {text : String} (h : IsUpper text) {e : NormalizedKeyError} :
    NormalizedKey.new text = .error e ↔ text = "" ∧ e = .empty := by
  by_cases hText : text = ""
  · rw [NormalizedKey.new, dif_pos hText]
    simp [hText, eq_comm]
  · obtain ⟨key, hKey, -⟩ := new_of_isUpper hText h
    rw [hKey]
    simp [hText]

theorem normalizeKey_eq_ok {source : String} {key : NormalizedKey} :
    normalizeKey tables profile source = .ok key ↔ Supported profile ∧
      expansion tables profile source ≠ [] ∧
      (∀ c ∈ expansion tables profile source, c.isUpper = true) ∧
      key.value = String.ofList (expansion tables profile source) := by
  by_cases hProfile : Supported profile
  · rw [normalizeKey, expandSource_eq hProfile, bind_eq_ok]
    constructor
    · rintro ⟨normalized, hPushed, hNew⟩
      obtain ⟨hUpper, rfl⟩ := foldlM_push_eq_ok.mp hPushed
      have hValue := value_of_new hNew
      refine ⟨hProfile, fun hEmpty => ?_, hUpper, hValue⟩
      rw [List.nil_append, hEmpty] at hValue
      exact key.nonempty hValue
    · rintro ⟨-, hSome, hUpper, hValue⟩
      refine ⟨_, foldlM_push_eq_ok.mpr ⟨hUpper, rfl⟩, ?_⟩
      rw [List.nil_append, ← hValue]
      obtain ⟨other, hOther, hSame⟩ := new_of_isUpper key.nonempty
        (by rw [hValue, IsUpper, String.toList_ofList]; exact hUpper)
      rw [hOther, normalizedKey_ext hSame]
  · simp [normalizeKey, expandSource_unsupported hProfile, hProfile, error_bind]

theorem normalizeKey_eq_error {source : String} {e : NormalizedKeyError} :
    normalizeKey tables profile source = .error e ↔
      (¬ Supported profile ∧ e = .unsupportedProfile profile) ∨
      (Supported profile ∧ expansion tables profile source = [] ∧ e = .empty) ∨
      (Supported profile ∧ ∃ c, (expansion tables profile source).find? (fun c => !c.isUpper) = some c ∧
        e = .unsupportedCharacter profile c) := by
  by_cases hProfile : Supported profile
  · rw [normalizeKey, expandSource_eq hProfile, bind_eq_error, foldlM_push_eq_error]
    simp only [hProfile, not_true_eq_false, false_and, false_or, true_and]
    rw [or_comm]
    refine or_congr_left ?_
    constructor
    · rintro ⟨normalized, hPushed, hNew⟩
      obtain ⟨hUpper, rfl⟩ := foldlM_push_eq_ok.mp hPushed
      obtain ⟨hEmpty, rfl⟩ := (new_eq_error
        (by rw [IsUpper, String.toList_ofList]; exact hUpper)).mp hNew
      exact ⟨by simpa using hEmpty, rfl⟩
    · rintro ⟨hEmpty, rfl⟩
      exact ⟨[], by rw [hEmpty]; rfl, rfl⟩
  · simp [normalizeKey, expandSource_unsupported hProfile, hProfile, error_bind, @eq_comm _ e]

/-- A spelling is normalized exactly when its expansion consists of board letters, and the key is
that expansion; otherwise the error names the first character without a board letter. Keys are
normal under every profile, and the key of joined spellings joins their keys. -/
theorem normalization_laws (tables : CharacterTables) (profile : String) :
    (∀ source key, normalizeKey tables profile source = .ok key ↔ Supported profile ∧
      expansion tables profile source ≠ [] ∧
      (∀ c ∈ expansion tables profile source, c.isUpper = true) ∧
      key.value = String.ofList (expansion tables profile source)) ∧
    (∀ source e, normalizeKey tables profile source = .error e ↔
      (¬ Supported profile ∧ e = .unsupportedProfile profile) ∨
      (Supported profile ∧ expansion tables profile source = [] ∧ e = .empty) ∨
      (Supported profile ∧ ∃ c, (expansion tables profile source).find? (fun c => !c.isUpper) = some c ∧
        e = .unsupportedCharacter profile c)) ∧
    (∀ source key other, normalizeKey tables profile source = .ok key → Supported other →
      normalizeKey tables other key.value = .ok key) ∧
    (∀ source source' key key', normalizeKey tables profile source = .ok key →
      normalizeKey tables profile source' = .ok key' →
      ∃ joined, normalizeKey tables profile (source ++ source') = .ok joined ∧
        joined.value = key.value ++ key'.value) := by
  refine ⟨fun source key => normalizeKey_eq_ok, fun source e => normalizeKey_eq_error, ?_, ?_⟩
  · intro source key other hKey hOther
    obtain ⟨-, hSome, hUpper, hValue⟩ := normalizeKey_eq_ok.mp hKey
    refine normalizeKey_eq_ok.mpr ⟨hOther, ?_⟩
    rw [hValue, expansion_upper hUpper]
    exact ⟨hSome, hUpper, rfl⟩
  · intro source source' key key' hKey hKey'
    obtain ⟨hProfile, hSome, hUpper, hValue⟩ := normalizeKey_eq_ok.mp hKey
    obtain ⟨-, -, hUpper', hValue'⟩ := normalizeKey_eq_ok.mp hKey'
    have hBoth : ∀ c ∈ expansion tables profile (source ++ source'), c.isUpper = true := by
      rw [expansion_append]
      exact List.forall_mem_append.mpr ⟨hUpper, hUpper'⟩
    have hText : String.ofList (expansion tables profile (source ++ source')) =
        key.value ++ key'.value := by
      rw [expansion_append, String.ofList_append, hValue, hValue']
    have hJoined : String.ofList (expansion tables profile (source ++ source')) ≠ "" := by
      rw [expansion_append]
      simp [hSome]
    obtain ⟨joined, -, hSame⟩ := new_of_isUpper hJoined
      (by rw [IsUpper, String.toList_ofList]; exact hBoth)
    refine ⟨joined, normalizeKey_eq_ok.mpr ⟨hProfile, ?_, hBoth, hSame⟩, hSame.trans hText⟩
    rw [expansion_append]
    exact List.append_ne_nil_of_left_ne_nil hSome _

end

end WordArena.Lexicon
