import Mathlib.Data.List.Infix
import WordArena.Library.Bytes

/-! Basic characters in encoded texts. Their bytes occur nowhere else, so a text of basic
characters is found in the bytes of a text exactly where it is found in the text. -/
namespace Ascii

variable {pattern text : List Char}

/-- Statements about the characters of a text are decided on those characters alone, and not on
all there are. -/
instance (priority := high) decidableForallMem (p : Char → Prop) [DecidablePred p]
    (text : List Char) : Decidable (∀ c ∈ text, p c) := List.decidableBAll p text

instance (priority := high) decidableExistsMem (p : Char → Prop) [DecidablePred p]
    (text : List Char) : Decidable (∃ c ∈ text, p c) := List.decidableBEx p text

theorem isUpper_iff {c : Char} : c.isUpper = true ↔ 65 ≤ c.toNat ∧ c.toNat ≤ 90 := by
  have hUpper : c.isUpper = decide (c.val ≥ 'A'.val ∧ c.val ≤ 'Z'.val) := rfl
  rw [hUpper, decide_eq_true_eq, ge_iff_le, UInt32.le_iff_toNat_le, UInt32.le_iff_toNat_le]
  exact Iff.rfl

theorem toUpper_of_isUpper {c : Char} (h : c.isUpper = true) : c.toUpper = c := by
  have hLower : ¬ ('a'.val ≤ c.val ∧ c.val ≤ 'z'.val) := by
    rintro ⟨hLow, -⟩
    have hHigh := (isUpper_iff.mp h).2
    exact absurd ((UInt32.le_iff_toNat_le.mp hLow).trans hHigh) (by decide)
  exact dif_neg hLower

theorem toLower_of_lt {c : Char} (h : 90 < c.toNat) : c.toLower = c := by
  have hUpper : ¬ (c.val ≥ 'A'.val ∧ c.val ≤ 'Z'.val) := by
    rintro ⟨-, hHigh⟩
    exact absurd (UInt32.le_iff_toNat_le.mp hHigh) (Nat.not_le.mpr h)
  exact dif_neg hUpper

def encode (text : List Char) : List UInt8 := text.flatMap String.utf8EncodeChar

/-- Texts of one-byte characters. -/
def Basic (text : List Char) : Prop := ∀ c ∈ text, c.toNat < 128

theorem utf8_eq_encode (text : String) : Bytes.utf8 text = encode text.toList :=
  Bytes.utf8_toList text

theorem encode_cons (c : Char) (text : List Char) :
    encode (c :: text) = String.utf8EncodeChar c ++ encode text := List.flatMap_cons

theorem encodeChar_basic {c : Char} (h : c.toNat < 128) :
    String.utf8EncodeChar c = [UInt8.ofNat c.toNat] := by
  have hVal : c.val.toNat = c.toNat := rfl
  rw [String.utf8EncodeChar, if_pos (by omega), hVal]

/-- The other characters have no byte of a basic one. -/
theorem high_of_mem_encodeChar {c : Char} {b : UInt8} (h : 128 ≤ c.toNat)
    (hMem : b ∈ String.utf8EncodeChar c) : 128 ≤ b.toNat := by
  by_contra hBasic
  have hSame := Bytes.toNat_of_mem_encode hMem (by omega)
  omega

theorem basic_of_mem_encode {b : UInt8} (h : Basic pattern) (hMem : b ∈ encode pattern) :
    b.toNat < 128 := by
  obtain ⟨c, hChar, hByte⟩ := List.mem_flatMap.mp hMem
  rw [encodeChar_basic (h c hChar), List.mem_singleton] at hByte
  subst hByte
  have hBound := h c hChar
  rw [UInt8.toNat_ofNat']
  omega

/-- What occurs behind elements that it does not contain. -/
theorem infix_of_append {α : Type} {wanted before after : List α} (hWanted : wanted ≠ [])
    (hOther : ∀ a ∈ before, a ∉ wanted) (h : wanted <:+: before ++ after) : wanted <:+: after := by
  induction before with
  | nil => exact h
  | cons a before ih =>
      rw [List.cons_append, List.infix_cons_iff] at h
      rcases h with hHere | hLater
      · cases wanted with
        | nil => exact absurd rfl hWanted
        | cons w wanted =>
            have hSame := (List.cons_prefix_cons.mp hHere).1
            exact absurd (hSame ▸ List.mem_cons_self) (hOther a List.mem_cons_self)
      · exact ih (fun b hb => hOther b (List.mem_cons_of_mem a hb)) hLater

theorem prefix_of_encoded (hBasic : Basic pattern) (h : encode pattern <+: encode text) :
    pattern <+: text := by
  induction pattern generalizing text with
  | nil => exact List.nil_prefix
  | cons p pattern ih =>
      have hFirst : p.toNat < 128 := hBasic p List.mem_cons_self
      have hRest : Basic pattern := fun c hc => hBasic c (List.mem_cons_of_mem p hc)
      rw [encode_cons, encodeChar_basic hFirst, List.singleton_append] at h
      cases text with
      | nil => exact absurd (List.prefix_nil.mp h) nofun
      | cons c text =>
          rw [encode_cons] at h
          by_cases hLow : c.toNat < 128
          · rw [encodeChar_basic hLow, List.singleton_append, List.cons_prefix_cons] at h
            have hCodes := congrArg UInt8.toNat h.1
            rw [UInt8.toNat_ofNat', UInt8.toNat_ofNat'] at hCodes
            have hSame : p = c := Char.toNat_inj.mp (by omega)
            rw [hSame]
            exact List.cons_prefix_cons.mpr ⟨rfl, ih hRest h.2⟩
          · cases hBytes : String.utf8EncodeChar c with
            | nil => exact absurd hBytes (by simp)
            | cons b bytes =>
                rw [hBytes, List.cons_append, List.cons_prefix_cons] at h
                have hHigh : 128 ≤ b.toNat :=
                  high_of_mem_encodeChar (by omega) (hBytes ▸ List.mem_cons_self)
                have hLowByte : b.toNat < 128 := by
                  rw [← h.1, UInt8.toNat_ofNat']
                  omega
                omega

/-- A basic text occurs in a text as its bytes occur in those of the text. -/
theorem encode_infix_iff (hBasic : Basic pattern) (hPattern : pattern ≠ []) :
    encode pattern <:+: encode text ↔ pattern <:+: text := by
  constructor
  · intro h
    induction text with
    | nil =>
        cases pattern with
        | nil => exact absurd rfl hPattern
        | cons p pattern =>
            rw [encode_cons, encodeChar_basic (hBasic p List.mem_cons_self)] at h
            exact absurd (List.infix_nil.mp h) nofun
    | cons c text ih =>
        by_cases hLow : c.toNat < 128
        · have hCons : encode (c :: text) = UInt8.ofNat c.toNat :: encode text := by
            rw [encode_cons, encodeChar_basic hLow, List.singleton_append]
          rw [hCons, List.infix_cons_iff, ← hCons] at h
          rcases h with hHere | hLater
          · exact (prefix_of_encoded hBasic hHere).isInfix
          · exact List.infix_cons (ih hLater)
        · rw [encode_cons] at h
          apply List.infix_cons
          apply ih
          apply infix_of_append _ _ h
          · intro hNil
            cases pattern with
            | nil => exact hPattern rfl
            | cons p pattern => simp [encode_cons] at hNil
          · intro b hHigh hMem
            have hLowByte := basic_of_mem_encode hBasic hMem
            have hHighByte := high_of_mem_encodeChar (by omega) hHigh
            omega
  · intro ⟨before, after, hSplit⟩
    refine ⟨encode before, encode after, ?_⟩
    rw [← hSplit, encode, encode, encode, encode, List.flatMap_append, List.flatMap_append]

/-- Renaming basic characters in the bytes of a text. -/
theorem encode_map {f : Char → Char} {g : UInt8 → UInt8}
    (hBasic : ∀ c : Char, c.toNat < 128 → (f c).toNat < 128 ∧
      UInt8.ofNat (f c).toNat = g (UInt8.ofNat c.toNat))
    (hOther : ∀ c : Char, 128 ≤ c.toNat → f c = c) (hHigh : ∀ b : UInt8, 128 ≤ b.toNat → g b = b)
    (text : List Char) : encode (text.map f) = (encode text).map g := by
  induction text with
  | nil => rfl
  | cons c text ih =>
      rw [List.map_cons, encode_cons, encode_cons, List.map_append, ih]
      congr 1
      by_cases hLow : c.toNat < 128
      · rw [encodeChar_basic hLow, encodeChar_basic (hBasic c hLow).1, (hBasic c hLow).2]
        rfl
      · rw [hOther c (by omega)]
        have hSame : ∀ b ∈ String.utf8EncodeChar c, g b = b := fun b hMem =>
          hHigh b (high_of_mem_encodeChar (by omega) hMem)
        exact ((List.map_congr_left hSame).trans (List.map_id' _)).symm

theorem encode_nil : encode [] = [] := rfl

theorem encode_append (first second : List Char) :
    encode (first ++ second) = encode first ++ encode second := List.flatMap_append

theorem length_encode_basic (h : Basic text) : (encode text).length = text.length := by
  induction text with
  | nil => rfl
  | cons c text ih =>
      rw [encode_cons, encodeChar_basic (h c List.mem_cons_self), List.singleton_append,
        List.length_cons, List.length_cons, ih fun d hMem => h d (List.mem_cons_of_mem c hMem)]

section Slices

end Slices

end Ascii
