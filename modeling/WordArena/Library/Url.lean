import Mathlib.Data.List.Infix
import Mathlib.Tactic.SplitIfs

/-! Paths of web addresses: percent encoding, its lenient decoding, and how the path of a
relative reference is read. -/
namespace Url

section Percent

def hexValue (c : Char) : Option Nat :=
  if 48 ≤ c.toNat ∧ c.toNat ≤ 57 then some (c.toNat - 48)
  else if 65 ≤ c.toNat ∧ c.toNat ≤ 70 then some (c.toNat - 55)
  else if 97 ≤ c.toNat ∧ c.toNat ≤ 102 then some (c.toNat - 87)
  else none

def hexUpper (n : Nat) : Char := "0123456789ABCDEF".toList.getD n '0'

def percentByte (b : UInt8) : List Char := ['%', hexUpper (b.toNat / 16), hexUpper (b.toNat % 16)]

/-- What a path may not show as it is. -/
def pathPercentEncodeSet (c : Char) : Bool :=
  c.toNat ≤ 0x20 || 0x7f ≤ c.toNat ||
    ['"', '#', '<', '>', '?', '^', '\x60', '\x7b', '\x7d'].contains c

def encodeChar (c : Char) : List Char :=
  if pathPercentEncodeSet c then (String.utf8EncodeChar c).flatMap percentByte else [c]

def encode (text : List Char) : List Char := text.flatMap encodeChar

/-- Escapes are replaced by their bytes; anything else stays. -/
def decode : List Char → List UInt8
  | '%' :: a :: b :: rest =>
      match hexValue a, hexValue b with
      | some high, some low => UInt8.ofNat (high * 16 + low) :: decode rest
      | _, _ => String.utf8EncodeChar '%' ++ decode (a :: b :: rest)
  | c :: rest => String.utf8EncodeChar c ++ decode rest
  | [] => []

/-- The text has an escape. -/
def escaped : List Char → Bool
  | '%' :: a :: b :: rest =>
      ((hexValue a).isSome && (hexValue b).isSome) || escaped (a :: b :: rest)
  | _ :: rest => escaped rest
  | [] => false

/-- Two digits, which would make an escape behind a percent sign. -/
def digits : List Char → Bool
  | a :: b :: _ => (hexValue a).isSome && (hexValue b).isSome
  | _ => false

variable {c : Char} {text rest : List Char}

theorem decode_percent (h : digits rest = false) :
    decode ('%' :: rest) = String.utf8EncodeChar '%' ++ decode rest := by
  match rest with
  | [] => rfl
  | [_] => rfl
  | a :: b :: rest =>
      rw [digits] at h
      rw [decode]
      cases hHigh : hexValue a with
      | none => rfl
      | some high =>
          cases hLow : hexValue b with
          | none => rfl
          | some low => simp [hHigh, hLow] at h

theorem decode_cons (h : c ≠ '%') : decode (c :: rest) = String.utf8EncodeChar c ++ decode rest := by
  rw [decode]
  intro a b rest' hPercent
  exact absurd hPercent h

theorem hexValue_hexUpper : ∀ n < 16, hexValue (hexUpper n) = some n := by decide

theorem decode_percentByte (b : UInt8) : decode (percentByte b ++ rest) = b :: decode rest := by
  have hByte : b.toNat < 256 := b.toNat_lt
  have hHigh := hexValue_hexUpper (b.toNat / 16) (by omega)
  have hLow := hexValue_hexUpper (b.toNat % 16) (by omega)
  have hSame : UInt8.ofNat (b.toNat / 16 * 16 + b.toNat % 16) = b := by
    rw [Nat.div_add_mod', UInt8.ofNat_toNat]
  simp only [percentByte, List.cons_append, List.nil_append, decode, hHigh, hLow, hSame]

theorem decode_percentBytes (bytes : List UInt8) :
    decode (bytes.flatMap percentByte ++ rest) = bytes ++ decode rest := by
  induction bytes with
  | nil => rfl
  | cons b bytes ih => rw [List.flatMap_cons, List.append_assoc, decode_percentByte, ih,
      List.cons_append]

theorem encodeChar_of_hex (h : (hexValue c).isSome) : encodeChar c = [c] := by
  have hSet : pathPercentEncodeSet c = false := by
    have hRange : 48 ≤ c.toNat ∧ c.toNat ≤ 57 ∨ 65 ≤ c.toNat ∧ c.toNat ≤ 70 ∨
        97 ≤ c.toNat ∧ c.toNat ≤ 102 := by
      rw [hexValue] at h
      split_ifs at h with hDigit hUpper hLower
      · exact .inl hDigit
      · exact .inr (.inl hUpper)
      · exact .inr (.inr hLower)
      · cases h
    by_contra hEncoded
    rw [Bool.not_eq_false, pathPercentEncodeSet] at hEncoded
    simp only [Bool.or_eq_true, decide_eq_true_eq, List.contains_iff_mem, List.mem_cons,
      List.not_mem_nil, or_false] at hEncoded
    rcases hEncoded with (hLow | hHigh) | rfl | rfl | rfl | rfl | rfl | rfl | rfl | rfl | rfl
    · omega
    · omega
    all_goals exact absurd hRange (by decide)
  rw [encodeChar, hSet]
  rfl

/-- A character is shown as it is, or an escape takes its place. -/
theorem encodeChar_cases (c : Char) :
    encodeChar c = [c] ∨ ∃ more, encodeChar c = '%' :: more := by
  rw [encodeChar]
  split_ifs
  · right
    obtain ⟨b, bytes, hBytes⟩ := List.exists_cons_of_ne_nil (String.utf8EncodeChar_ne_nil (c := c))
    rw [hBytes]
    exact ⟨_, rfl⟩
  · exact .inl rfl

theorem hexValue_percent : hexValue '%' = none := by decide

/-- Encoding makes no digits. -/
theorem digits_encode (text : List Char) : digits (encode text) = digits text := by
  have hSkip : ∀ (c : Char) (rest : List Char), hexValue c = none → digits (c :: rest) = false := by
    intro c rest hNone
    cases rest with
    | nil => rfl
    | cons b rest => simp [digits, hNone]
  have hFirst : ∀ (c : Char) (rest : List Char), hexValue c = none →
      digits (encodeChar c ++ rest) = false := by
    intro c rest hNone
    rcases encodeChar_cases c with hSame | ⟨more, hMore⟩
    · rw [hSame]
      exact hSkip c rest hNone
    · rw [hMore]
      exact hSkip '%' (more ++ rest) hexValue_percent
  match text with
  | [] => rfl
  | [a] =>
      rcases encodeChar_cases a with hSame | ⟨more, hMore⟩
      · simp [encode, hSame]
      · simp only [encode, List.flatMap_singleton, hMore]
        exact hSkip '%' more hexValue_percent
  | a :: b :: rest =>
      cases hHigh : hexValue a with
      | none =>
          rw [hSkip a (b :: rest) hHigh]
          exact hFirst a (encode (b :: rest)) hHigh
      | some high =>
          have hA : encodeChar a = [a] := encodeChar_of_hex (by simp [hHigh])
          cases hLow : hexValue b with
          | none =>
              rcases encodeChar_cases b with hSame | ⟨more, hMore⟩
              · simp [encode, hA, hSame, digits]
              · simp [encode, hA, hMore, digits, hLow, hexValue_percent]
          | some low =>
              have hB : encodeChar b = [b] := encodeChar_of_hex (by simp [hLow])
              simp [encode, hA, hB, digits]

theorem encode_cons (c : Char) (rest : List Char) :
    encode (c :: rest) = encodeChar c ++ encode rest := List.flatMap_cons

/-- What was encoded is read back, and escapes that were there before are read as well. -/
theorem decode_encode (text : List Char) : decode (encode text) = decode text := by
  have hPercent : encodeChar '%' = ['%'] := by decide
  fun_induction decode text with
  | case1 a b rest high low hLow hHigh ih =>
      have hA : encodeChar a = [a] := encodeChar_of_hex (by simp [hHigh])
      have hB : encodeChar b = [b] := encodeChar_of_hex (by simp [hLow])
      rw [encode_cons, encode_cons, encode_cons, hPercent, hA, hB]
      simp only [List.singleton_append, decode, hHigh, hLow, ih]
  | case2 a b rest hNot ih =>
      rw [encode_cons, hPercent, List.singleton_append, decode_percent, ih]
      rw [digits_encode, digits]
      cases hHigh : hexValue a with
      | none => rfl
      | some high =>
          cases hLow : hexValue b with
          | none => rfl
          | some low => exact absurd hLow (hNot high low hHigh)
  | case3 c rest hNot ih =>
      rw [encode_cons]
      by_cases hSign : c = '%'
      · have hShort : digits rest = false := by
          match rest with
          | [] => rfl
          | [_] => rfl
          | a :: b :: more => exact absurd rfl (hNot a b more hSign)
        rw [hSign, hPercent, List.singleton_append, decode_percent, ih]
        rwa [digits_encode]
      · rw [encodeChar]
        split_ifs
        · rw [decode_percentBytes, ih]
        · rw [List.singleton_append, decode_cons hSign, ih]
  | case4 => rfl

theorem length_encodeChar_ascii (h : c.toNat < 128) : (String.utf8EncodeChar c).length = 1 := by
  rw [String.length_utf8EncodeChar, Char.utf8Size_eq_one_iff, UInt32.le_iff_toNat_le]
  exact Nat.le_of_lt_succ h

/-- Without escapes a text is decoded to its own bytes. -/
theorem decode_unescaped (h : escaped text = false) :
    decode text = text.flatMap String.utf8EncodeChar := by
  fun_induction decode text with
  | case1 a b rest high low hLow hHigh => simp [escaped, hLow, hHigh] at h
  | case2 a b rest hNot ih =>
      rw [escaped, Bool.or_eq_false_iff] at h
      rw [ih h.2]
      rfl
  | case3 c rest hNot ih =>
      have hRest : escaped rest = false := by
        rw [escaped] at h
        · exact h
        · exact hNot
      rw [ih hRest, List.flatMap_cons]
  | case4 => rfl

theorem escaped_of_not_mem (h : '%' ∉ text) : escaped text = false := by
  fun_induction escaped text with
  | case1 a b rest => exact absurd List.mem_cons_self h
  | case2 c rest hNot ih => exact ih fun hMem => h (List.mem_cons_of_mem _ hMem)
  | case3 => rfl

/-- Every escape makes a text shorter. -/
theorem length_decode (hAscii : ∀ c ∈ text, c.toNat < 128) :
    (decode text).length ≤ text.length ∧
      (escaped text = true → (decode text).length < text.length) := by
  fun_induction decode text with
  | case1 a b rest high low hLow hHigh ih =>
      have hRest : ∀ c ∈ rest, c.toNat < 128 := fun c hMem => hAscii c (by simp [hMem])
      have hLength := (ih hRest).1
      simp only [List.length_cons]
      omega
  | case2 a b rest hNot ih =>
      have hRest : ∀ c ∈ a :: b :: rest, c.toNat < 128 := fun c hMem =>
        hAscii c (List.mem_cons_of_mem _ hMem)
      obtain ⟨hLength, hLess⟩ := ih hRest
      have hSign : (String.utf8EncodeChar '%').length = 1 := length_encodeChar_ascii (by decide)
      have hNoDigits : ((hexValue a).isSome && (hexValue b).isSome) = false := by
        cases hHigh : hexValue a with
        | none => rfl
        | some high =>
            cases hLow : hexValue b with
            | none => rfl
            | some low => exact absurd hLow (hNot high low hHigh)
      rw [escaped, hNoDigits, Bool.false_or, List.length_append, hSign, List.length_cons]
      exact ⟨by omega, fun h => by have := hLess h; omega⟩
  | case3 c rest hNot ih =>
      have hRest : ∀ c ∈ rest, c.toNat < 128 := fun c hMem =>
        hAscii c (List.mem_cons_of_mem _ hMem)
      obtain ⟨hLength, hLess⟩ := ih hRest
      have hHere := length_encodeChar_ascii (hAscii c List.mem_cons_self)
      have hSame : escaped (c :: rest) = escaped rest := by
        rw [escaped]
        exact hNot
      rw [hSame, List.length_append, hHere, List.length_cons]
      exact ⟨by omega, fun h => by have := hLess h; omega⟩
  | case4 => exact ⟨Nat.le_refl _, nofun⟩

end Percent

section Paths

variable {path : List (List Char)} {buffer text rest segment : List Char}

/-- The spellings of a dot. -/
def dots : List (List Char) := [['.'], ['%', '2', 'e'], ['%', '2', 'E']]

def singleDot (segment : List Char) : Bool := dots.contains segment

def doubleDot (segment : List Char) : Bool :=
  dots.any fun first => dots.any fun second => segment == first ++ second

/-- What ends a segment of the path of a web address. -/
def ends (c : Char) : Bool := c == '/' || c == '\\' || c == '?' || c == '#'

/-- The path after a segment, which a slash may follow. -/
def close (path : List (List Char)) (segment : List Char) (slash : Bool) : List (List Char) :=
  if doubleDot segment then (if slash then path.dropLast else path.dropLast ++ [[]])
  else if singleDot segment then (if slash then path else path ++ [[]])
  else path ++ [segment]

/-- The path state: a path so far, the segment that is read, and what is still to be read. A
query or a fragment ends the path. -/
def pathState (path : List (List Char)) (buffer : List Char) : List Char → List (List Char)
  | [] => close path buffer false
  | c :: rest =>
      if c = '/' ∨ c = '\\' then pathState (close path buffer true) [] rest
      else if c = '?' ∨ c = '#' then close path buffer false
      else pathState path (buffer ++ encodeChar c) rest

/-- The path of a relative reference that begins with neither a scheme, a slash, a query nor a
fragment. It takes the place of the last segment of the base. -/
def join (base : List (List Char)) (reference : List Char) : List (List Char) :=
  pathState base.dropLast [] reference

def render (path : List (List Char)) : List Char := ['/'].intercalate ([] :: path)

theorem decode_singleDot (h : singleDot segment = true) : decode segment = [46] := by
  have hAll : ∀ s ∈ dots, decode s = [46] := by decide
  exact hAll segment (List.contains_iff_mem.mp h)

theorem decode_doubleDot (h : doubleDot segment = true) : decode segment = [46, 46] := by
  have hAll : ∀ a ∈ dots, ∀ b ∈ dots, decode (a ++ b) = [46, 46] := by decide
  simp only [doubleDot, List.any_eq_true, beq_iff_eq] at h
  obtain ⟨a, ha, b, hb, rfl⟩ := h
  exact hAll a ha b hb

theorem mem_close {slash : Bool} (h : segment ∈ close path buffer slash) :
    segment ∈ path ∨ segment = [] ∨ segment = buffer := by
  rw [close] at h
  split_ifs at h
  · exact .inl (List.mem_of_mem_dropLast h)
  · rcases List.mem_append.mp h with hOld | hNew
    · exact .inl (List.mem_of_mem_dropLast hOld)
    · exact .inr (.inl (List.mem_singleton.mp hNew))
  · exact .inl h
  · rcases List.mem_append.mp h with hOld | hNew
    · exact .inl hOld
    · exact .inr (.inl (List.mem_singleton.mp hNew))
  · rcases List.mem_append.mp h with hOld | hNew
    · exact .inl hOld
    · exact .inr (.inr (List.mem_singleton.mp hNew))

/-- A segment that is empty or encodes a piece of the reference. -/
def Piece (text segment : List Char) : Prop :=
  segment = [] ∨ ∃ p, p <:+: text ∧ (∀ c ∈ p, ends c = false) ∧ segment = encode p

theorem Piece.mono (h : Piece text segment) (hInfix : text <:+: rest) : Piece rest segment := by
  rcases h with hEmpty | ⟨p, hp, hPlain, hSame⟩
  · exact .inl hEmpty
  · exact .inr ⟨p, hp.trans hInfix, hPlain, hSame⟩

theorem piece_of_close {piece : List Char} {slash : Bool} (hPiece : ∀ c ∈ piece, ends c = false)
    (h : segment ∈ close path (encode piece) slash) : segment ∈ path ∨ Piece piece segment := by
  rcases mem_close h with hOld | hEmpty | hNew
  · exact .inl hOld
  · exact .inr (.inl hEmpty)
  · exact .inr (.inr ⟨piece, List.infix_refl _, hPiece, hNew⟩)

/-- A segment of a path was there before or is a piece of the reference. -/
theorem piece_of_pathState {piece : List Char} (hPiece : ∀ c ∈ piece, ends c = false)
    (h : segment ∈ pathState path (encode piece) rest) :
    segment ∈ path ∨ Piece (piece ++ rest) segment := by
  induction rest generalizing path piece with
  | nil => exact (piece_of_close hPiece h).imp id fun hNew => hNew.mono (by simp)
  | cons c rest ih =>
      have hFront : piece <:+: piece ++ c :: rest := (List.prefix_append _ _).isInfix
      rw [pathState] at h
      split_ifs at h with hSlash hEnd
      · have hNothing : ∀ d ∈ ([] : List Char), ends d = false := nofun
        rcases ih hNothing h with hOld | hNew
        · exact (piece_of_close hPiece hOld).imp id fun hNew => hNew.mono hFront
        · have hBack : rest <:+: piece ++ c :: rest :=
            ((List.suffix_cons c rest).trans (List.suffix_append _ _)).isInfix
          exact .inr (hNew.mono hBack)
      · exact (piece_of_close hPiece h).imp id fun hNew => hNew.mono hFront
      · have hEncode : encode piece ++ encodeChar c = encode (piece ++ [c]) := by simp [encode]
        rw [hEncode] at h
        have hPlain : ∀ d ∈ piece ++ [c], ends d = false := by
          intro d hMem
          rcases List.mem_append.mp hMem with hOld | hNew
          · exact hPiece d hOld
          · rw [List.mem_singleton.mp hNew]
            simp only [not_or] at hSlash hEnd
            simp [ends, hSlash, hEnd]
        have hNext := ih hPlain h
        rwa [List.append_assoc, List.singleton_append] at hNext

theorem pathState_chunk {chunk : List Char} (hChunk : ∀ c ∈ chunk, ends c = false) :
    pathState path buffer (chunk ++ rest) = pathState path (buffer ++ encode chunk) rest := by
  induction chunk generalizing buffer with
  | nil => simp [encode]
  | cons c chunk ih =>
      rw [List.forall_mem_cons] at hChunk
      have hPlain := hChunk.1
      simp only [ends, Bool.or_eq_false_iff, beq_eq_false_iff_ne] at hPlain
      rw [List.cons_append, pathState, if_neg (by simp [hPlain]), if_neg (by simp [hPlain]),
        ih hChunk.2, encode_cons, List.append_assoc]

/-- A segment with a slash behind it. -/
theorem pathState_segment {chunk : List Char} (hChunk : ∀ c ∈ chunk, ends c = false)
    (hSingle : singleDot (encode chunk) = false) (hDouble : doubleDot (encode chunk) = false) :
    pathState path [] (chunk ++ '/' :: rest) = pathState (path ++ [encode chunk]) [] rest := by
  rw [pathState_chunk hChunk, pathState, if_pos (.inl rfl), List.nil_append, close, hSingle, hDouble]
  rfl

theorem not_slash_encode (h : '/' ∉ text) : '/' ∉ encode text := by
  have hHex : ∀ n < 16, hexUpper n ≠ '/' := by decide
  intro hMem
  obtain ⟨c, hText, hChar⟩ := List.mem_flatMap.mp hMem
  rw [encodeChar] at hChar
  split_ifs at hChar
  · obtain ⟨b, -, hByte⟩ := List.mem_flatMap.mp hChar
    have hBound : b.toNat < 256 := b.toNat_lt
    simp only [percentByte, List.mem_cons, List.not_mem_nil, or_false] at hByte
    rcases hByte with hSign | hHigh | hLow
    · exact absurd hSign (by decide)
    · exact hHex _ (by omega) hHigh.symm
    · exact hHex _ (by omega) hLow.symm
  · rw [List.mem_singleton.mp hChar] at h
    exact h hText

theorem Piece.not_slash (h : Piece text segment) : '/' ∉ segment := by
  rcases h with rfl | ⟨p, -, hPlain, rfl⟩
  · exact List.not_mem_nil
  · apply not_slash_encode
    intro hMem
    exact absurd (hPlain '/' hMem) (by decide)

end Paths

end Url
