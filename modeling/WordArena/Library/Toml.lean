import Mathlib.Tactic.SplitIfs

/-! Basic strings of TOML: what the text between two quotes decodes to. A text is its own
decoding exactly when it needs no escape. -/
namespace Toml

/-- The characters that stand for themselves between quotes. -/
def plain (c : Char) : Bool :=
  c == '\t' || (0x20 ≤ c.toNat && c != '"' && c != '\\' && c.toNat != 0x7f)

/-- The escapes of one character. -/
def shortEscape : Char → Option Char
  | 'b' => some '\x08'
  | 't' => some '\t'
  | 'n' => some '\n'
  | 'f' => some '\x0c'
  | 'r' => some '\r'
  | '"' => some '"'
  | '\\' => some '\\'
  | _ => none

def hexDigit (c : Char) : Option Nat :=
  if '0' ≤ c ∧ c ≤ '9' then some (c.toNat - 48)
  else if 'a' ≤ c ∧ c ≤ 'f' then some (c.toNat - 87)
  else if 'A' ≤ c ∧ c ≤ 'F' then some (c.toNat - 55)
  else none

/-- The Unicode scalar value that some hexadecimal digits denote. -/
def scalar (digits : List Char) : Option Char :=
  (digits.mapM hexDigit).bind fun values =>
    let n := values.foldl (fun n digit => 16 * n + digit) 0
    if n.isValidChar then some (Char.ofNat n) else none

/-- The character of an escape, without its backslash, and how many characters it takes. -/
def escape : List Char → Option (Char × Nat)
  | [] => none
  | c :: rest =>
      if c = 'u' then
        if rest.length < 4 then none else (scalar (rest.take 4)).map fun d => (d, 5)
      else if c = 'U' then
        if rest.length < 8 then none else (scalar (rest.take 8)).map fun d => (d, 9)
      else (shortEscape c).map fun d => (d, 1)

/-- What a text decodes to. The first argument counts the characters of an escape that were
read and are still to be passed over. -/
def decode : Nat → List Char → Option (List Char)
  | _, [] => some []
  | skip + 1, _ :: rest => decode skip rest
  | 0, c :: rest =>
      if c = '\\' then
        match escape rest with
        | none => none
        | some (d, width) => (decode width rest).map (d :: ·)
      else if plain c then (decode 0 rest).map (c :: ·)
      else none

variable {text decoded : List Char}

theorem escape_width {d : Char} {width : Nat} (h : escape text = some (d, width)) :
    0 < width ∧ width ≤ text.length := by
  cases text with
  | nil => cases h
  | cons c rest =>
      rw [escape] at h
      split_ifs at h with hShort hFour hLong hEight
      · obtain ⟨e, -, hSame⟩ := Option.map_eq_some_iff.mp h
        cases hSame
        simp only [List.length_cons]
        omega
      · obtain ⟨e, -, hSame⟩ := Option.map_eq_some_iff.mp h
        cases hSame
        simp only [List.length_cons]
        omega
      · obtain ⟨e, -, hSame⟩ := Option.map_eq_some_iff.mp h
        cases hSame
        simp only [List.length_cons]
        omega

/-- Decoding never makes a text longer. -/
theorem length_decode {skip : Nat} (hSkip : skip ≤ text.length)
    (h : decode skip text = some decoded) : decoded.length + skip ≤ text.length := by
  induction text generalizing skip decoded with
  | nil =>
      cases h
      simpa using hSkip
  | cons c rest ih =>
      rw [List.length_cons] at hSkip ⊢
      cases skip with
      | succ skip =>
          have hRest := ih (Nat.le_of_succ_le_succ hSkip) h
          omega
      | zero =>
          rw [decode] at h
          split_ifs at h with hSlash hPlain
          · cases hEscape : escape rest with
            | none =>
                rw [hEscape] at h
                cases h
            | some found =>
                rw [hEscape] at h
                obtain ⟨tail, hTail, rfl⟩ := Option.map_eq_some_iff.mp h
                have hRest := ih (escape_width hEscape).2 hTail
                have hWidth := (escape_width hEscape).1
                rw [List.length_cons]
                omega
          · obtain ⟨tail, hTail, rfl⟩ := Option.map_eq_some_iff.mp h
            have hRest := ih (Nat.zero_le _) hTail
            rw [List.length_cons]
            omega

/-- A text is its own decoding when all of its characters stand for themselves, and only
then: an escape is longer than what it denotes. -/
theorem decode_eq_self_iff : decode 0 text = some text ↔ ∀ c ∈ text, plain c = true := by
  induction text with
  | nil => simp [decode]
  | cons c rest ih =>
      rw [decode]
      split_ifs with hSlash hPlain
      · constructor
        · intro h
          cases hEscape : escape rest with
          | none =>
              rw [hEscape] at h
              cases h
          | some found =>
              rw [hEscape] at h
              obtain ⟨tail, hTail, hSame⟩ := Option.map_eq_some_iff.mp h
              obtain ⟨hWidth, hFits⟩ := escape_width hEscape
              have hLength := length_decode hFits hTail
              have hTailSame : tail = rest := (List.cons.inj hSame).2
              rw [hTailSame] at hLength
              omega
        · intro h
          have hBare := h c List.mem_cons_self
          rw [hSlash] at hBare
          exact absurd hBare (by decide)
      · simp [hPlain, ih]
      · simp [hPlain]

end Toml
