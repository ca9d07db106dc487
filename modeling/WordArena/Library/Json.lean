import WordArena.Library.Bytes

/-! Compact JSON texts. Values are rendered bottom up, with no space between
tokens and fields in the order given. -/
namespace Json

/-- One character inside quotes. Only the quote, the backslash and control
characters are escaped. -/
def escape (c : Char) : List Char :=
  if c = '"' then ['\\', '"']
  else if c = '\\' then ['\\', '\\']
  else if c = '\x08' then ['\\', 'b']
  else if c = '\t' then ['\\', 't']
  else if c = '\n' then ['\\', 'n']
  else if c = '\x0c' then ['\\', 'f']
  else if c = '\r' then ['\\', 'r']
  else if c.toNat < 0x20 then
    ['\\', 'u', '0', '0', Bytes.hexDigit (c.toNat / 16), Bytes.hexDigit (c.toNat % 16)]
  else [c]

def text (value : String) : String :=
  "\"" ++ String.ofList (value.toList.flatMap escape) ++ "\""

def number (value : Nat) : String := toString value

def boolean (value : Bool) : String := if value then "true" else "false"

def array (values : List String) : String := "[" ++ ",".intercalate values ++ "]"

def object (fields : List (String × String)) : String :=
  "\x7b" ++ ",".intercalate (fields.map fun field => text field.1 ++ ":" ++ field.2) ++ "\x7d"

/-- The value of a hexadecimal digit. -/
def hexValue (digit : Char) : Nat := "0123456789abcdef".toList.idxOf digit

/-- The character at the front of an escaped text, and what follows it. -/
def unescape : List Char → Option (Char × List Char)
  | '\\' :: '"' :: rest => some ('"', rest)
  | '\\' :: '\\' :: rest => some ('\\', rest)
  | '\\' :: 'b' :: rest => some ('\x08', rest)
  | '\\' :: 't' :: rest => some ('\t', rest)
  | '\\' :: 'n' :: rest => some ('\n', rest)
  | '\\' :: 'f' :: rest => some ('\x0c', rest)
  | '\\' :: 'r' :: rest => some ('\r', rest)
  | '\\' :: 'u' :: '0' :: '0' :: high :: low :: rest =>
      some (Char.ofNat (16 * hexValue high + hexValue low), rest)
  | c :: rest => some (c, rest)
  | [] => none

theorem unescape_escape (c : Char) (rest : List Char) :
    unescape (escape c ++ rest) = some (c, rest) := by
  have hHex : ∀ n < 32, 16 * hexValue (Bytes.hexDigit (n / 16)) +
      hexValue (Bytes.hexDigit (n % 16)) = n := by decide
  unfold escape
  split_ifs with h1 h2 h3 h4 h5 h6 h7 h8
  · subst h1; rfl
  · subst h2; rfl
  · subst h3; rfl
  · subst h4; rfl
  · subst h5; rfl
  · subst h6; rfl
  · subst h7; rfl
  · simp only [List.cons_append, List.nil_append, unescape, hHex _ h8, Char.ofNat_toNat]
  · simp only [List.cons_append, List.nil_append]
    unfold unescape
    split <;> simp_all

/-- No escaped character starts with a quote. -/
theorem escape_head (c : Char) : ∃ first rest, escape c = first :: rest ∧ first ≠ '"' := by
  unfold escape
  split_ifs with h1
  all_goals refine ⟨_, _, rfl, ?_⟩
  all_goals first | decide | exact h1

/-- A quoted text ends at its closing quote. -/
theorem flatMap_escape_inj {a b rest others : List Char}
    (h : a.flatMap escape ++ '"' :: rest = b.flatMap escape ++ '"' :: others) :
    a = b ∧ rest = others := by
  induction a generalizing b with
  | nil =>
      cases b with
      | nil => exact ⟨rfl, (List.cons.inj h).2⟩
      | cons d b =>
          obtain ⟨first, tail, hEscape, hQuote⟩ := escape_head d
          rw [List.flatMap_cons, hEscape] at h
          exact absurd (List.cons.inj h).1.symm hQuote
  | cons c a ih =>
      cases b with
      | nil =>
          obtain ⟨first, tail, hEscape, hQuote⟩ := escape_head c
          rw [List.flatMap_cons, hEscape] at h
          exact absurd (List.cons.inj h).1 hQuote
      | cons d b =>
          have hFront := congrArg unescape h
          rw [List.flatMap_cons, List.flatMap_cons, List.append_assoc, List.append_assoc,
            unescape_escape, unescape_escape, Option.some.injEq, Prod.mk.injEq] at hFront
          obtain ⟨rfl, hRest⟩ := hFront
          obtain ⟨rfl, hOthers⟩ := ih hRest
          exact ⟨rfl, hOthers⟩

theorem text_append_inj {a b rest others : String} (h : text a ++ rest = text b ++ others) :
    a = b ∧ rest = others := by
  have hChars := congrArg String.toList h
  simp only [text, String.toList_append, String.toList_ofList, List.append_assoc] at hChars
  obtain ⟨hSame, hRest⟩ := flatMap_escape_inj (List.cons.inj hChars).2
  exact ⟨String.toList_inj.mp hSame, String.toList_inj.mp hRest⟩

end Json
