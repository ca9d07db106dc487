import Mathlib.Tactic.IntervalCases
import WordArena.Library.Ascii
import WordArena.Library.Decimal

/-! The dates of curation files. -/
namespace WordArena.Builder

section Dates

/-- The days of the months of a year of the Gregorian calendar. -/
def monthLengths (year : Nat) : List Nat :=
  let february := if 400 ∣ year ∨ 4 ∣ year ∧ ¬ 100 ∣ year then 29 else 28
  [31, february, 31, 30, 31, 30, 31, 31, 30, 31, 30, 31]

/-- A day of the calendar that is extended back to its first year. -/
def CalendarDay (year month day : Nat) : Prop :=
  1 ≤ year ∧ 1 ≤ month ∧ ∃ days, (monthLengths year)[month - 1]? = some days ∧ 1 ≤ day ∧ day ≤ days

/-- A text of three fields between hyphens. -/
structure Fields (value : String) (year month day : List Char) : Prop where
  text : value.toList = year ++ '-' :: (month ++ '-' :: day)
  yearWidth : (Ascii.encode year).length = 4
  monthWidth : (Ascii.encode month).length = 2
  dayWidth : (Ascii.encode day).length = 2

/-- Three numbers of the widths of a date that name a day, each of them with a sign or without. -/
structure Numbers (value : String) (year month day : List Char) : Prop where
  text : value.toList = year ++ '-' :: (month ++ '-' :: day)
  widths : year.length = 4 ∧ month.length = 2 ∧ day.length = 2
  digits : ∀ field ∈ [year, month, day], Decimal.Digits (Decimal.unsigned field)
  day : CalendarDay (Decimal.value 0 (Decimal.unsigned year))
    (Decimal.value 0 (Decimal.unsigned month)) (Decimal.value 0 (Decimal.unsigned day))

variable {value : String} {year month day : List Char}

theorem encode_hyphen (text : List Char) : Ascii.encode ('-' :: text) = 45 :: Ascii.encode text :=
  Ascii.encode_cons '-' text

theorem Fields.bytes (h : Fields value year month day) : Bytes.utf8 value =
    Ascii.encode year ++ 45 :: (Ascii.encode month ++ 45 :: Ascii.encode day) := by
  rw [Ascii.utf8_eq_encode, h.text, Ascii.encode_append, encode_hyphen, Ascii.encode_append,
    encode_hyphen]

/-- What the slices of a date are read as. -/
def Reads (year month day : List Char) : Prop :=
  ∃ y m d, Decimal.parse (2 ^ 32) year = some y ∧ Decimal.parse (2 ^ 32) month = some m ∧
    Decimal.parse (2 ^ 32) day = some d ∧ CalendarDay y m d

/-- A text has one reading as three numbers. -/
theorem Numbers.unique {year' month' day' : List Char} (h : Numbers value year month day)
    (h' : Numbers value year' month' day') : year = year' ∧ month = month' ∧ day = day' := by
  have ⟨hYear, hRest⟩ := List.append_inj (h.text.symm.trans h'.text)
    (h.widths.1.trans h'.widths.1.symm)
  have ⟨hMonth, hDay⟩ := List.append_inj (List.cons.inj hRest).2
    (h.widths.2.1.trans h'.widths.2.1.symm)
  exact ⟨hYear, hMonth, (List.cons.inj hDay).2⟩

end Dates

end WordArena.Builder
