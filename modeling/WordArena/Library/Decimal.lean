import Mathlib.Algebra.Group.Nat.Defs
import Mathlib.Tactic.SplitIfs

/-! Unsigned decimal numbers as they are parsed from text: digits, with a plus sign that may stand
before them, of a number below the limit of its type. -/
namespace Decimal

variable {limit start n : Nat} {digits text : List Char}

def digit (c : Char) : Option Nat := if c.isDigit then some (c.toNat - '0'.toNat) else none

/-- The number that is read on from digits. -/
def value (start : Nat) (digits : List Char) : Nat :=
  digits.foldl (fun n c => n * 10 + (c.toNat - '0'.toNat)) start

/-- One more digit, unless the number leaves its type. -/
def push (limit n : Nat) (c : Char) : Option Nat := do
  let d ← digit c
  if n * 10 + d < limit then some (n * 10 + d) else none

/-- A text without the sign before it. -/
def unsigned : List Char → List Char
  | '+' :: digits => digits
  | text => text

def parse (limit : Nat) (text : List Char) : Option Nat :=
  if unsigned text = [] then none else (unsigned text).foldlM (push limit) 0

/-- Digits, and at least one of them. -/
def Digits (digits : List Char) : Prop := digits ≠ [] ∧ ∀ c ∈ digits, c.isDigit = true

end Decimal
