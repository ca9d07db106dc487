import Mathlib.Algebra.Group.Int.Defs
import Mathlib.Algebra.Group.Nat.Defs
import Mathlib.Data.Int.Basic

/-! Fixed-width machine integers with checked conversion and arithmetic. Each
operation is specified once by the exact integer it denotes: it returns the
unique word with that value, or nothing when no word of the width has it. -/
namespace Checked

/-- `u8::try_from` on a machine-independent count. -/
def toU8 (n : Nat) : Option UInt8 := if n < 2 ^ 8 then some (UInt8.ofNat n) else none

/-- `u16::try_from` on a machine-independent count. -/
def toU16 (n : Nat) : Option UInt16 := if n < 2 ^ 16 then some (UInt16.ofNat n) else none

def toU32 (n : Nat) : Option UInt32 := if n < 2 ^ 32 then some (UInt32.ofNat n) else none

def toU64 (n : Nat) : Option UInt64 := if n < 2 ^ 64 then some (UInt64.ofNat n) else none

/-- `i32::try_from` on an exact integer. -/
def toI32 (z : Int) : Option Int32 :=
  if -2 ^ 31 ≤ z ∧ z < 2 ^ 31 then some (Int32.ofInt z) else none

def addU8 (a b : UInt8) : Option UInt8 := toU8 (a.toNat + b.toNat)

def addU16 (a b : UInt16) : Option UInt16 := toU16 (a.toNat + b.toNat)

def addU32 (a b : UInt32) : Option UInt32 := toU32 (a.toNat + b.toNat)

def mulU32 (a b : UInt32) : Option UInt32 := toU32 (a.toNat * b.toNat)

def addU64 (a b : UInt64) : Option UInt64 := toU64 (a.toNat + b.toNat)

def addI32 (a b : Int32) : Option Int32 := toI32 (a.toInt + b.toInt)

/-- `i64::checked_add` on exact integers. -/
def addI64 (a b : Int) : Option Int :=
  if -2 ^ 63 ≤ a + b ∧ a + b < 2 ^ 63 then some (a + b) else none

/-- The nearest `i64`, as saturating arithmetic returns it. -/
def saturateI64 (z : Int) : Int := max (-2 ^ 63) (min z (2 ^ 63 - 1))

/-- Saturation keeps lower bounds that are in range. -/
theorem le_saturateI64 {a z : Int} (hWord : a < 2 ^ 63) (h : a ≤ z) : a ≤ saturateI64 z := by
  unfold saturateI64
  omega

@[simp] theorem toU8_eq_some {n : Nat} {a : UInt8} : toU8 n = some a ↔ a.toNat = n := by
  unfold toU8
  constructor
  · intro h
    split at h
    · cases h
      simpa using by omega
    · cases h
  · rintro rfl
    simp [a.toNat_lt]

@[simp] theorem toU16_eq_some {n : Nat} {a : UInt16} : toU16 n = some a ↔ a.toNat = n := by
  unfold toU16
  constructor
  · intro h
    split at h
    · cases h
      simpa using by omega
    · cases h
  · rintro rfl
    simp [a.toNat_lt]

@[simp] theorem toU32_eq_some {n : Nat} {a : UInt32} : toU32 n = some a ↔ a.toNat = n := by
  unfold toU32
  constructor
  · intro h
    split at h
    · cases h
      simpa using by omega
    · cases h
  · rintro rfl
    simp [a.toNat_lt]

@[simp] theorem toU64_eq_some {n : Nat} {a : UInt64} : toU64 n = some a ↔ a.toNat = n := by
  unfold toU64
  constructor
  · intro h
    split at h
    · cases h
      simpa using by omega
    · cases h
  · rintro rfl
    simp [a.toNat_lt]

@[simp] theorem toI32_eq_some {z : Int} {a : Int32} : toI32 z = some a ↔ a.toInt = z := by
  unfold toI32
  constructor
  · intro h
    split at h
    · rename_i hz
      cases h
      exact Int32.toInt_ofInt_of_le hz.1 hz.2
    · cases h
  · rintro rfl
    rw [if_pos ⟨a.le_toInt, a.toInt_lt⟩, Int32.ofInt_toInt]

/-! A value in range has a word. -/

theorem exists_u8 {n : Nat} (h : n < 2 ^ 8) : ∃ a : UInt8, a.toNat = n :=
  ⟨UInt8.ofNat n, UInt8.toNat_ofNat_of_lt' h⟩

theorem exists_u16 {n : Nat} (h : n < 2 ^ 16) : ∃ a : UInt16, a.toNat = n :=
  ⟨UInt16.ofNat n, UInt16.toNat_ofNat_of_lt' h⟩

theorem exists_u32 {n : Nat} (h : n < 2 ^ 32) : ∃ a : UInt32, a.toNat = n :=
  ⟨UInt32.ofNat n, UInt32.toNat_ofNat_of_lt' h⟩

theorem exists_u64 {n : Nat} (h : n < 2 ^ 64) : ∃ a : UInt64, a.toNat = n :=
  ⟨UInt64.ofNat n, UInt64.toNat_ofNat_of_lt' h⟩

theorem exists_i32 {z : Int} (hLow : -2 ^ 31 ≤ z) (hHigh : z < 2 ^ 31) :
    ∃ a : Int32, a.toInt = z :=
  ⟨Int32.ofInt z, Int32.toInt_ofInt_of_le hLow hHigh⟩

/-! Checked arithmetic. -/

@[simp] theorem addI64_eq_some {a b c : Int} :
    addI64 a b = some c ↔ (-2 ^ 63 ≤ a + b ∧ a + b < 2 ^ 63) ∧ c = a + b := by
  unfold addI64
  split
  · rename_i h
    rw [Option.some.injEq]
    exact ⟨fun hSum => ⟨h, hSum.symm⟩, fun hSum => hSum.2.symm⟩
  · rename_i h
    exact ⟨nofun, fun hSum => absurd hSum.1 h⟩

@[simp] theorem addU8_eq_some {a b c : UInt8} :
    addU8 a b = some c ↔ c.toNat = a.toNat + b.toNat := toU8_eq_some

@[simp] theorem addU32_eq_some {a b c : UInt32} :
    addU32 a b = some c ↔ c.toNat = a.toNat + b.toNat := toU32_eq_some

@[simp] theorem mulU32_eq_some {a b c : UInt32} :
    mulU32 a b = some c ↔ c.toNat = a.toNat * b.toNat := toU32_eq_some

@[simp] theorem addU64_eq_some {a b c : UInt64} :
    addU64 a b = some c ↔ c.toNat = a.toNat + b.toNat := toU64_eq_some

@[simp] theorem addI32_eq_some {a b c : Int32} :
    addI32 a b = some c ↔ c.toInt = a.toInt + b.toInt := toI32_eq_some

end Checked
