import WordArena.Library.Bytes
import WordArena.Lexicon.Key

/-! Texts that the application accepts as identifiers, kinds and digests.
Lengths are counted in encoded bytes. -/
namespace WordArena.Application

open WordArena.Lexicon

/-- No text is lost by trimming white space at either end. -/
def isTrimmed (value : String) : Bool :=
  value.toList.head?.all (fun c => !isWhitespace c) &&
    value.toList.getLast?.all (fun c => !isWhitespace c)

def validId (value : String) (maximum : Nat) : Bool :=
  value ≠ "" && decide (value.utf8ByteSize ≤ maximum) && isTrimmed value &&
    value.toList.all fun c => !isControl c

def validKind (value : String) : Bool :=
  value ≠ "" && decide (value.utf8ByteSize ≤ 64) &&
    value.toList.all fun c => c.isLower || c.isDigit || ['.', '_', '-'].contains c

def validErrorCode (value : String) : Bool :=
  validKind value && decide (value.utf8ByteSize ≤ 64)

def validSha256 (value : String) : Bool :=
  value.utf8ByteSize == 64 &&
    value.toList.all fun c => c.isDigit || ('a'.toNat ≤ c.toNat && c.toNat ≤ 'f'.toNat)

/-- The text of a digest is accepted as one. -/
theorem validSha256_hexLower (digest : Vector UInt8 32) :
    validSha256 (Bytes.hexLower digest.toList) = true := by
  have hDigits : ∀ n < 16, ((Bytes.hexDigit n).isDigit || ('a'.toNat ≤ (Bytes.hexDigit n).toNat &&
      (Bytes.hexDigit n).toNat ≤ 'f'.toNat)) = true := by decide
  rw [validSha256, Bytes.hexLower_utf8ByteSize, Vector.length_toList, Bool.and_eq_true]
  refine ⟨rfl, List.all_eq_true.mpr fun c hc => ?_⟩
  obtain ⟨n, hn, rfl⟩ := Bytes.mem_hexLower hc
  exact hDigits n hn

/-- Milliseconds of the injected clock, an `i64` in the source. -/
abbrev UnixMillis := Int

end WordArena.Application
