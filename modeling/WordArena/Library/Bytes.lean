import Mathlib.Data.List.Basic
import Mathlib.Tactic.Ring

/-! Byte strings fed to digests: big-endian integers and lowercase digits. -/
namespace Bytes

/-- The `width` low-order bytes of a number, most significant first. -/
def bigEndian (width n : Nat) : List UInt8 :=
  (List.range width).reverse.map fun i => UInt8.ofNat (n / 256 ^ i)

/-- The number written by big-endian bytes. -/
def value (bytes : List UInt8) : Nat := bytes.foldl (fun n b => n * 256 + b.toNat) 0

@[simp] theorem length_bigEndian (width n : Nat) : (bigEndian width n).length = width := by
  simp [bigEndian]

/-- The number that is read on from big-endian bytes. -/
theorem foldl_bigEndian (width n start : Nat) :
    (bigEndian width n).foldl (fun m b => m * 256 + b.toNat) start =
      start * 256 ^ width + n % 256 ^ width := by
  induction width generalizing start with
  | zero => simp [bigEndian, Nat.mod_one]
  | succ width ih =>
      have hNext : bigEndian (width + 1) n = UInt8.ofNat (n / 256 ^ width) :: bigEndian width n := by
        simp [bigEndian, List.range_succ]
      have hByte : (UInt8.ofNat (n / 256 ^ width)).toNat = n / 256 ^ width % 256 := UInt8.toNat_ofNat'
      rw [hNext, List.foldl_cons, ih, hByte, @Nat.mod_pow_succ n 256 width]
      ring

/-- Numbers that fit are written in one way only. -/
theorem bigEndian_inj {width m n : Nat} (hm : m < 256 ^ width) (hn : n < 256 ^ width)
    (h : bigEndian width m = bigEndian width n) : m = n := by
  have hRead := congrArg value h
  rwa [value, value, foldl_bigEndian, foldl_bigEndian, Nat.zero_mul, Nat.zero_add, Nat.zero_add,
    Nat.mod_eq_of_lt hm, Nat.mod_eq_of_lt hn] at hRead

def utf8 (text : String) : List UInt8 := text.toUTF8.toList

theorem toList_loop (bytes : ByteArray) (i : Nat) (read : List UInt8) :
    ByteArray.toList.loop bytes i read = read.reverse ++ bytes.data.toList.drop i := by
  fun_induction ByteArray.toList.loop bytes i read with
  | case1 i read hi ih =>
      have hGet : bytes.get! i = bytes.data.toList.get ⟨i, hi⟩ := by
        simp only [ByteArray.get!]
        exact getElem!_pos bytes.data i hi
      rw [ih, List.drop_eq_getElem_cons hi, hGet]
      simp
  | case2 i read hi =>
      rw [List.drop_eq_nil_of_le (Nat.le_of_not_lt hi), List.append_nil]

/-- The bytes of a text without the loop that reads them one by one. -/
theorem utf8_eq (text : String) : utf8 text = text.toByteArray.data.toList :=
  toList_loop _ _ _

theorem utf8_injective : Function.Injective utf8 := by
  intro a b h
  rw [utf8_eq, utf8_eq] at h
  exact String.toByteArray_inj.mp (ByteArray.ext (Array.toList_inj.mp h))

/-- The text that bytes encode, when they do. -/
def decode (bytes : List UInt8) : Option String := String.fromUTF8? ⟨bytes.toArray⟩

theorem decode_eq_some {bytes : List UInt8} {text : String} :
    decode bytes = some text ↔ utf8 text = bytes := by
  rw [utf8_eq, decode, String.fromUTF8?]
  constructor
  · intro h
    split at h
    · cases h
      rfl
    · cases h
  · rintro rfl
    rw [dif_pos text.isValidUTF8]
    rfl

theorem utf8_append (a b : String) : utf8 (a ++ b) = utf8 a ++ utf8 b := by
  simp [utf8_eq]

/-- The bytes of a character are among those of a text with it. -/
theorem mem_utf8 {text : String} {c : Char} {b : UInt8} (h : c ∈ text.toList)
    (hb : b ∈ utf8 (String.singleton c)) : b ∈ utf8 text := by
  obtain ⟨before, after, hSplit⟩ := List.append_of_mem h
  have hText : text = String.ofList before ++ (String.singleton c ++ String.ofList after) := by
    rw [← String.toList_inj]
    simp [hSplit]
  rw [hText, utf8_append, utf8_append]
  exact List.mem_append_right _ (List.mem_append_left _ hb)

/-- The encoding of a text character by character. -/
theorem utf8_toList (text : String) : utf8 text = text.toList.flatMap String.utf8EncodeChar := by
  obtain ⟨cs, rfl⟩ : ∃ cs, text = String.ofList cs := ⟨text.toList, String.ofList_toList.symm⟩
  rw [utf8_eq, String.toByteArray_ofList, String.toList_ofList, List.utf8Encode]
  simp

/-- The bytes of basic characters occur in the encodings of those characters only. -/
theorem toNat_of_mem_encode {c : Char} {b : UInt8} (h : b ∈ String.utf8EncodeChar c)
    (hBasic : b.toNat < 128) : c.toNat = b.toNat := by
  have hVal : c.val.toNat = c.toNat := rfl
  revert h
  fun_cases String.utf8EncodeChar c
  all_goals
    simp only [List.mem_cons, List.not_mem_nil, or_false]
    intro h
    rcases h with rfl | rfl | rfl | rfl
    all_goals
      simp only [UInt8.toNat_ofNat'] at *
      omega

theorem basic_mem_utf8 {text : String} {b : UInt8} (hMem : b ∈ utf8 text)
    (hBasic : b.toNat < 128) : ∃ c ∈ text.toList, c.toNat = b.toNat := by
  rw [utf8_toList, List.mem_flatMap] at hMem
  obtain ⟨c, hChar, hByte⟩ := hMem
  exact ⟨c, hChar, toNat_of_mem_encode hByte hBasic⟩
def hexDigit (n : Nat) : Char := "0123456789abcdef".toList.getD n '0'

/-- Two lowercase digits for every byte. -/
def hexLower (bytes : List UInt8) : String :=
  String.ofList (bytes.flatMap fun b => [hexDigit (b.toNat / 16), hexDigit (b.toNat % 16)])

/-- A basic character takes one byte. -/
theorem utf8ByteSize_of_basic {text : String} (h : ∀ c ∈ text.toList, c.toNat < 128) :
    text.utf8ByteSize = text.toList.length := by
  obtain ⟨cs, rfl⟩ : ∃ cs, text = String.ofList cs := ⟨text.toList, (String.ofList_toList).symm⟩
  rw [String.toList_ofList] at h ⊢
  induction cs with
  | nil => rfl
  | cons c cs ih =>
      have hSize : c.utf8Size = 1 := by
        rw [Char.utf8Size_eq_one_iff]
        exact UInt32.le_iff_toNat_le.mpr (Nat.le_of_lt_succ (h c List.mem_cons_self))
      have hTail := ih fun d hd => h d (List.mem_cons_of_mem _ hd)
      have hSplit : String.ofList (c :: cs) = String.singleton c ++ String.ofList cs := by
        rw [← String.toList_inj]
        simp
      rw [hSplit, String.utf8ByteSize_append, hTail]
      simp [hSize, Nat.add_comm]

theorem hexLower_toList (bytes : List UInt8) : (hexLower bytes).toList =
    bytes.flatMap fun b => [hexDigit (b.toNat / 16), hexDigit (b.toNat % 16)] :=
  String.toList_ofList

theorem hexDigit_inj : ∀ m < 16, ∀ n < 16, hexDigit m = hexDigit n → m = n := by decide

theorem hexLower_injective : Function.Injective hexLower := by
  intro a b h
  have hChars := congrArg String.toList h
  rw [hexLower_toList, hexLower_toList] at hChars
  clear h
  induction a generalizing b with
  | nil =>
      cases b with
      | nil => rfl
      | cons y b => cases hChars
  | cons x a ih =>
      cases b with
      | nil => cases hChars
      | cons y b =>
          simp only [List.flatMap_cons, List.cons_append, List.nil_append, List.cons.injEq] at hChars
          obtain ⟨hHigh, hLow, hRest⟩ := hChars
          have hx := x.toNat_lt
          have hy := y.toNat_lt
          have hQuotient := hexDigit_inj _ (by omega) _ (by omega) hHigh
          have hRemainder := hexDigit_inj _ (by omega) _ (by omega) hLow
          rw [ih hRest, UInt8.toNat_inj.mp (show x.toNat = y.toNat by omega)]

/-- Every character of a digest text is one of sixteen digits. -/
theorem mem_hexLower {bytes : List UInt8} {c : Char} (h : c ∈ (hexLower bytes).toList) :
    ∃ n < 16, c = hexDigit n := by
  rw [hexLower_toList, List.mem_flatMap] at h
  obtain ⟨b, -, hc⟩ := h
  have hByte := b.toNat_lt
  rcases List.mem_cons.mp hc with rfl | hc
  · exact ⟨_, by omega, rfl⟩
  · exact ⟨_, by omega, List.mem_singleton.mp hc⟩

theorem hexLower_utf8ByteSize (bytes : List UInt8) :
    (hexLower bytes).utf8ByteSize = 2 * bytes.length := by
  have hDigits : ∀ n < 16, (hexDigit n).toNat < 128 := by decide
  rw [utf8ByteSize_of_basic fun c hc => by
    obtain ⟨n, hn, rfl⟩ := mem_hexLower hc
    exact hDigits n hn, hexLower_toList]
  induction bytes with
  | nil => rfl
  | cons b bytes ih =>
      rw [List.flatMap_cons, List.length_append, ih, List.length_cons]
      simp only [List.length_cons, List.length_nil]
      omega

end Bytes
