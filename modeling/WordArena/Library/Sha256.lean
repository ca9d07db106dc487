import WordArena.Library.Bytes

/-! The SHA-256 digest of a byte string. Nothing is proved about its security;
it only makes a development that is generic in its digest executable. -/
namespace Sha256

/-- Eight chaining words. -/
abbrev Chain := Vector UInt32 8

def initial : Chain :=
  #v[0x6a09e667, 0xbb67ae85, 0x3c6ef372, 0xa54ff53a, 0x510e527f, 0x9b05688c, 0x1f83d9ab, 0x5be0cd19]

def roundConstants : List UInt32 :=
  [0x428a2f98, 0x71374491, 0xb5c0fbcf, 0xe9b5dba5, 0x3956c25b, 0x59f111f1, 0x923f82a4, 0xab1c5ed5,
   0xd807aa98, 0x12835b01, 0x243185be, 0x550c7dc3, 0x72be5d74, 0x80deb1fe, 0x9bdc06a7, 0xc19bf174,
   0xe49b69c1, 0xefbe4786, 0x0fc19dc6, 0x240ca1cc, 0x2de92c6f, 0x4a7484aa, 0x5cb0a9dc, 0x76f988da,
   0x983e5152, 0xa831c66d, 0xb00327c8, 0xbf597fc7, 0xc6e00bf3, 0xd5a79147, 0x06ca6351, 0x14292967,
   0x27b70a85, 0x2e1b2138, 0x4d2c6dfc, 0x53380d13, 0x650a7354, 0x766a0abb, 0x81c2c92e, 0x92722c85,
   0xa2bfe8a1, 0xa81a664b, 0xc24b8b70, 0xc76c51a3, 0xd192e819, 0xd6990624, 0xf40e3585, 0x106aa070,
   0x19a4c116, 0x1e376c08, 0x2748774c, 0x34b0bcb5, 0x391c0cb3, 0x4ed8aa4a, 0x5b9cca4f, 0x682e6ff3,
   0x748f82ee, 0x78a5636f, 0x84c87814, 0x8cc70208, 0x90befffa, 0xa4506ceb, 0xbef9a3f7, 0xc67178f2]

def rotateRight (word : UInt32) (amount : UInt32) : UInt32 :=
  (word >>> amount) ||| (word <<< (32 - amount))

/-- One bit, zeros up to eight bytes short of a block, and the bit length. -/
def pad (message : List UInt8) : List UInt8 :=
  message ++ 0x80 :: List.replicate ((119 - message.length % 64) % 64) 0 ++
    Bytes.bigEndian 8 (8 * message.length)

def word (bytes : List UInt8) (i : Nat) : UInt32 :=
  UInt32.ofNat (Bytes.value ((bytes.drop (4 * i)).take 4))

/-- The next word of a schedule whose words are kept newest first. -/
def extend (words : List UInt32) : List UInt32 :=
  let s0 := words.getD 14 0
  let s1 := words.getD 1 0
  let low := rotateRight s0 7 ^^^ rotateRight s0 18 ^^^ (s0 >>> 3)
  let high := rotateRight s1 17 ^^^ rotateRight s1 19 ^^^ (s1 >>> 10)
  (words.getD 15 0 + low + words.getD 6 0 + high) :: words

def schedule (block : List UInt8) : List UInt32 :=
  (Nat.repeat extend 48 ((List.range 16).map (word block)).reverse).reverse

def round (chain : Chain) (input : UInt32 × UInt32) : Chain :=
  let sum1 := rotateRight chain[4] 6 ^^^ rotateRight chain[4] 11 ^^^ rotateRight chain[4] 25
  let choice := (chain[4] &&& chain[5]) ^^^ (~~~chain[4] &&& chain[6])
  let temp1 := chain[7] + sum1 + choice + input.1 + input.2
  let sum0 := rotateRight chain[0] 2 ^^^ rotateRight chain[0] 13 ^^^ rotateRight chain[0] 22
  let majority := (chain[0] &&& chain[1]) ^^^ (chain[0] &&& chain[2]) ^^^ (chain[1] &&& chain[2])
  #v[temp1 + (sum0 + majority), chain[0], chain[1], chain[2], chain[3] + temp1, chain[4], chain[5],
    chain[6]]

def compress (chain : Chain) (block : List UInt8) : Chain :=
  Vector.zipWith (· + ·) chain ((roundConstants.zip (schedule block)).foldl round chain)

/-- Compress the padded message block by block. -/
def blocks (padded : List UInt8) : List (List UInt8) :=
  (List.range (padded.length / 64)).map fun i => (padded.drop (64 * i)).take 64

def digest (message : List UInt8) : Vector UInt8 32 :=
  let chain := (blocks (pad message)).foldl compress initial
  Vector.ofFn fun i : Fin 32 =>
    UInt8.ofNat ((chain.get ⟨i.val / 4, by omega⟩).toNat / 256 ^ (3 - i.val % 4))

/-- HMAC with a key of at most one block. -/
def hmac (key message : List UInt8) : Vector UInt8 32 :=
  let block := key ++ List.replicate (64 - key.length) 0
  digest (block.map (· ^^^ 0x5c) ++ (digest (block.map (· ^^^ 0x36) ++ message)).toList)

section Evaluation

/-! The digest on natural numbers, which are evaluated faster than machine words. Operators
are written out: instances cost more to unfold than the numbers to compute. -/

/-- Cut so many pieces from the front. -/
def pieces {α : Type} (size : Nat) : Nat → List α → List (List α)
  | 0, _ => []
  | n + 1, items => items.take size :: pieces size n (items.drop size)

/-- The eight chaining words. -/
structure Registers where
  a : Nat
  b : Nat
  c : Nat
  d : Nat
  e : Nat
  f : Nat
  g : Nat
  h : Nat

def Registers.of (chain : Chain) : Registers :=
  ⟨chain[0].toNat, chain[1].toNat, chain[2].toNat, chain[3].toNat, chain[4].toNat, chain[5].toNat,
    chain[6].toNat, chain[7].toNat⟩

def Registers.toList (r : Registers) : List Nat := [r.a, r.b, r.c, r.d, r.e, r.f, r.g, r.h]

def rotateNat (word amount : Nat) : Nat :=
  Nat.lor (Nat.shiftRight word amount)
    (Nat.mod (Nat.shiftLeft word (Nat.sub 32 amount)) 4294967296)

def extendNat (words : List Nat) : List Nat :=
  let later := words.drop 6
  let last := later.drop 8
  let s0 := last.headD 0
  let s1 := (words.drop 1).headD 0
  let low := Nat.xor (Nat.xor (rotateNat s0 7) (rotateNat s0 18)) (Nat.shiftRight s0 3)
  let high := Nat.xor (Nat.xor (rotateNat s1 17) (rotateNat s1 19)) (Nat.shiftRight s1 10)
  Nat.mod (Nat.add (Nat.add (Nat.add ((last.drop 1).headD 0) low) (later.headD 0)) high)
    4294967296 :: words

def scheduleNat (block : List UInt8) : List Nat :=
  (Nat.repeat extendNat 48
    ((pieces 4 16 block).map fun bytes => Nat.mod (Bytes.value bytes) 4294967296).reverse).reverse

def roundNat (r : Registers) (input : Nat × Nat) : Registers :=
  let sum1 := Nat.xor (Nat.xor (rotateNat r.e 6) (rotateNat r.e 11)) (rotateNat r.e 25)
  let choice := Nat.xor (Nat.land r.e r.f) (Nat.land (Nat.sub 4294967295 r.e) r.g)
  let temp1 := Nat.mod
    (Nat.add (Nat.add (Nat.add (Nat.add r.h sum1) choice) input.1) input.2) 4294967296
  let sum0 := Nat.xor (Nat.xor (rotateNat r.a 2) (rotateNat r.a 13)) (rotateNat r.a 22)
  let majority := Nat.xor (Nat.xor (Nat.land r.a r.b) (Nat.land r.a r.c)) (Nat.land r.b r.c)
  ⟨Nat.mod (Nat.add temp1 (Nat.add sum0 majority)) 4294967296, r.a, r.b, r.c,
    Nat.mod (Nat.add r.d temp1) 4294967296, r.e, r.f, r.g⟩

def compressNat (r : Registers) (block : List UInt8) : Registers :=
  let s := (roundConstants.map UInt32.toNat |>.zip (scheduleNat block)).foldl roundNat r
  ⟨(r.a + s.a) % 4294967296, (r.b + s.b) % 4294967296, (r.c + s.c) % 4294967296,
    (r.d + s.d) % 4294967296, (r.e + s.e) % 4294967296, (r.f + s.f) % 4294967296,
    (r.g + s.g) % 4294967296, (r.h + s.h) % 4294967296⟩

def evaluate (message : List UInt8) : Vector UInt8 32 :=
  let padded := pad message
  let words := ((pieces 64 (padded.length / 64) padded).foldl compressNat (.of initial)).toList
  Vector.ofFn fun i : Fin 32 =>
    UInt8.ofNat (words.getD (i.val / 4) 0 / 256 ^ (3 - i.val % 4))

theorem toNat_rotateRight (word : UInt32) {amount : UInt32} (hPos : 0 < amount.toNat)
    (hAmount : amount.toNat < 32) :
    (rotateRight word amount).toNat = rotateNat word.toNat amount.toNat := by
  have hRest : (32 - amount).toNat = 32 - amount.toNat := by
    rw [UInt32.toNat_sub_of_le _ _ (UInt32.le_iff_toNat_le.mpr (Nat.le_of_lt hAmount))]
    rfl
  rw [rotateRight, UInt32.toNat_or, UInt32.toNat_shiftRight, UInt32.toNat_shiftLeft, hRest,
    Nat.mod_eq_of_lt hAmount,
    Nat.mod_eq_of_lt (show 32 - amount.toNat < 32 by omega)]
  rfl

theorem pieces_eq {α : Type} (size n : Nat) (items : List α) :
    pieces size n items = (List.range n).map fun i => (items.drop (size * i)).take size := by
  induction n generalizing items with
  | zero => rfl
  | succ n ih =>
      rw [pieces, ih, List.range_succ_eq_map, List.map_cons, List.map_map]
      simp [Function.comp_def, Nat.mul_add, Nat.add_comm]

theorem map_extend (words : List UInt32) :
    (extend words).map UInt32.toNat = extendNat (words.map UInt32.toNat) := by
  have hGet : ∀ i, ((words.map UInt32.toNat).drop i).headD 0 = (words.getD i 0).toNat := by
    intro i
    rw [List.headD_eq_head?_getD, List.head?_drop, List.getElem?_map, List.getD_eq_getElem?_getD]
    cases words[i]? <;> rfl
  rw [extend, extendNat, List.map_cons]
  simp (disch := decide) only [List.drop_drop, Nat.reduceAdd, hGet, UInt32.toNat_add, UInt32.toNat_xor, UInt32.toNat_shiftRight,
    toNat_rotateRight, Nat.mod_add_mod]
  rfl

theorem map_schedule (block : List UInt8) :
    (schedule block).map UInt32.toNat = scheduleNat block := by
  have hRepeat : ∀ (n : Nat) (words : List UInt32),
      (Nat.repeat extend n words).map UInt32.toNat =
        Nat.repeat extendNat n (words.map UInt32.toNat) := by
    intro n words
    induction n with
    | zero => rfl
    | succ n ih => rw [Nat.repeat, map_extend, ih, Nat.repeat]
  rw [schedule, scheduleNat, pieces_eq, List.map_reverse, hRepeat, List.map_reverse,
    List.map_map, List.map_map]
  rfl

theorem of_round (chain : Chain) (input : UInt32 × UInt32) :
    Registers.of (round chain input) =
      roundNat (Registers.of chain) (input.1.toNat, input.2.toNat) := by
  have hMod : ∀ a b, Nat.mod a b = a % b := fun _ _ => rfl
  simp only [Registers.of, round, roundNat, hMod]
  simp (disch := decide) [UInt32.toNat_add, UInt32.toNat_xor, UInt32.toNat_and, UInt32.toNat_not,
    toNat_rotateRight, Nat.mod_add_mod, Nat.add_mod_mod]

theorem of_rounds (inputs : List (UInt32 × UInt32)) (chain : Chain) :
    Registers.of (inputs.foldl round chain) =
      (inputs.map fun input => (input.1.toNat, input.2.toNat)).foldl roundNat (.of chain) := by
  induction inputs generalizing chain with
  | nil => rfl
  | cons input inputs ih => rw [List.foldl_cons, ih, of_round, List.map_cons, List.foldl_cons]

theorem of_compress (chain : Chain) (block : List UInt8) :
    Registers.of (compress chain block) = compressNat (.of chain) block := by
  have hInputs : (roundConstants.zip (schedule block)).map
      (fun input => (input.1.toNat, input.2.toNat)) =
      (roundConstants.map UInt32.toNat).zip (scheduleNat block) := by
    rw [← map_schedule, List.zip_map]
    rfl
  rw [compressNat, ← hInputs, ← of_rounds]
  simp only [Registers.of, compress, Vector.getElem_zipWith, UInt32.toNat_add]

theorem of_blocks (padded : List (List UInt8)) (chain : Chain) :
    Registers.of (padded.foldl compress chain) = padded.foldl compressNat (.of chain) := by
  induction padded generalizing chain with
  | nil => rfl
  | cons block padded ih => rw [List.foldl_cons, ih, of_compress, List.foldl_cons]

theorem getD_of (chain : Chain) (i : Fin 8) :
    (Registers.of chain).toList.getD i.val 0 = (chain.get i).toNat := by
  match i with
  | 0 => rfl
  | 1 => rfl
  | 2 => rfl
  | 3 => rfl
  | 4 => rfl
  | 5 => rfl
  | 6 => rfl
  | 7 => rfl

theorem digest_eq_evaluate : digest = evaluate := by
  funext message
  rw [evaluate, pieces_eq, ← of_blocks, digest]
  apply congrArg
  funext i
  rw [getD_of _ ⟨i.val / 4, by omega⟩]
  rfl

end Evaluation

end Sha256
