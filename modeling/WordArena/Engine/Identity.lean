import WordArena.Engine.Fresh
import WordArena.Library.Framing

/-! The content identity of a ruleset. The stream under the digest is read back field by field,
so it belongs to one ruleset only, as long as every length fits its frame. -/
namespace WordArena.Engine

open Framing WordArena.Lexicon

/-- A text whose length fits the eight bytes in front of it. -/
def FramedText (text : String) : Prop := (Bytes.utf8 text).length < 256 ^ 8

structure FramedPack (pack : PackIdentity) : Prop where
  packId : FramedText pack.packId
  packVersion : FramedText pack.packVersion
  locale : FramedText pack.locale
  algorithm : FramedText pack.normalization.algorithm
  profile : FramedText pack.normalization.profile
  contentSha256 : FramedText pack.contentSha256

/-- The collections of the ruleset are shorter than their counters allow. -/
structure Ruleset.Framed (r : Ruleset) : Prop where
  lexicon : FramedPack r.lexicon
  squares : r.game.board.squares.length < 2 ^ 32
  tiles : r.game.tiles.length < 2 ^ 32

theorem delimits_hashString : Delimits FramedText hashString :=
  (delimits_bigEndian 8).counted.comap Bytes.utf8_injective

theorem delimits_u8 : Delimits (fun _ => True) fun n : UInt8 => [n] :=
  delimits_of_width (fun _ => rfl) fun _ _ _ _ h => (List.cons.inj h).1

theorem delimits_u16 : Delimits (fun _ => True) fun n : UInt16 => Bytes.bigEndian 2 n.toNat :=
  delimits_of_width (fun _ => Bytes.length_bigEndian 2 _) fun a b _ _ h =>
    UInt16.toNat_inj.mp (Bytes.bigEndian_inj a.toNat_lt b.toNat_lt h)

theorem delimits_u32 : Delimits (fun _ => True) fun n : UInt32 => Bytes.bigEndian 4 n.toNat :=
  delimits_of_width (fun _ => Bytes.length_bigEndian 4 _) fun a b _ _ h =>
    UInt32.toNat_inj.mp (Bytes.bigEndian_inj a.toNat_lt b.toNat_lt h)

theorem delimits_hashPack : Delimits FramedPack hashPack := by
  intro a b ha hb rest rest' h
  simp only [hashPack, List.append_assoc] at h
  obtain ⟨hId, h⟩ := delimits_hashString _ _ ha.packId hb.packId _ _ h
  obtain ⟨hVersion, h⟩ := delimits_hashString _ _ ha.packVersion hb.packVersion _ _ h
  obtain ⟨hFormat, h⟩ := delimits_u32 _ _ trivial trivial _ _ h
  obtain ⟨hLocale, h⟩ := delimits_hashString _ _ ha.locale hb.locale _ _ h
  obtain ⟨hAlgorithm, h⟩ := delimits_hashString _ _ ha.algorithm hb.algorithm _ _ h
  obtain ⟨hNormal, h⟩ := delimits_u32 _ _ trivial trivial _ _ h
  obtain ⟨hProfile, h⟩ := delimits_hashString _ _ ha.profile hb.profile _ _ h
  obtain ⟨hContent, hRest⟩ := delimits_hashString _ _ ha.contentSha256 hb.contentSha256 _ _ h
  obtain ⟨_, _, _, _, ⟨_, _, _⟩, _⟩ := a
  obtain ⟨_, _, _, _, ⟨_, _, _⟩, _⟩ := b
  simp only at hId hVersion hFormat hLocale hAlgorithm hNormal hProfile hContent
  subst hId hVersion hFormat hLocale hAlgorithm hNormal hProfile hContent
  exact ⟨rfl, hRest⟩

theorem Premium.code_injective : Function.Injective Premium.code := by
  intro a b h
  cases a <;> cases b <;> first | rfl | cases h

theorem delimits_hashSquare : Delimits (fun _ => True) hashSquare := by
  refine @delimits_of_width _ _ _ _ 3 (fun _ => rfl) fun a b _ _ h => ?_
  obtain ⟨⟨row, column⟩, premium⟩ := a
  obtain ⟨⟨row', column'⟩, premium'⟩ := b
  simp only [hashSquare, List.cons.injEq, and_true] at h
  rw [h.1, h.2.1, Premium.code_injective h.2.2]

/-- A canonical letter is far shorter than its frame allows. -/
theorem framedText_token (token : TileToken) : FramedText token.asStr := by
  obtain ⟨c, hUpper, hToken⟩ := isPhysicalToken_iff.mp token.physical
  have hBasic : Ascii.Basic [c] := fun d hd => by
    rw [List.mem_singleton.mp hd]
    exact Nat.lt_of_le_of_lt (Ascii.isUpper_iff.mp hUpper).2 (by decide)
  have hLength := Ascii.length_encode_basic hBasic
  rw [FramedText, Ascii.utf8_eq_encode, hToken, hLength]
  exact Nat.one_lt_pow (by decide) (by decide)

theorem delimits_hashFace : Delimits (fun _ => True) fun face : TileFace =>
    match face with
    | .letter token => 1 :: hashString token.asStr
    | .blank => [0] := by
  intro a b _ _ rest rest' h
  cases a with
  | letter token =>
      cases b with
      | letter token' =>
          obtain ⟨hToken, hRest⟩ := delimits_hashString _ _ (framedText_token token)
            (framedText_token token') _ _ (List.cons.inj h).2
          obtain ⟨_, _⟩ := token
          obtain ⟨_, _⟩ := token'
          subst hToken
          exact ⟨rfl, hRest⟩
      | blank => simp at h
  | blank =>
      cases b with
      | letter token' => simp at h
      | blank => exact ⟨rfl, (List.cons.inj h).2⟩

theorem delimits_hashTile : Delimits (fun _ => True) hashTile := by
  intro a b _ _ rest rest' h
  simp only [hashTile, List.append_assoc] at h
  obtain ⟨hFace, h⟩ := delimits_hashFace _ _ trivial trivial _ _ h
  obtain ⟨hCount, h⟩ := delimits_u16 _ _ trivial trivial _ _ h
  obtain ⟨hValue, hRest⟩ := delimits_u16 _ _ trivial trivial _ _ h
  obtain ⟨_, _, _⟩ := a
  obtain ⟨_, _, _⟩ := b
  simp only at hFace hCount hValue
  subst hFace hCount hValue
  exact ⟨rfl, hRest⟩

theorem delimits_hashLength : Delimits (· < 2 ^ 32) hashLength := by
  intro a b ha hb rest rest' h
  rw [hashLength, hashLength, Nat.min_eq_left (by omega), Nat.min_eq_left (by omega)] at h
  exact delimits_bigEndian 4 _ _ ha hb _ _ h

theorem RulesetId.asStr_injective : Function.Injective RulesetId.asStr := by
  intro a b h
  cases a <;> cases b <;> first | rfl | exact absurd h (by decide)

theorem Language.code_injective : Function.Injective Language.code := by
  intro a b h
  cases a <;> cases b <;> first | rfl | exact absurd h (by decide)

theorem RulesetId.framed_asStr (id : RulesetId) : FramedText id.asStr := by
  unfold FramedText
  cases id <;> decide +kernel

theorem Language.framed_code (language : Language) : FramedText language.code := by
  unfold FramedText
  cases language <;> decide +kernel

theorem rulesetBytes_inj {r r' : Ruleset} (hr : r.Framed) (hr' : r'.Framed)
    (h : rulesetBytes r = rulesetBytes r') : r = r' := by
  simp only [rulesetBytes, List.append_assoc, List.append_cancel_left_eq] at h
  obtain ⟨hSchema, h⟩ := delimits_u32 _ _ trivial trivial _ _ h
  obtain ⟨hId, h⟩ := delimits_hashString _ _ r.id.framed_asStr r'.id.framed_asStr _ _ h
  obtain ⟨hLanguage, h⟩ := delimits_hashString _ _ r.language.framed_code r'.language.framed_code _ _ h
  obtain ⟨hPack, h⟩ := delimits_hashPack _ _ hr.lexicon hr'.lexicon _ _ h
  obtain ⟨hSize, h⟩ := List.append_inj h rfl
  obtain ⟨hWidth, hHeight⟩ := List.cons.inj hSize
  replace hHeight := (List.cons.inj hHeight).1
  obtain ⟨hSquares, h⟩ := (delimits_hashLength.many delimits_hashSquare) _ _
    ⟨hr.squares, fun _ _ => trivial⟩ ⟨hr'.squares, fun _ _ => trivial⟩ _ _
    (by simpa only [List.append_assoc] using h)
  obtain ⟨hCapacity, h⟩ := delimits_u8 _ _ trivial trivial _ _ h
  obtain ⟨hBonus, h⟩ := delimits_u16 _ _ trivial trivial _ _ h
  obtain ⟨hMinimum, h⟩ := delimits_u16 _ _ trivial trivial _ _ h
  obtain ⟨hTurns, h⟩ := delimits_u8 _ _ trivial trivial _ _ h
  obtain ⟨hTiles, -⟩ := (delimits_hashLength.many delimits_hashTile) _ _
    ⟨hr.tiles, fun _ _ => trivial⟩ ⟨hr'.tiles, fun _ _ => trivial⟩ [] []
    (by simpa only [List.append_nil] using h)
  obtain ⟨_, id, language, _, ⟨⟨_, _, _⟩, _, _, _, _, _⟩⟩ := r
  obtain ⟨_, id', language', _, ⟨⟨_, _, _⟩, _, _, _, _, _⟩⟩ := r'
  obtain rfl := RulesetId.asStr_injective hId
  obtain rfl := Language.code_injective hLanguage
  simp only at hSchema hPack hWidth hHeight hSquares hCapacity hBonus hMinimum hTurns hTiles
  subst hSchema hPack hWidth hHeight hSquares hCapacity hBonus hMinimum hTurns hTiles
  rfl

/-- Two rulesets share their identity only when they are the same ruleset or when their different
streams collide under the digest. -/
theorem ruleset_identity_iff {platform : Platform} {r r' : Ruleset} (hr : r.Framed)
    (hr' : r'.Framed) :
    (rulesetBytes r = rulesetBytes r' ↔ r = r') ∧
    (r.identity platform = r'.identity platform ↔ r = r' ∨
      (r.schemaVersion = r'.schemaVersion ∧ r.id = r'.id ∧ rulesetBytes r ≠ rulesetBytes r' ∧
        platform.sha256 (rulesetBytes r) = platform.sha256 (rulesetBytes r'))) := by
  have hBytes : rulesetBytes r = rulesetBytes r' ↔ r = r' :=
    ⟨rulesetBytes_inj hr hr', congrArg rulesetBytes⟩
  refine ⟨hBytes, ?_⟩
  have hDigest : rulesetSha256 platform r = rulesetSha256 platform r' ↔
      platform.sha256 (rulesetBytes r) = platform.sha256 (rulesetBytes r') := by
    rw [rulesetSha256, rulesetSha256, Bytes.hexLower_injective.eq_iff, Vector.toList_inj]
  rw [Ruleset.identity, Ruleset.identity, RulesetIdentity.mk.injEq, hDigest]
  constructor
  · rintro ⟨hSchema, hId, hSame⟩
    by_cases h : r = r'
    · exact .inl h
    · exact .inr ⟨hSchema, hId, fun hStream => h (hBytes.mp hStream), hSame⟩
  · rintro (rfl | ⟨hSchema, hId, -, hSame⟩)
    · exact ⟨rfl, rfl, rfl⟩
    · exact ⟨hSchema, hId, hSame⟩

theorem builtin_framed (id : RulesetId) : (Ruleset.builtin id).Framed where
  lexicon := by
    rw [(builtin_pins id).2]
    cases id <;> constructor <;> (unfold FramedText; decide +kernel)
  squares := by
    rw [(builtin_board id).2.2]
    decide
  tiles := by
    have hTiles := congrArg List.length (builtin_tiles id)
    rw [List.length_map, List.length_map] at hTiles
    rw [hTiles]
    cases id <;> decide +kernel

/-- The two committed rulesets are told apart by their streams. -/
theorem builtin_streams_differ :
    rulesetBytes (.builtin .englishV1) ≠ rulesetBytes (.builtin .frenchV1) := by
  intro h
  have hSame := (@ruleset_identity_iff ⟨basicTables, Sha256.digest⟩ _ _ (builtin_framed .englishV1)
    (builtin_framed .frenchV1)).1.mp h
  have hId := congrArg Ruleset.id hSame
  rw [builtin_id, builtin_id] at hId
  exact absurd hId (by decide)

end WordArena.Engine
