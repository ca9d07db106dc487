import Mathlib.Data.Finset.Basic
import WordArena.Service.Model

/-! Capabilities: opaque bearer tokens bound to one game, one role and a set of
scopes. A record holds a keyed digest of its token and never the token. -/
namespace WordArena.Capability

open Fallible WordArena.Engine WordArena.Application WordArena.Service

def capabilityDigestVersion : UInt16 := 1

def tokenPrefix : String := "wa_cap_v1"

/-- Lowercase hexadecimal digits, so many of them. -/
def isLowerHex (value : String) (expectedLen : Nat) : Bool :=
  decide (value.utf8ByteSize = expectedLen) && value.toList.all fun c =>
    decide ('0'.toNat ≤ c.toNat ∧ c.toNat ≤ '9'.toNat ∨ 'a'.toNat ≤ c.toNat ∧ c.toNat ≤ 'f'.toNat)

structure CapabilityId where
  asStr : String
  valid : isLowerHex asStr 32 = true
deriving DecidableEq

@[ext] structure AgentRunId where
  asStr : String
  valid : printable 128 asStr = true

instance : DecidableEq AgentRunId := fun _ _ => decidable_of_iff _ AgentRunId.ext_iff.symm

inductive CapabilityRole where
  | viewer
  | seat (seat : Seat)
  | humanSpectator
  | administrator
deriving DecidableEq, Repr

inductive CapabilityScope where
  | observePublic
  | observeSeat
  | act
  | preview
  | observeHumanSpectator
  | observeAdministrator
deriving DecidableEq, Repr

/-- What a capability is bound to, whatever its token and its lifetime are. -/
structure Binding where
  gameId : GameId
  role : CapabilityRole
  scopes : Finset CapabilityScope
  agentRunId : Option AgentRunId
deriving DecidableEq

structure CapabilityDescriptor where
  capabilityId : CapabilityId
  binding : Binding
  issuedAt : UnixMillis
  expiresAt : UnixMillis
deriving DecidableEq

structure CapabilityRecord where
  descriptor : CapabilityDescriptor
  tokenDigest : Digest
  digestVersion : UInt16
  revokedAt : Option UnixMillis
deriving DecidableEq

/-- Fresh bytes from the token source. -/
structure CapabilityMaterial where
  capabilityId : Vector UInt8 16
  secret : Vector UInt8 32
deriving DecidableEq

structure HumanSpectatorCredential where
  gameId : GameId
deriving DecidableEq

structure AdministratorCredential where
  gameId : GameId
deriving DecidableEq

inductive AuthenticatedCredential where
  | viewer (credential : PublicViewerCredential)
  | seat (credential : CompetitiveSeatCredential)
  | humanSpectator (credential : HumanSpectatorCredential)
  | administrator (credential : AdministratorCredential)
deriving DecidableEq

inductive CapabilityRepositoryError where
  | notFound
  | alreadyExists
  | corrupt
  | conflict
  | unavailable
deriving DecidableEq, Repr

inductive CapabilityError where
  | invalidRequest
  | entropyUnavailable
  | unauthorized
  | game (error : RepositoryError)
  | repository (error : CapabilityRepositoryError)
deriving DecidableEq, Repr

/-! Audit rows. -/

inductive AuditOutcome where
  | success
  | deniedMalformed
  | deniedUnknown
  | deniedExpired
  | deniedRevoked
  | deniedGame
  | deniedScope
deriving DecidableEq, Repr

/-! Tokens. -/

def CapabilityId.new (value : String) : Except CapabilityError CapabilityId :=
  if h : isLowerHex value 32 = true then .ok ⟨value, h⟩ else .error .invalidRequest

/-- The token of fresh material. -/
def CapabilityMaterial.token (material : CapabilityMaterial) : String :=
  tokenPrefix ++ "." ++ Bytes.hexLower material.capabilityId.toList ++ "." ++
    Bytes.hexLower material.secret.toList

/-- The identifier a well-formed token names. -/
def parseToken (value : String) : Except CapabilityError CapabilityId :=
  match (value.toList.splitOn '.').map String.ofList with
  | [pre, identifier, secret] =>
      if pre = tokenPrefix ∧ isLowerHex secret 64 = true then
        mapErr (fun _ => .unauthorized) (CapabilityId.new identifier)
      else .error .unauthorized
  | _ => .error .unauthorized

/-- The digest key of the server, as the digests it gives. -/
structure CapabilityDigestKey where
  digest : String → Digest

def CapabilityDigestKey.verifies (key : CapabilityDigestKey) (token : String) (expected : Digest) :
    Bool :=
  key.digest token = expected

/-! Roles and scopes. -/

def credential (record : CapabilityRecord) : AuthenticatedCredential :=
  match record.descriptor.binding.role with
  | .viewer => .viewer ⟨record.descriptor.binding.gameId⟩
  | .seat seat => .seat ⟨record.descriptor.binding.gameId, seat⟩
  | .humanSpectator => .humanSpectator ⟨record.descriptor.binding.gameId⟩
  | .administrator => .administrator ⟨record.descriptor.binding.gameId⟩

/-- Why a loaded record does not authenticate a token for a game and a scope. -/
def denial (key : CapabilityDigestKey) (token : String) (gameId : GameId) (scope : CapabilityScope)
    (now : UnixMillis) (record : CapabilityRecord) : Option AuditOutcome :=
  if record.digestVersion ≠ capabilityDigestVersion ∨ key.verifies token record.tokenDigest = false then
    some .deniedUnknown
  else if record.revokedAt.isSome = true then some .deniedRevoked
  else if record.descriptor.expiresAt ≤ now then some .deniedExpired
  else if record.descriptor.binding.gameId ≠ gameId then some .deniedGame
  else if scope ∉ record.descriptor.binding.scopes then some .deniedScope
  else none

theorem denial_eq_none {key : CapabilityDigestKey} {token : String} {gameId : GameId}
    {scope : CapabilityScope} {now : UnixMillis} {record : CapabilityRecord} :
    denial key token gameId scope now record = none ↔
      record.digestVersion = capabilityDigestVersion ∧ key.digest token = record.tokenDigest ∧
      record.revokedAt = none ∧ now < record.descriptor.expiresAt ∧
      record.descriptor.binding.gameId = gameId ∧ scope ∈ record.descriptor.binding.scopes := by
  unfold denial
  split_ifs with hDigest hRevoked hExpired hGame hScope
  · simp only [CapabilityDigestKey.verifies, decide_eq_false_iff_not] at hDigest
    simp only [false_iff]
    tauto
  · simp only [false_iff]
    rintro ⟨-, -, hNone, -⟩
    rw [hNone] at hRevoked
    cases hRevoked
  · simp only [false_iff]
    rintro ⟨-, -, -, hBefore, -⟩
    exact absurd hBefore (Int.not_lt.mpr hExpired)
  · simp only [false_iff]
    rintro ⟨-, -, -, -, hSame, -⟩
    exact hGame hSame
  · simp only [CapabilityDigestKey.verifies, decide_eq_false_iff_not, ne_eq, not_or, not_not] at hDigest
    simp only [true_iff]
    refine ⟨hDigest.1, hDigest.2, ?_, Int.not_le.mp hExpired, not_not.mp hGame, hScope⟩
    cases hRevokedAt : record.revokedAt with
    | none => rfl
    | some time => exact absurd (by rw [hRevokedAt]; rfl) hRevoked
  · simp only [false_iff]
    rintro ⟨-, -, -, -, -, hIn⟩
    exact hScope hIn

end WordArena.Capability
