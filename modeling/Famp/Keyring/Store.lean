import Famp.Core.Principals
import Famp.Data.Run

/-!
# The keyring

The keys that are pinned for each principal, with their life cycle, and the
operations on them.  Keys, their texts and ids, and signatures over revocation
statements are a parameter.
-/

set_option autoImplicit false

namespace Famp.Keyring

open Std Famp.Core Data

/-! ## Entries -/

inductive KeyState where
  | active | retired | revoked
  deriving DecidableEq, Repr

namespace KeyState

def asToken : KeyState → String
  | active => "active"
  | retired => "retired"
  | revoked => "revoked"

def fromToken : String → Option KeyState
  | "active" => some active
  | "retired" => some retired
  | "revoked" => some revoked
  | _ => none

end KeyState

/-- `YYYY-MM-DDTHH:MM:SSZ`, with any digits. -/
def isCanonicalUtc (text : String) : Bool :=
  match text.toList with
  | [y₁, y₂, y₃, y₄, '-', mo₁, mo₂, '-', d₁, d₂, 'T', h₁, h₂, ':', mi₁, mi₂, ':', s₁, s₂, 'Z'] =>
    [y₁, y₂, y₃, y₄, mo₁, mo₂, d₁, d₂, h₁, h₂, mi₁, mi₂, s₁, s₂].all Char.isDigit
  | _ => false

structure KeyEntry (Key : Type) where
  key : Key
  state : KeyState
  validUntil : Option String
  pinnedAt : Option String
  stateSince : Option String
  deriving DecidableEq, Repr

namespace KeyEntry
variable {Key : Type}

def legacy (key : Key) : KeyEntry Key := ⟨key, .active, none, none, none⟩

def isLegacyShaped (entry : KeyEntry Key) : Bool :=
  entry.state == .active && entry.validUntil.isNone && entry.pinnedAt.isNone &&
    entry.stateSince.isNone

def isActive (entry : KeyEntry Key) : Bool := entry.state == .active

/-- The entry in another state since `now`. -/
def inState (entry : KeyEntry Key) (state : KeyState) (now : String) : KeyEntry Key :=
  { entry with state, stateSince := some now }

end KeyEntry

/-! ## Revocation statements and the crypto of the keyring -/

structure RevocationStatement where
  principal : String
  revokedKeyId : String
  revokedAt : String
  reason : Option String
  deriving DecidableEq, Repr

structure SignedRevocation where
  statement : RevocationStatement
  sig : String
  deriving DecidableEq, Repr

/-- What the keyring uses of keys.  The base64url text of a key parses back to it,
and no two keys have the same id. -/
structure KeyCrypto (Key : Type) where
  toB64url : Key → String
  fromB64url : String → Option Key
  fromB64url_toB64url : ∀ key, fromB64url (toB64url key) = some key
  b64url_nonempty : ∀ key, (toB64url key).toList ≠ []
  b64url_chars : ∀ key, ∀ c ∈ (toB64url key).toList,
    Principal.isAsciiAlphanumeric c = true ∨ c = '-' ∨ c = '_'
  keyId : Key → String
  keyId_injective : Function.Injective keyId
  /-- The text is a signature that verifies over the statement. -/
  verifyStatement : Key → RevocationStatement → String → Bool

end Famp.Keyring

namespace Famp

/-- The entries of each principal that has some. -/
abbrev Keyring (Key : Type) := Std.ExtTreeMap Core.ParsedPrincipal (List (Keyring.KeyEntry Key))

end Famp

namespace Famp.Keyring

open Std Famp.Core Data

/-! ## Outcomes -/

inductive MalformedReason where
  | inlineComment
  | fieldCount (found : Nat)
  | invalidPrincipal
  | invalidState (token : String)
  | notCanonicalUtc (field raw : String)
  deriving DecidableEq, Repr

inductive KeyringError where
  | duplicatePrincipal (principal : ParsedPrincipal) (line : Nat)
  | duplicatePubkey (existing : ParsedPrincipal) (line : Nat)
  | duplicateKeyEntry (principal : ParsedPrincipal) (line : Nat)
  | malformedEntry (line : Nat) (reason : MalformedReason)
  | keyConflict (principal : ParsedPrincipal)
  | keyChangeRequiresConfirmation (principal : ParsedPrincipal) (previousKeyId newKeyId : String)
  | keyRevoked (principal : ParsedPrincipal) (keyId : String)
  | noSuchKeyEntry (principal : ParsedPrincipal) (keyId : String)
  | cannotRetire (principal : ParsedPrincipal) (keyId state : String)
  | nonCanonicalTimestamp (value : String)
  | revocationSignerNotAuthorized (principal : ParsedPrincipal)
  | revocationSignatureInvalid (principal : ParsedPrincipal)
  | revocationBlobMalformed (principal : String)
  | crypto
  deriving DecidableEq

inductive RotationOutcome where
  | firstPin
  | alreadyPinned
  | rotated (previousKeyId newKeyId : String)
  deriving DecidableEq, Repr

inductive KeyLookupOutcome (Key : Type) where
  | active (key : Key)
  | unpinned
  | expired (validUntil : String)
  | retired (retiredAt : Option String)
  | revoked (revokedAt : Option String)
  | nonCanonicalNow
  deriving DecidableEq, Repr

/-- The list with its first element that passes the test changed. -/
def modifyFirst {α : Type} (test : α → Bool) (change : α → α) : List α → List α
  | [] => []
  | x :: rest => if test x then change x :: rest else x :: modifyFirst test change rest

section Operations
variable {Key : Type} [DecidableEq Key] (crypto : KeyCrypto Key) (keyring : Keyring Key)

def entries (keyring : Keyring Key) (principal : ParsedPrincipal) : List (KeyEntry Key) :=
  keyring.getD principal []

/-! ### Queries -/

def get (principal : ParsedPrincipal) : Option Key :=
  ((entries keyring principal).find? KeyEntry.isActive).map KeyEntry.key

def activeKey (principal : ParsedPrincipal) (now : String) : KeyLookupOutcome Key :=
  if !isCanonicalUtc now then .nonCanonicalNow
  else
    let entries := entries keyring principal
    match entries.find? KeyEntry.isActive with
    | some active =>
      match active.validUntil with
      | some validUntil => if validUntil ≤ now then .expired validUntil else .active active.key
      | none => .active active.key
    | none =>
      match entries.find? fun entry => entry.state == .revoked with
      | some revoked => .revoked revoked.stateSince
      | none =>
        match entries.find? fun entry => entry.state == .retired with
        | some retired => .retired retired.stateSince
        | none => .unpinned

/-- The keys that may sign a revocation: the active one and the revoked one itself,
unless it is revoked already. -/
def authorizedSignerFor (principal : ParsedPrincipal) (revokedKeyId : String) : List Key :=
  ((entries keyring principal).filter fun entry =>
    entry.state != .revoked &&
      (entry.state == .active || crypto.keyId entry.key == revokedKeyId)).map KeyEntry.key

/-! ### Changes -/

def isRevokedIn (entries : List (KeyEntry Key)) (key : Key) : Bool :=
  entries.any fun entry => entry.state == .revoked && entry.key == key

def pinTofu (principal : ParsedPrincipal) (key : Key) : Except KeyringError (Keyring Key) :=
  let entries := entries keyring principal
  if isRevokedIn entries key then .error (.keyRevoked principal (crypto.keyId key))
  else
    match entries.find? KeyEntry.isActive with
    | some active => if active.key ≠ key then .error (.keyConflict principal) else .ok keyring
    | none => .ok (keyring.insert principal (entries ++ [KeyEntry.legacy key]))

def withPeer (principal : ParsedPrincipal) (key : Key) : Except KeyringError (Keyring Key) :=
  pinTofu crypto keyring principal key

/-- The timestamps that `rotateTo` checks before it looks at the keyring. -/
def checkTimestamps (now : String) (validUntil : Option String) : Except KeyringError Unit :=
  if !isCanonicalUtc now then .error (.nonCanonicalTimestamp now)
  else
    match validUntil with
    | none => .ok ()
    | some text => if !isCanonicalUtc text then .error (.nonCanonicalTimestamp text) else .ok ()

def rotateTo (principal : ParsedPrincipal) (newKey : Key) (now : String) (validUntil : Option String)
    (confirmed : Bool) : Except KeyringError (RotationOutcome × Keyring Key) :=
  match checkTimestamps now validUntil with
  | .error error => .error error
  | .ok () =>
    let entries := entries keyring principal
    let pinned : KeyEntry Key := ⟨newKey, .active, validUntil, some now, none⟩
    if isRevokedIn entries newKey then .error (.keyRevoked principal (crypto.keyId newKey))
    else
      match entries.find? KeyEntry.isActive with
      | none => .ok (.firstPin, keyring.insert principal (entries ++ [pinned]))
      | some old =>
        if old.key = newKey then .ok (.alreadyPinned, keyring)
        else if !confirmed then
          .error (.keyChangeRequiresConfirmation principal (crypto.keyId old.key)
            (crypto.keyId newKey))
        else
          .ok (.rotated (crypto.keyId old.key) (crypto.keyId newKey),
            keyring.insert principal
              (modifyFirst KeyEntry.isActive (·.inState .retired now) entries ++ [pinned]))

def hasId (keyId : String) (entry : KeyEntry Key) : Bool := crypto.keyId entry.key == keyId

/-- A principal without entries is taken out. -/
def retire (principal : ParsedPrincipal) (keyId : String) : Except KeyringError (Keyring Key) :=
  let entries := entries keyring principal
  match entries.find? (hasId crypto keyId) with
  | none => .error (.noSuchKeyEntry principal keyId)
  | some entry =>
    match entry.state with
    | .active => .error (.cannotRetire principal keyId "active")
    | .revoked => .error (.cannotRetire principal keyId "revoked")
    | .retired =>
      let rest := entries.eraseP (hasId crypto keyId)
      .ok (if rest.isEmpty then keyring.erase principal else keyring.insert principal rest)

def revoke (principal : ParsedPrincipal) (keyId now : String) : Except KeyringError (Keyring Key) :=
  if !isCanonicalUtc now then .error (.nonCanonicalTimestamp now)
  else
    let entries := entries keyring principal
    match entries.find? (hasId crypto keyId) with
    | none => .error (.noSuchKeyEntry principal keyId)
    | some entry =>
      if entry.state = .revoked then .ok keyring
      else
        .ok (keyring.insert principal
          (modifyFirst (hasId crypto keyId) (·.inState .revoked now) entries))

/-- The signature is looked at only when there is a key that may sign. -/
def checkSignature (signed : SignedRevocation) (principal : ParsedPrincipal) :
    Except KeyringError Unit :=
  match authorizedSignerFor crypto keyring principal signed.statement.revokedKeyId with
  | [] => .error (.revocationSignerNotAuthorized principal)
  | candidates =>
    if candidates.any fun key => crypto.verifyStatement key signed.statement signed.sig then .ok ()
    else .error (.revocationSignatureInvalid principal)

def applySignedRevocation (signed : SignedRevocation) (now : String) :
    Except KeyringError (Keyring Key) :=
  let statement := signed.statement
  if !isCanonicalUtc now then .error (.nonCanonicalTimestamp now)
  else if !isCanonicalUtc statement.revokedAt then
    .error (.nonCanonicalTimestamp statement.revokedAt)
  else
    match ParsedPrincipal.fromStr statement.principal with
    | none => .error (.revocationBlobMalformed statement.principal)
    | some principal =>
      if !(entries keyring principal).any (hasId crypto statement.revokedKeyId) then
        .error (.noSuchKeyEntry principal statement.revokedKeyId)
      else
        match checkSignature crypto keyring signed principal with
        | .error error => .error error
        | .ok () => revoke crypto keyring principal statement.revokedKeyId statement.revokedAt

/-! ### Calls -/

inductive Call (Key : Type) where
  | pinTofu (principal : ParsedPrincipal) (key : Key)
  | withPeer (principal : ParsedPrincipal) (key : Key)
  | rotateTo (principal : ParsedPrincipal) (newKey : Key) (now : String) (validUntil : Option String)
      (confirmed : Bool)
  | retire (principal : ParsedPrincipal) (keyId : String)
  | revoke (principal : ParsedPrincipal) (keyId now : String)
  | applySignedRevocation (signed : SignedRevocation) (now : String)

/-- The keyring that a call makes, where it succeeds. -/
def outcome : Call Key → Except KeyringError (Keyring Key)
  | .pinTofu principal key => pinTofu crypto keyring principal key
  | .withPeer principal key => withPeer crypto keyring principal key
  | .rotateTo principal newKey now validUntil confirmed =>
    (rotateTo crypto keyring principal newKey now validUntil confirmed).map Prod.snd
  | .retire principal keyId => retire crypto keyring principal keyId
  | .revoke principal keyId now => revoke crypto keyring principal keyId now
  | .applySignedRevocation signed now => applySignedRevocation crypto keyring signed now

/-- A call that fails leaves the keyring as it is. -/
def perform (call : Call Key) : Except KeyringError Unit × Keyring Key :=
  match outcome crypto keyring call with
  | .ok changed => (.ok (), changed)
  | .error error => (.error error, keyring)

end Operations

end Famp.Keyring
