import Famp.Pairing.Status
import Famp.Core.Principals
import Famp.Data.Instant
import Famp.Data.OrdMap
import Famp.Data.Run
import Famp.Json.Serde

/-!
# Redemptions and the commands on the invite store

A redemption first decides on the store as it reads it, without the lock, and goes on
under the lock where it has something to write.  The `pair` commands read and write
under the lock.  A lock, a read or a write may fail, and a write that fails leaves
the store as it was.
-/

set_option autoImplicit false

namespace Famp.Pairing

open Std Famp.Core Json Data

/-! ## Requests and answers -/

structure RedemptionRequest where
  code : String
  principal : String
  pubkeyB64url : String
  nonce : String
  deriving DecidableEq, Repr

structure RedemptionResponse where
  inviteId : String
  inviterPrincipal : String
  inviterPubkeyB64url : String
  redeemerKeyId : String
  at' : String
  deriving DecidableEq, Repr

structure Signed (α : Type) where
  statement : α
  sig : String
  deriving DecidableEq, Repr

open Serde in
def RedemptionRequest.read (tree : Tree) : Option RedemptionRequest := do
  match ← recordFields [required "code", required "principal", required "pubkey_b64url",
      required "nonce"] tree with
  | [code, principal, pubkeyB64url, nonce] =>
    some ⟨← readField readString code, ← readField readString principal,
      ← readField readString pubkeyB64url, ← readField readString nonce⟩
  | _ => none

open Serde in
def Signed.read {α : Type} (read : Tree → Option α) (tree : Tree) : Option (Signed α) := do
  match ← recordFields [required "statement", required "sig"] tree with
  | [statement, sig] => some ⟨← readField read statement, ← readField readString sig⟩
  | _ => none

inductive RejectReason where
  | malformedCode
  | ownDomainRefused
  | noPendingInvite
  | expired
  | alreadyRedeemed
  | attemptsExhausted
  | codeMismatch
  | invalidSignature
  | internalError
  deriving DecidableEq, Repr

/-- Keys of redeemers and the signatures that they make over their requests. -/
structure PairingCrypto (Key : Type) extends Keyring.KeyCrypto Key where
  /-- The text is a signature of the key over the request. -/
  verify : Key → RedemptionRequest → String → Bool

structure GatewayKey where
  pubkeyB64url : String
  sign : RedemptionResponse → Option String

structure PairingConfig (Key : Type) where
  text : Text
  book : CodeBook
  crypto : PairingCrypto Key
  sameKey : DecidableEq Key
  clock : Clock
  ownDomain : String

/-! ## The first pass -/

/-- What a redemption has left to do under the lock. -/
inductive SecondPass (Key : Type) where
  | burn
  | consume (request : RedemptionRequest) (key : Key) (digest : Bytes)

section Redemption
variable {Key : Type} (config : PairingConfig Key)

def presented (body : Bytes) :
    Option (Signed RedemptionRequest × List Char × Principal × Key) := do
  -- a field that is there twice is refused, and the accepted shape has no other object
  let value ← (config.text.fromSliceStrict body).toOption
  let signed ← Signed.read RedemptionRequest.read value
  let code ← parseCode config.book signed.statement.code
  let principal ← Principal.fromStr signed.statement.principal
  let key ← config.crypto.fromB64url signed.statement.pubkeyB64url
  some (signed, code, principal, key)

/-- `ingest_redemption_at` up to the lock.  `loads` is whether the store can be read. -/
def ingestRedemptionAt (store : InviteStore) (loads : Bool) (body : Bytes) (now : String) :
    Except RejectReason (SecondPass Key) :=
  match presented config body with
  | none => .error .malformedCode
  | some (signed, code, principal, key) =>
    if principal.authority = config.ownDomain then .error .ownDomainRefused
    else if !loads then .error .noPendingInvite
    else
      let digest := codeDigest config.book code
      match store.decide digest now with
      | .noPendingInvite => .error .noPendingInvite
      | .expired => .error .expired
      | .alreadyRedeemed => .error .alreadyRedeemed
      | .attemptsExhausted => .error .attemptsExhausted
      | .wrongCode => .ok .burn
      | .accept _ =>
        if config.crypto.verify key signed.statement signed.sig then
          .ok (.consume signed.statement key digest)
        else .error .invalidSignature

/-! ## The second pass -/

structure FileEnv where
  locks : Bool
  loads : Bool
  saves : Bool
  signingKey : Option GatewayKey

def FileEnv.update {α : Type} (env : FileEnv) (busy unsaved : α) (store : InviteStore)
    (change : InviteStore → Except α InviteStore) : Except α InviteStore :=
  if env.locks && env.loads then
    match change store with
    | .error error => .error error
    | .ok changed => if env.saves then .ok changed else .error unsaved
  else .error busy

def burnAndRejectWrongCode (env : FileEnv) (store : InviteStore) (now : String) :
    Except RejectReason InviteStore :=
  env.update .noPendingInvite .internalError store fun store => .ok (store.burnAttempt now)

/-- What `accept_and_consume` does to the store, with the invite that it consumes. -/
def acceptAndConsume (store : InviteStore) (request : RedemptionRequest) (key : Key)
    (digest : Bytes) (now : String) : Except RejectReason (InviteRecord × InviteStore) :=
  match store.decide digest now with
  | .alreadyRedeemed => .error .alreadyRedeemed
  | .expired => .error .expired
  | .attemptsExhausted => .error .attemptsExhausted
  | .wrongCode | .noPendingInvite => .error .noPendingInvite
  | .accept inviteId =>
    match store.find? fun record => record.id == inviteId with
    | none => .error .noPendingInvite
    | some invite =>
      match store.consume inviteId request.principal (config.crypto.keyId key)
          request.pubkeyB64url now with
      | .error _ => .error .internalError
      | .ok consumed => .ok (invite, consumed)

/-- The answer is made and signed after the store is written. -/
def respondTo (env : FileEnv) (invite : InviteRecord) (key : Key) (now : String) :
    Except RejectReason (Signed RedemptionResponse) :=
  match env.signingKey with
  | none => .error .internalError
  | some gatewayKey =>
    let response : RedemptionResponse :=
      ⟨invite.id, invite.principal, gatewayKey.pubkeyB64url, config.crypto.keyId key, now⟩
    match gatewayKey.sign response with
    | none => .error .internalError
    | some sig => .ok ⟨response, sig⟩

def secondPass (env : FileEnv) (store : InviteStore) (now : String) :
    SecondPass Key → Except RejectReason (Signed RedemptionResponse) × InviteStore
  | .burn =>
    match burnAndRejectWrongCode env store now with
    | .error reason => (.error reason, store)
    | .ok burned => (.error .codeMismatch, burned)
  | .consume request key digest =>
    if env.locks && env.loads then
      match acceptAndConsume config store request key digest now with
      | .error reason => (.error reason, store)
      | .ok (invite, consumed) =>
        if env.saves then (respondTo config env invite key now, consumed)
        else (.error .internalError, store)
    else (.error .noPendingInvite, store)

/-! ## The commands -/

structure PairInviteArgs where
  asPrincipal : String
  confirmInstalled : Bool

def add24h (now : String) : Option String :=
  (config.clock.parse now).map fun instant =>
    config.clock.format (floorSecond (instant + 24 * 3600 * second))

def newInvite (args : PairInviteArgs) (now id : String) (code : List Char) : Option InviteRecord :=
  if !args.confirmInstalled then none
  else
    match Principal.fromStr args.asPrincipal, add24h config now with
    | some principal, some expiresAt =>
      some ⟨id, principal.display, hexText (codeDigest config.book code), now, expiresAt, 0, .pending⟩
    | _, _ => none

inductive RevokeTarget where
  | one (id : String)
  | allPending

def revokeTarget (store : InviteStore) (now : String) : RevokeTarget → Option InviteStore
  | .one id => (store.revoke id now).toOption
  | .allPending => some (store.revokeAllPending now)

/-! ## The system -/

structure InFlight (Key : Type) where
  now : String
  pass : SecondPass Key

structure PairingSystem (Key : Type) where
  store : InviteStore
  inFlight : ExtTreeMap Nat (InFlight Key)

inductive Action (Key : Type) where
  /-- A redemption reads the store and decides. -/
  | present (redemption : Nat) (body : Bytes) (now : String) (loads : Bool)
  /-- A redemption goes on under the lock. -/
  | settle (redemption : Nat) (env : FileEnv)
  | invite (args : PairInviteArgs) (now id : String) (code : List Char) (env : FileEnv)
  | status (now : String) (confirmed : Bool) (keyring : Status.KeyringFile) (env : FileEnv)
  | revoke (target : RevokeTarget) (now : String) (env : FileEnv)

inductive Outcome where
  | started
  | answered (answer : Except RejectReason (Signed RedemptionResponse))
  | finished (success : Bool)
  deriving DecidableEq

def command (system : PairingSystem Key) (env : FileEnv) (change : InviteStore → Option InviteStore) :
    Outcome × PairingSystem Key :=
  let changed := env.update () () system.store fun store =>
    match change store with
    | none => .error ()
    | some changed => .ok changed
  match changed with
  | .error _ => (.finished false, system)
  | .ok store => (.finished true, { system with store })

/-- `pair status` with the keyring file that it finds; it writes the store where it has
pinned a record. -/
def status (system : PairingSystem Key) (now : String) (confirmed : Bool)
    (keyring : Status.KeyringFile) (env : FileEnv) : Outcome × PairingSystem Key :=
  letI := config.sameKey
  let finished := Status.runAt config.crypto.toKeyCrypto system.store keyring now confirmed
  if env.locks && env.loads then
    if finished.store = system.store then (.finished finished.result.isOk, system)
    else if env.saves then (.finished finished.result.isOk, { system with store := finished.store })
    else (.finished false, system)
  else (.finished false, system)

/-- One step; `none` for a redemption that is not there, or an id that is taken. -/
def act (system : PairingSystem Key) : Action Key → Option (Outcome × PairingSystem Key)
  | .present redemption body now loads =>
    if system.inFlight.contains redemption then none
    else
      match ingestRedemptionAt config system.store loads body now with
      | .error reason => some (.answered (.error reason), system)
      | .ok pass =>
        some (.started, { system with inFlight := system.inFlight.insert redemption ⟨now, pass⟩ })
  | .settle redemption env =>
    match system.inFlight[redemption]? with
    | none => none
    | some flight =>
      let (answer, store) := secondPass config env system.store flight.now flight.pass
      some (.answered answer, ⟨store, system.inFlight.erase redemption⟩)
  | .invite args now id code env =>
    if system.store.any fun record => record.id == id then none
    else
      some (command system env fun store =>
        (newInvite config args now id code).map fun record => store ++ [record])
  | .status now confirmed keyring env => some (status config system now confirmed keyring env)
  | .revoke target now env => some (command system env fun store => revokeTarget store now target)

/-- Every interleaving of redemptions and commands, from an empty store. -/
def pairingMachine : Machine (PairingSystem Key) (Action Key) Outcome where
  initial system := system = ⟨[], ∅⟩
  step system action outcome system' := act config system action = some (outcome, system')

end Redemption

end Famp.Pairing
