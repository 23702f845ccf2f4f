import Famp.Core.Ids
import Famp.Data.Words
import Famp.Json.Text

/-!
# The invite store

Invites to pair with another gateway, each with a code of which the store keeps the
digest, and the operations that decide about a presented code and move an invite
through its life.
-/

set_option autoImplicit false

namespace Famp.Pairing

open Famp.Core Json Data

/-! ## Records -/

inductive InviteState where
  | pending
  | redeemed (by' keyId pubkeyB64url at' : String)
  | pinned (at' : String)
  | revoked (at' : String)
  deriving DecidableEq, Repr

namespace InviteState

def isPending : InviteState → Bool
  | pending => true
  | _ => false

def isRedeemed : InviteState → Bool
  | redeemed .. => true
  | _ => false

def isRevoked : InviteState → Bool
  | revoked _ => true
  | _ => false

end InviteState

structure InviteRecord where
  id : String
  principal : String
  /-- The digest of the code, in hexadecimal. -/
  codeDigest : String
  createdAt : String
  expiresAt : String
  attempts : Nat
  state : InviteState
  deriving DecidableEq, Repr

def maxAttempts : Nat := 5

/-- Timestamps are canonical, so the order of their texts is that of time. -/
def InviteRecord.isExpired (record : InviteRecord) (now : String) : Bool :=
  decide (record.expiresAt ≤ now)

abbrev InviteStore := List InviteRecord

/-! ## Codes -/

def codeWordCount : Nat := 5

/-- What the pairing code uses of its word list, of Unicode and of SHA-256. -/
structure CodeBook where
  wordlist : List (List Char)
  /-- `str::to_lowercase`. -/
  toLowercase : List Char → List Char
  digest : List Char → Bytes

/-- `parse_code`: the canonical text of a code. -/
def parseCode (book : CodeBook) (raw : String) : Option (List Char) :=
  let tokens := words (book.toLowercase raw.toList)
  if tokens.length ≠ codeWordCount then none
  else if tokens.all fun token => decide (token ∈ book.wordlist) then
    some ([' '].intercalate tokens)
  else none

def codeDigest (book : CodeBook) (code : List Char) : Bytes := book.digest code

/-- `hex::decode`: two digits for each byte. -/
def hexBytes : List Char → Option Bytes
  | [] => some []
  | [_] => none
  | high :: low :: rest =>
    match Uuid.hexDigit? high, Uuid.hexDigit? low, hexBytes rest with
    | some high, some low, some bytes => some (UInt8.ofNat (16 * high + low) :: bytes)
    | _, _, _ => none

def digestFromHex (text : String) : Option Bytes :=
  match hexBytes text.toList with
  | some bytes => if bytes.length = 32 then some bytes else none
  | none => none

/-- `hex::encode`. -/
def hexText (bytes : Bytes) : String :=
  String.ofList (bytes.flatMap fun byte => Uuid.hexChars 2 byte.toNat)

/-- All bytes are compared, with no early return. -/
def digestsEqual (a b : Bytes) : Bool :=
  (List.zipWith (· ^^^ ·) a b).foldl (· ||| ·) 0 == 0

/-! ## Decisions -/

inductive RedemptionDecision where
  | accept (id : String)
  | wrongCode
  | expired
  | alreadyRedeemed
  | attemptsExhausted
  | noPendingInvite
  deriving DecidableEq, Repr

namespace InviteStore

def hasDigest (digest : Bytes) (record : InviteRecord) : Bool :=
  match digestFromHex record.codeDigest with
  | some stored => digestsEqual digest stored
  | none => false

def live (store : InviteStore) : List InviteRecord := store.filter fun record => !record.state.isRevoked

/-- Every live record is looked at, and the last that matches is taken. -/
def matched (store : InviteStore) (digest : Bytes) : Option InviteRecord :=
  (live store).foldl (fun found record => if hasDigest digest record then some record else found) none

def decide (store : InviteStore) (digest : Bytes) (now : String) : RedemptionDecision :=
  if (live store).isEmpty then .noPendingInvite
  else
    match matched store digest with
    | some record =>
      match record.state with
      | .redeemed .. | .pinned _ => .alreadyRedeemed
      -- not reached: revoked records are not live
      | .revoked _ => .noPendingInvite
      | .pending =>
        if record.isExpired now then .expired
        else if maxAttempts ≤ record.attempts then .attemptsExhausted
        else .accept record.id
    | none =>
      let livePending := (live store).filter fun record => record.state.isPending
      if livePending.isEmpty then .noPendingInvite
      else if livePending.all fun record => record.isExpired now then .expired
      else if (livePending.filter fun record => !record.isExpired now).all fun record =>
          maxAttempts ≤ record.attempts then
        .attemptsExhausted
      else .wrongCode

/-! ## Changes -/

/-- One wrong guess: the counter is an unsigned integer of 32 bits that wraps. -/
def burned (now : String) (record : InviteRecord) : InviteRecord :=
  if record.state.isPending && !record.isExpired now then
    { record with attempts := (record.attempts + 1) % 2 ^ 32 }
  else record

def burnAttempt (store : InviteStore) (now : String) : InviteStore := store.map (burned now)

inductive PairingError where
  | unknownInvite (id : String)
  | alreadyRedeemed
  deriving DecidableEq, Repr

def setState (id : String) (state : InviteState) : InviteStore → InviteStore
  | [] => []
  | record :: rest =>
    if record.id = id then { record with state } :: rest else record :: setState id state rest

def consume (store : InviteStore) (id redeemer keyId pubkeyB64url now : String) :
    Except PairingError InviteStore :=
  match store.find? fun record => record.id == id with
  | none => .error (.unknownInvite id)
  | some record =>
    if record.state.isPending then
      .ok (setState id (.redeemed redeemer keyId pubkeyB64url now) store)
    else .error .alreadyRedeemed

def revoke (store : InviteStore) (id now : String) : Except PairingError InviteStore :=
  match store.find? fun record => record.id == id with
  | none => .error (.unknownInvite id)
  | some _ => .ok (setState id (.revoked now) store)

def revokeAllPending (store : InviteStore) (now : String) : InviteStore :=
  store.map fun record =>
    if record.state.isPending then { record with state := .revoked now } else record

end InviteStore

end Famp.Pairing
