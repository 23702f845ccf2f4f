import Famp.Core.Ids
import Famp.Data.FixedWindow

/-!
# Authorization of fetches

A signed request to drain the queue of one domain at one relay: how it is minted
and verified, and what the relay remembers of nonces and rates.
-/

set_option autoImplicit false

namespace Famp.Relay

open Std Famp.Core Data Data.FixedWindow

def fetchAuthTyp : String := "famp-relay-fetch-v1"

def relayAuthAudHeader : String := "x-famp-relay-aud"
def relayAuthTsHeader : String := "x-famp-relay-ts"
def relayAuthNonceHeader : String := "x-famp-relay-nonce"
def relayAuthSigHeader : String := "x-famp-relay-sig"

def relayAuthHeaderMaxBytes : Nat := 512
def fetchFreshnessWindowSecs : Nat := 300
def fetchNonceTtlSecs : Int := 600
def fetchNonceMaxPerDomain : Nat := 4096
def fetchRateMaxPerWindow : Nat := 120
def fetchRateWindowSecs : Int := 60

/-- The value that is signed. -/
structure FetchAuthRequest where
  typ : String
  aud : String
  domain : String
  nonce : String
  ts : String
  deriving DecidableEq, Repr

structure SignedFetchAuth where
  aud : String
  ts : String
  nonce : String
  signatureB64url : String
  deriving DecidableEq, Repr

def SignedFetchAuth.headerPairs (auth : SignedFetchAuth) : List (String × String) :=
  [(relayAuthAudHeader, auth.aud), (relayAuthTsHeader, auth.ts), (relayAuthNonceHeader, auth.nonce),
    (relayAuthSigHeader, auth.signatureB64url)]

structure PresentedFetchAuth where
  aud : String
  ts : String
  nonce : String
  signatureB64url : String
  deriving DecidableEq, Repr

inductive FetchAuthReject where
  | missingHeader (header : String)
  | headerTooLong (header : String)
  | audienceMismatch (expected presented : String)
  | malformedTimestamp
  | staleFetch
  | malformedSignature
  | badSignature (domain : String)
  | replayedNonce
  | rateLimited
  deriving DecidableEq, Repr

/-- Signatures over fetch requests.  A signature is accepted only for the request it
was made for, under the key that made it. -/
structure FetchCrypto (Key SigningKey Signature : Type) where
  verifyingKey : SigningKey → Key
  sign : SigningKey → FetchAuthRequest → Signature
  verify : Key → FetchAuthRequest → Signature → Bool
  verify_sign : ∀ {key : Key} {request signed : FetchAuthRequest} {sk : SigningKey},
    verify key request (sign sk signed) = true → key = verifyingKey sk ∧ request = signed
  toB64url : Signature → String
  fromB64url : String → Option Signature
  fromB64url_toB64url : ∀ signature, fromB64url (toB64url signature) = some signature

section Minting
variable {Key SigningKey Signature : Type} (crypto : FetchCrypto Key SigningKey Signature) (clock : Clock)

/-- The nonce is the text of a fresh id. -/
def signFetchAuth (sk : SigningKey) (aud domain : String) (id : Uuid) (now : Int) : SignedFetchAuth :=
  let nonce := id.hyphenated
  let ts := clock.format now
  let signature := crypto.sign sk ⟨fetchAuthTyp, aud, domain, nonce, ts⟩
  ⟨aud, ts, nonce, crypto.toB64url signature⟩

def PresentedFetchAuth.tooLong? (presented : PresentedFetchAuth) : Option String :=
  let values := [(relayAuthAudHeader, presented.aud), (relayAuthTsHeader, presented.ts),
    (relayAuthNonceHeader, presented.nonce), (relayAuthSigHeader, presented.signatureB64url)]
  (values.find? fun header => decide (relayAuthHeaderMaxBytes < header.2.utf8ByteSize)).map Prod.fst

def verifyFetchAuth (presented : PresentedFetchAuth) (domain expectedAud : String) (keys : List Key)
    (now : Int) : Except FetchAuthReject Unit :=
  match presented.tooLong? with
  | some header => .error (.headerTooLong header)
  | none =>
    if presented.aud ≠ expectedAud then .error (.audienceMismatch expectedAud presented.aud)
    else
      match clock.parse presented.ts with
      | none => .error .malformedTimestamp
      | some tsInstant =>
        -- The fraction of `now` is cut off before the difference is taken.
        if fetchFreshnessWindowSecs < (wholeSeconds (floorSecond now - tsInstant)).natAbs then
          .error .staleFetch
        else
          match crypto.fromB64url presented.signatureB64url with
          | none => .error .malformedSignature
          | some signature =>
            let request : FetchAuthRequest :=
              ⟨fetchAuthTyp, presented.aud, domain, presented.nonce, presented.ts⟩
            if keys.any fun key => crypto.verify key request signature then .ok ()
            else .error (.badSignature domain)

end Minting

/-! ## Nonces and rates -/

/-- Domain, then nonce, then the instant the nonce was recorded at; and the bucket of
each domain. -/
structure FetchAuthState where
  nonces : ExtTreeMap String (ExtTreeMap String Int)
  buckets : ExtTreeMap String Bucket

namespace FetchAuthState

def new : FetchAuthState := ⟨∅, ∅⟩

/-- A nonce of exactly the lifetime is live. -/
def live (now recordedAt : Int) : Bool := decide (wholeSeconds (now - recordedAt) ≤ fetchNonceTtlSecs)

variable (state : FetchAuthState)

def memory (domain : String) : ExtTreeMap String Int := state.nonces.getD domain ∅

def recordNonce (domain nonce : String) (now : Int) : Except FetchAuthReject Unit × FetchAuthState :=
  let entries := Recent.sweep (live now) (state.memory domain)
  if nonce ∈ entries then
    (.error .replayedNonce, { state with nonces := state.nonces.insert domain entries })
  else
    (.ok (), { state with
      nonces := state.nonces.insert domain (Recent.note fetchNonceMaxPerDomain nonce now entries) })

def admitCall (domain : String) (now : Int) : Except FetchAuthReject Unit × FetchAuthState :=
  let stored := state.buckets.getD domain (now, 0)
  let bucket := if fetchRateWindowSecs ≤ wholeSeconds (now - stored.1) then (now, 0) else stored
  if fetchRateMaxPerWindow ≤ bucket.2 then
    (.error .rateLimited, { state with buckets := state.buckets.insert domain bucket })
  else (.ok (), { state with buckets := state.buckets.insert domain (bucket.1, bucket.2 + 1) })

/-- A domain without live nonces is taken out. -/
def sweep (now : Int) : FetchAuthState :=
  { state with nonces :=
      (state.nonces.map fun _ entries => Recent.sweep (live now) entries).filter fun _ entries =>
        !entries.isEmpty }

end FetchAuthState

end Famp.Relay
