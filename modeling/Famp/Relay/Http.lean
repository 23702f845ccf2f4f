import Famp.Data.Run
import Famp.Relay.FetchAuth
import Famp.Relay.Queue

/-!
# The routes of the relay

Anyone may post to the queue of a served domain; a fetch drains it for a signed
authorization.  The relay is a function of its state and the request.
-/

set_option autoImplicit false

namespace Famp.Relay

open Std Data Json

/-- The domains that are served, each with the keys that may drain it, and the URL of
the relay. -/
structure RelayConfig (Key : Type) where
  domains : ExtTreeMap String (List Key)
  audience : String

structure RelayState where
  queues : RelayQueues
  auth : FetchAuthState

def RelayState.new : RelayState := ⟨∅, .new⟩

/-- JSON documents on the wire and unpadded base64url texts, both read back as they
were written. -/
structure Coding (Wire : Type) where
  toVec : Value → Wire
  fromSlice : Wire → Option Tree
  fromSlice_toVec : ∀ value, fromSlice (toVec value) = some value.val
  encode : Bytes → String
  decode : String → Option Bytes
  decode_encode : ∀ bytes, decode (encode bytes) = some bytes

/-! ## Posts -/

/-- Only as much of a principal as the queues need: the domain. -/
def extractDomain (principal : String) : Option String :=
  let chars := principal.toList
  if chars.take 6 = "agent:".toList then
    let rest := chars.drop 6
    if rest.contains '/' then
      let domain := rest.takeWhile (· ≠ '/')
      if domain.isEmpty then none else some (String.ofList domain)
    else none
  else none

inductive StatusCode where
  | badRequest
  | notFound
  | accepted
  deriving DecidableEq, Repr

def enqueueHandler {Key : Type} (config : RelayConfig Key) (state : RelayState) (principal : String)
    (body : Bytes) (now : Int) : StatusCode × RelayState :=
  match extractDomain principal with
  | none => (.badRequest, state)
  | some domain =>
    if !config.domains.contains domain then (.notFound, state)
    else (.accepted, { state with queues := (state.queues.enqueue domain principal body now).2 })

/-! ## Fetches -/

/-- The text of the first value of a header, where it has one. -/
abbrev Headers := String → Option String

def extractHeader (headers : Headers) (name : String) : Except FetchAuthReject String :=
  match headers name with
  | some text => .ok text
  | none => .error (.missingHeader name)

def presentedFetchAuth (headers : Headers) : Except FetchAuthReject PresentedFetchAuth := do
  let aud ← extractHeader headers relayAuthAudHeader
  let ts ← extractHeader headers relayAuthTsHeader
  let nonce ← extractHeader headers relayAuthNonceHeader
  let signatureB64url ← extractHeader headers relayAuthSigHeader
  return ⟨aud, ts, nonce, signatureB64url⟩

section Routes
variable {Key SigningKey Signature Wire : Type} (config : RelayConfig Key)
  (crypto : FetchCrypto Key SigningKey Signature) (clock : Clock) (coding : Coding Wire)

def envelopeValue (entry : QueuedEnvelope) : Value :=
  .obj [("body", .str (coding.encode entry.bytes)), ("to", .str entry.recipient)]
    (List.pairwise_pair.mpr (show "body" < "to" by decide))

def batchValue (drained : List QueuedEnvelope) : Value :=
  .obj [("envelopes", .arr (drained.map (envelopeValue coding)))] (List.pairwise_singleton _ _)

def ingestFetch (state : RelayState) (domain : String) (keys : List Key) (headers : Headers) (now : Int) :
    Except FetchAuthReject Wire × RelayState :=
  match presentedFetchAuth headers with
  | .error reject => (.error reject, state)
  | .ok presented =>
    match state.auth.admitCall domain now with
    | (.error reject, auth) => (.error reject, { state with auth })
    | (.ok (), auth) =>
      match verifyFetchAuth crypto clock presented domain config.audience keys now with
      | .error reject => (.error reject, { state with auth })
      | .ok () =>
        match auth.recordNonce domain presented.nonce now with
        | (.error reject, auth) => (.error reject, { state with auth })
        | (.ok (), auth) =>
          let (drained, queues) := state.queues.drain domain now relayFetchMaxBatch
          (.ok (coding.toVec (batchValue coding drained)), ⟨queues, auth⟩)

/-! ## The relay -/

inductive Request where
  | enqueue (principal : String) (body : Bytes) (now : Int)
  | fetch (domain : String) (headers : Headers) (now : Int)
  | sweep (now : Int)

def Request.now : Request → Int
  | .enqueue _ _ now | .fetch _ _ now | .sweep now => now

inductive Response (Wire : Type) where
  | status (code : StatusCode)
  | unknownDomain
  | rejected (reject : FetchAuthReject)
  | batch (body : Wire)
  | swept

def respond (state : RelayState) : Request → Response Wire × RelayState
  | .enqueue principal body now =>
    let (code, state) := enqueueHandler config state principal body now
    (.status code, state)
  | .fetch domain headers now =>
    match config.domains[domain]? with
    | none => (.unknownDomain, state)
    | some keys =>
      match ingestFetch config crypto clock coding state domain keys headers now with
      | (.error reject, state) => (.rejected reject, state)
      | (.ok body, state) => (.batch body, state)
  | .sweep now => (.swept, ⟨state.queues.sweep now, state.auth.sweep now⟩)

variable {config crypto clock coding} in
theorem respond_fetch {state : RelayState} {domain : String} {keys : List Key} {headers : Headers}
    {now : Int} (served : config.domains[domain]? = some keys) :
    respond config crypto clock coding state (.fetch domain headers now) =
      (match (ingestFetch config crypto clock coding state domain keys headers now).1 with
        | .error reject => .rejected reject
        | .ok body => .batch body,
        (ingestFetch config crypto clock coding state domain keys headers now).2) := by
  simp only [respond, served]
  split
  next fetched => rw [fetched]
  next fetched => rw [fetched]

end Routes

/-! ## A relay with one domain -/

/-- The only request for which `sampleCrypto` signs. -/
def sampleRequest : FetchAuthRequest where
  typ := fetchAuthTyp
  aud := "https://relay.test"
  domain := "hosta.test"
  nonce := Core.Uuid.nil.hyphenated
  ts := "2026-11-16T12:00:00Z"

def sampleCrypto : FetchCrypto Unit Unit Bool where
  verifyingKey := id
  sign _ request := decide (request = sampleRequest)
  verify _ request signature := signature && decide (request = sampleRequest)
  verify_sign accepted := by
    simp only [Bool.and_eq_true, decide_eq_true_eq] at accepted
    exact ⟨rfl, accepted.2.trans accepted.1.symm⟩
  toB64url signature := if signature then "c2ln" else "bm8"
  fromB64url text := if text = "c2ln" then some true else if text = "bm8" then some false else none
  fromB64url_toB64url := by decide

def sampleConfig : RelayConfig Unit := ⟨.ofList [("hosta.test", [()])], "https://relay.test"⟩

/-- Documents as they are, and bytes as the characters with their numbers. -/
def sampleCoding : Coding Value where
  toVec value := value
  fromSlice value := some value.val
  fromSlice_toVec _ := rfl
  encode bytes := String.ofList (bytes.map fun byte => Char.ofNat byte.toNat)
  decode text := some (text.toList.map fun c => UInt8.ofNat c.toNat)
  decode_encode bytes := by
    have byte : ∀ byte : UInt8, UInt8.ofNat (Char.ofNat byte.toNat).toNat = byte := by
      intro byte
      have valid : byte.toNat.isValidChar := .inl (Nat.lt_trans byte.toNat_lt (by decide))
      rw [Char.ofNat, dif_pos valid]
      exact UInt8.ofNat_toNat
    simp [Function.comp_def, byte]

def sampleNoon : Int := 1794830400 * second

def sampleAuth : SignedFetchAuth :=
  signFetchAuth sampleCrypto rfc3339 () "https://relay.test" "hosta.test" Core.Uuid.nil sampleNoon

def sampleHeaders : Headers := fun name => sampleAuth.headerPairs.lookup name

end Famp.Relay
