import Famp.Bus.Proto
import Famp.Envelope.Signed
import Famp.Gateway.Guard
import Famp.Json.Plain
import Famp.Keyring.Store

/-!
# The ingest core of the gateway

From the bytes of an inbound request to a `Send` on the connection of the proxied
sender, or to the first gate that refuses.  The bytes are parsed four times on the
way: for the guard, for the sender whose key is looked up, for the typed envelope,
and for the document that is sent on.
-/

set_option autoImplicit false

namespace Famp.Gateway

open Std Famp.Core Data Json Envelope Keyring

/-! ## Refusals -/

inductive RejectReason where
  | invalidSignature
  | unpinnedKey (principal : ParsedPrincipal)
  | expiredKey (principal : ParsedPrincipal) (validUntil : String)
  | revokedKey (principal : ParsedPrincipal) (revokedAt : Option String)
  deriving DecidableEq

inductive IngressError where
  | badPrincipal
  | invalidSignature
  | unpinnedKey (principal : ParsedPrincipal)
  | expiredKey (principal : ParsedPrincipal) (validUntil : String)
  | revokedKey (principal : ParsedPrincipal)
  | senderNotBacked
  | misaddressedRecipient (envelopeTo recipient : Principal)
  | foreignDomain (expected got : String)
  | malformedFederationFields
  | badEnvelopeShape
  | staleTimestamp (ts now : String) (skewSecs : Nat)
  | replayedNonce (principal nonce : String)
  | missingNonce (principal : String)
  | rateLimited (principal : String) (limit : Nat) (windowSecs : Int)
  | internal
  deriving DecidableEq

def ingressErrorForReject : RejectReason → IngressError
  | .invalidSignature => .invalidSignature
  | .unpinnedKey principal => .unpinnedKey principal
  | .expiredKey principal validUntil => .expiredKey principal validUntil
  | .revokedKey principal _ => .revokedKey principal

def ingressErrorForGuard : GuardReject → IngressError
  | .badEnvelopeShape => .badEnvelopeShape
  | .staleTimestamp ts now skewSecs => .staleTimestamp ts now skewSecs
  | .replayedNonce principal nonce => .replayedNonce principal nonce
  | .missingNonce principal => .missingNonce principal
  | .foreignDomain expected got => .foreignDomain expected got
  | .senderNotBacked _ => .senderNotBacked
  | .rateLimited principal limit windowSecs => .rateLimited principal limit windowSecs

/-! ## Verification -/

def peekSender (K : Text) (bytes : Bytes) : Except SignedDecodeError ParsedPrincipal :=
  match K.fromSliceStrict bytes with
  | .error error => .error (.decode (.malformedJson error))
  | .ok value =>
    match ((value.val.get? "from").bind Tree.asStr?).bind ParsedPrincipal.fromStr with
    | none => .error (.decode (.missingField "from"))
    | some sender => .ok sender

/-- The key of an active outcome, and the reason of any other. -/
def usableKey {Key : Type} (sender : ParsedPrincipal) : KeyLookupOutcome Key → Except RejectReason Key
  | .active key => .ok key
  | .unpinned => .error (.unpinnedKey sender)
  | .retired _ => .error (.unpinnedKey sender)
  | .expired validUntil => .error (.expiredKey sender validUntil)
  | .revoked revokedAt => .error (.revokedKey sender revokedAt)
  | .nonCanonicalNow => .error (.unpinnedKey sender)

section Ingest
variable (K : Text) {Key Signature Connection : Type} (crypto : EnvelopeCrypto Key Signature)

def verifyInboundAny (bytes : Bytes) (keyring : Keyring Key) (now : String) :
    Except RejectReason (AnySignedEnvelope Signature) :=
  match peekSender K bytes with
  | .error _ => .error .invalidSignature
  | .ok sender =>
    match usableKey sender (activeKey keyring sender now) with
    | .error reason => .error reason
    | .ok key =>
      match AnySignedEnvelope.decode crypto K bytes key with
      | .error _ => .error .invalidSignature
      | .ok envelope => .ok envelope

def checkAudienceAndFormat (envelope : AnySignedEnvelope Signature) (recipient : Principal) :
    Except IngressError Unit :=
  if envelope.recipient ≠ recipient then
    .error (.misaddressedRecipient envelope.recipient recipient)
  else if !envelope.federationFormatOk then .error .malformedFederationFields
  else .ok ()

/-! ## Delivery -/

def relayWrapperFields : List String :=
  ["signature", "from_domain", "to_domain", "sender_key_id", "nonce", "expiry", "capability",
    "approval"]

def stripRelayFields (value : Value) : Value := relayWrapperFields.foldl Value.remove value

abbrev GatewayRegistry (Connection : Type) := ExtTreeMap String Connection

/-- A frame that is sent on the connection of a proxied principal. -/
structure Delivery (Connection : Type) where
  connection : Connection
  frame : Bus.BusMessage
  deriving DecidableEq

/-- What one request did: the frame it sent, if any, and how it was answered. -/
structure Ingested (Connection : Type) where
  sent : Option (Delivery Connection)
  outcome : Except IngressError Unit

/-- `bus` is the reply to a frame, `none` where the connection fails. -/
def deliver (sender recipient : Principal) (body : Bytes) (registry : GatewayRegistry Connection)
    (bus : Delivery Connection → Option Bus.BusReply) : Ingested Connection :=
  match K.fromSlice body with
  | .error _ => ⟨none, .error .internal⟩
  | .ok value =>
    match registry[sender.name]? with
    | none => ⟨none, .error .senderNotBacked⟩
    | some connection =>
      let delivery : Delivery Connection :=
        ⟨connection, .send (.agent recipient.name) (stripRelayFields value)⟩
      ⟨some delivery,
        match bus delivery with
        | some (.sendOk _ _) => .ok ()
        | _ => .error .internal⟩

/-! ## The ingest core -/

structure GatewayIngressState (Key Connection : Type) where
  registry : GatewayRegistry Connection
  keyring : Keyring Key
  ownDomain : String
  guard : IngressGuard

variable (clock : Clock) (bus : Delivery Connection → Option Bus.BusReply)

/-- The registry is locked twice, for the guard and for the delivery; `delivering`
is what the second lock finds. -/
def ingestInboundAt (recipient : Principal) (body : Bytes)
    (state : GatewayIngressState Key Connection) (delivering : GatewayRegistry Connection)
    (now : String) : Ingested Connection × IngressGuard :=
  match peekGuardFields K body with
  | .error reject => (⟨none, .error (ingressErrorForGuard reject)⟩, state.guard)
  | .ok peeked =>
    let input : GuardInput :=
      ⟨peeked, now, state.ownDomain, (state.registry[peeked.sender.name]?).isSome⟩
    match runCheapGates clock state.guard input with
    | (.error reject, guard) => (⟨none, .error (ingressErrorForGuard reject)⟩, guard)
    | (.ok (), guard) =>
      match verifyInboundAny K crypto body state.keyring now with
      | .error reason => (⟨none, .error (ingressErrorForReject reason)⟩, guard)
      | .ok envelope =>
        match checkAudienceAndFormat envelope recipient with
        | .error error => (⟨none, .error error⟩, guard)
        | .ok () => (deliver K envelope.sender recipient body delivering bus, guard)

end Ingest

/-! ## What each stage establishes -/

theorem stripRelayFields_val {value : Value} {members : List (String × Tree)}
    (isObject : value.val = .obj members) :
    (stripRelayFields value).val =
      .obj (members.filter fun member => decide (member.1 ∉ relayWrapperFields)) :=
  Value.foldl_remove_val relayWrapperFields isObject

variable {recipient : Principal} {sender : ParsedPrincipal} {now : String}

section Stages
variable {K : Text} {Key Signature Connection : Type} {crypto : EnvelopeCrypto Key Signature}
variable {body : Bytes} {value : Value}

theorem peekGuardFields_ok {peeked : PeekedFields} (read : peekGuardFields K body = .ok peeked) :
    ∃ value : Value, K.fromSliceStrict body = .ok value ∧ Peeked value.val peeked := by
  unfold peekGuardFields at read
  split at read
  next => cases read
  next value parsed => exact ⟨value, parsed, peekTree_ok read⟩

theorem peekSender_ok (parsed : K.fromSliceStrict body = .ok value)
    (read : peekSender K body = .ok sender) : principalAt value "from" = some sender.principal := by
  simp only [peekSender, parsed] at read
  split at read
  next => cases read
  next found present =>
    cases read
    obtain ⟨text, isText, known⟩ := Option.bind_eq_some_iff.mp present
    obtain ⟨item, stored, asText⟩ := Option.bind_eq_some_iff.mp isText
    rw [principalAt, stored, Option.bind_some, readPrincipal, asText, Option.bind_some]
    exact ParsedPrincipal.principal_of_fromStr known

theorem usableKey_ok {outcome : KeyLookupOutcome Key} {key : Key}
    (usable : usableKey sender outcome = .ok key) : outcome = .active key := by
  cases outcome <;> cases usable
  rfl

theorem verifyInboundAny_ok {keyring : Keyring Key} {envelope : AnySignedEnvelope Signature}
    (parsed : K.fromSliceStrict body = .ok value)
    (verified : verifyInboundAny K crypto body keyring now = .ok envelope) :
    ∃ (sender : ParsedPrincipal) (key : Key), principalAt value "from" = some sender.principal ∧
      activeKey keyring sender now = .active key ∧ IsSigned crypto key value ∧
      Names value envelope.sender envelope.recipient := by
  unfold verifyInboundAny at verified
  split at verified
  next => cases verified
  next sender peeked =>
    split at verified
    next => cases verified
    next key usable =>
      split at verified
      next => cases verified
      next decodedEnvelope decoded =>
        cases verified
        obtain ⟨signed, names⟩ := AnySignedEnvelope.decode_ok parsed decoded
        exact ⟨sender, key, peekSender_ok parsed peeked, usableKey_ok usable, signed, names⟩

theorem checkAudienceAndFormat_ok {envelope : AnySignedEnvelope Signature}
    (passed : checkAudienceAndFormat envelope recipient = .ok ()) :
    envelope.recipient = recipient := by
  unfold checkAudienceAndFormat at passed
  split at passed
  next => cases passed
  next same => exact not_not.mp same

theorem deliver_sent {sender : Principal} {registry : GatewayRegistry Connection}
    {bus : Delivery Connection → Option Bus.BusReply} {delivery : Delivery Connection}
    (parsed : K.fromSliceStrict body = .ok value)
    (sent : (deliver K sender recipient body registry bus).sent = some delivery) :
    registry[sender.name]? = some delivery.connection ∧
      delivery.frame = .send (.agent recipient.name) (stripRelayFields value) := by
  simp only [deliver, Text.fromSlice_of_strict parsed] at sent
  split at sent
  next => cases sent
  next connection backed =>
    cases sent
    exact ⟨backed, rfl⟩

end Stages

/-! ## Nothing is sent unverified -/

/-- What has been checked of a request before its document `value`, from `sender`,
is sent on. -/
structure Verified {Key Signature Connection : Type} (K : Text)
    (crypto : EnvelopeCrypto Key Signature) (clock : Clock)
    (state : GatewayIngressState Key Connection) (delivering : GatewayRegistry Connection)
    (recipient : Principal) (body : Bytes) (now : String) (delivery : Delivery Connection)
    (value : Value) (sender : ParsedPrincipal) : Prop where
  /-- The body parses, without a repeated key. -/
  parses : K.fromSliceStrict body = .ok value
  /-- It names its sender, and is signed with the key that is active for it. -/
  named : principalAt value "from" = some sender.principal
  signed : ∃ key, activeKey state.keyring sender now = .active key ∧ IsSigned crypto key value
  /-- It is for the recipient of the request, of the own domain. -/
  addressed : principalAt value "to" = some recipient
  own : recipient.authority = state.ownDomain
  /-- It is fresh, and its nonce was not live under the name of its sender. -/
  fresh : ∃ ts sentAt current, value.val.get? "ts" = some (.str ts) ∧ clock.parse ts = some sentAt ∧
    clock.parse now = some current ∧ (wholeSeconds (current - sentAt)).natAbs ≤ 300
  new : ∃ nonce current, value.val.get? "nonce" = some (.str nonce) ∧ nonce ≠ "" ∧
    clock.parse now = some current ∧ nonce ∉ state.guard.swept sender.principal.name current
  /-- It goes to the recipient's name, on the connection of its sender. -/
  connection : delivering[sender.principal.name]? = some delivery.connection
  frame : ∃ members stripped, value.val = .obj members ∧
    delivery.frame = .send (.agent recipient.name) stripped ∧
    stripped.val = .obj (members.filter fun member => decide (member.1 ∉ relayWrapperFields))

section Main
variable {K : Text} {Key Signature Connection : Type} {crypto : EnvelopeCrypto Key Signature}
variable {clock : Clock} {bus : Delivery Connection → Option Bus.BusReply}

theorem stages_of_sent {body : Bytes} {state : GatewayIngressState Key Connection}
    {delivering : GatewayRegistry Connection} {delivery : Delivery Connection}
    (sent : (ingestInboundAt K crypto clock bus recipient body state delivering now).1.sent =
      some delivery) :
    ∃ peeked envelope, peekGuardFields K body = .ok peeked ∧
      (runCheapGates clock state.guard ⟨peeked, now, state.ownDomain,
        (state.registry[peeked.sender.name]?).isSome⟩).1 = .ok () ∧
      verifyInboundAny K crypto body state.keyring now = .ok envelope ∧
      checkAudienceAndFormat envelope recipient = .ok () ∧
      (deliver K envelope.sender recipient body delivering bus).sent = some delivery := by
  unfold ingestInboundAt at sent
  split at sent
  next => cases sent
  next peeked read =>
    dsimp only at sent
    split at sent
    next => cases sent
    next guard admitted =>
      split at sent
      next => cases sent
      next envelope verified =>
        split at sent
        next => cases sent
        next passed =>
          exact ⟨peeked, envelope, read, by rw [admitted], verified, passed, sent⟩

/-- A document that reaches the local bus is verified, whatever the state of the
gateway and whatever the bytes. -/
theorem sent_is_verified {recipient : Principal} {body : Bytes}
    {state : GatewayIngressState Key Connection} {delivering : GatewayRegistry Connection}
    {now : String} {delivery : Delivery Connection}
    (sent : (ingestInboundAt K crypto clock bus recipient body state delivering now).1.sent =
      some delivery) :
    ∃ value sender,
      Verified K crypto clock state delivering recipient body now delivery value sender := by
  obtain ⟨peeked, envelope, read, admitted, verified, passed, delivered⟩ := stages_of_sent sent
  obtain ⟨value, parsed, fields⟩ := peekGuardFields_ok read
  obtain ⟨sender, key, named, active, signed, names⟩ := verifyInboundAny_ok parsed verified
  obtain ⟨nonce, current, reaches, new⟩ := reaches_of_admitted admitted
  obtain ⟨own, -⟩ := audienceCheck_ok reaches.audience
  obtain ⟨sentAt, current', parsedTs, parsedNow, near⟩ := freshnessCheck_ok reaches.fresh
  obtain ⟨backed, frame⟩ := deliver_sent parsed delivered
  obtain ⟨members, isObject⟩ := signed.isObject
  -- The four parses agree on the two principals.
  have peekedSender : peeked.sender = sender.principal :=
    Option.some.inj (fields.sender.symm.trans named)
  have envelopeSender : envelope.sender = sender.principal :=
    Option.some.inj (names.sender_eq.symm.trans named)
  have peekedRecipient : peeked.recipient = recipient := by
    rw [← checkAudienceAndFormat_ok passed]
    exact Option.some.inj (fields.recipient.symm.trans names.recipient_eq)
  have nonceField : value.val.get? "nonce" = some (.str nonce) := by
    rw [fields.nonce, show peeked.nonce = some nonce from reaches.nonce_eq, Option.map_some]
  refine ⟨value, sender, {
    parses := parsed
    named := named
    signed := ⟨key, active, signed⟩
    addressed := by rw [← checkAudienceAndFormat_ok passed]; exact names.recipient_eq
    own := by rw [← peekedRecipient]; exact own
    fresh := ⟨peeked.ts, sentAt, current', fields.ts, parsedTs, parsedNow, near⟩
    new := ⟨nonce, current, nonceField, reaches.nonempty, reaches.instant, ?_⟩
    connection := by rw [← envelopeSender]; exact backed
    frame := ⟨members, stripRelayFields value, isObject, frame, stripRelayFields_val isObject⟩ }⟩
  rw [← peekedSender]
  exact new

end Main

/-! ### An acknowledgement that is sent on -/

def ackMembers : List (String × Value) :=
  [("authority", .str "advisory"),
    ("body", .obj [("disposition", .str "accepted")] (by decide)), ("class", .str "ack"),
    ("famp", .str "0.5.2"), ("from", .str "agent:peer.example/alice"),
    ("id", .str "01890a3b-2c4d-7e5f-8a1b-0c2d3e4f5a6b")]

def plainAck : Value :=
  .obj (ackMembers ++ [("scope", .str "standalone"), ("to", .str "agent:own.example/bob"),
    ("ts", .str "2026-07-27T00:00:00Z")]) (by decide)

def signedAck : Value :=
  .obj (ackMembers ++ [("nonce", .str "n1"), ("scope", .str "standalone"),
    ("signature", .str "sealed"), ("to", .str "agent:own.example/bob"),
    ("ts", .str "2026-07-27T00:00:00Z")]) (by decide)

def signedAckBytes : Bytes := (Plain.render signedAck.val).toOption.getD []

/-- Signatures are texts, and the key `7` verifies the text `sealed`. -/
def sealCrypto : EnvelopeCrypto Nat String where
  fromB64url := some
  verifyValue key _ signature := key == 7 && signature == "sealed"

/-- A gateway that backs `alice`, on connection `4`, with the key `7` pinned. -/
def aliceGateway : GatewayIngressState Nat Nat where
  registry := (∅ : GatewayRegistry Nat).insert "alice" 4
  keyring := (∅ : Keyring Nat).insert ⟨⟨"peer.example", "alice"⟩, peerAlice_parses⟩ [.legacy 7]
  ownDomain := "own.example"
  guard := .new

theorem signedAck_is_verified :
    ∃ value sender, Verified Plain.text sealCrypto rfc3339 aliceGateway aliceGateway.registry
      ⟨"own.example", "bob"⟩ signedAckBytes "2026-07-27T00:05:00Z"
      ⟨4, .send (.agent "bob") plainAck⟩ value sender := by
  have sent : (ingestInboundAt Plain.text sealCrypto rfc3339 (fun _ => none) ⟨"own.example", "bob"⟩
      signedAckBytes aliceGateway aliceGateway.registry "2026-07-27T00:05:00Z").1.sent =
        some ⟨4, .send (.agent "bob") plainAck⟩ := by
    decide +kernel
  exact sent_is_verified sent

end Famp.Gateway
