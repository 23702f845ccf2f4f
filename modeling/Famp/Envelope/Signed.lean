import Famp.Envelope.Bus

/-!
# Signed envelopes

Decoding of an envelope that came from another host.  Its signature is taken off
the parsed document and verified over the rest of it, before anything typed is
read.
-/

set_option autoImplicit false

namespace Famp.Envelope

open Famp.Core Json Json.Serde

def signatureField : String := "signature"

/-- What decoding uses of signatures: their base64url texts, and the verification
of one over the canonical bytes of a document. -/
structure EnvelopeCrypto (Key Signature : Type) where
  fromB64url : String → Option Signature
  verifyValue : Key → Value → Signature → Bool

/-- Ed25519 keys and signatures, with the texts of signatures. -/
structure SigningScheme (SigningKey Key Signature : Type) where
  verifyingKey : SigningKey → Key
  sign : SigningKey → Bytes → Signature
  verifyStrict : Key → Bytes → Signature → Bool
  toB64url : Signature → String
  fromB64url : String → Option Signature
  verifyStrict_sign : ∀ key bytes, verifyStrict (verifyingKey key) bytes (sign key bytes) = true
  fromB64url_toB64url : ∀ signature, fromB64url (toB64url signature) = some signature

variable {value : Value} {K : Text} {bytes : Bytes} {envelope : AnyBusEnvelope}

namespace SigningScheme
variable {SigningKey Key Signature : Type} (scheme : SigningScheme SigningKey Key Signature)
variable (K : Text)

/-- `FAMP-sig-v1` and a zero byte. -/
def domainPrefixBytes : Bytes :=
  [0x46, 0x41, 0x4d, 0x50, 0x2d, 0x73, 0x69, 0x67, 0x2d, 0x76, 0x31, 0x00]

def signCanonicalBytes (key : SigningKey) (canonical : Bytes) : Signature :=
  scheme.sign key (domainPrefixBytes ++ canonical)

def signValue (key : SigningKey) (value : Value) : Except String Signature :=
  (K.canonicalize value).map (scheme.signCanonicalBytes key)

def verifyCanonicalBytes (key : Key) (canonical : Bytes) (signature : Signature) : Bool :=
  scheme.verifyStrict key (domainPrefixBytes ++ canonical) signature

def verifyValue (key : Key) (value : Value) (signature : Signature) : Bool :=
  match K.canonicalize value with
  | .error _ => false
  | .ok canonical => scheme.verifyCanonicalBytes key canonical signature

/-- What decoding uses of the scheme. -/
def crypto : EnvelopeCrypto Key Signature where
  fromB64url := scheme.fromB64url
  verifyValue := scheme.verifyValue K

variable {scheme K}

theorem verifyValue_signValue {key : SigningKey} {signature : Signature}
    (signed : scheme.signValue K key value = .ok signature) :
    scheme.verifyValue K (scheme.verifyingKey key) value signature = true := by
  unfold signValue at signed
  cases canonical : K.canonicalize value with
  | error error => rw [canonical] at signed; cases signed
  | ok bytes =>
    rw [canonical] at signed
    cases signed
    simp only [verifyValue, canonical]
    exact scheme.verifyStrict_sign key _

theorem verifyValue_congr {key : Key} {left right : Value} {signature : Signature}
    (same : K.canonicalize left = K.canonicalize right) :
    scheme.verifyValue K key left signature = scheme.verifyValue K key right signature := by
  simp only [verifyValue, same]

/-- A signature is the key and the number of signed bytes, up to multiples of 32,
and its text has that many letters. -/
def byLength : SigningScheme Nat Nat Nat where
  verifyingKey key := key
  sign key bytes := (key + bytes.length) % 32
  verifyStrict key bytes signature := signature == (key + bytes.length) % 32
  toB64url signature := String.ofList (List.replicate signature 'A')
  fromB64url text := some text.length
  verifyStrict_sign _ _ := by simp
  fromB64url_toB64url _ := by simp

end SigningScheme

inductive SignedDecodeError where
  | missingSignature
  | invalidSignatureEncoding
  | signatureInvalid
  /-- An error that decoding an unsigned envelope has too. -/
  | decode (error : DecodeError)
  deriving DecidableEq, Repr

structure SignedEnvelope (Signature B : Type) where
  inner : WireEnvelope B
  signature : Signature

section Decoding
variable {Key Signature : Type} (crypto : EnvelopeCrypto Key Signature)

/-- `SignedEnvelope::decode_value`.  Once the signature is off and has verified,
the version gate, the typed reading and the cross checks are those of a bus
envelope. -/
def SignedEnvelope.decodeValue (B : Type) [BodySchema B] (value : Value) (verifier : Key) :
    Except SignedDecodeError (SignedEnvelope Signature B) :=
  match value.val with
  | .obj _ =>
    match (value.val.get? signatureField).bind Tree.asStr? with
    | none => .error .missingSignature
    | some text =>
      match crypto.fromB64url text with
      | none => .error .invalidSignatureEncoding
      | some signature =>
        let stripped := value.remove signatureField
        if crypto.verifyValue verifier stripped signature then
          match BusEnvelope.decodeTree B stripped.val with
          | .error error => .error (.decode error)
          | .ok inner => .ok ⟨inner, signature⟩
        else .error .signatureInvalid
  | _ => .error (.decode (.bodyValidation (some "envelope root is not a JSON object")))

inductive AnySignedEnvelope (Signature : Type) where
  | request (envelope : SignedEnvelope Signature RequestBody)
  | commit (envelope : SignedEnvelope Signature CommitBody)
  | deliver (envelope : SignedEnvelope Signature DeliverBody)
  | ack (envelope : SignedEnvelope Signature AckBody)
  | control (envelope : SignedEnvelope Signature ControlBody)
  | auditLog (envelope : SignedEnvelope Signature AuditLogBody)

def AnySignedEnvelope.decode (K : Text) (bytes : Bytes) (verifier : Key) :
    Except SignedDecodeError (AnySignedEnvelope Signature) :=
  match K.fromSliceStrict bytes with
  | .error error => .error (.decode (.malformedJson error))
  | .ok value =>
    match (value.val.get? "class").bind Tree.asStr? with
    | none => .error (.decode (.missingField "class"))
    | some "request" =>
      (SignedEnvelope.decodeValue crypto RequestBody value verifier).map .request
    | some "commit" => (SignedEnvelope.decodeValue crypto CommitBody value verifier).map .commit
    | some "deliver" =>
      (SignedEnvelope.decodeValue crypto DeliverBody value verifier).map .deliver
    | some "ack" => (SignedEnvelope.decodeValue crypto AckBody value verifier).map .ack
    | some "control" =>
      (SignedEnvelope.decodeValue crypto ControlBody value verifier).map .control
    | some "audit_log" =>
      (SignedEnvelope.decodeValue crypto AuditLogBody value verifier).map .auditLog
    | some other => .error (.decode (.unknownClass other))

end Decoding

/-! ## The federation fields -/

/-- Twenty bytes, the last a `Z`. -/
def isCanonicalUtcForm (text : String) : Bool :=
  shallowValidate text && decide ((utf8 text).length = 20) &&
    (utf8 text)[19]? == some (UInt8.ofNat 'Z'.toNat)

/-- Timestamps are compared as texts, once both are in canonical form. -/
def WireEnvelope.federationFormatOk {B : Type} (wire : WireEnvelope B) : Bool :=
  if wire.nonce = some "" then false
  else
    match wire.expiry with
    | none => true
    | some expiry =>
      if !shallowValidate expiry then false
      else if !isCanonicalUtcForm expiry || !isCanonicalUtcForm wire.ts then false
      else if expiry ≤ wire.ts then false
      else true

namespace AnySignedEnvelope
variable {Signature : Type}

def sender : AnySignedEnvelope Signature → Principal
  | request envelope => envelope.inner.sender
  | commit envelope => envelope.inner.sender
  | deliver envelope => envelope.inner.sender
  | ack envelope => envelope.inner.sender
  | control envelope => envelope.inner.sender
  | auditLog envelope => envelope.inner.sender

def recipient : AnySignedEnvelope Signature → Principal
  | request envelope => envelope.inner.recipient
  | commit envelope => envelope.inner.recipient
  | deliver envelope => envelope.inner.recipient
  | ack envelope => envelope.inner.recipient
  | control envelope => envelope.inner.recipient
  | auditLog envelope => envelope.inner.recipient

def inner : AnySignedEnvelope Signature → AnyBusEnvelope
  | request envelope => .request envelope.inner
  | commit envelope => .commit envelope.inner
  | deliver envelope => .deliver envelope.inner
  | ack envelope => .ack envelope.inner
  | control envelope => .control envelope.inner
  | auditLog envelope => .auditLog envelope.inner

def signature : AnySignedEnvelope Signature → Signature
  | request envelope => envelope.signature
  | commit envelope => envelope.signature
  | deliver envelope => envelope.signature
  | ack envelope => envelope.signature
  | control envelope => envelope.signature
  | auditLog envelope => envelope.signature

def signedBy (sealing : Signature) : AnyBusEnvelope → AnySignedEnvelope Signature
  | .request wire => request ⟨wire, sealing⟩
  | .commit wire => commit ⟨wire, sealing⟩
  | .deliver wire => deliver ⟨wire, sealing⟩
  | .ack wire => ack ⟨wire, sealing⟩
  | .control wire => control ⟨wire, sealing⟩
  | .auditLog wire => auditLog ⟨wire, sealing⟩

theorem inner_signedBy (sealing : Signature) (envelope : AnyBusEnvelope) :
    (signedBy sealing envelope).inner = envelope := by
  cases envelope <;> rfl

theorem signature_signedBy (sealing : Signature) (envelope : AnyBusEnvelope) :
    (signedBy sealing envelope).signature = sealing := by
  cases envelope <;> rfl

def federationFormatOk : AnySignedEnvelope Signature → Bool
  | request envelope => envelope.inner.federationFormatOk
  | commit envelope => envelope.inner.federationFormatOk
  | deliver envelope => envelope.inner.federationFormatOk
  | ack envelope => envelope.inner.federationFormatOk
  | control envelope => envelope.inner.federationFormatOk
  | auditLog envelope => envelope.inner.federationFormatOk

end AnySignedEnvelope

/-! ## What a decoded envelope says about its document -/

/-- The document is an object whose signature verifies over the rest of it. -/
structure IsSigned {Key Signature : Type} (crypto : EnvelopeCrypto Key Signature) (verifier : Key)
    (value : Value) : Prop where
  isObject : ∃ members, value.val = .obj members
  verifies : ∃ text signature, value.val.get? "signature" = some (.str text) ∧
    crypto.fromB64url text = some signature ∧
    crypto.verifyValue verifier (value.remove "signature") signature = true

/-- As `IsSigned`, with the signature. -/
structure SignedWith {Key Signature : Type} (crypto : EnvelopeCrypto Key Signature) (verifier : Key)
    (value : Value) (signature : Signature) : Prop where
  isObject : ∃ members, value.val = .obj members
  encoded : ∃ text, value.val.get? "signature" = some (.str text) ∧
    crypto.fromB64url text = some signature
  verified : crypto.verifyValue verifier (value.remove "signature") signature = true

def principalAt (value : Value) (key : String) : Option Principal :=
  (value.val.get? key).bind readPrincipal

/-- The two principals of the header are those of the document. -/
structure Names (value : Value) (sender recipient : Principal) : Prop where
  sender_eq : principalAt value "from" = some sender
  recipient_eq : principalAt value "to" = some recipient

theorem ok_of_map {ε α β : Type} {attempt : Except ε α} {change : α → β} {result : β}
    (mapped : attempt.map change = .ok result) :
    ∃ item, attempt = .ok item ∧ change item = result := by
  cases attempt with
  | error error => cases mapped
  | ok item => exact ⟨item, rfl, Except.ok.inj mapped⟩

theorem BusEnvelope.decodeTree_principals {B : Type} [BodySchema B] {tree : Tree}
    {wire : WireEnvelope B} (decoded : BusEnvelope.decodeTree B tree = .ok wire) :
    (tree.get? "from").bind readPrincipal = some wire.sender ∧
      (tree.get? "to").bind readPrincipal = some wire.recipient := by
  obtain ⟨members, rfl, -, -, read, -⟩ := BusEnvelope.decodeTree_ok_iff.mp decoded
  exact WireEnvelope.read_principals read

section Decoded
variable {Key Signature : Type} {crypto : EnvelopeCrypto Key Signature} {verifier : Key}

theorem SignedEnvelope.decodeValue_ok_iff {B : Type} [BodySchema B]
    {envelope : SignedEnvelope Signature B} :
    SignedEnvelope.decodeValue crypto B value verifier = .ok envelope ↔
      SignedWith crypto verifier value envelope.signature ∧
        BusEnvelope.decodeTree B (value.remove "signature").val = .ok envelope.inner := by
  unfold SignedEnvelope.decodeValue signatureField
  constructor
  · intro decoded
    split at decoded
    next members isObject =>
      split at decoded
      next => cases decoded
      next text present =>
        split at decoded
        next => cases decoded
        next signature encoded =>
          dsimp only at decoded
          split at decoded
          next verified =>
            split at decoded
            next => cases decoded
            next inner read =>
              cases decoded
              obtain ⟨item, found, isText⟩ := Option.bind_eq_some_iff.mp present
              cases item <;> cases isText
              exact ⟨⟨⟨members, isObject⟩, ⟨text, found, encoded⟩, verified⟩, read⟩
          next => cases decoded
    next => cases decoded
  · rintro ⟨⟨⟨members, isObject⟩, ⟨text, found, encoded⟩, verified⟩, read⟩
    rw [found, Option.bind_some, Tree.asStr?]
    simp only [isObject, encoded, verified, read, if_true]

theorem SignedEnvelope.decodeValue_ok {B : Type} [BodySchema B]
    {envelope : SignedEnvelope Signature B}
    (decoded : SignedEnvelope.decodeValue crypto B value verifier = .ok envelope) :
    IsSigned crypto verifier value ∧
      Names value envelope.inner.sender envelope.inner.recipient := by
  obtain ⟨⟨isObject, ⟨text, found, encoded⟩, verified⟩, read⟩ :=
    SignedEnvelope.decodeValue_ok_iff.mp decoded
  obtain ⟨sender, recipient⟩ := BusEnvelope.decodeTree_principals read
  refine ⟨⟨isObject, text, _, found, encoded, verified⟩, ⟨?_, ?_⟩⟩
  · rwa [Value.remove, Tree.get?_remove (by decide)] at sender
  · rwa [Value.remove, Tree.get?_remove (by decide)] at recipient

theorem AnySignedEnvelope.decode_ok {envelope : AnySignedEnvelope Signature}
    (parsed : K.fromSliceStrict bytes = .ok value)
    (decoded : AnySignedEnvelope.decode crypto K bytes verifier = .ok envelope) :
    IsSigned crypto verifier value ∧ Names value envelope.sender envelope.recipient := by
  simp only [AnySignedEnvelope.decode, parsed] at decoded
  split at decoded
  case h_1 => cases decoded
  case h_8 => cases decoded
  all_goals
    obtain ⟨typed, read, rfl⟩ := ok_of_map decoded
    exact SignedEnvelope.decodeValue_ok read

theorem SignedEnvelope.map_decodeValue_ok_iff {B : Type} [BodySchema B]
    {signed : SignedEnvelope Signature B → AnySignedEnvelope Signature}
    {plain : WireEnvelope B → AnyBusEnvelope} {signature : Signature}
    (sealing : ∀ wire, signed ⟨wire, signature⟩ = .signedBy signature (plain wire))
    (opening : ∀ sealed, (signed sealed).inner = plain sealed.inner ∧
      (signed sealed).signature = sealed.signature) :
    (SignedEnvelope.decodeValue crypto B value verifier).map signed =
        .ok (.signedBy signature envelope) ↔
      SignedWith crypto verifier value signature ∧
        (BusEnvelope.decodeTree B (value.remove "signature").val).map plain = .ok envelope := by
  constructor
  · intro decoded
    obtain ⟨sealed, read, same⟩ := ok_of_map decoded
    obtain ⟨verified, typed⟩ := SignedEnvelope.decodeValue_ok_iff.mp read
    obtain ⟨inner, signature'⟩ := opening sealed
    rw [same, AnySignedEnvelope.inner_signedBy] at inner
    rw [same, AnySignedEnvelope.signature_signedBy] at signature'
    exact ⟨signature' ▸ verified, by rw [typed, inner]; rfl⟩
  · rintro ⟨verified, typed⟩
    obtain ⟨wire, read, rfl⟩ := ok_of_map typed
    have decoded : SignedEnvelope.decodeValue crypto B value verifier = .ok ⟨wire, signature⟩ :=
      SignedEnvelope.decodeValue_ok_iff.mpr ⟨verified, read⟩
    rw [decoded, ← sealing]
    rfl

theorem AnySignedEnvelope.decode_ok_iff {signature : Signature}
    (parsed : K.fromSliceStrict bytes = .ok value) :
    AnySignedEnvelope.decode crypto K bytes verifier = .ok (.signedBy signature envelope) ↔
      SignedWith crypto verifier value signature ∧
        AnyBusEnvelope.decodeTree (value.remove "signature").val = .ok envelope := by
  have named : (value.remove "signature").val.get? "class" = value.val.get? "class" :=
    Tree.get?_remove (by decide) value.val
  simp only [AnySignedEnvelope.decode, AnyBusEnvelope.decodeTree, parsed, named]
  generalize (value.val.get? "class").bind Tree.asStr? = found
  split
  case h_1 => simp
  case h_8 => simp only [reduceCtorEq, and_false]
  all_goals exact SignedEnvelope.map_decodeValue_ok_iff (fun _ => rfl) fun _ => ⟨rfl, rfl⟩

end Decoded

end Famp.Envelope
