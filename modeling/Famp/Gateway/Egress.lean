import Famp.Core.Uuids
import Famp.Data.Instant
import Famp.Envelope.Federation
import Famp.Gateway.Ingress

/-!
# Relaying a drained envelope

An envelope from the mailbox of a remote principal gets the fields of the gateway
and its signature, and is handed to the transport.  What the other gateway reads
from the bytes is the drained envelope: its decoder accepts them under the key of
this gateway, and what it sends on is the drained document.
-/

set_option autoImplicit false

namespace Famp.Gateway

open Famp.Core Data Json Envelope

/-! ## Errors -/

inductive EgressError where
  | notAnObject
  | expiryFormat
  | sign (error : String)
  deriving DecidableEq, Repr

inductive RelayError where
  | missingField (field : String)
  | badPrincipal (field : String)
  | sign (error : EgressError)
  | encode (error : String)
  | transport (error : String)
  | fromDomainMismatch (expected got : String)
  | clientSuppliedFederationField (fields : String)
  deriving DecidableEq, Repr

/-! ## The expiry -/

/-- The text without what stands between the first dot and the next zone. -/
def stripSubseconds (ts : String) : String :=
  let tail := ts.toList.dropWhile (· != '.')
  String.ofList (ts.toList.takeWhile (· != '.') ++
    tail.dropWhile fun c => !(c == 'Z' || c == '+' || c == '-'))

/-- `later` is the time of the call and five minutes. -/
def federationExpiry (later : Rfc3339.DateTime) : Except EgressError String :=
  match later.text with
  | none => .error .expiryFormat
  | some raw => .ok (stripSubseconds raw)

/-! ## Signing -/

def federationOwnedFields : List String :=
  ["from_domain", "to_domain", "sender_key_id", "nonce", "expiry", "capability", "approval"]

section Relaying
variable {SigningKey Key Signature : Type} (scheme : SigningScheme SigningKey Key Signature)
variable (K : Text) (printer : K.Printer) (keyId : Key → String)

/-- The members that the gateway inserts, in order. -/
def federationStamp (sender recipient : Principal) (vk : Key) (nonce : Uuid) (expiry : String) :
    List (String × Value) :=
  [("from_domain", .str sender.authority), ("to_domain", .str recipient.authority),
    ("sender_key_id", .str (keyId vk)), ("nonce", .str nonce.hyphenated), ("expiry", .str expiry)]

def withFederationFields (value : Value) (sender recipient : Principal) (vk : Key) (nonce : Uuid)
    (expiry : String) : Value :=
  value.insertAll (federationStamp keyId sender recipient vk nonce expiry)

/-- A document that has a signature is left alone. -/
def signFederationFields (value : Value) (sender recipient : Principal) (sk : SigningKey) (vk : Key)
    (nonce : Uuid) (later : Rfc3339.DateTime) : Except EgressError Value :=
  match value.val with
  | .obj _ =>
    if (value.val.get? "signature").isSome then .ok value
    else
      match federationExpiry later with
      | .error error => .error error
      | .ok expiry =>
        let stamped := withFederationFields keyId value sender recipient vk nonce expiry
        match scheme.signValue K sk stamped with
        | .error error => .error (.sign error)
        | .ok signature =>
          .ok (stamped.insert "signature" (.str (scheme.toB64url signature)))
  | _ => .error .notAnObject

/-! ## Relaying -/

def parsePrincipalField (envelope : Value) (field : String) : Except RelayError Principal :=
  match (envelope.val.get? field).bind Tree.asStr? with
  | none => .error (.missingField field)
  | some raw =>
    match Principal.fromStr raw with
    | none => .error (.badPrincipal field)
    | some principal => .ok principal

structure TransportMessage where
  sender : Principal
  recipient : Principal
  bytes : Bytes
  deriving DecidableEq

/-- What was handed to the transport, if anything, and how the call ended. -/
structure Relayed where
  handed : Option TransportMessage
  outcome : Except RelayError Unit

/-- The federation fields that the client put into the envelope. -/
def suppliedFields (envelope : Value) : List String :=
  federationOwnedFields.filter fun field => (envelope.val.get? field).isSome

/-- `transport` answers a message with an error or not. -/
def relayOne (transport : TransportMessage → Except String Unit) (envelope : Value)
    (ownDomain : String) (sk : SigningKey) (vk : Key) (nonce : Uuid) (later : Rfc3339.DateTime) :
    Relayed :=
  match parsePrincipalField envelope "from" with
  | .error error => ⟨none, .error error⟩
  | .ok sender =>
    match parsePrincipalField envelope "to" with
    | .error error => ⟨none, .error error⟩
    | .ok recipient =>
      if sender.authority ≠ ownDomain then
        ⟨none, .error (.fromDomainMismatch ownDomain sender.authority)⟩
      else if suppliedFields envelope ≠ [] then
        ⟨none, .error
          (.clientSuppliedFederationField (", ".intercalate (suppliedFields envelope)))⟩
      else
        match signFederationFields scheme K keyId envelope sender recipient sk vk nonce later with
        | .error error => ⟨none, .error (.sign error)⟩
        | .ok signed =>
          match printer.toVec signed with
          | .error error => ⟨none, .error (.encode error)⟩
          | .ok bytes =>
            let message : TransportMessage := ⟨sender, recipient, bytes⟩
            ⟨some message, (transport message).mapError .transport⟩

end Relaying

/-! ## The expiry is a timestamp -/

section Expiry
open Rfc3339

theorem stripSubseconds_of_no_dot {text : List Char} (clean : '.' ∉ text) :
    stripSubseconds (String.ofList text) = String.ofList text := by
  have kept : ∀ c ∈ text, (c != '.') = true := by
    intro c member
    simpa using fun (same : c = '.') => clean (same ▸ member)
  simp only [stripSubseconds, String.toList_ofList]
  rw [List.takeWhile_eq_self_iff.mpr kept, List.dropWhile_eq_nil_iff.mpr kept]
  simp

theorem stripSubseconds_of_dot {front digits : List Char} (clean : '.' ∉ front)
    (numeric : ∀ c ∈ digits, c.isDigit = true) :
    stripSubseconds (String.ofList (front ++ '.' :: digits ++ ['Z'])) =
      String.ofList (front ++ ['Z']) := by
  have kept : ∀ c ∈ front, (c != '.') = true := by
    intro c member
    simpa using fun (same : c = '.') => clean (same ▸ member)
  have cut : ∀ c ∈ '.' :: digits, (!(c == 'Z' || c == '+' || c == '-')) = true := by
    rw [List.forall_mem_cons]
    refine ⟨by decide, ?_⟩
    intro c member
    by_contra zone
    have digit := numeric c member
    simp only [Bool.not_eq_true, Bool.not_eq_false', Bool.or_eq_true, beq_iff_eq] at zone
    rcases zone with (rfl | rfl) | rfl <;> exact absurd digit (by decide)
  simp only [stripSubseconds, String.toList_ofList]
  rw [List.append_assoc, List.takeWhile_append_of_pos kept, List.dropWhile_append_of_pos kept,
    List.cons_append, List.takeWhile_cons_of_neg (by decide), List.dropWhile_cons_of_neg (by decide),
    ← List.cons_append, List.dropWhile_append_of_pos cut]
  simp

theorem dot_not_mem_wholeText (later : DateTime) : '.' ∉ later.wholeText := by
  simp [DateTime.wholeText, dot_not_mem_pad]

theorem stripSubseconds_text {later : DateTime} {raw : String} (text : later.text = some raw) :
    stripSubseconds raw = String.ofList (later.wholeText ++ ['Z']) := by
  have clean := dot_not_mem_wholeText later
  unfold DateTime.text at text
  split at text
  next =>
    cases text
    unfold subseconds
    split
    · rw [List.append_nil]
      exact stripSubseconds_of_no_dot (by simp [clean])
    · refine stripSubseconds_of_dot clean ?_
      intro c member
      exact isDigit_of_mem_pad ((List.rdropWhile_prefix _ _).subset member)
  next => cases text

theorem plain_of_isDigit {c : Char} (digit : c.isDigit = true) :
    0x20 ≤ c.toNat ∧ c.toNat < 0x7f ∧ c ≠ '"' ∧ c ≠ '\\' := by
  have range : 48 ≤ c.toNat ∧ c.toNat ≤ 57 := by
    simpa [Char.isDigit, UInt32.le_iff_toNat_le] using digit
  refine ⟨by omega, by omega, ?_, ?_⟩ <;>
  · rintro rfl
    exact absurd digit (by decide)

theorem plainKey_wholeText (later : DateTime) :
    PlainKey (String.ofList (later.wholeText ++ ['Z'])) := by
  intro c member
  simp only [String.toList_ofList, DateTime.wholeText, List.mem_append, List.mem_cons,
    List.not_mem_nil, or_false] at member
  have digits : ∀ {width value : Nat}, c ∈ pad width value →
      0x20 ≤ c.toNat ∧ c.toNat < 0x7f ∧ c ≠ '"' ∧ c ≠ '\\' :=
    fun digit => plain_of_isDigit (isDigit_of_mem_pad digit)
  rcases member with (((((year | rfl | month) | rfl | day) | rfl | hour) | rfl | minute) |
    rfl | second) | rfl
  all_goals first
    | exact digits (by assumption)
    | decide

theorem shallowValidate_wholeText {later : DateTime} (early : later.year ≤ 9999) :
    shallowValidate (String.ofList (later.wholeText ++ ['Z'])) = true := by
  have year : (pad 4 later.year.toNat).length = 4 := length_pad (by decide) (by omega)
  have two : ∀ value : Nat, value < 100 → ∃ a b, pad 2 value = [a, b] := fun value small =>
    List.length_eq_two.mp (length_pad (by decide) small)
  obtain ⟨m, m', month⟩ := two later.month (by omega)
  obtain ⟨d, d', day⟩ := two later.day (by omega)
  obtain ⟨h, h', hour⟩ := two later.hour (by omega)
  obtain ⟨n, n', minute⟩ := two later.minute (by omega)
  obtain ⟨t, t', second⟩ := two later.second (by omega)
  have bytes := Plain.utf8_of_plain (plainKey_wholeText later)
  rw [DateTime.wholeText, month, day, hour, minute, second] at bytes
  rw [DateTime.wholeText, month, day, hour, minute, second]
  match pad 4 later.year.toNat, year, bytes with
  | [a, b, c, e], _, bytes =>
    simp only [shallowValidate, bytes]
    simp

end Expiry

theorem shallowValidate_of_federationExpiry {later : Rfc3339.DateTime} {expiry : String}
    (formatted : federationExpiry later = .ok expiry) : shallowValidate expiry = true := by
  unfold federationExpiry at formatted
  split at formatted
  next => cases formatted
  next raw text =>
    cases formatted
    rw [stripSubseconds_text text]
    refine shallowValidate_wholeText ?_
    by_contra late
    simp [Rfc3339.DateTime.text, late] at text

/-! ## The relayed document -/

theorem parsePrincipalField_eq {value : Value} {field : String} {principal : Principal}
    (named : principalAt value field = some principal) :
    parsePrincipalField value field = .ok principal := by
  obtain ⟨item, found, read⟩ := Option.bind_eq_some_iff.mp named
  obtain ⟨raw, isText, known⟩ := Option.bind_eq_some_iff.mp read
  simp only [parsePrincipalField, found, Option.bind_some, isText, known]

theorem suppliedFields_eq_nil {envelope : Value}
    (absent : ∀ field ∈ federationOwnedFields, envelope.val.get? field = none) :
    suppliedFields envelope = [] := by
  rw [suppliedFields, List.filter_eq_nil_iff]
  intro field owned
  simp [absent field owned]

section Stamped
variable {Key : Type} {keyId : Key → String} {value : Value} {sender recipient : Principal}
variable {vk : Key} {nonce : Uuid} {expiry : String}

theorem sameContent_withFederationFields (isObject : value.IsObject) :
    SameContent value (withFederationFields keyId value sender recipient vk nonce expiry) where
  isObject := isObject.insertAll _
  same := by
    intro name foreign
    refine Value.get?_insertAll_other isObject ?_
    intro stamped
    simp only [federationStamp, List.map_cons, List.map_nil] at stamped
    exact foreign ((by decide : ∀ key ∈ ["from_domain", "to_domain", "sender_key_id", "nonce",
      "expiry"], key ∈ federationFields) name stamped)

theorem withFederationFields_readFrom (isObject : value.IsObject)
    (absent : ∀ field ∈ federationOwnedFields, value.val.get? field = none)
    (timestamp : shallowValidate expiry = true) :
    Federation.ReadFrom ⟨some sender.authority, some recipient.authority, some (keyId vk),
        some nonce.hyphenated, some expiry, none, none⟩
      (withFederationFields keyId value sender recipient vk nonce expiry).val := by
  have stored : ∀ member ∈ federationStamp keyId sender recipient vk nonce expiry,
      (withFederationFields keyId value sender recipient vk nonce expiry).val.get? member.1 =
        some member.2.val :=
    Value.get?_insertAll isObject (by simp [federationStamp])
  have other : ∀ name ∈ ["capability", "approval"],
      (withFederationFields keyId value sender recipient vk nonce expiry).val.get? name = none := by
    intro name reserved
    rw [withFederationFields, Value.get?_insertAll_other isObject, absent name]
    · exact (by decide : ∀ key ∈ ["capability", "approval"], key ∈ federationOwnedFields) _ reserved
    · simp only [federationStamp, List.map_cons, List.map_nil]
      exact (by decide : ∀ key ∈ ["capability", "approval"], key ∉ ["from_domain", "to_domain",
        "sender_key_id", "nonce", "expiry"]) _ reserved
  simp only [federationStamp, List.forall_mem_cons] at stored
  obtain ⟨fromDomain, toDomain, senderKeyId, nonceText, expiryText, -⟩ := stored
  have timestampText : Serde.readOption readTimestamp (some (Value.str expiry).val) =
      some (some expiry) := by
    simp [Serde.readOption, readTimestamp, Value.str, Tree.asStr?, timestamp]
  exact ⟨by rw [fromDomain]; rfl, by rw [toDomain]; rfl, by rw [senderKeyId]; rfl,
    by rw [nonceText]; rfl, by rw [expiryText]; exact timestampText,
    by rw [other _ (by decide)]; rfl, by rw [other _ (by decide)]; rfl⟩

theorem stripRelayFields_signed (isObject : value.IsObject)
    (unsigned : value.val.get? "signature" = none)
    (absent : ∀ field ∈ federationOwnedFields, value.val.get? field = none) (signature : Value) :
    stripRelayFields ((withFederationFields keyId value sender recipient vk nonce expiry).insert
      "signature" signature) = value := by
  have content : SameContent value
      (withFederationFields keyId value sender recipient vk nonce expiry) :=
    sameContent_withFederationFields isObject
  refine Value.object_ext ((content.isObject.insert _ _).foldl_remove _) isObject ?_
  intro key
  rw [stripRelayFields, Value.get?_foldl_remove, Value.get?_insert content.isObject]
  by_cases wrapper : key ∈ relayWrapperFields
  · rw [if_pos wrapper]
    rcases List.mem_cons.mp wrapper with rfl | owned
    · exact unsigned.symm
    · exact (absent key owned).symm
  · have other : "signature" ≠ key := by
      rintro rfl
      exact wrapper (by decide)
    rw [if_neg wrapper, if_neg other]
    exact content.same key fun owned => wrapper (List.mem_cons_of_mem _ owned)

end Stamped

section Signed
variable {SigningKey Key Signature : Type} {scheme : SigningScheme SigningKey Key Signature}
variable {K : Text} {keyId : Key → String} {value signed : Value} {sender recipient : Principal}
variable {sk : SigningKey} {vk : Key} {nonce : Uuid} {later : Rfc3339.DateTime}

theorem signFederationFields_ok (isObject : value.IsObject)
    (unsigned : value.val.get? "signature" = none)
    (result : signFederationFields scheme K keyId value sender recipient sk vk nonce later =
      .ok signed) :
    ∃ expiry signature, federationExpiry later = .ok expiry ∧
      scheme.signValue K sk (withFederationFields keyId value sender recipient vk nonce expiry) =
        .ok signature ∧
      signed = (withFederationFields keyId value sender recipient vk nonce expiry).insert
        "signature" (.str (scheme.toB64url signature)) := by
  obtain ⟨members, shown⟩ := isObject
  unfold signFederationFields at result
  simp only [shown] at result unsigned
  rw [unsigned] at result
  simp only [Option.isSome_none, Bool.false_eq_true, if_false] at result
  split at result
  next => cases result
  next expiry formatted =>
    split at result
    next => cases result
    next signature signing =>
      exact ⟨expiry, signature, formatted, signing, (Except.ok.inj result).symm⟩

/-- A library that the relay calls fails, and this is the error of the relay. -/
inductive LibraryFails (scheme : SigningScheme SigningKey Key Signature) (K : Text)
    (printer : K.Printer) (keyId : Key → String) (value : Value) (sender recipient : Principal)
    (sk : SigningKey) (vk : Key) (nonce : Uuid) (later : Rfc3339.DateTime) : RelayError → Prop
  | expiry : later.text = none →
      LibraryFails scheme K printer keyId value sender recipient sk vk nonce later
        (.sign .expiryFormat)
  | canonical {expiry reason : String} : federationExpiry later = .ok expiry →
      K.canonicalize (withFederationFields keyId value sender recipient vk nonce expiry) =
        .error reason →
      LibraryFails scheme K printer keyId value sender recipient sk vk nonce later
        (.sign (.sign reason))
  | print {expiry reason : String} {signature : Signature} : federationExpiry later = .ok expiry →
      scheme.signValue K sk (withFederationFields keyId value sender recipient vk nonce expiry) =
        .ok signature →
      printer.toVec ((withFederationFields keyId value sender recipient vk nonce expiry).insert
        "signature" (.str (scheme.toB64url signature))) = .error reason →
      LibraryFails scheme K printer keyId value sender recipient sk vk nonce later (.encode reason)

theorem signFederationFields_error {printer : K.Printer} {error : EgressError}
    (isObject : value.IsObject)
    (result : signFederationFields scheme K keyId value sender recipient sk vk nonce later =
      .error error) :
    LibraryFails scheme K printer keyId value sender recipient sk vk nonce later (.sign error) := by
  obtain ⟨members, shown⟩ := isObject
  unfold signFederationFields at result
  simp only [shown] at result
  split at result
  next => cases result
  next =>
    cases formatted : federationExpiry later with
    | error failed =>
      unfold federationExpiry at formatted
      split at formatted
      next unformatted =>
        cases formatted
        simp only [federationExpiry, unformatted] at result
        cases result
        exact .expiry unformatted
      next => cases formatted
    | ok expiry =>
      rw [formatted] at result
      dsimp only at result
      cases canonical : K.canonicalize
          (withFederationFields keyId value sender recipient vk nonce expiry) with
      | error reason =>
        rw [SigningScheme.signValue, canonical] at result
        cases result
        exact .canonical formatted canonical
      | ok bytes =>
        rw [SigningScheme.signValue, canonical] at result
        cases result

theorem depth_signFederationFields_le (isObject : value.IsObject)
    (unsigned : value.val.get? "signature" = none) (shallow : value.depth ≤ maxNesting)
    (result : signFederationFields scheme K keyId value sender recipient sk vk nonce later =
      .ok signed) : signed.depth ≤ maxNesting := by
  obtain ⟨expiry, signature, -, -, rfl⟩ := signFederationFields_ok isObject unsigned result
  have stamped : (withFederationFields keyId value sender recipient vk nonce expiry).depth ≤
      maxNesting := by
    refine Value.depth_insertAll_le shallow fun member inside => ?_
    have text : member.2.depth = 0 := by
      simp only [federationStamp, List.mem_cons, List.not_mem_nil, or_false] at inside
      rcases inside with rfl | rfl | rfl | rfl | rfl <;> rfl
    rw [text]
    decide
  exact (Value.depth_insert_le _ _ _).trans (Nat.max_le.mpr ⟨Nat.le_add_left 1 126, stamped⟩)

theorem decode_signed {bytes : Bytes} {envelope : AnyBusEnvelope}
    (decoded : AnyBusEnvelope.decodeTree value.val = .ok envelope)
    (absent : ∀ field ∈ federationOwnedFields, value.val.get? field = none)
    (result : signFederationFields scheme K keyId value sender recipient sk vk nonce later =
      .ok signed)
    (parsed : K.fromSliceStrict bytes = .ok signed) :
    (∃ received, AnySignedEnvelope.decode (scheme.crypto K) K bytes (scheme.verifyingKey sk) =
        .ok received ∧ received.content = envelope) ∧
      stripRelayFields signed = value := by
  obtain ⟨isObject, unsigned, -⟩ := AnyBusEnvelope.isObject_of_decodeTree decoded
  obtain ⟨expiry, signature, formatted, signing, rfl⟩ :=
    signFederationFields_ok isObject unsigned result
  have content : SameContent value
      (withFederationFields keyId value sender recipient vk nonce expiry) :=
    sameContent_withFederationFields isObject
  have typed := AnyBusEnvelope.decodeTree_federated decoded content
    (withFederationFields_readFrom isObject absent (shallowValidate_of_federationExpiry formatted))
  have removed := Value.remove_insert content.isObject (.str (scheme.toB64url signature))
    ((content.same "signature" (by decide)).trans unsigned)
  have signedWith : SignedWith (scheme.crypto K) (scheme.verifyingKey sk)
      ((withFederationFields keyId value sender recipient vk nonce expiry).insert "signature"
        (.str (scheme.toB64url signature))) signature := {
    isObject := content.isObject.insert _ _
    encoded := ⟨scheme.toB64url signature,
      by rw [Value.get?_insert content.isObject, if_pos rfl]; rfl,
      scheme.fromB64url_toB64url signature⟩
    verified := by rw [removed]; exact SigningScheme.verifyValue_signValue signing }
  refine ⟨⟨_, (AnySignedEnvelope.decode_ok_iff parsed).mpr ⟨signedWith, by rw [removed]; exact typed⟩,
    ?_⟩, stripRelayFields_signed isObject unsigned absent _⟩
  rw [AnySignedEnvelope.content, AnySignedEnvelope.inner_signedBy, AnyBusEnvelope.bare_federated]
  exact AnyBusEnvelope.bare_of_absent decoded absent

end Signed

/-! ## Relaying is transparent -/

/-- The message is for the two principals of the envelope.  Its bytes decode under
`verifier` to the envelope, and without the fields of the gateways they are the
document. -/
structure Transparent {Key Signature : Type} (K : Text) (crypto : EnvelopeCrypto Key Signature)
    (verifier : Key) (value : Value) (envelope : AnyBusEnvelope) (message : TransportMessage) :
    Prop where
  sender_eq : message.sender = envelope.sender
  recipient_eq : message.recipient = envelope.recipient
  decodes : ∃ received, AnySignedEnvelope.decode crypto K message.bytes verifier = .ok received ∧
    received.content = envelope
  stripped : ∃ document, K.fromSliceStrict message.bytes = .ok document ∧
    stripRelayFields document = value

/-- An envelope of the own domain without federation fields is handed over, or the
formatter of its expiry, its canonical text or its printer fails. -/
theorem relayOne_transparent {SigningKey Key Signature : Type}
    (scheme : SigningScheme SigningKey Key Signature) (K : Text) (printer : K.Printer)
    (keyId : Key → String) (transport : TransportMessage → Except String Unit) (line : Bytes)
    (value : Value) (envelope : AnyBusEnvelope) (ownDomain : String) (sk : SigningKey) (vk : Key)
    (nonce : Uuid) (later : Rfc3339.DateTime) (parsed : K.fromSliceStrict line = .ok value)
    (accepted : AnyBusEnvelope.decode K line = .ok envelope)
    (own : envelope.sender.authority = ownDomain)
    (absent : ∀ field ∈ federationOwnedFields, value.val.get? field = none) :
    (∃ message, Transparent K (scheme.crypto K) (scheme.verifyingKey sk) value envelope message ∧
      relayOne scheme K printer keyId transport value ownDomain sk vk nonce later =
        ⟨some message, (transport message).mapError .transport⟩) ∨
    ∃ error, LibraryFails scheme K printer keyId value envelope.sender envelope.recipient sk vk
        nonce later error ∧
      relayOne scheme K printer keyId transport value ownDomain sk vk nonce later =
        ⟨none, .error error⟩ := by
  have decoded : AnyBusEnvelope.decodeTree value.val = .ok envelope :=
    (AnyBusEnvelope.decode_of_parsed K parsed).symm.trans accepted
  obtain ⟨sender, recipient⟩ := AnyBusEnvelope.decodeTree_principals decoded
  obtain ⟨isObject, unsigned, -⟩ := AnyBusEnvelope.isObject_of_decodeTree decoded
  simp only [relayOne, parsePrincipalField_eq sender, parsePrincipalField_eq recipient, own,
    suppliedFields_eq_nil absent, ne_eq, not_true_eq_false, if_false]
  cases result : signFederationFields scheme K keyId value envelope.sender envelope.recipient sk vk
      nonce later with
  | error error => exact .inr ⟨.sign error, signFederationFields_error isObject result, rfl⟩
  | ok signed =>
    dsimp only
    cases printed : printer.toVec signed with
    | error reason =>
      obtain ⟨expiry, signature, formatted, signing, rfl⟩ :=
        signFederationFields_ok isObject unsigned result
      exact .inr ⟨.encode reason, .print formatted signing printed, rfl⟩
    | ok bytes =>
      have shallow := depth_signFederationFields_le isObject unsigned
        (Text.depth_of_fromSlice (Text.fromSlice_of_strict parsed)) result
      have reparsed := printer.fromSliceStrict_toVec printed shallow
      obtain ⟨decodes, stripped⟩ := decode_signed decoded absent result reparsed
      exact .inl ⟨⟨envelope.sender, envelope.recipient, bytes⟩,
        ⟨rfl, rfl, decodes, signed, reparsed, stripped⟩, rfl⟩

/-! ### An acknowledgement that is relayed -/

def plainAckBytes : Bytes := (Plain.render plainAck.val).toOption.getD []

def ackExpiry : Rfc3339.DateTime := ⟨2026, 7, 27, 0, 5, 0, 123000000⟩

theorem plainAck_relayed :
    ∃ envelope message, AnyBusEnvelope.decode Plain.text plainAckBytes = .ok envelope ∧
      Transparent Plain.text (SigningScheme.byLength.crypto Plain.text) 7 plainAck envelope message ∧
      relayOne SigningScheme.byLength Plain.text Plain.printer (fun _ => "key") (fun _ => .ok ())
        plainAck "peer.example" 7 7 Uuid.nil ackExpiry = ⟨some message, .ok ()⟩ := by
  have parsed : Plain.text.fromSliceStrict plainAckBytes = .ok plainAck := by decide +kernel
  have accepted : (AnyBusEnvelope.decode Plain.text plainAckBytes).isOk = true := by decide +kernel
  have named : principalAt plainAck "from" = some ⟨"peer.example", "alice"⟩ := by decide +kernel
  have handed : (relayOne SigningScheme.byLength Plain.text Plain.printer (fun _ => "key")
      (fun _ => .ok ()) plainAck "peer.example" 7 7 Uuid.nil ackExpiry).handed.isSome = true := by
    decide +kernel
  cases decoded : AnyBusEnvelope.decode Plain.text plainAckBytes with
  | error error => rw [decoded] at accepted; cases accepted
  | ok envelope =>
    have names := AnyBusEnvelope.decodeTree_principals
      ((AnyBusEnvelope.decode_of_parsed Plain.text parsed).symm.trans decoded)
    have sender := Option.some.inj (names.sender_eq.symm.trans named)
    obtain ⟨message, transparent, relayed⟩ | ⟨error, -, refused⟩ :=
      relayOne_transparent SigningScheme.byLength Plain.text Plain.printer (fun _ => "key")
        (fun _ => .ok ()) plainAckBytes plainAck envelope "peer.example" 7 7 Uuid.nil ackExpiry
        parsed decoded (by rw [sender]) (by decide +kernel)
    · exact ⟨envelope, message, rfl, transparent, relayed⟩
    · rw [refused] at handed
      cases handed

end Famp.Gateway
