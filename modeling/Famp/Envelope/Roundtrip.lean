import Famp.Core.Principals
import Famp.Envelope.Encode
import Famp.Envelope.Signed
import Famp.Json.Plain

/-!
# Encoding a signed envelope and decoding it again

The signature is verified over the document that was received, and an envelope is
encoded from what was read of it.  The two are the same for the verifier where the
document is spelled as the encoder spells it; the form of its numbers does not
matter.
-/

set_option autoImplicit false

namespace Famp.Envelope

open Famp.Core Json Json.Serde

/-! ## What is written is plain -/

theorem str_ne_null (text : String) : (Value.str text).val ≠ .null := nofun

theorem int_ne_null (value : Int) : (Value.int value).val ≠ .null := nofun

theorem arr_ne_null (items : List Value) : (Value.arr items).val ≠ .null := nofun

theorem Causality.plain_toValue (causality : Causality) :
    Causality.shape.plain causality.toValue.val = true :=
  Shape.plain_of_aligned ⟨.of_value rfl (str_ne_null _),
    .of_value (plain_hyphenated _) (str_ne_null _), trivial⟩ rfl (by decide)

theorem Budget.plain_toValue (budget : Budget) : Budget.shape.plain budget.toValue.val = true :=
  Shape.plain_of_aligned ⟨.of_required rfl, .of_required rfl, trivial⟩ rfl (by decide)

theorem isFinite_of_inUnitInterval {bits : Double} (inside : Bounds.inUnitInterval bits = true) :
    bits.isFinite = true := by
  simp only [Bounds.inUnitInterval, Bool.or_eq_true, decide_eq_true_eq, beq_iff_eq] at inside
  simp only [Double.isFinite, decide_eq_true_eq]
  omega

theorem Bounds.plain_toValue {bounds : Bounds} (valid : bounds.validate = .ok ()) :
    Bounds.shape.plain bounds.toValue.val = true := by
  have finite : ∀ floor ∈ bounds.confidenceFloor, floor.isFinite = true := by
    intro floor present
    simp only [validate] at valid
    split at valid
    next => cases valid
    next =>
      rw [show bounds.confidenceFloor = some floor from present] at valid
      dsimp only at valid
      split at valid
      next inside => exact isFinite_of_inUnitInterval inside
      next => cases valid
  refine Shape.plain_of_aligned ⟨.of_option fun _ _ => ⟨rfl, str_ne_null _⟩,
    .of_option fun budget _ => ⟨budget.plain_toValue, objectOf_ne_null _⟩,
    .of_option fun _ _ => ⟨rfl, int_ne_null _⟩, .of_option fun _ _ => ⟨rfl, str_ne_null _⟩,
    .of_option fun _ _ => ⟨rfl, str_ne_null _⟩, .of_option fun _ _ => ⟨rfl, int_ne_null _⟩,
    .of_option ?_, .of_option fun _ _ => ⟨rfl, int_ne_null _⟩, trivial⟩ rfl (by decide)
  intro floor present
  rw [Double.toValue, if_pos (finite floor present)]
  exact ⟨finite floor present, fun null => by cases null⟩

theorem Artifact.plain_toValue (artifact : Artifact) :
    Artifact.shape.plain artifact.toValue.val = true :=
  Shape.plain_of_aligned ⟨.of_required rfl, .of_required rfl, .of_required rfl, trivial⟩ rfl (by decide)

theorem plain_artifacts (items : List Artifact) :
    (Shape.list Artifact.shape).plain (Value.arr (items.map Artifact.toValue)).val = true := by
  simp [Value.arr, Shape.plain, Artifact.plain_toValue]

theorem plain_arr (items : List Value) : (Shape.list .any).plain (Value.arr items).val = true := by
  simp [Value.arr, Shape.plain]

theorem ErrorDetail.plain_toValue {detail : ErrorDetail} (present : detail.diagnostic ≠ some .null) :
    ErrorDetail.shape.plain detail.toValue.val = true :=
  Shape.plain_of_aligned ⟨.of_value rfl (str_ne_null _), .of_required rfl, .of_optional_value present,
    trivial⟩ rfl (by decide)

/-- A body with its serializer. -/
class WireBody (B : Type) [BodySchema B] where
  toValue : B → Value
  shape : Shape
  serialized : Serialized (BodySchema.read : Tree → Option B) toValue shape
  /-- No optional value of the body is null. -/
  NullFree : B → Prop
  plain_toValue : ∀ {body : B} {status : Option TerminalStatus}, NullFree body →
    BodySchema.postDecodeValidate body status = .ok () → shape.plain (toValue body).val = true

instance : WireBody RequestBody where
  toValue := RequestBody.toValue
  shape := RequestBody.shape
  serialized := RequestBody.serialized
  NullFree _ := True
  plain_toValue _ valid :=
    Shape.plain_of_aligned ⟨.of_required rfl,
      .of_value (Bounds.plain_toValue valid) (objectOf_ne_null _),
      .of_option fun _ _ => ⟨rfl, str_ne_null _⟩, trivial⟩ rfl (by decide)

instance : WireBody CommitBody where
  toValue := CommitBody.toValue
  shape := CommitBody.shape
  serialized := CommitBody.serialized
  NullFree body := body.delegationPermissions ≠ some .null ∧ body.reportingObligations ≠ some .null
  plain_toValue present valid :=
    Shape.plain_of_aligned ⟨.of_required rfl, .of_option fun _ _ => ⟨rfl, nofun⟩,
      .of_value (Bounds.plain_toValue valid) (objectOf_ne_null _),
      .of_value (plain_arr _) (arr_ne_null _), .of_optional_value present.1,
      .of_optional_value present.2, .of_required rfl,
      .of_option fun _ _ => ⟨plain_arr _, arr_ne_null _⟩,
      .of_option fun _ _ => ⟨rfl, str_ne_null _⟩, trivial⟩ rfl (by decide)

instance : WireBody DeliverBody where
  toValue := DeliverBody.toValue
  shape := DeliverBody.shape
  serialized := DeliverBody.serialized
  NullFree body := body.result ≠ some .null ∧ body.usageMetrics ≠ some .null ∧
    body.provenance ≠ some .null ∧ ∀ detail ∈ body.errorDetail, detail.diagnostic ≠ some .null
  plain_toValue present _ :=
    Shape.plain_of_aligned ⟨.of_required rfl,
      .of_option fun items _ => ⟨plain_artifacts items, arr_ne_null _⟩,
      .of_optional_value present.1, .of_optional_value present.2.1,
      .of_option fun detail inside =>
        ⟨ErrorDetail.plain_toValue (present.2.2.2 detail inside), objectOf_ne_null _⟩,
      .of_optional_value present.2.2.1, .of_option fun _ _ => ⟨rfl, str_ne_null _⟩, trivial⟩ rfl
      (by decide)

instance : WireBody AckBody where
  toValue := AckBody.toValue
  shape := AckBody.shape
  serialized := AckBody.serialized
  NullFree _ := True
  plain_toValue _ _ :=
    Shape.plain_of_aligned ⟨.of_value rfl (str_ne_null _),
      .of_option fun _ _ => ⟨rfl, str_ne_null _⟩, trivial⟩ rfl (by decide)

instance : WireBody ControlBody where
  toValue := ControlBody.toValue
  shape := ControlBody.shape
  serialized := ControlBody.serialized
  NullFree _ := True
  plain_toValue _ _ :=
    Shape.plain_of_aligned ⟨.of_value rfl (str_ne_null _), .of_value rfl (str_ne_null _),
      .of_option fun _ _ => ⟨rfl, str_ne_null _⟩, .of_option fun _ _ => ⟨rfl, str_ne_null _⟩,
      .of_option fun _ _ => ⟨plain_arr _, arr_ne_null _⟩, trivial⟩ rfl (by decide)

instance : WireBody AuditLogBody where
  toValue := AuditLogBody.toValue
  shape := AuditLogBody.shape
  serialized := AuditLogBody.serialized
  NullFree body := body.details ≠ some .null
  plain_toValue present _ :=
    Shape.plain_of_aligned ⟨.of_required rfl, .of_option fun _ _ => ⟨rfl, str_ne_null _⟩,
      .of_optional_value present, trivial⟩ rfl (by decide)

/-! ## The header -/

/-- The fields of the header, those that are written and those that are skipped. -/
def WireEnvelope.members {B : Type} [BodySchema B] [WireBody B] (wire : WireEnvelope B) :
    List (String × Option Value) :=
  [("famp", some (.str wire.famp)), ("id", some (.str wire.id.hyphenated)),
    ("from", some (.str wire.sender.display)), ("to", some (.str wire.recipient.display)),
    ("scope", some (.str wire.scope.name)), ("class", some (.str wire.messageClass.name)),
    ("causality", wire.causality.map Causality.toValue),
    ("authority", some (.str wire.authority.name)), ("ts", some (.str wire.ts)),
    ("terminal_status", wire.terminalStatus.map fun status => .str status.name),
    ("idempotency_key", wire.idempotencyKey.map Value.str),
    ("extensions", wire.extensions.map fun members => ⟨.obj members.val, members.property⟩),
    ("from_domain", wire.fromDomain.map Value.str), ("to_domain", wire.toDomain.map Value.str),
    ("sender_key_id", wire.senderKeyId.map Value.str), ("nonce", wire.nonce.map Value.str),
    ("expiry", wire.expiry.map Value.str), ("capability", wire.capability),
    ("approval", wire.approval), ("body", some (WireBody.toValue wire.body))]

/-- What the serializer of the header writes. -/
def WireEnvelope.toValue {B : Type} [BodySchema B] [WireBody B] (wire : WireEnvelope B) : Value :=
  objectOf wire.members

def WireEnvelope.shape (B : Type) [BodySchema B] [WireBody B] : Shape :=
  .record [(required "famp", .any), (required "id", .identifier), (required "from", .any),
    (required "to", .any), (required "scope", .variant), (required "class", .variant),
    (defaulted "causality", Causality.shape), (required "authority", .variant),
    (required "ts", .any), (defaulted "terminal_status", .variant),
    (defaulted "idempotency_key", .any), (defaulted "extensions", .any),
    (defaulted "from_domain", .any), (defaulted "to_domain", .any),
    (defaulted "sender_key_id", .any), (defaulted "nonce", .any), (defaulted "expiry", .any),
    (defaulted "capability", .any), (defaulted "approval", .any),
    (required "body", WireBody.shape B)]

/-- The texts of the header are ones that can be read. -/
structure WireEnvelope.WellFormed {B : Type} (wire : WireEnvelope B) : Prop where
  sender : Principal.fromStr wire.sender.display = some wire.sender
  recipient : Principal.fromStr wire.recipient.display = some wire.recipient
  ts : shallowValidate wire.ts = true
  expiry : ∀ expiry ∈ wire.expiry, shallowValidate expiry = true

theorem readPrincipal_written :
    Written readPrincipal (fun principal => Value.str principal.display) .any where
  write_read {value principal} _ found := by
    obtain ⟨tree, ordered⟩ := value
    obtain ⟨text, isText, parsed⟩ := Option.bind_eq_some_iff.mp found
    obtain ⟨same, -⟩ := Principal.fromStr_spec parsed
    cases tree <;> cases isText
    rw [← same]
    rfl

variable {tree : Tree} {principal : Principal} {text : String}

theorem readField_principal (parses : Principal.fromStr principal.display = some principal) :
    readField readPrincipal (some (Value.str principal.display).val) = some principal := by
  simp only [readField, readPrincipal, Value.str, Tree.asStr?, Option.bind_some, parses]

theorem fromStr_of_readField {item : Option Tree}
    (found : readField readPrincipal item = some principal) :
    Principal.fromStr principal.display = some principal := by
  rw [readField_eq_bind] at found
  obtain ⟨tree, -, read⟩ := Option.bind_eq_some_iff.mp found
  obtain ⟨text, -, parsed⟩ := Option.bind_eq_some_iff.mp read
  rw [← (Principal.fromStr_spec parsed).1]
  exact parsed

theorem readTimestamp_some (found : readTimestamp tree = some text) :
    tree = .str text ∧ shallowValidate text = true := by
  obtain ⟨content, isText, valid⟩ := Option.bind_eq_some_iff.mp found
  split at valid
  next passed =>
    cases valid
    cases tree <;> cases isText
    exact ⟨rfl, passed⟩
  next => cases valid

theorem readTimestamp_str (valid : shallowValidate text = true) :
    readTimestamp (.str text) = some text := by
  simp [readTimestamp, Tree.asStr?, valid]

theorem readTimestamp_written : Written readTimestamp Value.str .any where
  write_read {value text} _ found := by
    obtain ⟨tree, ordered⟩ := value
    obtain ⟨rfl, -⟩ := readTimestamp_some found
    rfl

section Header
variable {B : Type} [BodySchema B]

theorem WireEnvelope.wellFormed_of_readFrom {wire : WireEnvelope B} (read : wire.ReadFrom tree) :
    wire.WellFormed where
  sender := fromStr_of_readField read.sender
  recipient := fromStr_of_readField read.recipient
  ts := by
    have found := read.ts
    rw [readField_eq_bind] at found
    obtain ⟨item, -, parsed⟩ := Option.bind_eq_some_iff.mp found
    exact (readTimestamp_some parsed).2
  expiry := by
    intro expiry present
    have found := read.expiry
    rw [present] at found
    unfold readOption at found
    split at found
    next => cases found
    next => cases found
    next tree _ =>
      obtain ⟨text, parsed, same⟩ := Option.map_eq_some_iff.mp found
      cases same
      exact (readTimestamp_some parsed).2

variable [WireBody B]

theorem headerFields_nodup : headerFields.Nodup := by decide

theorem WireEnvelope.toValue_isObject (wire : WireEnvelope B) : wire.toValue.IsObject :=
  objectOf_isObject _

theorem WireEnvelope.get?_toValue (wire : WireEnvelope B) : ∀ member ∈ wire.members,
    wire.toValue.val.get? member.1 = member.2.map Subtype.val :=
  get?_objectOf headerFields_nodup

theorem WireEnvelope.headerFields_of_toValue (wire : WireEnvelope B) {key : String}
    (present : (wire.toValue.val.get? key).isSome = true) : key ∈ headerFields := by
  by_contra unknown
  have absent : wire.toValue.val.get? key = none := get?_objectOf_absent unknown
  rw [absent] at present
  cases present

theorem WireEnvelope.unsigned_toValue (wire : WireEnvelope B) :
    wire.toValue.val.get? "signature" = none := by
  by_contra present
  exact absurd (wire.headerFields_of_toValue (Option.isSome_iff_ne_none.mpr present)) (by decide)

theorem WireEnvelope.readFrom_toValue {wire : WireEnvelope B} (wellFormed : wire.WellFormed)
    (plain : (WireEnvelope.shape B).plain wire.toValue.val = true) :
    wire.ReadFrom wire.toValue.val := by
  obtain ⟨famp, id, -, -, scope, messageClass, causality, authority, -, terminalStatus,
    idempotencyKey, extensions, fromDomain, toDomain, senderKeyId, nonce, -, capability, approval,
    body, -⟩ := Shape.plain_objectOf plain rfl headerFields_nodup
  have stored := wire.get?_toValue
  simp only [WireEnvelope.members, List.forall_mem_cons] at stored
  obtain ⟨atFamp, atId, atSender, atRecipient, atScope, atClass, atCausality, atAuthority, atTs,
    atStatus, atKey, atExtensions, atFrom, atTo, atKeyId, atNonce, atExpiry, atCapability, atApproval,
    atBody, -⟩ := stored
  have expiry : readOption readTimestamp ((wire.expiry.map Value.str).map Subtype.val) =
      some wire.expiry := by
    cases present : wire.expiry with
    | none => rfl
    | some text =>
      exact congrArg (Option.map some) (readTimestamp_str (wellFormed.expiry text present))
  exact {
    famp := atFamp ▸ readString_serialized.readField_write famp
    id := atId ▸ readMessageId_serialized.readField_write id
    sender := atSender ▸ readField_principal wellFormed.sender
    recipient := atRecipient ▸ readField_principal wellFormed.recipient
    scope := atScope ▸ EnvelopeScope.serialized.readField_write scope
    messageClass := atClass ▸ MessageClass.serialized.readField_write messageClass
    causality := atCausality ▸ Causality.serialized.readOption_write rfl causality
    authority := atAuthority ▸ AuthorityScope.serialized.readField_write authority
    ts := atTs ▸ readTimestamp_str wellFormed.ts
    terminalStatus := atStatus ▸ TerminalStatus.serialized.readOption_write rfl terminalStatus
    idempotencyKey := atKey ▸ readString_serialized.readOption_write rfl idempotencyKey
    extensions := atExtensions ▸ readMap_serialized.readOption_write rfl extensions
    fromDomain := atFrom ▸ readString_serialized.readOption_write rfl fromDomain
    toDomain := atTo ▸ readString_serialized.readOption_write rfl toDomain
    senderKeyId := atKeyId ▸ readString_serialized.readOption_write rfl senderKeyId
    nonce := atNonce ▸ readString_serialized.readOption_write rfl nonce
    expiry := atExpiry ▸ expiry
    capability := atCapability ▸ readOption_value rfl capability
    approval := atApproval ▸ readOption_value rfl approval
    body := atBody ▸ WireBody.serialized.readField_write body }

theorem WireEnvelope.toValue_doubles {wire : WireEnvelope B} {value : Value}
    (isObject : value.IsObject)
    (known : ∀ key, (value.val.get? key).isSome = true → key ∈ headerFields)
    (plain : (WireEnvelope.shape B).plain value.val = true) (read : wire.ReadFrom value.val) :
    wire.toValue.mapNumbers Number.asDouble = value.mapNumbers Number.asDouble := by
  obtain ⟨-, each⟩ := Shape.plain_record.mp plain
  simp only [List.forall_mem_cons] at each
  obtain ⟨famp, id, sender, recipient, scope, messageClass, causality, authority, ts, terminalStatus,
    idempotencyKey, extensions, fromDomain, toDomain, senderKeyId, nonce, expiry, capability,
    approval, body, -⟩ := each
  refine objectOf_mapNumbers isObject headerFields_nodup known ?_
  simp only [WireEnvelope.members, List.forall_mem_cons]
  exact ⟨readString_serialized.write_readField famp read.famp,
    readMessageId_serialized.write_readField id read.id,
    readPrincipal_written.write_readField sender read.sender,
    readPrincipal_written.write_readField recipient read.recipient,
    EnvelopeScope.serialized.write_readField scope read.scope,
    MessageClass.serialized.write_readField messageClass read.messageClass,
    Causality.serialized.write_readOption rfl causality read.causality,
    AuthorityScope.serialized.write_readField authority read.authority,
    readTimestamp_written.write_readField ts read.ts,
    TerminalStatus.serialized.write_readOption rfl terminalStatus read.terminalStatus,
    readString_serialized.write_readOption rfl idempotencyKey read.idempotencyKey,
    readMap_serialized.write_readOption rfl extensions read.extensions,
    readString_serialized.write_readOption rfl fromDomain read.fromDomain,
    readString_serialized.write_readOption rfl toDomain read.toDomain,
    readString_serialized.write_readOption rfl senderKeyId read.senderKeyId,
    readString_serialized.write_readOption rfl nonce read.nonce,
    readTimestamp_written.write_readOption rfl expiry read.expiry,
    write_readOption_value rfl capability read.capability,
    write_readOption_value rfl approval read.approval,
    WireBody.serialized.write_readField body read.body, by simp⟩

theorem WireEnvelope.plain_toValue {wire : WireEnvelope B} (capability : wire.capability ≠ some .null)
    (approval : wire.approval ≠ some .null)
    (body : (WireBody.shape B).plain (WireBody.toValue wire.body).val = true) :
    (WireEnvelope.shape B).plain wire.toValue.val = true :=
  Shape.plain_of_aligned ⟨.of_required rfl, .of_required (plain_hyphenated _), .of_required rfl,
    .of_required rfl, .of_required rfl, .of_required rfl,
    .of_option fun causality _ => ⟨causality.plain_toValue, objectOf_ne_null _⟩, .of_required rfl,
    .of_required rfl, .of_option fun _ _ => ⟨rfl, str_ne_null _⟩,
    .of_option fun _ _ => ⟨rfl, str_ne_null _⟩, .of_option fun _ _ => ⟨rfl, nofun⟩,
    .of_option fun _ _ => ⟨rfl, str_ne_null _⟩, .of_option fun _ _ => ⟨rfl, str_ne_null _⟩,
    .of_option fun _ _ => ⟨rfl, str_ne_null _⟩, .of_option fun _ _ => ⟨rfl, str_ne_null _⟩,
    .of_option fun _ _ => ⟨rfl, str_ne_null _⟩, .of_optional_value capability,
    .of_optional_value approval, .of_required body, trivial⟩ rfl headerFields_nodup

theorem BusEnvelope.decodeTree_toValue {wire : WireEnvelope B} (wellFormed : wire.WellFormed)
    (famp : wire.famp = fampSpecVersion) (messageClass : wire.messageClass = BodySchema.messageClass B)
    (scope : wire.scope = BodySchema.scope B)
    (checked : BodySchema.postDecodeValidate wire.body wire.terminalStatus = .ok ())
    (plain : (WireEnvelope.shape B).plain wire.toValue.val = true) :
    BusEnvelope.decodeTree B wire.toValue.val = .ok wire := by
  have header := WireEnvelope.readFrom_toValue wellFormed plain
  have version : wire.toValue.val.get? "famp" = some (.str fampSpecVersion) := by
    rw [← famp]
    exact wire.get?_toValue ("famp", some (.str wire.famp)) (List.mem_cons_self ..)
  obtain ⟨members, shown⟩ := wire.toValue_isObject
  refine BusEnvelope.decodeTree_ok_iff.mpr ⟨members, shown, wire.unsigned_toValue, version, ?_,
    messageClass, scope, checked⟩
  refine WireEnvelope.read_iff.mpr ⟨?_, shown ▸ header⟩
  intro member inside
  refine wire.headerFields_of_toValue ?_
  rw [shown]
  exact Tree.get?_isSome_of_mem inside

end Header

/-! ## Building, signing and encoding -/

section Building
variable {B : Type} [BodySchema B]

def UnsignedEnvelope.new (id : Uuid) (sender recipient : ParsedPrincipal)
    (authority : AuthorityScope) (ts : String) (body : B) : WireEnvelope B where
  famp := fampSpecVersion
  id := id
  sender := sender.principal
  recipient := recipient.principal
  scope := BodySchema.scope B
  messageClass := BodySchema.messageClass B
  causality := none
  authority := authority
  ts := ts
  terminalStatus := none
  idempotencyKey := none
  extensions := none
  fromDomain := none
  toDomain := none
  senderKeyId := none
  nonce := none
  expiry := none
  capability := none
  approval := none
  body := body

namespace WireEnvelope

def withCausality (wire : WireEnvelope B) (causality : Causality) : WireEnvelope B :=
  { wire with causality := some causality }

def withTerminalStatus (wire : WireEnvelope B) (status : TerminalStatus) : WireEnvelope B :=
  { wire with terminalStatus := some status }

def withIdempotencyKey (wire : WireEnvelope B) (key : String) : WireEnvelope B :=
  { wire with idempotencyKey := some key }

def withFromDomain (wire : WireEnvelope B) (domain : String) : WireEnvelope B :=
  { wire with fromDomain := some domain }

def withToDomain (wire : WireEnvelope B) (domain : String) : WireEnvelope B :=
  { wire with toDomain := some domain }

def withSenderKeyId (wire : WireEnvelope B) (keyId : String) : WireEnvelope B :=
  { wire with senderKeyId := some keyId }

def withNonce (wire : WireEnvelope B) (nonce : String) : WireEnvelope B :=
  { wire with nonce := some nonce }

def withExpiry (wire : WireEnvelope B) (expiry : String) : WireEnvelope B :=
  { wire with expiry := some expiry }

end WireEnvelope

/-- Envelopes that come from the constructor and the setters. -/
inductive Built : WireEnvelope B → Prop
  | new (id : Uuid) (sender recipient : ParsedPrincipal) (authority : AuthorityScope) (ts : String)
      (body : B) : Built (UnsignedEnvelope.new id sender recipient authority ts body)
  | causality {wire : WireEnvelope B} (causality : Causality) :
      Built wire → Built (wire.withCausality causality)
  | terminalStatus {wire : WireEnvelope B} (status : TerminalStatus) :
      Built wire → Built (wire.withTerminalStatus status)
  | idempotencyKey {wire : WireEnvelope B} (key : String) :
      Built wire → Built (wire.withIdempotencyKey key)
  | fromDomain {wire : WireEnvelope B} (domain : String) :
      Built wire → Built (wire.withFromDomain domain)
  | toDomain {wire : WireEnvelope B} (domain : String) :
      Built wire → Built (wire.withToDomain domain)
  | senderKeyId {wire : WireEnvelope B} (keyId : String) :
      Built wire → Built (wire.withSenderKeyId keyId)
  | nonce {wire : WireEnvelope B} (nonce : String) : Built wire → Built (wire.withNonce nonce)
  | expiry {wire : WireEnvelope B} (expiry : String) : Built wire → Built (wire.withExpiry expiry)

/-- What the setters leave alone. -/
structure WireEnvelope.Fixed (wire : WireEnvelope B) : Prop where
  famp : wire.famp = fampSpecVersion
  messageClass : wire.messageClass = BodySchema.messageClass B
  scope : wire.scope = BodySchema.scope B
  sender : Principal.fromStr wire.sender.display = some wire.sender
  recipient : Principal.fromStr wire.recipient.display = some wire.recipient
  capability : wire.capability = none
  approval : wire.approval = none

theorem Built.fixed {wire : WireEnvelope B} (built : Built wire) : wire.Fixed := by
  induction built with
  | new id sender recipient authority ts body =>
    exact ⟨rfl, rfl, rfl, sender.parses, recipient.parses, rfl, rfl⟩
  | causality | terminalStatus | idempotencyKey | fromDomain | toDomain | senderKeyId | nonce
  | expiry =>
    rename_i fixed
    exact ⟨fixed.famp, fixed.messageClass, fixed.scope, fixed.sender, fixed.recipient,
      fixed.capability, fixed.approval⟩

end Building

section Encoding
variable {SigningKey Key Signature : Type} (scheme : SigningScheme SigningKey Key Signature)
variable {B : Type} [BodySchema B] [WireBody B]

def UnsignedEnvelope.sign (K : Text) (wire : WireEnvelope B) (sk : SigningKey) :
    Except String (SignedEnvelope Signature B) :=
  (scheme.signValue K sk wire.toValue).map fun signature => ⟨wire, signature⟩

def SignedEnvelope.document (envelope : SignedEnvelope Signature B) : Value :=
  envelope.inner.toValue.insert signatureField (.str (scheme.toB64url envelope.signature))

def SignedEnvelope.encode {K : Text} (printer : K.Printer) (envelope : SignedEnvelope Signature B) :
    Except String Bytes :=
  printer.toVec (envelope.document scheme)

def SignedEnvelope.decode {Key Signature : Type} (crypto : EnvelopeCrypto Key Signature) (K : Text)
    (B : Type) [BodySchema B] (bytes : Bytes) (verifier : Key) :
    Except SignedDecodeError (SignedEnvelope Signature B) :=
  match K.fromSliceStrict bytes with
  | .error error => .error (.decode (.malformedJson error))
  | .ok value => SignedEnvelope.decodeValue crypto B value verifier

variable {scheme}

/-- The signature adds no level. -/
theorem SignedEnvelope.depth_document_le {envelope : SignedEnvelope Signature B}
    (shallow : envelope.inner.toValue.depth ≤ maxNesting) :
    (envelope.document scheme).depth ≤ maxNesting :=
  (Value.depth_insert_le _ _ _).trans (Nat.max_le.mpr ⟨Nat.le_add_left 1 126, shallow⟩)

/-- An envelope that is written plainly and whose signature verifies over what is
written decodes to itself. -/
theorem SignedEnvelope.decode_encode {K : Text} {printer : K.Printer} {verifier : Key}
    {envelope : SignedEnvelope Signature B} {bytes : Bytes}
    (wellFormed : envelope.inner.WellFormed) (famp : envelope.inner.famp = fampSpecVersion)
    (messageClass : envelope.inner.messageClass = BodySchema.messageClass B)
    (scope : envelope.inner.scope = BodySchema.scope B)
    (checked : BodySchema.postDecodeValidate envelope.inner.body envelope.inner.terminalStatus =
      .ok ())
    (plain : (WireEnvelope.shape B).plain envelope.inner.toValue.val = true)
    (verified : scheme.verifyValue K verifier envelope.inner.toValue envelope.signature = true)
    (shallow : envelope.inner.toValue.depth ≤ maxNesting)
    (encoded : envelope.encode scheme printer = .ok bytes) :
    SignedEnvelope.decode (scheme.crypto K) K B bytes verifier = .ok envelope := by
  have isObject := envelope.inner.toValue_isObject
  have removed : (envelope.document scheme).remove "signature" = envelope.inner.toValue :=
    Value.remove_insert isObject _ envelope.inner.unsigned_toValue
  have signed : SignedWith (scheme.crypto K) verifier (envelope.document scheme)
      envelope.signature := {
    isObject := isObject.insert _ _
    encoded := ⟨scheme.toB64url envelope.signature,
      by rw [SignedEnvelope.document, signatureField, Value.get?_insert isObject, if_pos rfl]; rfl,
      scheme.fromB64url_toB64url envelope.signature⟩
    verified := by rw [removed]; exact verified }
  simp only [SignedEnvelope.decode,
    printer.fromSliceStrict_toVec encoded (SignedEnvelope.depth_document_le shallow)]
  refine SignedEnvelope.decodeValue_ok_iff.mpr ⟨signed, ?_⟩
  rw [removed]
  exact BusEnvelope.decodeTree_toValue wellFormed famp messageClass scope checked plain

/-- A signed envelope stays verified: one that was decoded from a document in plain
spelling, and one that was built without a null in its body and signed, if the parser
takes its nesting. -/
theorem signed_stays_verified (K : Text) (printer : K.Printer) (doubles : K.WritesDoubles)
    (scheme : SigningScheme SigningKey Key Signature) (B : Type) [BodySchema B] [WireBody B] :
    (∀ (bytes : Bytes) (verifier : Key) (value : Value) (envelope : SignedEnvelope Signature B),
      K.fromSliceStrict bytes = .ok value →
      SignedEnvelope.decode (scheme.crypto K) K B bytes verifier = .ok envelope →
      (WireEnvelope.shape B).plain (value.remove "signature").val = true →
      ∀ printed, printer.toVec (envelope.document scheme) = .ok printed →
        envelope.encode scheme printer = .ok printed ∧
          SignedEnvelope.decode (scheme.crypto K) K B printed verifier = .ok envelope) ∧
    ∀ (sk : SigningKey) (wire : WireEnvelope B) (signature : Signature), Built wire →
      BodySchema.postDecodeValidate wire.body wire.terminalStatus = .ok () →
      WireBody.NullFree wire.body → shallowValidate wire.ts = true →
      (∀ expiry ∈ wire.expiry, shallowValidate expiry = true) →
      wire.toValue.depth ≤ maxNesting → scheme.signValue K sk wire.toValue = .ok signature →
      UnsignedEnvelope.sign scheme K wire sk = .ok ⟨wire, signature⟩ ∧
      ∀ printed, printer.toVec (SignedEnvelope.document scheme ⟨wire, signature⟩) = .ok printed →
        SignedEnvelope.encode scheme printer ⟨wire, signature⟩ = .ok printed ∧
          SignedEnvelope.decode (scheme.crypto K) K B printed (scheme.verifyingKey sk) =
            .ok ⟨wire, signature⟩ := by
  constructor
  · intro bytes verifier value envelope parsed decoded plain printed encoded
    refine ⟨encoded, ?_⟩
    simp only [SignedEnvelope.decode, parsed] at decoded
    obtain ⟨signed, typed⟩ := SignedEnvelope.decodeValue_ok_iff.mp decoded
    obtain ⟨members, shown, -, version, read, messageClass, scope, checked⟩ :=
      BusEnvelope.decodeTree_ok_iff.mp typed
    obtain ⟨known, header⟩ := WireEnvelope.read_iff.mp read
    rw [← shown] at header
    have isObject : (value.remove "signature").IsObject := ⟨members, shown⟩
    have fields : ∀ key, ((value.remove "signature").val.get? key).isSome = true →
        key ∈ headerFields := by
      intro key present
      obtain ⟨item, found⟩ := Option.isSome_iff_exists.mp present
      rw [shown] at found
      exact known (key, item) (Tree.mem_of_get? found)
    have same := WireEnvelope.toValue_doubles isObject fields plain header
    have shallow : envelope.inner.toValue.depth ≤ maxNesting := by
      rw [← Value.depth_mapNumbers Number.asDouble, same, Value.depth_mapNumbers]
      exact (value.depth_remove_le _).trans (Text.depth_of_fromSlice (Text.fromSlice_of_strict parsed))
    have written : (WireEnvelope.shape B).plain envelope.inner.toValue.val = true := by
      have trees : envelope.inner.toValue.val.doubles = (value.remove "signature").val.doubles :=
        congrArg Subtype.val same
      rw [← Shape.plain_doubles, trees, Shape.plain_doubles]
      exact plain
    have famp : envelope.inner.famp = fampSpecVersion := by
      have found := header.famp
      rw [version] at found
      exact (Option.some.inj found).symm
    refine SignedEnvelope.decode_encode (WireEnvelope.wellFormed_of_readFrom header) famp
      messageClass scope checked written ?_ shallow encoded
    -- The verifier sees the canonical bytes, in which the two documents agree.
    have canonical : K.canonicalize envelope.inner.toValue =
        K.canonicalize (value.remove "signature") := by
      rw [← doubles envelope.inner.toValue, same, doubles]
    rw [SigningScheme.verifyValue_congr canonical]
    exact signed.verified
  · intro sk wire signature built checked nullFree ts expiry shallow signed
    have fixed := built.fixed
    refine ⟨by rw [UnsignedEnvelope.sign, signed]; rfl, ?_⟩
    intro printed encoded
    refine ⟨encoded, ?_⟩
    exact SignedEnvelope.decode_encode ⟨fixed.sender, fixed.recipient, ts, expiry⟩ fixed.famp
      fixed.messageClass fixed.scope checked
      (WireEnvelope.plain_toValue (by simp [fixed.capability]) (by simp [fixed.approval])
        (WireBody.plain_toValue nullFree checked))
      (SigningScheme.verifyValue_signValue signed) shallow encoded

end Encoding

/-! ### Acknowledgements with and without a null -/

/-- An acknowledgement with a signature, and with `key` as its idempotency key. -/
def sealedAck (key : Option Value) (signature : String) : Value :=
  objectOf [("authority", some (.str "advisory")),
    ("body", some (objectOf [("disposition", some (.str "accepted"))])),
    ("class", some (.str "ack")), ("famp", some (.str "0.5.2")),
    ("from", some (.str "agent:peer.example/alice")),
    ("id", some (.str "01890a3b-2c4d-7e5f-8a1b-0c2d3e4f5a6b")), ("idempotency_key", key),
    ("scope", some (.str "standalone")), ("signature", some (.str signature)),
    ("to", some (.str "agent:own.example/bob")), ("ts", some (.str "2026-07-27T00:00:00Z"))]

def sealedAckBytes (key : Option Value) : Bytes :=
  (Plain.render (sealedAck key "A").val).toOption.getD []

/-- The acknowledgement without a key, as it is built. -/
def builtAck : WireEnvelope AckBody :=
  UnsignedEnvelope.new Uuid.nil ⟨⟨"peer.example", "alice"⟩, by decide +kernel⟩
    ⟨⟨"own.example", "bob"⟩, by decide +kernel⟩ .advisory "2026-07-27T00:00:00Z" ⟨.accepted, none⟩

theorem sealedAck_stays_verified :
    (∃ envelope printed,
      SignedEnvelope.decode (SigningScheme.byLength.crypto Plain.doubles) Plain.doubles AckBody
        (sealedAckBytes none) 2 = .ok envelope ∧
      envelope.encode SigningScheme.byLength Plain.doublesPrinter = .ok printed ∧
      SignedEnvelope.decode (SigningScheme.byLength.crypto Plain.doubles) Plain.doubles AckBody
        printed 2 = .ok envelope) ∧
    ∃ envelope printed,
      UnsignedEnvelope.sign SigningScheme.byLength Plain.doubles builtAck 2 = .ok envelope ∧
      envelope.encode SigningScheme.byLength Plain.doublesPrinter = .ok printed ∧
      SignedEnvelope.decode (SigningScheme.byLength.crypto Plain.doubles) Plain.doubles AckBody
        printed 2 = .ok envelope := by
  obtain ⟨decoded, built⟩ := signed_stays_verified Plain.doubles Plain.doublesPrinter
    Plain.doubles_writesDoubles SigningScheme.byLength AckBody
  constructor
  · have run : (match SignedEnvelope.decode (SigningScheme.byLength.crypto Plain.doubles)
        Plain.doubles AckBody (sealedAckBytes none) 2 with
        | .ok envelope => (envelope.encode SigningScheme.byLength Plain.doublesPrinter).isOk
        | .error _ => false) = true := by
      decide +kernel
    have parsed : Plain.doubles.fromSliceStrict (sealedAckBytes none) =
        .ok (sealedAck none "A") := by
      decide +kernel
    have plain : (WireEnvelope.shape AckBody).plain
        ((sealedAck none "A").remove "signature").val = true := by
      decide +kernel
    split at run
    next envelope first =>
      cases printing : envelope.encode SigningScheme.byLength Plain.doublesPrinter with
      | error error => rw [printing] at run; cases run
      | ok printed =>
        exact ⟨envelope, printed, first, printing,
          (decoded _ 2 _ envelope parsed first plain printed printing).2⟩
    next => cases run
  · have signing : SigningScheme.byLength.signValue Plain.doubles 2 builtAck.toValue = .ok 1 := by
      decide +kernel
    have printing : (Plain.doublesPrinter.toVec
        (SignedEnvelope.document SigningScheme.byLength ⟨builtAck, 1⟩)).isOk = true := by
      decide +kernel
    obtain ⟨signed, again⟩ := built 2 builtAck 1 (.new _ _ _ _ _ _) rfl trivial
      (by decide +kernel) nofun (by decide +kernel) signing
    cases text : Plain.doublesPrinter.toVec
        (SignedEnvelope.document SigningScheme.byLength ⟨builtAck, 1⟩) with
    | error error => rw [text] at printing; cases printing
    | ok printed => exact ⟨_, printed, signed, again printed text⟩

/-- How the envelope of the bytes, encoded again, is refused. -/
def reencoded (bytes : Bytes) : Option SignedDecodeError :=
  match SignedEnvelope.decode (SigningScheme.byLength.crypto Plain.doubles) Plain.doubles AckBody
      bytes 11 with
  | .ok envelope =>
    match envelope.encode SigningScheme.byLength Plain.doublesPrinter with
    | .ok printed =>
      match SignedEnvelope.decode (SigningScheme.byLength.crypto Plain.doubles) Plain.doubles AckBody
          printed 11 with
      | .ok _ => none
      | .error error => some error
    | .error _ => none
  | .error _ => none

/-- The null is signed, and not written again: the signature does not verify over
what is left. -/
theorem nullKey_is_rejected :
    ∃ envelope printed,
      SignedEnvelope.decode (SigningScheme.byLength.crypto Plain.doubles) Plain.doubles AckBody
        (sealedAckBytes (some .null)) 11 = .ok envelope ∧
      envelope.encode SigningScheme.byLength Plain.doublesPrinter = .ok printed ∧
      SignedEnvelope.decode (SigningScheme.byLength.crypto Plain.doubles) Plain.doubles AckBody
        printed 11 = .error .signatureInvalid := by
  have run : reencoded (sealedAckBytes (some .null)) = some .signatureInvalid := by decide +kernel
  unfold reencoded at run
  split at run
  next envelope first =>
    split at run
    next printed printing =>
      split at run
      next => cases run
      next error refused =>
        cases run
        exact ⟨envelope, printed, first, printing, refused⟩
    next => cases run
  next => cases run

end Famp.Envelope
