import Famp.Envelope.Body
import Famp.Json.Object
import Famp.Json.Text

/-!
# Bus envelopes

Decoding of an unsigned envelope: the header, the version and signature gates,
and the body of the class that the header names.
-/

set_option autoImplicit false

namespace Famp.Envelope

open Famp.Core Json Json.Serde

def fampSpecVersion : String := "0.5.2"

/-! ## Timestamps and causality -/

/-- `shallow_validate`: separators at their positions, then a `Z` or an offset
`±HH:MM` at the end.  The rest of the text is not looked at. -/
def shallowValidate (text : String) : Bool :=
  let bytes := utf8 text
  let at? (i : Nat) (c : Char) : Bool := bytes[i]? == some (UInt8.ofNat c.toNat)
  let digit? (i : Nat) : Bool := bytes[i]?.any fun b => 0x30 ≤ b && b ≤ 0x39
  let n := bytes.length
  decide (20 ≤ n) && at? 4 '-' && at? 7 '-' && at? 10 'T' && at? 13 ':' && at? 16 ':' &&
    (at? (n - 1) 'Z' ||
      (decide (25 ≤ n) && (at? (n - 6) '+' || at? (n - 6) '-') && digit? (n - 5) &&
        digit? (n - 4) && at? (n - 3) ':' && digit? (n - 2) && digit? (n - 1)))

def readTimestamp (tree : Tree) : Option String :=
  tree.asStr?.bind fun text => if shallowValidate text then some text else none

inductive Relation where
  | acknowledges | requests | commits | delivers | cancels | audits
  deriving DecidableEq, Repr

def Relation.ofName : String → Option Relation
  | "acknowledges" => some .acknowledges
  | "requests" => some .requests
  | "commits" => some .commits
  | "delivers" => some .delivers
  | "cancels" => some .cancels
  | "audits" => some .audits
  | _ => none

structure Causality where
  rel : Relation
  referenced : Uuid
  deriving DecidableEq, Repr

def Causality.read (tree : Tree) : Option Causality :=
  match recordFields [required "rel", required "ref"] tree with
  | some [rel, referenced] => do
    return ⟨← readField (fun tree => (variantName tree).bind Relation.ofName) rel,
      ← readField readMessageId referenced⟩
  | _ => none

/-! ## The wire envelope -/

structure WireEnvelope (B : Type) where
  famp : String
  id : Uuid
  sender : Principal
  recipient : Principal
  scope : EnvelopeScope
  messageClass : MessageClass
  causality : Option Causality
  authority : AuthorityScope
  ts : String
  terminalStatus : Option TerminalStatus
  idempotencyKey : Option String
  extensions : Option Members
  fromDomain : Option String
  toDomain : Option String
  senderKeyId : Option String
  nonce : Option String
  expiry : Option String
  capability : Option Value
  approval : Option Value
  body : B

/-- The envelope root is an object, so the header is never read from an array. -/
def WireEnvelope.read {B : Type} [BodySchema B] (members : List (String × Tree)) :
    Option (WireEnvelope B) :=
  match recordFields [required "famp", required "id", required "from", required "to",
      required "scope", required "class", defaulted "causality", required "authority",
      required "ts", defaulted "terminal_status", defaulted "idempotency_key",
      defaulted "extensions", defaulted "from_domain", defaulted "to_domain",
      defaulted "sender_key_id", defaulted "nonce", defaulted "expiry", defaulted "capability",
      defaulted "approval", required "body"] (.obj members) with
  | some [famp, id, sender, recipient, scope, messageClass, causality, authority, ts,
      terminalStatus, idempotencyKey, extensions, fromDomain, toDomain, senderKeyId, nonce, expiry,
      capability, approval, body] => do
      return {
        famp := ← readField readString famp
        id := ← readField readMessageId id
        sender := ← readField readPrincipal sender
        recipient := ← readField readPrincipal recipient
        scope := ← readField (fun tree => (variantName tree).bind EnvelopeScope.ofName) scope
        messageClass :=
          ← readField (fun tree => (variantName tree).bind MessageClass.ofName) messageClass
        causality := ← readOption Causality.read causality
        authority :=
          ← readField (fun tree => (variantName tree).bind AuthorityScope.ofName) authority
        ts := ← readField readTimestamp ts
        terminalStatus := ←
          readOption (fun tree => (variantName tree).bind TerminalStatus.ofName) terminalStatus
        idempotencyKey := ← readOption readString idempotencyKey
        extensions := ← readOption readMap extensions
        fromDomain := ← readOption readString fromDomain
        toDomain := ← readOption readString toDomain
        senderKeyId := ← readOption readString senderKeyId
        nonce := ← readOption readString nonce
        expiry := ← readOption readTimestamp expiry
        capability := ← readOption readValue capability
        approval := ← readOption readValue approval
        body := ← readField BodySchema.read body }
  | _ => none

/-- The members that a header may have. -/
def headerFields : List String :=
  ["famp", "id", "from", "to", "scope", "class", "causality", "authority", "ts", "terminal_status",
    "idempotency_key", "extensions", "from_domain", "to_domain", "sender_key_id", "nonce", "expiry",
    "capability", "approval", "body"]

/-- Each field of the header is what is read from its member. -/
structure WireEnvelope.ReadFrom {B : Type} [BodySchema B] (wire : WireEnvelope B) (tree : Tree) :
    Prop where
  famp : readField readString (tree.get? "famp") = some wire.famp
  id : readField readMessageId (tree.get? "id") = some wire.id
  sender : readField readPrincipal (tree.get? "from") = some wire.sender
  recipient : readField readPrincipal (tree.get? "to") = some wire.recipient
  scope : readField (fun tree => (variantName tree).bind EnvelopeScope.ofName) (tree.get? "scope") =
    some wire.scope
  messageClass : readField (fun tree => (variantName tree).bind MessageClass.ofName)
    (tree.get? "class") = some wire.messageClass
  causality : readOption Causality.read (tree.get? "causality") = some wire.causality
  authority : readField (fun tree => (variantName tree).bind AuthorityScope.ofName)
    (tree.get? "authority") = some wire.authority
  ts : readField readTimestamp (tree.get? "ts") = some wire.ts
  terminalStatus : readOption (fun tree => (variantName tree).bind TerminalStatus.ofName)
    (tree.get? "terminal_status") = some wire.terminalStatus
  idempotencyKey : readOption readString (tree.get? "idempotency_key") = some wire.idempotencyKey
  extensions : readOption readMap (tree.get? "extensions") = some wire.extensions
  fromDomain : readOption readString (tree.get? "from_domain") = some wire.fromDomain
  toDomain : readOption readString (tree.get? "to_domain") = some wire.toDomain
  senderKeyId : readOption readString (tree.get? "sender_key_id") = some wire.senderKeyId
  nonce : readOption readString (tree.get? "nonce") = some wire.nonce
  expiry : readOption readTimestamp (tree.get? "expiry") = some wire.expiry
  capability : readOption readValue (tree.get? "capability") = some wire.capability
  approval : readOption readValue (tree.get? "approval") = some wire.approval
  body : readField BodySchema.read (tree.get? "body") = some wire.body

variable {bytes : Bytes} {members : List (String × Tree)} {value : Value}

theorem WireEnvelope.read_iff {B : Type} [BodySchema B] {wire : WireEnvelope B} :
    WireEnvelope.read members = some wire ↔
      (∀ member ∈ members, member.1 ∈ headerFields) ∧ wire.ReadFrom (.obj members) := by
  unfold WireEnvelope.read
  constructor
  · intro read
    split at read
    next fields =>
      obtain ⟨known, -, items⟩ := recordFields_obj_iff.mp fields
      simp only [required, defaulted, List.map_cons, List.map_nil, List.cons.injEq] at items
      obtain ⟨rfl, rfl, rfl, rfl, rfl, rfl, rfl, rfl, rfl, rfl, rfl, rfl, rfl, rfl, rfl, rfl, rfl, rfl,
        rfl, rfl, -⟩ := items
      iterate 20 obtain ⟨_, _, read⟩ := read_first read
      cases read
      exact ⟨known, by constructor <;> assumption⟩
    next => cases read
  · rintro ⟨known, read⟩
    rw [recordFields_obj_iff.mpr ⟨known, ?_, rfl⟩]
    · simp only [required, defaulted, List.map_cons, List.map_nil, read.famp, read.id, read.sender,
        read.recipient, read.scope, read.messageClass, read.causality, read.authority, read.ts,
        read.terminalStatus, read.idempotencyKey, read.extensions, read.fromDomain, read.toDomain,
        read.senderKeyId, read.nonce, read.expiry, read.capability, read.approval, read.body,
        Option.bind_eq_bind, Option.bind_some]
      rfl
    · simp only [List.forall_mem_cons, optional_defaulted, true_or, true_and]
      exact ⟨.inr (isSome_of_readField read.famp), .inr (isSome_of_readField read.id),
        .inr (isSome_of_readField read.sender), .inr (isSome_of_readField read.recipient),
        .inr (isSome_of_readField read.scope), .inr (isSome_of_readField read.messageClass),
        .inr (isSome_of_readField read.authority), .inr (isSome_of_readField read.ts),
        .inr (isSome_of_readField read.body), by simp⟩

theorem WireEnvelope.read_principals {B : Type} [BodySchema B] {wire : WireEnvelope B}
    (read : WireEnvelope.read members = some wire) :
    ((Tree.obj members).get? "from").bind readPrincipal = some wire.sender ∧
      ((Tree.obj members).get? "to").bind readPrincipal = some wire.recipient := by
  obtain ⟨-, header⟩ := WireEnvelope.read_iff.mp read
  exact ⟨readField_eq_bind readPrincipal _ ▸ header.sender,
    readField_eq_bind readPrincipal _ ▸ header.recipient⟩

/-! ## Decoding -/

def BusEnvelope.decodeTree (B : Type) [BodySchema B] (tree : Tree) :
    Except DecodeError (WireEnvelope B) :=
  match tree with
  | .obj members =>
    if (tree.get? "signature").isSome then .error .unexpectedSignature
    else
      match tree.get? "famp" with
      | none => .error (.missingField "famp")
      | some (.str version) =>
        if version ≠ fampSpecVersion then .error (.unsupportedVersion version)
        else
          match (WireEnvelope.read members : Option (WireEnvelope B)) with
          | none => .error (.bodyValidation none)
          | some wire =>
            if wire.messageClass ≠ BodySchema.messageClass B then
              .error (.classMismatch (BodySchema.messageClass B) wire.messageClass)
            else if wire.scope ≠ BodySchema.scope B then
              .error (.scopeMismatch (BodySchema.messageClass B) (BodySchema.scope B)
                wire.scope)
            else
              (BodySchema.postDecodeValidate wire.body wire.terminalStatus).map fun _ => wire
      | some _ => .error (.bodyValidation (some "envelope.famp must be a string"))
  | _ => .error (.bodyValidation (some "envelope root is not a JSON object"))

theorem BusEnvelope.decodeTree_ok_iff {B : Type} [BodySchema B] {tree : Tree}
    {wire : WireEnvelope B} :
    BusEnvelope.decodeTree B tree = .ok wire ↔
      ∃ members, tree = .obj members ∧ tree.get? "signature" = none ∧
        tree.get? "famp" = some (.str fampSpecVersion) ∧ WireEnvelope.read members = some wire ∧
        wire.messageClass = BodySchema.messageClass B ∧ wire.scope = BodySchema.scope B ∧
        BodySchema.postDecodeValidate wire.body wire.terminalStatus = .ok () := by
  constructor
  · intro decoded
    unfold BusEnvelope.decodeTree at decoded
    split at decoded
    next members =>
      split at decoded
      next => cases decoded
      next unsigned =>
        split at decoded
        next => cases decoded
        next version current =>
          split at decoded
          next => cases decoded
          next supported =>
            split at decoded
            next => cases decoded
            next wire' read =>
              split at decoded
              next => cases decoded
              next sameClass =>
                split at decoded
                next => cases decoded
                next sameScope =>
                  cases checked : BodySchema.postDecodeValidate wire'.body wire'.terminalStatus with
                  | error error => rw [checked] at decoded; cases decoded
                  | ok =>
                    rw [checked] at decoded
                    cases decoded
                    rw [not_not] at supported sameClass sameScope
                    exact ⟨members, rfl, by simpa using unsigned, supported ▸ current, read, sameClass,
                      sameScope, checked⟩
        next => cases decoded
    next => cases decoded
  · rintro ⟨members, rfl, unsigned, current, read, sameClass, sameScope, checked⟩
    simp [BusEnvelope.decodeTree, unsigned, current, read, sameClass, sameScope, checked, Except.map]

def BusEnvelope.decode (K : Text) (B : Type) [BodySchema B] (bytes : Bytes) :
    Except DecodeError (WireEnvelope B) :=
  match K.fromSliceStrict bytes with
  | .error error => .error (.malformedJson error)
  | .ok value => BusEnvelope.decodeTree B value.val

inductive AnyBusEnvelope where
  | request (envelope : WireEnvelope RequestBody)
  | commit (envelope : WireEnvelope CommitBody)
  | deliver (envelope : WireEnvelope DeliverBody)
  | ack (envelope : WireEnvelope AckBody)
  | control (envelope : WireEnvelope ControlBody)
  | auditLog (envelope : WireEnvelope AuditLogBody)

namespace AnyBusEnvelope

def decode (K : Text) (bytes : Bytes) : Except DecodeError AnyBusEnvelope :=
  match K.fromSliceStrict bytes with
  | .error error => .error (.malformedJson error)
  | .ok value =>
    match (value.val.get? "class").bind Tree.asStr? with
    | none => .error (.missingField "class")
    | some "request" => (BusEnvelope.decode K RequestBody bytes).map request
    | some "commit" => (BusEnvelope.decode K CommitBody bytes).map commit
    | some "deliver" => (BusEnvelope.decode K DeliverBody bytes).map deliver
    | some "ack" => (BusEnvelope.decode K AckBody bytes).map ack
    | some "control" => (BusEnvelope.decode K ControlBody bytes).map control
    | some "audit_log" => (BusEnvelope.decode K AuditLogBody bytes).map auditLog
    | some other => .error (.unknownClass other)

/-- Decoding of a parsed document. -/
def decodeTree (tree : Tree) : Except DecodeError AnyBusEnvelope :=
  match (tree.get? "class").bind Tree.asStr? with
  | none => .error (.missingField "class")
  | some "request" => (BusEnvelope.decodeTree RequestBody tree).map request
  | some "commit" => (BusEnvelope.decodeTree CommitBody tree).map commit
  | some "deliver" => (BusEnvelope.decodeTree DeliverBody tree).map deliver
  | some "ack" => (BusEnvelope.decodeTree AckBody tree).map ack
  | some "control" => (BusEnvelope.decodeTree ControlBody tree).map control
  | some "audit_log" => (BusEnvelope.decodeTree AuditLogBody tree).map auditLog
  | some other => .error (.unknownClass other)

theorem decode_of_parsed (K : Text) (parsed : K.fromSliceStrict bytes = .ok value) :
    decode K bytes = decodeTree value.val := by
  simp only [decode, decodeTree, BusEnvelope.decode, parsed]

theorem parsed_of_decode {K : Text} {envelope : AnyBusEnvelope}
    (decoded : decode K bytes = .ok envelope) : ∃ value, K.fromSliceStrict bytes = .ok value := by
  cases parsed : K.fromSliceStrict bytes with
  | error error => simp [decode, parsed] at decoded
  | ok value => exact ⟨value, rfl⟩

theorem decode_canonicalize (K : Text) (canonical : K.canonicalize value = .ok bytes)
    (shallow : value.depth ≤ maxNesting) : decode K bytes = decodeTree (K.reread value).val :=
  decode_of_parsed K (K.fromSliceStrict_canonicalize canonical shallow)

end AnyBusEnvelope

end Famp.Envelope
