import Famp.Envelope.Signed
import Famp.Json.Object

/-!
# The federation fields of an envelope

Seven optional members of the header belong to the gateways.  An envelope reads
the same with and without them: only the seven fields themselves differ.
-/

set_option autoImplicit false

namespace Famp.Envelope

open Famp.Core Json Json.Serde

/-- The fields that gateways write. -/
structure Federation where
  fromDomain : Option String
  toDomain : Option String
  senderKeyId : Option String
  nonce : Option String
  expiry : Option String
  capability : Option Value
  approval : Option Value

def Federation.none : Federation := ⟨.none, .none, .none, .none, .none, .none, .none⟩

def federationFields : List String :=
  ["from_domain", "to_domain", "sender_key_id", "nonce", "expiry", "capability", "approval"]

/-- Each field is what is read from its member of the header. -/
structure Federation.ReadFrom (federation : Federation) (tree : Tree) : Prop where
  fromDomain : readOption readString (tree.get? "from_domain") = some federation.fromDomain
  toDomain : readOption readString (tree.get? "to_domain") = some federation.toDomain
  senderKeyId : readOption readString (tree.get? "sender_key_id") = some federation.senderKeyId
  nonce : readOption readString (tree.get? "nonce") = some federation.nonce
  expiry : readOption readTimestamp (tree.get? "expiry") = some federation.expiry
  capability : readOption readValue (tree.get? "capability") = some federation.capability
  approval : readOption readValue (tree.get? "approval") = some federation.approval

theorem Federation.none_readFrom {tree : Tree}
    (absent : ∀ name ∈ federationFields, tree.get? name = .none) :
    Federation.none.ReadFrom tree := by
  simp only [federationFields, List.forall_mem_cons] at absent
  obtain ⟨fromDomain, toDomain, senderKeyId, nonce, expiry, capability, approval, -⟩ := absent
  exact ⟨by rw [fromDomain]; rfl, by rw [toDomain]; rfl, by rw [senderKeyId]; rfl, by rw [nonce]; rfl,
    by rw [expiry]; rfl, by rw [capability]; rfl, by rw [approval]; rfl⟩

variable {value value' : Value} {envelope : AnyBusEnvelope} {federation : Federation}

section Headers
variable {B : Type}

def WireEnvelope.federated (wire : WireEnvelope B) (federation : Federation) : WireEnvelope B :=
  { wire with
    fromDomain := federation.fromDomain
    toDomain := federation.toDomain
    senderKeyId := federation.senderKeyId
    nonce := federation.nonce
    expiry := federation.expiry
    capability := federation.capability
    approval := federation.approval }

/-- The envelope without the fields of the gateways. -/
def WireEnvelope.bare (wire : WireEnvelope B) : WireEnvelope B := wire.federated .none

variable [BodySchema B]

theorem WireEnvelope.read_federated {members members' : List (String × Tree)}
    {wire : WireEnvelope B} (read : WireEnvelope.read members = some wire)
    (known : ∀ member ∈ members', member.1 ∈ headerFields) (same : ∀ name, name ∉ federationFields →
      (Tree.obj members').get? name = (Tree.obj members).get? name)
    (federated : federation.ReadFrom (.obj members')) :
    WireEnvelope.read members' = some (wire.federated federation) := by
  obtain ⟨-, header⟩ := WireEnvelope.read_iff.mp read
  refine WireEnvelope.read_iff.mpr ⟨known, ?_⟩
  exact {
    famp := by rw [same _ (by decide)]; exact header.famp
    id := by rw [same _ (by decide)]; exact header.id
    sender := by rw [same _ (by decide)]; exact header.sender
    recipient := by rw [same _ (by decide)]; exact header.recipient
    scope := by rw [same _ (by decide)]; exact header.scope
    messageClass := by rw [same _ (by decide)]; exact header.messageClass
    causality := by rw [same _ (by decide)]; exact header.causality
    authority := by rw [same _ (by decide)]; exact header.authority
    ts := by rw [same _ (by decide)]; exact header.ts
    terminalStatus := by rw [same _ (by decide)]; exact header.terminalStatus
    idempotencyKey := by rw [same _ (by decide)]; exact header.idempotencyKey
    extensions := by rw [same _ (by decide)]; exact header.extensions
    fromDomain := federated.fromDomain
    toDomain := federated.toDomain
    senderKeyId := federated.senderKeyId
    nonce := federated.nonce
    expiry := federated.expiry
    capability := federated.capability
    approval := federated.approval
    body := by rw [same _ (by decide)]; exact header.body }

end Headers

/-! ## Decoding with and without the fields -/

/-- `value'` is an object with the members of `value`, those of the gateways
apart. -/
structure SameContent (value value' : Value) : Prop where
  isObject : value'.IsObject
  same : ∀ name, name ∉ federationFields → value'.val.get? name = value.val.get? name

theorem BusEnvelope.decodeTree_federated {B : Type} [BodySchema B] {wire : WireEnvelope B}
    (decoded : BusEnvelope.decodeTree B value.val = .ok wire) (content : SameContent value value')
    (federated : federation.ReadFrom value'.val) :
    BusEnvelope.decodeTree B value'.val = .ok (wire.federated federation) := by
  obtain ⟨members, isObject, unsigned, current, read, sameClass, sameScope, checked⟩ :=
    BusEnvelope.decodeTree_ok_iff.mp decoded
  obtain ⟨⟨members', isObject'⟩, same⟩ := content
  rw [isObject'] at same federated ⊢
  rw [isObject] at same unsigned current
  have known : ∀ member ∈ members', member.1 ∈ headerFields := by
    intro member inside
    by_cases owned : member.1 ∈ federationFields
    · exact (by decide : ∀ name ∈ federationFields, name ∈ headerFields) _ owned
    · obtain ⟨item, found⟩ := Option.isSome_iff_exists.mp (Tree.get?_isSome_of_mem inside)
      rw [same _ owned] at found
      exact (WireEnvelope.read_iff.mp read).1 (member.1, item) (Tree.mem_of_get? found)
  exact BusEnvelope.decodeTree_ok_iff.mpr ⟨members', rfl,
    by rw [same _ (by decide)]; exact unsigned, by rw [same _ (by decide)]; exact current,
    WireEnvelope.read_federated read known same federated, sameClass, sameScope, checked⟩

namespace AnyBusEnvelope

def sender : AnyBusEnvelope → Principal
  | request wire => wire.sender
  | commit wire => wire.sender
  | deliver wire => wire.sender
  | ack wire => wire.sender
  | control wire => wire.sender
  | auditLog wire => wire.sender

def recipient : AnyBusEnvelope → Principal
  | request wire => wire.recipient
  | commit wire => wire.recipient
  | deliver wire => wire.recipient
  | ack wire => wire.recipient
  | control wire => wire.recipient
  | auditLog wire => wire.recipient

def federated (federation : Federation) : AnyBusEnvelope → AnyBusEnvelope
  | request wire => request (wire.federated federation)
  | commit wire => commit (wire.federated federation)
  | deliver wire => deliver (wire.federated federation)
  | ack wire => ack (wire.federated federation)
  | control wire => control (wire.federated federation)
  | auditLog wire => auditLog (wire.federated federation)

/-- The envelope without the fields of the gateways. -/
def bare (envelope : AnyBusEnvelope) : AnyBusEnvelope := envelope.federated .none

theorem bare_federated (envelope : AnyBusEnvelope) (federation : Federation) :
    (envelope.federated federation).bare = envelope.bare := by
  cases envelope <;> rfl

theorem exists_wire_of_decodeTree (decoded : decodeTree value.val = .ok envelope) :
    ∃ (B : Type) (_ : BodySchema B) (wire : WireEnvelope B),
      BusEnvelope.decodeTree B value.val = .ok wire ∧
        wire.sender = envelope.sender ∧ wire.recipient = envelope.recipient := by
  unfold decodeTree at decoded
  split at decoded
  case h_1 => cases decoded
  case h_8 => cases decoded
  all_goals
    obtain ⟨wire, read, rfl⟩ := ok_of_map decoded
    exact ⟨_, _, wire, read, rfl, rfl⟩

theorem decodeTree_principals (decoded : decodeTree value.val = .ok envelope) :
    Names value envelope.sender envelope.recipient := by
  obtain ⟨B, schema, wire, read, sender, recipient⟩ := exists_wire_of_decodeTree decoded
  rw [← sender, ← recipient]
  have names := BusEnvelope.decodeTree_principals read
  exact ⟨names.1, names.2⟩

theorem isObject_of_decodeTree (decoded : decodeTree value.val = .ok envelope) :
    value.IsObject ∧ value.val.get? "signature" = none ∧
      ∀ key, (value.val.get? key).isSome = true → key ∈ headerFields := by
  obtain ⟨B, schema, wire, read, -⟩ := exists_wire_of_decodeTree decoded
  obtain ⟨members, isObject, unsigned, -, header, -⟩ := BusEnvelope.decodeTree_ok_iff.mp read
  refine ⟨⟨members, isObject⟩, unsigned, ?_⟩
  intro key present
  obtain ⟨item, found⟩ := Option.isSome_iff_exists.mp present
  rw [isObject] at found
  exact (WireEnvelope.read_iff.mp header).1 (key, item) (Tree.mem_of_get? found)

theorem body_isSome_of_decodeTree (decoded : decodeTree value.val = .ok envelope) :
    (value.val.get? "body").isSome = true := by
  obtain ⟨B, schema, wire, read, -⟩ := exists_wire_of_decodeTree decoded
  obtain ⟨members, isObject, -, -, header, -⟩ := BusEnvelope.decodeTree_ok_iff.mp read
  rw [isObject]
  exact isSome_of_readField (WireEnvelope.read_iff.mp header).2.body

theorem map_decodeTree_federated {B : Type} [BodySchema B] {any : WireEnvelope B → AnyBusEnvelope}
    (decoded : (BusEnvelope.decodeTree B value.val).map any = .ok envelope)
    (content : SameContent value value') (read : federation.ReadFrom value'.val)
    (through : ∀ wire, (any wire).federated federation = any (wire.federated federation)) :
    (BusEnvelope.decodeTree B value'.val).map any = .ok (envelope.federated federation) := by
  obtain ⟨wire, typed, rfl⟩ := ok_of_map decoded
  rw [BusEnvelope.decodeTree_federated typed content read, through]
  rfl

theorem decodeTree_federated (decoded : decodeTree value.val = .ok envelope)
    (content : SameContent value value') (read : federation.ReadFrom value'.val) :
    decodeTree value'.val = .ok (envelope.federated federation) := by
  unfold decodeTree at decoded ⊢
  rw [content.same "class" (by decide)]
  split at decoded
  case h_1 => cases decoded
  case h_8 => cases decoded
  all_goals exact map_decodeTree_federated decoded content read fun _ => rfl

theorem bare_of_absent (decoded : decodeTree value.val = .ok envelope)
    (absent : ∀ name ∈ federationFields, value.val.get? name = none) :
    envelope.bare = envelope := by
  have isObject := (isObject_of_decodeTree decoded).1
  have again := decodeTree_federated decoded ⟨isObject, fun _ _ => rfl⟩
    (Federation.none_readFrom absent)
  exact Except.ok.inj (again.symm.trans decoded)

end AnyBusEnvelope

/-- The envelope of a signed one, without the fields of the gateways. -/
def AnySignedEnvelope.content {Signature : Type} (envelope : AnySignedEnvelope Signature) :
    AnyBusEnvelope :=
  envelope.inner.bare

end Famp.Envelope
