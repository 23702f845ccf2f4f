import Famp.Core.Uuids
import Famp.Envelope.Bus

/-!
# Writing envelope bodies

What the derived serializers write for the bodies of envelopes and the records in
them: the fields that are present, under their names.  Each writes the plain
spelling of what the deserializer of the same type takes.
-/

set_option autoImplicit false

namespace Famp.Core

open Json Json.Serde

/-! ## Identifiers and enumerations -/

theorem readArtifactId_serialized :
    Serialized readArtifactId (fun id => Value.str id.val) .any where
  read_write id _ := dif_pos id.property
  write_read {value id} _ found := by
    obtain ⟨tree, ordered⟩ := value
    cases tree with
    | str text =>
      simp only [readArtifactId, Tree.asStr?, Option.bind_some] at found
      split at found
      next => obtain rfl := Option.some.inj found; rfl
      next => cases found
    | _ => cases found

def AuthorityScope.name : AuthorityScope → String
  | .advisory => "advisory"
  | .negotiate => "negotiate"
  | .commitLocal => "commit_local"
  | .commitDelegate => "commit_delegate"
  | .transfer => "transfer"

theorem AuthorityScope.serialized : VariantSerialized AuthorityScope.ofName AuthorityScope.name :=
  readVariant_serialized (by rintro ⟨⟩ <;> rfl) fun text variant found => by
    unfold AuthorityScope.ofName at found
    split at found <;> cases found <;> rfl

def MessageClass.name : MessageClass → String
  | .request => "request"
  | .commit => "commit"
  | .deliver => "deliver"
  | .ack => "ack"
  | .control => "control"
  | .auditLog => "audit_log"

theorem MessageClass.serialized : VariantSerialized MessageClass.ofName MessageClass.name :=
  readVariant_serialized (by rintro ⟨⟩ <;> rfl) fun text variant found => by
    unfold MessageClass.ofName at found
    split at found <;> cases found <;> rfl

def TerminalStatus.name : TerminalStatus → String
  | .completed => "completed"
  | .failed => "failed"
  | .cancelled => "cancelled"

theorem TerminalStatus.serialized : VariantSerialized TerminalStatus.ofName TerminalStatus.name :=
  readVariant_serialized (by rintro ⟨⟩ <;> rfl) fun text variant found => by
    unfold TerminalStatus.ofName at found
    split at found <;> cases found <;> rfl

end Famp.Core

namespace Famp.Envelope

open Famp.Core Json Json.Serde

def EnvelopeScope.name : EnvelopeScope → String
  | .standalone => "standalone"
  | .conversation => "conversation"
  | .task => "task"

theorem EnvelopeScope.serialized : VariantSerialized EnvelopeScope.ofName EnvelopeScope.name :=
  readVariant_serialized (by rintro ⟨⟩ <;> rfl) fun text variant found => by
    unfold EnvelopeScope.ofName at found
    split at found <;> cases found <;> rfl

def Relation.name : Relation → String
  | .acknowledges => "acknowledges"
  | .requests => "requests"
  | .commits => "commits"
  | .delivers => "delivers"
  | .cancels => "cancels"
  | .audits => "audits"

theorem Relation.serialized : VariantSerialized Relation.ofName Relation.name :=
  readVariant_serialized (by rintro ⟨⟩ <;> rfl) fun text variant found => by
    unfold Relation.ofName at found
    split at found <;> cases found <;> rfl

def Causality.toValue (causality : Causality) : Value :=
  objectOf [("rel", some (.str causality.rel.name)),
    ("ref", some (.str causality.referenced.hyphenated))]

def Causality.shape : Shape :=
  .record [(required "rel", .variant), (required "ref", .identifier)]

theorem Causality.serialized : Serialized Causality.read Causality.toValue Causality.shape := by
  refine .record (fun causality => [Relation.serialized.field "rel" causality.rel,
    readMessageId_serialized.field "ref" causality.referenced])
    (fun _ => rfl) (fun _ => rfl) (by decide) ?_
  rintro tree ⟨⟩
  unfold Causality.read
  split
  next found => simp [found, Option.bind_eq_some_iff]
  next => simp_all [List.forall₂_cons_left_iff]

/-! ## Bounds -/

def Budget.toValue (budget : Budget) : Value :=
  objectOf [("amount", some (.str budget.amount)), ("unit", some (.str budget.unit))]

def Budget.shape : Shape :=
  .record [(required "amount", .any), (required "unit", .any)]

theorem Budget.serialized : Serialized Budget.read Budget.toValue Budget.shape := by
  refine .record (fun budget => [readString_serialized.field "amount" budget.amount,
    readString_serialized.field "unit" budget.unit]) (fun _ => rfl) (fun _ => rfl) (by decide) ?_
  rintro tree ⟨⟩
  unfold Budget.read
  split
  next found => simp [found, Option.bind_eq_some_iff]
  next => simp_all [List.forall₂_cons_left_iff]

def Bounds.toValue (bounds : Bounds) : Value :=
  objectOf [("deadline", bounds.deadline.map Value.str),
    ("budget", bounds.budget.map Budget.toValue),
    ("hop_limit", bounds.hopLimit.map fun bits => Value.int bits.toNat),
    ("policy_domain", bounds.policyDomain.map Value.str),
    ("authority_scope", bounds.authorityScope.map fun variant => Value.str variant.name),
    ("max_artifact_size", bounds.maxArtifactSize.map fun bits => Value.int bits.toNat),
    ("confidence_floor", bounds.confidenceFloor.map Double.toValue),
    ("recursion_depth", bounds.recursionDepth.map fun bits => Value.int bits.toNat)]

def Bounds.shape : Shape :=
  .record [(optional "deadline", .any), (optional "budget", Budget.shape),
    (optional "hop_limit", .any), (optional "policy_domain", .any),
    (optional "authority_scope", .variant), (optional "max_artifact_size", .any),
    (optional "confidence_floor", .double), (optional "recursion_depth", .any)]

theorem Bounds.serialized : Serialized Bounds.read Bounds.toValue Bounds.shape := by
  refine .record (fun bounds => [readString_serialized.option "deadline" bounds.deadline,
    Budget.serialized.option "budget" bounds.budget,
    (readBits_serialized 64).option "hop_limit" bounds.hopLimit,
    readString_serialized.option "policy_domain" bounds.policyDomain,
    AuthorityScope.serialized.option "authority_scope" bounds.authorityScope,
    (readBits_serialized 64).option "max_artifact_size" bounds.maxArtifactSize,
    readDouble_serialized.option "confidence_floor" bounds.confidenceFloor,
    (readBits_serialized 8).option "recursion_depth" bounds.recursionDepth])
    (fun _ => rfl) (fun _ => rfl) (by decide) ?_
  rintro tree ⟨⟩
  unfold Bounds.read
  split
  next found => simp [found, Option.bind_eq_some_iff]
  next => simp_all [List.forall₂_cons_left_iff]

/-! ## Request and commit -/

def RequestBody.toValue (body : RequestBody) : Value :=
  objectOf [("scope", some body.scope), ("bounds", some body.bounds.toValue),
    ("natural_language_summary", body.naturalLanguageSummary.map Value.str)]

def RequestBody.shape : Shape :=
  .record [(required "scope", .any), (required "bounds", Bounds.shape),
    (optional "natural_language_summary", .any)]

theorem RequestBody.serialized :
    Serialized (BodySchema.read : Tree → Option RequestBody) RequestBody.toValue
      RequestBody.shape := by
  refine .record (fun body => [readValue_serialized.field "scope" body.scope,
    Bounds.serialized.field "bounds" body.bounds,
    readString_serialized.option "natural_language_summary" body.naturalLanguageSummary])
    (fun _ => rfl) (fun _ => rfl) (by decide) ?_
  rintro tree ⟨⟩
  simp only [BodySchema.read]
  split
  next found => simp [found, Option.bind_eq_some_iff, -Subtype.exists]
  next => simp_all [List.forall₂_cons_left_iff]

def CommitBody.toValue (body : CommitBody) : Value :=
  objectOf [("scope", some body.scope), ("scope_subset", body.scopeSubset.map Value.bool),
    ("bounds", some body.bounds.toValue),
    ("accepted_policies", some (.arr (body.acceptedPolicies.map Value.str))),
    ("delegation_permissions", body.delegationPermissions),
    ("reporting_obligations", body.reportingObligations),
    ("terminal_condition", some body.terminalCondition),
    ("conditions", body.conditions.map Value.arr),
    ("natural_language_summary", body.naturalLanguageSummary.map Value.str)]

def CommitBody.shape : Shape :=
  .record [(required "scope", .any), (optional "scope_subset", .any),
    (required "bounds", Bounds.shape), (required "accepted_policies", .list .any),
    (optional "delegation_permissions", .any), (optional "reporting_obligations", .any),
    (required "terminal_condition", .any), (optional "conditions", .list .any),
    (optional "natural_language_summary", .any)]

theorem CommitBody.serialized :
    Serialized (BodySchema.read : Tree → Option CommitBody) CommitBody.toValue
      CommitBody.shape := by
  refine .record (fun body => [readValue_serialized.field "scope" body.scope,
    readBool_serialized.option "scope_subset" body.scopeSubset,
    Bounds.serialized.field "bounds" body.bounds,
    (readList_serialized readString_serialized).field "accepted_policies" body.acceptedPolicies,
    optionalValue "delegation_permissions" body.delegationPermissions,
    optionalValue "reporting_obligations" body.reportingObligations,
    readValue_serialized.field "terminal_condition" body.terminalCondition,
    readValues_serialized.option "conditions" body.conditions,
    readString_serialized.option "natural_language_summary" body.naturalLanguageSummary])
    (fun _ => rfl) (fun _ => rfl) (by decide) ?_
  rintro tree ⟨⟩
  simp only [BodySchema.read]
  split
  next found => simp [found, Option.bind_eq_some_iff, -Subtype.exists]
  next => simp_all [List.forall₂_cons_left_iff]

/-! ## Deliver -/

def Artifact.toValue (artifact : Artifact) : Value :=
  objectOf [("id", some (.str artifact.id.val)), ("media_type", some (.str artifact.mediaType)),
    ("size", some (Value.int artifact.size.toNat))]

def Artifact.shape : Shape :=
  .record [(required "id", .any), (required "media_type", .any), (required "size", .any)]

theorem Artifact.serialized : Serialized Artifact.read Artifact.toValue Artifact.shape := by
  refine .record (fun artifact => [readArtifactId_serialized.field "id" artifact.id,
    readString_serialized.field "media_type" artifact.mediaType,
    (readBits_serialized 64).field "size" artifact.size])
    (fun _ => rfl) (fun _ => rfl) (by decide) ?_
  rintro tree ⟨⟩
  unfold Artifact.read
  split
  next found => simp [found, Option.bind_eq_some_iff, -Subtype.exists]
  next => simp_all [List.forall₂_cons_left_iff]

def ErrorCategory.name : ErrorCategory → String
  | .malformed => "malformed"
  | .unauthorized => "unauthorized"
  | .unsupportedVersion => "unsupported_version"
  | .timeout => "timeout"
  | .internal => "internal"
  | .other => "other"

theorem ErrorCategory.serialized : VariantSerialized ErrorCategory.ofName ErrorCategory.name :=
  readVariant_serialized (by rintro ⟨⟩ <;> rfl) fun text variant found => by
    unfold ErrorCategory.ofName at found
    split at found <;> cases found <;> rfl

def ErrorDetail.toValue (detail : ErrorDetail) : Value :=
  objectOf [("category", some (.str detail.category.name)), ("message", some (.str detail.message)),
    ("diagnostic", detail.diagnostic)]

def ErrorDetail.shape : Shape :=
  .record [(required "category", .variant), (required "message", .any),
    (optional "diagnostic", .any)]

theorem ErrorDetail.serialized :
    Serialized ErrorDetail.read ErrorDetail.toValue ErrorDetail.shape := by
  refine .record (fun detail => [ErrorCategory.serialized.field "category" detail.category,
    readString_serialized.field "message" detail.message,
    optionalValue "diagnostic" detail.diagnostic]) (fun _ => rfl) (fun _ => rfl) (by decide) ?_
  rintro tree ⟨⟩
  unfold ErrorDetail.read
  split
  next found => simp [found, Option.bind_eq_some_iff]
  next => simp_all [List.forall₂_cons_left_iff]

def DeliverBody.toValue (body : DeliverBody) : Value :=
  objectOf [("interim", some (.bool body.interim)),
    ("artifacts", body.artifacts.map fun items => Value.arr (items.map Artifact.toValue)),
    ("result", body.result), ("usage_metrics", body.usageMetrics),
    ("error_detail", body.errorDetail.map ErrorDetail.toValue), ("provenance", body.provenance),
    ("natural_language_summary", body.naturalLanguageSummary.map Value.str)]

def DeliverBody.shape : Shape :=
  .record [(required "interim", .any), (optional "artifacts", .list Artifact.shape),
    (optional "result", .any), (optional "usage_metrics", .any),
    (optional "error_detail", ErrorDetail.shape), (optional "provenance", .any),
    (optional "natural_language_summary", .any)]

theorem DeliverBody.serialized :
    Serialized (BodySchema.read : Tree → Option DeliverBody) DeliverBody.toValue
      DeliverBody.shape := by
  refine .record (fun body => [readBool_serialized.field "interim" body.interim,
    (readList_serialized Artifact.serialized).option "artifacts" body.artifacts,
    optionalValue "result" body.result, optionalValue "usage_metrics" body.usageMetrics,
    ErrorDetail.serialized.option "error_detail" body.errorDetail,
    optionalValue "provenance" body.provenance,
    readString_serialized.option "natural_language_summary" body.naturalLanguageSummary])
    (fun _ => rfl) (fun _ => rfl) (by decide) ?_
  rintro tree ⟨⟩
  simp only [BodySchema.read]
  split
  next found => simp [found, Option.bind_eq_some_iff, -Bool.exists_bool]
  next => simp_all [List.forall₂_cons_left_iff]

/-! ## Ack, control and audit log -/

def AckDisposition.name : AckDisposition → String
  | .accepted => "accepted"
  | .rejected => "rejected"
  | .received => "received"
  | .completed => "completed"
  | .failed => "failed"
  | .cancelled => "cancelled"

theorem AckDisposition.serialized : VariantSerialized AckDisposition.ofName AckDisposition.name :=
  readVariant_serialized (by rintro ⟨⟩ <;> rfl) fun text variant found => by
    unfold AckDisposition.ofName at found
    split at found <;> cases found <;> rfl

def AckBody.toValue (body : AckBody) : Value :=
  objectOf [("disposition", some (.str body.disposition.name)),
    ("reason", body.reason.map Value.str)]

def AckBody.shape : Shape :=
  .record [(required "disposition", .variant), (optional "reason", .any)]

theorem AckBody.serialized :
    Serialized (BodySchema.read : Tree → Option AckBody) AckBody.toValue AckBody.shape := by
  refine .record (fun body => [AckDisposition.serialized.field "disposition" body.disposition,
    readString_serialized.option "reason" body.reason]) (fun _ => rfl) (fun _ => rfl) (by decide) ?_
  rintro tree ⟨⟩
  simp only [BodySchema.read]
  split
  next found => simp [found, Option.bind_eq_some_iff]
  next => simp_all [List.forall₂_cons_left_iff]

def ControlAction.name : ControlAction → String
  | .cancel => "cancel"

theorem ControlAction.serialized : VariantSerialized ControlAction.ofName ControlAction.name :=
  readVariant_serialized (fun _ => rfl) fun text variant found => by
    unfold ControlAction.ofName at found
    split at found
    next => rfl
    next => cases found

def ControlTarget.name : ControlTarget → String
  | .task => "task"

theorem ControlTarget.serialized : VariantSerialized ControlTarget.ofName ControlTarget.name :=
  readVariant_serialized (fun _ => rfl) fun text variant found => by
    unfold ControlTarget.ofName at found
    split at found
    next => rfl
    next => cases found

def ControlDisposition.name : ControlDisposition → String
  | .accepted => "accepted"
  | .rejected => "rejected"

theorem ControlDisposition.serialized :
    VariantSerialized ControlDisposition.ofName ControlDisposition.name :=
  readVariant_serialized (by rintro ⟨⟩ <;> rfl) fun text variant found => by
    unfold ControlDisposition.ofName at found
    split at found <;> cases found <;> rfl

def ControlBody.toValue (body : ControlBody) : Value :=
  objectOf [("target", some (.str body.target.name)), ("action", some (.str body.action.name)),
    ("disposition", body.disposition.map fun variant => Value.str variant.name),
    ("reason", body.reason.map Value.str),
    ("affected_ids", body.affectedIds.map fun items => Value.arr (items.map Value.str))]

def ControlBody.shape : Shape :=
  .record [(required "target", .variant), (required "action", .variant),
    (optional "disposition", .variant), (optional "reason", .any),
    (optional "affected_ids", .list .any)]

theorem ControlBody.serialized :
    Serialized (BodySchema.read : Tree → Option ControlBody) ControlBody.toValue
      ControlBody.shape := by
  refine .record (fun body => [ControlTarget.serialized.field "target" body.target,
    ControlAction.serialized.field "action" body.action,
    ControlDisposition.serialized.option "disposition" body.disposition,
    readString_serialized.option "reason" body.reason,
    (readList_serialized readString_serialized).option "affected_ids" body.affectedIds])
    (fun _ => rfl) (fun _ => rfl) (by decide) ?_
  rintro tree ⟨⟩
  simp only [BodySchema.read]
  split
  next found =>
    -- There is one target and one action, so that simp would forget which one was read.
    simp only [List.map_cons, List.map_nil, found, Option.some.injEq, exists_eq_left',
      List.forall₂_cons, List.Forall₂.nil, Serialized.field_reads, Serialized.option_reads, and_true]
    constructor
    · intro read
      iterate 5 obtain ⟨_, _, read⟩ := read_first read
      cases read
      exact ⟨‹_›, ‹_›, ‹_›, ‹_›, ‹_›⟩
    · rintro ⟨target, action, disposition, reason, affectedIds⟩
      rw [target, action, disposition, reason, affectedIds]
      rfl
  next => simp_all [List.forall₂_cons_left_iff]

def AuditLogBody.toValue (body : AuditLogBody) : Value :=
  objectOf [("event", some (.str body.event)), ("subject", body.subject.map Value.str),
    ("details", body.details)]

def AuditLogBody.shape : Shape :=
  .record [(required "event", .any), (optional "subject", .any), (optional "details", .any)]

theorem AuditLogBody.serialized :
    Serialized (BodySchema.read : Tree → Option AuditLogBody) AuditLogBody.toValue
      AuditLogBody.shape := by
  refine .record (fun body => [readString_serialized.field "event" body.event,
    readString_serialized.option "subject" body.subject,
    optionalValue "details" body.details]) (fun _ => rfl) (fun _ => rfl) (by decide) ?_
  rintro tree ⟨⟩
  simp only [BodySchema.read]
  split
  next found => simp [found, Option.bind_eq_some_iff]
  next => simp_all [List.forall₂_cons_left_iff]

end Famp.Envelope
