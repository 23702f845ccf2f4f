import Famp.Core.Ids

/-!
# Envelope bodies

The six body schemas of `famp-envelope`, each with the class and scope it
belongs to and the checks that are made after its fields have been read.
-/

set_option autoImplicit false

namespace Famp.Envelope

open Famp.Core Json Json.Serde

inductive EnvelopeScope where
  | standalone | conversation | task
  deriving DecidableEq, Repr

def EnvelopeScope.ofName : String → Option EnvelopeScope
  | "standalone" => some .standalone
  | "conversation" => some .conversation
  | "task" => some .task
  | _ => none

/-- `EnvelopeDecodeError`, in the variants that decoding a bus envelope can
return.  The text of a body error is `none` where a library writes part of it. -/
inductive DecodeError where
  | malformedJson (error : String)
  | missingField (field : String)
  | unsupportedVersion (found : String)
  | unknownClass (found : String)
  | classMismatch (expected got : MessageClass)
  | scopeMismatch (messageClass : MessageClass) (expected got : EnvelopeScope)
  | unexpectedSignature
  | interimWithTerminalStatus
  | terminalWithoutStatus
  | missingErrorDetail
  | missingProvenance
  | insufficientBounds (count : Nat)
  | bodyValidation (message : Option String)
  deriving DecidableEq, Repr

class BodySchema (B : Type) where
  messageClass : MessageClass
  scope : EnvelopeScope
  read : Tree → Option B
  postDecodeValidate : B → Option TerminalStatus → Except DecodeError Unit

/-! ## Bounds -/

structure Budget where
  amount : String
  unit : String
  deriving DecidableEq, Repr

def Budget.read (tree : Tree) : Option Budget :=
  match recordFields [required "amount", required "unit"] tree with
  | some [amount, unit] => do
    return ⟨← readField readString amount, ← readField readString unit⟩
  | _ => none

structure Bounds where
  deadline : Option String
  budget : Option Budget
  hopLimit : Option (BitVec 64)
  policyDomain : Option String
  authorityScope : Option AuthorityScope
  maxArtifactSize : Option (BitVec 64)
  confidenceFloor : Option Double
  recursionDepth : Option (BitVec 8)
  deriving DecidableEq, Repr

namespace Bounds

def read (tree : Tree) : Option Bounds :=
  match recordFields [optional "deadline", optional "budget", optional "hop_limit",
      optional "policy_domain", optional "authority_scope", optional "max_artifact_size",
      optional "confidence_floor", optional "recursion_depth"] tree with
  | some [deadline, budget, hopLimit, policyDomain, authorityScope, maxArtifactSize,
      confidenceFloor, recursionDepth] => do
      return {
        deadline := ← readOption readString deadline
        budget := ← readOption Budget.read budget
        hopLimit := ← readOption (readBits 64) hopLimit
        policyDomain := ← readOption readString policyDomain
        authorityScope :=
          ← readOption (fun tree => (variantName tree).bind AuthorityScope.ofName) authorityScope
        maxArtifactSize := ← readOption (readBits 64) maxArtifactSize
        confidenceFloor := ← readOption readDouble confidenceFloor
        recursionDepth := ← readOption (readBits 8) recursionDepth }
  | _ => none

/-- Between zero and one.  A double compares as its bits do once the sign bit is
clear, and negative zero is zero. -/
def inUnitInterval (bits : Double) : Bool :=
  bits.toNat ≤ 0x3ff0000000000000 || bits.toNat == 0x8000000000000000

def count (bounds : Bounds) : Nat :=
  [bounds.deadline.isSome, bounds.budget.isSome, bounds.hopLimit.isSome,
    bounds.policyDomain.isSome, bounds.authorityScope.isSome, bounds.maxArtifactSize.isSome,
    bounds.confidenceFloor.isSome, bounds.recursionDepth.isSome].count true

def validate (bounds : Bounds) : Except DecodeError Unit :=
  if bounds.count < 2 then .error (.insufficientBounds bounds.count)
  else
    match bounds.confidenceFloor with
    | some floor => if inUnitInterval floor then .ok () else .error (.bodyValidation none)
    | none => .ok ()

end Bounds

/-! ## Request and commit -/

structure RequestBody where
  scope : Value
  bounds : Bounds
  naturalLanguageSummary : Option String

instance : BodySchema RequestBody where
  messageClass := .request
  scope := .standalone
  read tree :=
    match recordFields [required "scope", required "bounds",
        optional "natural_language_summary"] tree with
    | some [scope, bounds, summary] => do
      return ⟨← readField readValue scope, ← readField Bounds.read bounds,
        ← readOption readString summary⟩
    | _ => none
  postDecodeValidate body _ := body.bounds.validate

structure CommitBody where
  scope : Value
  scopeSubset : Option Bool
  bounds : Bounds
  acceptedPolicies : List String
  delegationPermissions : Option Value
  reportingObligations : Option Value
  terminalCondition : Value
  conditions : Option (List Value)
  naturalLanguageSummary : Option String

instance : BodySchema CommitBody where
  messageClass := .commit
  scope := .task
  read tree :=
    match recordFields [required "scope", optional "scope_subset", required "bounds",
        required "accepted_policies", optional "delegation_permissions",
        optional "reporting_obligations", required "terminal_condition", optional "conditions",
        optional "natural_language_summary"] tree with
    | some [scope, scopeSubset, bounds, acceptedPolicies, delegationPermissions,
        reportingObligations, terminalCondition, conditions, summary] => do
        return {
          scope := ← readField readValue scope
          scopeSubset := ← readOption readBool scopeSubset
          bounds := ← readField Bounds.read bounds
          acceptedPolicies := ← readField (readList readString) acceptedPolicies
          delegationPermissions := ← readOption readValue delegationPermissions
          reportingObligations := ← readOption readValue reportingObligations
          terminalCondition := ← readField readValue terminalCondition
          conditions := ← readOption (readList readValue) conditions
          naturalLanguageSummary := ← readOption readString summary }
    | _ => none
  postDecodeValidate body _ := body.bounds.validate

/-! ## Deliver -/

structure Artifact where
  id : ArtifactId
  mediaType : String
  size : BitVec 64
  deriving DecidableEq, Repr

def Artifact.read (tree : Tree) : Option Artifact :=
  match recordFields [required "id", required "media_type", required "size"] tree with
  | some [id, mediaType, size] => do
    return ⟨← readField readArtifactId id, ← readField readString mediaType,
      ← readField (readBits 64) size⟩
  | _ => none

inductive ErrorCategory where
  | malformed | unauthorized | unsupportedVersion | timeout | internal | other
  deriving DecidableEq, Repr

def ErrorCategory.ofName : String → Option ErrorCategory
  | "malformed" => some .malformed
  | "unauthorized" => some .unauthorized
  | "unsupported_version" => some .unsupportedVersion
  | "timeout" => some .timeout
  | "internal" => some .internal
  | "other" => some .other
  | _ => none

structure ErrorDetail where
  category : ErrorCategory
  message : String
  diagnostic : Option Value

def ErrorDetail.read (tree : Tree) : Option ErrorDetail :=
  match recordFields [required "category", required "message", optional "diagnostic"] tree with
  | some [category, message, diagnostic] => do
    return ⟨← readField (fun tree => (variantName tree).bind ErrorCategory.ofName) category,
      ← readField readString message, ← readOption readValue diagnostic⟩
  | _ => none

structure DeliverBody where
  interim : Bool
  artifacts : Option (List Artifact)
  result : Option Value
  usageMetrics : Option Value
  errorDetail : Option ErrorDetail
  provenance : Option Value
  naturalLanguageSummary : Option String

def DeliverBody.validateAgainstTerminalStatus (body : DeliverBody) :
    Option TerminalStatus → Except DecodeError Unit
  | some status =>
    if body.interim then .error .interimWithTerminalStatus
    else if status = .failed ∧ body.errorDetail.isNone then .error .missingErrorDetail
    else if body.provenance.isNone then .error .missingProvenance
    else .ok ()
  | none => if body.interim then .ok () else .error .terminalWithoutStatus

instance : BodySchema DeliverBody where
  messageClass := .deliver
  scope := .task
  read tree :=
    match recordFields [required "interim", optional "artifacts", optional "result",
        optional "usage_metrics", optional "error_detail", optional "provenance",
        optional "natural_language_summary"] tree with
    | some [interim, artifacts, result, usageMetrics, errorDetail, provenance, summary] => do
      return {
        interim := ← readField readBool interim
        artifacts := ← readOption (readList Artifact.read) artifacts
        result := ← readOption readValue result
        usageMetrics := ← readOption readValue usageMetrics
        errorDetail := ← readOption ErrorDetail.read errorDetail
        provenance := ← readOption readValue provenance
        naturalLanguageSummary := ← readOption readString summary }
    | _ => none
  postDecodeValidate := DeliverBody.validateAgainstTerminalStatus

/-! ## Ack, control and audit log -/

inductive AckDisposition where
  | accepted | rejected | received | completed | failed | cancelled
  deriving DecidableEq, Repr

def AckDisposition.ofName : String → Option AckDisposition
  | "accepted" => some .accepted
  | "rejected" => some .rejected
  | "received" => some .received
  | "completed" => some .completed
  | "failed" => some .failed
  | "cancelled" => some .cancelled
  | _ => none

structure AckBody where
  disposition : AckDisposition
  reason : Option String

instance : BodySchema AckBody where
  messageClass := .ack
  scope := .standalone
  read tree :=
    match recordFields [required "disposition", optional "reason"] tree with
    | some [disposition, reason] => do
      return ⟨← readField (fun tree => (variantName tree).bind AckDisposition.ofName) disposition,
        ← readOption readString reason⟩
    | _ => none
  postDecodeValidate _ _ := .ok ()

inductive ControlAction where
  | cancel
  deriving DecidableEq, Repr

def ControlAction.ofName : String → Option ControlAction
  | "cancel" => some .cancel
  | _ => none

inductive ControlTarget where
  | task
  deriving DecidableEq, Repr

def ControlTarget.ofName : String → Option ControlTarget
  | "task" => some .task
  | _ => none

inductive ControlDisposition where
  | accepted | rejected
  deriving DecidableEq, Repr

def ControlDisposition.ofName : String → Option ControlDisposition
  | "accepted" => some .accepted
  | "rejected" => some .rejected
  | _ => none

structure ControlBody where
  target : ControlTarget
  action : ControlAction
  disposition : Option ControlDisposition
  reason : Option String
  affectedIds : Option (List String)

instance : BodySchema ControlBody where
  messageClass := .control
  scope := .task
  read tree :=
    match recordFields [required "target", required "action", optional "disposition",
        optional "reason", optional "affected_ids"] tree with
    | some [target, action, disposition, reason, affectedIds] => do
      return {
        target := ← readField (fun tree => (variantName tree).bind ControlTarget.ofName) target
        action := ← readField (fun tree => (variantName tree).bind ControlAction.ofName) action
        disposition := ←
          readOption (fun tree => (variantName tree).bind ControlDisposition.ofName) disposition
        reason := ← readOption readString reason
        affectedIds := ← readOption (readList readString) affectedIds }
    | _ => none
  postDecodeValidate _ _ := .ok ()

structure AuditLogBody where
  event : String
  subject : Option String
  details : Option Value

instance : BodySchema AuditLogBody where
  messageClass := .auditLog
  scope := .standalone
  read tree :=
    match recordFields [required "event", optional "subject", optional "details"] tree with
    | some [event, subject, details] => do
      return ⟨← readField readString event, ← readOption readString subject,
        ← readOption readValue details⟩
    | _ => none
  postDecodeValidate body _ :=
    if body.event = "" then .error (.bodyValidation (some "audit_log.event must be non-empty"))
    else .ok ()

end Famp.Envelope
