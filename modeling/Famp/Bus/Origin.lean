import Famp.Bus.Codec

/-!
# Stamped records

The line that is written to a mailbox is the canonical text of an envelope
together with the provenance of its sender.  Reading such a line back gives that
provenance and the envelope, whatever the envelope holds: an envelope that looks
like a stamp is inside the stamp that the broker put around it.  The stamp is one
level around the envelope, which may be one too many for the parser.
-/

set_option autoImplicit false

namespace Famp.Bus

open Famp.Core Json Envelope

def stampLine (K : Text) (envelopeLine : Bytes) (origin : Origin) : Except String Bytes :=
  match K.fromSlice envelopeLine with
  | .error error => .error error
  | .ok envelope => K.canonicalize (StampedEnvelope.toValue ⟨origin, envelope⟩)

def splitStamped (line : Value) : Origin × Value :=
  if line.val.objectLen? = some 2 then
    match line.get? "origin", line.get? "envelope" with
    | some origin, some envelope =>
      match Origin.read origin.val with
      | some origin => (origin, envelope)
      | none => (.unknown, line)
    | _, _ => (.unknown, line)
  else (.unknown, line)

/-- Why a line is refused. -/
inductive LineError where
  | parse (error : String)
  | recanonicalize (error : String)
  | envelope (error : DecodeError)
  deriving DecidableEq, Repr

def decodeLine (K : Text) (line : Bytes) : Except LineError (Origin × Value) :=
  match K.fromSliceStrict line with
  | .error error => .error (.parse error)
  | .ok raw =>
    let (origin, inner) := splitStamped raw
    match K.canonicalize inner with
    | .error error => .error (.recanonicalize error)
    | .ok innerBytes =>
      match AnyBusEnvelope.decode K innerBytes with
      | .error error => .error (.envelope error)
      | .ok _ => .ok (origin, inner)

/-! ## Reading a stamped line back -/

theorem Origin.read_name (origin : Origin) : Origin.read (Value.str origin.name).val = some origin := by
  cases origin <;> rfl

theorem splitStamped_toValue (stamped : StampedEnvelope) :
    splitStamped stamped.toValue = (stamped.origin, stamped.envelope) := by
  have origin : stamped.toValue.get? "origin" = some (Value.str stamped.origin.name) := rfl
  have envelope : stamped.toValue.get? "envelope" = some stamped.envelope := rfl
  have two : stamped.toValue.val.objectLen? = some 2 := rfl
  simp only [splitStamped, two, if_true, origin, envelope, Origin.read_name]

theorem reread_toValue (K : Text) (stamped : StampedEnvelope) :
    K.reread stamped.toValue =
      StampedEnvelope.toValue ⟨stamped.origin, K.reread stamped.envelope⟩ :=
  Value.mapNumbers_record K.number _ _ _

variable {envelope : Value} {line record : Bytes} {origin : Origin}

theorem depth_toValue (stamped : StampedEnvelope) :
    stamped.toValue.depth = stamped.envelope.depth + 1 := by
  change max stamped.envelope.depth 0 + 1 = _
  rw [Nat.max_zero]

theorem stampLine_canonicalize (K : Text) (origin : Origin)
    (canonical : K.canonicalize envelope = .ok line) (shallow : envelope.depth ≤ maxNesting) :
    stampLine K line origin =
      K.canonicalize (StampedEnvelope.toValue ⟨origin, K.reread envelope⟩) := by
  simp only [stampLine, K.fromSlice_canonicalize canonical shallow]

theorem canonicalize_of_stampLine (K : Text) (canonical : K.canonicalize envelope = .ok line)
    (stamped : stampLine K line origin = .ok record) :
    envelope.depth ≤ maxNesting ∧
      K.canonicalize (StampedEnvelope.toValue ⟨origin, K.reread envelope⟩) = .ok record := by
  cases read : K.fromSlice line with
  | error error => simp [stampLine, read] at stamped
  | ok value =>
    have shallow := K.shallow_of_fromSlice canonical read
    exact ⟨shallow, by rw [← stampLine_canonicalize K origin canonical shallow, stamped]⟩

theorem decodeLine_ok {K : Text} (read : decodeLine K line = .ok (origin, envelope)) :
    ∃ raw, K.fromSliceStrict line = .ok raw ∧ splitStamped raw = (origin, envelope) ∧
      ∃ decoded, AnyBusEnvelope.decodeTree (K.reread envelope).val = .ok decoded := by
  unfold decodeLine at read
  split at read
  next => cases read
  next raw parsed =>
    refine ⟨raw, parsed, ?_⟩
    dsimp only at read
    split at read
    next => cases read
    next bytes canonical =>
      split at read
      next => cases read
      next decoded accepted =>
        cases read
        obtain ⟨value, inner⟩ := AnyBusEnvelope.parsed_of_decode accepted
        have shallow := K.shallow_of_fromSlice canonical (Text.fromSlice_of_strict inner)
        rw [AnyBusEnvelope.decode_canonicalize K canonical shallow] at accepted
        exact ⟨rfl, decoded, accepted⟩

/-- The envelope that a receiver reads is one that the envelope decoder takes, and the
parser takes the stamp around it. -/
def Readable (K : Text) (envelope : Value) : Prop :=
  envelope.depth < maxNesting ∧ (AnyBusEnvelope.decodeTree (K.reread envelope).val).isOk = true

instance (K : Text) (envelope : Value) : Decidable (Readable K envelope) :=
  inferInstanceAs (Decidable (_ ∧ _))

/-- A local envelope was inside a stamp. -/
theorem readable_of_decodeLine {K : Text} (read : decodeLine K line = .ok (.local, envelope)) :
    Readable K envelope := by
  obtain ⟨raw, parsed, inside, decoded, taken⟩ := decodeLine_ok read
  have shallow := Text.depth_of_fromSlice (Text.fromSlice_of_strict parsed)
  refine ⟨Nat.lt_of_lt_of_le ?_ shallow, by rw [taken]; rfl⟩
  unfold splitStamped at inside
  split at inside
  next =>
    split at inside
    next found =>
      split at inside
      next => exact Value.depth_lt_of_get? ((Prod.mk.inj inside).2 ▸ found)
      next => cases inside
    next => cases inside
  next => cases inside

section Stamped
variable (K : Text) (canonical : K.canonicalize envelope = .ok line)
  (stamped : stampLine K line origin = .ok record)
include canonical stamped

theorem decodeLine_stampLine (shallow : envelope.depth < maxNesting) :
    decodeLine K record =
      match AnyBusEnvelope.decodeTree (K.reread envelope).val with
      | .error error => .error (.envelope error)
      | .ok _ => .ok (origin, K.reread envelope) := by
  obtain ⟨-, written⟩ := canonicalize_of_stampLine K canonical stamped
  have raw : K.fromSliceStrict record =
      .ok (StampedEnvelope.toValue ⟨origin, K.reread envelope⟩) := by
    have level : (StampedEnvelope.toValue ⟨origin, K.reread envelope⟩).depth ≤ maxNesting := by
      rw [depth_toValue, K.depth_reread]
      exact shallow
    rw [K.fromSliceStrict_canonicalize written level, reread_toValue, K.reread_idem]
  have inner : K.canonicalize (K.reread envelope) = .ok line := by
    rw [K.canonicalize_reread, canonical]
  have decoded := AnyBusEnvelope.decode_canonicalize K inner
    (by rw [K.depth_reread]; exact shallow.le)
  rw [K.reread_idem] at decoded
  simp only [decodeLine, raw, splitStamped_toValue, inner, decoded]

theorem decodeLine_stampLine_error (unreadable : ¬Readable K envelope) :
    ∃ error, decodeLine K record = .error error := by
  by_cases shallow : envelope.depth < maxNesting
  · rw [decodeLine_stampLine K canonical stamped shallow]
    cases outcome : AnyBusEnvelope.decodeTree (K.reread envelope).val with
    | error error => exact ⟨_, rfl⟩
    | ok kind => simp [Readable, shallow, outcome, Except.isOk, Except.toBool] at unreadable
  · -- the stamp is one level too many
    obtain ⟨-, written⟩ := canonicalize_of_stampLine K canonical stamped
    obtain ⟨error, refused⟩ := K.parse_deep _ _ written (by
      rw [depth_toValue, K.depth_reread]
      omega)
    exact ⟨.parse error, by simp only [decodeLine, Text.fromSliceStrict, refused]⟩

theorem decodeLine_stampLine_ok_iff :
    decodeLine K record = .ok (origin, K.reread envelope) ↔ Readable K envelope := by
  constructor
  · intro read
    by_contra unreadable
    obtain ⟨error, refused⟩ := decodeLine_stampLine_error K canonical stamped unreadable
    rw [refused] at read
    cases read
  · rintro ⟨shallow, taken⟩
    rw [decodeLine_stampLine K canonical stamped shallow]
    cases outcome : AnyBusEnvelope.decodeTree (K.reread envelope).val with
    | error error => simp [outcome, Except.isOk, Except.toBool] at taken
    | ok kind => rfl

/-- A stamped line that is taken gives its provenance and what is read of its envelope. -/
theorem eq_of_decodeLine_stampLine {found : Origin × Value} (read : decodeLine K record = .ok found) :
    found = (origin, K.reread envelope) := by
  by_cases readable : Readable K envelope
  · rw [(decodeLine_stampLine_ok_iff K canonical stamped).mpr readable] at read
    exact (Except.ok.inj read).symm
  · obtain ⟨error, refused⟩ := decodeLine_stampLine_error K canonical stamped readable
    rw [refused] at read
    cases read

end Stamped

theorem entryKeys_increasing :
    ["authority", "body", "class", "famp", "from", "id", "scope", "to", "ts"].Pairwise (· < ·) := by
  decide

/-- An entry of the audit log, which the envelope decoder takes. -/
def auditEntry (sender recipient : String) : Value :=
  Value.record ["authority", "body", "class", "famp", "from", "id", "scope", "to", "ts"]
    entryKeys_increasing
    [.str "advisory", Value.record ["event"] (by decide) [.str "note"], .str "audit_log",
      .str fampSpecVersion, .str sender, .str "00000000-0000-7000-8000-000000000001",
      .str "standalone", .str recipient, .str "2026-01-01T00:00:00Z"]

example : (AnyBusEnvelope.decodeTree
    (auditEntry "agent:example/bob" "agent:example/alice").val).isOk = true := by decide +kernel

end Famp.Bus
