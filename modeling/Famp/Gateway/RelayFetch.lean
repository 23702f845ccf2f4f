import Famp.Core.Principals
import Famp.Gateway.Guard
import Famp.Json.Serde
import Famp.Relay.Http

/-!
# Batches fetched from a relay

The gateway reads a fetched batch as a whole: one recipient that is no principal
makes it lose the batch.  The relay looks only at the domain of a path, so it can
queue such a recipient.  It also keeps messages for longer than the gateway takes
them for fresh.
-/

set_option autoImplicit false

namespace Famp.Gateway

open Std Famp.Core Data Json Json.Serde Relay

/-! ## Reading a batch -/

def knownFields (fields : List Field) : Tree → Option (List (Option Tree))
  | .obj members =>
    if fields.any fun field => decide (1 < members.countP fun member => member.1 == field.name) then none
    else fieldsOfObject members fields
  | .arr items => fieldsOfArray items fields
  | _ => none

/-- `to` and `body`. -/
def readBatchEntry (tree : Tree) : Option (String × String) :=
  match knownFields [required "to", required "body"] tree with
  | some [some recipient, some body] =>
    match recipient.asStr?, body.asStr? with
    | some recipient, some body => some (recipient, body)
    | _, _ => none
  | _ => none

def readBatchResponse (tree : Tree) : Option (List (String × String)) :=
  match knownFields [required "envelopes"] tree with
  | some [some envelopes] => readList readBatchEntry envelopes
  | _ => none

inductive RelayFetchError where
  | malformedResponse
  | badRecipient
  deriving DecidableEq, Repr

variable {state : RelayState} {drained : List QueuedEnvelope} {request : Request}

section Decoding
variable {Wire : Type} (coding : Coding Wire)

def decodeEntries : List (String × String) → Except RelayFetchError (List (Principal × Bytes))
  | [] => .ok []
  | (recipient, body) :: rest =>
    match Principal.fromStr recipient with
    | none => .error .badRecipient
    | some principal =>
      match coding.decode body with
      | none => .error .malformedResponse
      | some bytes =>
        match decodeEntries rest with
        | .error error => .error error
        | .ok out => .ok ((principal, bytes) :: out)

def decodeFetchBatch (body : Wire) : Except RelayFetchError (List (Principal × Bytes)) :=
  match (coding.fromSlice body).bind readBatchResponse with
  | none => .error .malformedResponse
  | some envelopes => decodeEntries coding envelopes

theorem readBatchEntry_envelope (entry : QueuedEnvelope) :
    readBatchEntry (envelopeValue coding entry).val = some (entry.recipient, coding.encode entry.bytes) := by
  rfl

theorem readList_map {α β : Type} {read : Tree → Option β} {write : α → Value} {value : α → β}
    (reads : ∀ item, read (write item).val = some (value item)) (list : List α) :
    readList read (Value.arr (list.map write)).val = some (list.map value) := by
  change ((list.map write).map Subtype.val).mapM read = some (list.map value)
  induction list with
  | nil => rfl
  | cons item rest ih =>
    rw [List.map_cons, List.map_cons, List.mapM_cons, reads, ih]
    rfl

theorem readBatchResponse_batch (drained : List QueuedEnvelope) :
    readBatchResponse (batchValue coding drained).val =
      some (drained.map fun entry => (entry.recipient, coding.encode entry.bytes)) :=
  readList_map (readBatchEntry_envelope coding) drained

/-- The gateway gets the messages that the relay drained. -/
def Decodes (body : Wire) (drained : List QueuedEnvelope) : Prop :=
  ∃ messages, decodeFetchBatch coding body = .ok messages ∧
    (messages.map fun message => (message.1.display, message.2)) =
      drained.map fun entry => (entry.recipient, entry.bytes)

/-- The recipient can be read by the gateway. -/
def HasPrincipal (entry : QueuedEnvelope) : Prop :=
  (Principal.fromStr entry.recipient).isSome = true

theorem decodeEntries_ok (named : ∀ entry ∈ drained, HasPrincipal entry) :
    ∃ messages, decodeEntries coding
        (drained.map fun entry => (entry.recipient, coding.encode entry.bytes)) = .ok messages ∧
      (messages.map fun message => (message.1.display, message.2)) =
        drained.map fun entry => (entry.recipient, entry.bytes) := by
  induction drained with
  | nil => exact ⟨[], rfl, rfl⟩
  | cons entry rest ih =>
    obtain ⟨first, later⟩ := List.forall_mem_cons.mp named
    obtain ⟨principal, parsed⟩ := Option.isSome_iff_exists.mp first
    obtain ⟨messages, decoded, same⟩ := ih later
    refine ⟨(principal, entry.bytes) :: messages, ?_, ?_⟩
    · simp only [List.map_cons, decodeEntries, parsed, coding.decode_encode, decoded]
    · rw [List.map_cons, List.map_cons, same, ← (Principal.fromStr_spec parsed).1]

theorem decodeEntries_named {messages : List (Principal × Bytes)} (decoded : decodeEntries coding
      (drained.map fun entry => (entry.recipient, coding.encode entry.bytes)) = .ok messages) :
    ∀ entry ∈ drained, HasPrincipal entry := by
  induction drained generalizing messages with
  | nil => exact fun entry member => by cases member
  | cons entry rest ih =>
    rw [List.map_cons, decodeEntries] at decoded
    split at decoded
    next => cases decoded
    next principal parsed =>
      split at decoded
      next => cases decoded
      next =>
        split at decoded
        next => cases decoded
        next out later =>
          refine List.forall_mem_cons.mpr ⟨?_, ih later⟩
          rw [HasPrincipal, parsed]
          rfl

theorem decodes_iff (drained : List QueuedEnvelope) :
    Decodes coding (coding.toVec (batchValue coding drained)) drained ↔
      ∀ entry ∈ drained, HasPrincipal entry := by
  have decode : decodeFetchBatch coding (coding.toVec (batchValue coding drained)) =
      decodeEntries coding (drained.map fun entry => (entry.recipient, coding.encode entry.bytes)) := by
    rw [decodeFetchBatch, coding.fromSlice_toVec, Option.bind_some, readBatchResponse_batch]
  rw [Decodes, decode]
  constructor
  · rintro ⟨messages, decoded, -⟩
    exact decodeEntries_named coding decoded
  · exact decodeEntries_ok coding

end Decoding

/-! ## Batches of a relay -/

section Runs
variable {Key SigningKey Signature Wire : Type} {config : RelayConfig Key}
  {crypto : FetchCrypto Key SigningKey Signature} {clock : Clock} {coding : Coding Wire}

def drainedBy (state : RelayState) : Request → List QueuedEnvelope
  | .fetch domain _ now => (state.queues.drain domain now relayFetchMaxBatch).1
  | _ => []

variable (config crypto clock coding) in
theorem ingestFetch_queues (state : RelayState) (domain : String) (keys : List Key) (headers : Headers)
    (now : Int) :
    (∃ reject, (ingestFetch config crypto clock coding state domain keys headers now).1 = .error reject ∧
        (ingestFetch config crypto clock coding state domain keys headers now).2.queues = state.queues) ∨
      (ingestFetch config crypto clock coding state domain keys headers now).1 =
          .ok (coding.toVec (batchValue coding (state.queues.drain domain now relayFetchMaxBatch).1)) ∧
        (ingestFetch config crypto clock coding state domain keys headers now).2.queues =
          (state.queues.drain domain now relayFetchMaxBatch).2 := by
  unfold ingestFetch
  split
  next => exact .inl ⟨_, rfl, rfl⟩
  next =>
    split
    next => exact .inl ⟨_, rfl, rfl⟩
    next =>
      split
      next => exact .inl ⟨_, rfl, rfl⟩
      next =>
        split
        next => exact .inl ⟨_, rfl, rfl⟩
        next => exact .inr ⟨rfl, rfl⟩

theorem batch_eq {body : Wire}
    (answered : (respond config crypto clock coding state request).1 = .batch body) :
    body = coding.toVec (batchValue coding (drainedBy state request)) := by
  cases request with
  | enqueue principal bytes now => cases answered
  | sweep now => cases answered
  | fetch domain headers now =>
    cases served : config.domains[domain]? with
    | none =>
      rw [respond, served] at answered
      cases answered
    | some keys =>
      rw [respond_fetch served] at answered
      rcases ingestFetch_queues config crypto clock coding state domain keys headers now with
        ⟨reject, refused, -⟩ | ⟨fetched, -⟩
      · rw [refused] at answered
        cases answered
      · rw [fetched] at answered
        exact (Response.batch.inj answered).symm

def Accepts (config : RelayConfig Key) (principal : String) : Prop :=
  ∃ domain, extractDomain principal = some domain ∧ config.domains.contains domain = true

theorem mem_queue_respond {domain : String} {entry : QueuedEnvelope}
    (member : entry ∈ (respond config crypto clock coding state request).2.queues.queue domain) :
    entry ∈ state.queues.queue domain ∨
      ∃ body now, request = .enqueue entry.recipient body now ∧ Accepts config entry.recipient := by
  cases request with
  | enqueue principal body now =>
    simp only [respond, enqueueHandler] at member
    split at member
    next => exact .inl member
    next extracted named =>
      split at member
      next => exact .inl member
      next served =>
        rcases RelayQueues.mem_enqueue member with old | ⟨-, rfl⟩
        · exact .inl old
        · exact .inr ⟨body, now, rfl, extracted, named, by simpa using served⟩
  | sweep now =>
    have swept : entry ∈ (state.queues.sweep now).queue domain := member
    rw [RelayQueues.queue_sweep] at swept
    exact .inl (RelayQueues.mem_retainUnexpired swept)
  | fetch fetched headers now =>
    cases served : config.domains[fetched]? with
    | none =>
      rw [respond, served] at member
      exact .inl member
    | some keys =>
      rw [respond_fetch served] at member
      rcases ingestFetch_queues config crypto clock coding state fetched keys headers now with
        ⟨-, -, same⟩ | ⟨-, left⟩
      · rw [same] at member
        exact .inl member
      · rw [left] at member
        exact .inl (RelayQueues.mem_of_left member)

/-- Every queued recipient is a principal. -/
def AllNamed (state : RelayState) : Prop :=
  ∀ domain, ∀ entry ∈ state.queues.queue domain, HasPrincipal entry

theorem drainedBy_named (named : AllNamed state) (request : Request) :
    ∀ entry ∈ drainedBy state request, HasPrincipal entry := by
  intro entry member
  cases request with
  | enqueue principal body now => cases member
  | sweep now => cases member
  | fetch domain headers now =>
    exact named domain entry (RelayQueues.mem_retainUnexpired (RelayQueues.mem_of_drained member))

theorem traceOf_named {requests : List Request}
    (posts : ∀ principal body now, .enqueue principal body now ∈ requests → Accepts config principal →
      (Principal.fromStr principal).isSome = true) :
    ∀ {state : RelayState}, AllNamed state →
      ∀ event ∈ traceOf (respond config crypto clock coding) state requests, AllNamed event.before := by
  induction requests with
  | nil => exact fun _ event member => by cases member
  | cons request rest ih =>
    intro state named event member
    rcases List.mem_cons.mp member with rfl | later
    · exact named
    · refine ih (fun principal body now listed => posts principal body now (List.mem_cons_of_mem _ listed))
        (fun domain entry queued => ?_) event later
      rcases mem_queue_respond queued with old | ⟨body, now, rfl, accepted⟩
      · exact named domain entry old
      · exact posts entry.recipient body now List.mem_cons_self accepted

end Runs

/-- In every run of a relay a batch decodes at the gateway, to what was drained,
exactly when all recipients in it are principals; so all batches of a run decode where
all posts that were accepted are for principals. -/
theorem relay_batch_decodes_iff {Key SigningKey Signature Wire : Type} (config : RelayConfig Key)
    (crypto : FetchCrypto Key SigningKey Signature) (clock : Clock) (coding : Coding Wire)
    (requests : List Request) :
    (∀ event ∈ traceOf (respond config crypto clock coding) .new requests, ∀ body,
        event.output = .batch body →
          (Decodes coding body (drainedBy event.before event.input) ↔
            ∀ entry ∈ drainedBy event.before event.input, HasPrincipal entry)) ∧
      ((∀ principal body now, .enqueue principal body now ∈ requests → Accepts config principal →
          (Principal.fromStr principal).isSome = true) →
        ∀ event ∈ traceOf (respond config crypto clock coding) .new requests, ∀ body,
          event.output = .batch body → Decodes coding body (drainedBy event.before event.input)) := by
  have exactly : ∀ event ∈ traceOf (respond config crypto clock coding) .new requests, ∀ body,
      event.output = .batch body →
        (Decodes coding body (drainedBy event.before event.input) ↔
          ∀ entry ∈ drainedBy event.before event.input, HasPrincipal entry) := by
    intro event member body answered
    obtain ⟨earlier, later, split⟩ := List.append_of_mem member
    obtain ⟨taken, -⟩ := traceOf_split _ split
    rw [batch_eq ((congrArg Prod.fst taken).trans answered), decodes_iff]
  refine ⟨exactly, fun posts event member body answered => ?_⟩
  have empty : AllNamed .new := fun domain entry queued => by cases queued
  exact (exactly event member body answered).mpr
    (drainedBy_named (traceOf_named posts empty event member) event.input)

def namedPosts : List Request :=
  [.enqueue "agent:hosta.test/alice" [1] sampleNoon, .enqueue "agent:hosta.test/bob" [2] sampleNoon,
    .fetch "hosta.test" sampleHeaders sampleNoon]

def isBatch : Response Value → Bool
  | .batch _ => true
  | _ => false

/-- The fetch returns both posts, in a batch that decodes to them. -/
theorem namedPosts_decode :
    ∃ event ∈ traceOf (respond sampleConfig sampleCrypto rfc3339 sampleCoding) .new namedPosts, ∃ body,
      event.output = .batch body ∧ Decodes sampleCoding body (drainedBy event.before event.input) ∧
        ((drainedBy event.before event.input).map fun entry => (entry.recipient, entry.bytes)) =
          [("agent:hosta.test/alice", [1]), ("agent:hosta.test/bob", [2])] := by
  have decodes := (relay_batch_decodes_iff sampleConfig sampleCrypto rfc3339 sampleCoding namedPosts).2 (by
    intro principal body now listed _
    simp only [namedPosts, List.mem_cons, List.not_mem_nil, or_false, Request.enqueue.injEq,
      reduceCtorEq] at listed
    rcases listed with ⟨rfl, -⟩ | ⟨rfl, -⟩ <;> decide +kernel)
  obtain ⟨event, member, batch, drained⟩ : ∃ event ∈ traceOf
      (respond sampleConfig sampleCrypto rfc3339 sampleCoding) .new namedPosts,
      isBatch event.output = true ∧
        ((drainedBy event.before event.input).map fun entry => (entry.recipient, entry.bytes)) =
          [("agent:hosta.test/alice", [1]), ("agent:hosta.test/bob", [2])] := by
    decide +kernel
  cases answered : event.output with
  | batch body => exact ⟨event, member, body, answered, decodes event member body answered, drained⟩
  | _ => rw [answered] at batch; cases batch

def mixedPosts : List Request :=
  [.enqueue "agent:hosta.test/alice" [1] sampleNoon,
    .enqueue "agent:hosta.test/bad name" [2] sampleNoon,
    .fetch "hosta.test" sampleHeaders sampleNoon]

def failure? (body : Value) : Option RelayFetchError :=
  match decodeFetchBatch sampleCoding body with
  | .error error => some error
  | .ok _ => none

/-- The second post is accepted, and the first one is lost with it. -/
theorem mixedPosts_lose_batch :
    ((traceOf (respond sampleConfig sampleCrypto rfc3339 sampleCoding) .new mixedPosts).map fun event =>
      match event.output with
      | .status code => (some code, [], none)
      | .batch body =>
        (none, (drainedBy event.before event.input).map QueuedEnvelope.recipient, failure? body)
      | _ => (none, [], none)) =
    [(some .accepted, [], none), (some .accepted, [], none),
      (none, ["agent:hosta.test/alice", "agent:hosta.test/bad name"], some .badRecipient)] := by
  decide +kernel

/-! ## Messages that were stored -/

theorem freshnessCheck_ok_iff {clock : Clock} {ts now : String} {sent instant : Int} {skewSecs : Nat}
    (stamped : clock.parse ts = some sent) (read : clock.parse now = some instant) :
    freshnessCheck clock ts now skewSecs = .ok () ↔
      -((skewSecs + 1) * second) < instant - sent ∧ instant - sent < (skewSecs + 1) * second := by
  rw [← natAbs_wholeSeconds_le_iff]
  simp only [freshnessCheck, stamped, read]
  split
  next fresh => exact iff_of_true rfl fresh
  next stale => exact iff_of_false nofun stale

theorem stored_message_is_fresh_iff (clock : Clock) {ts stored drained : String} {sent t0 t1 : Int}
    (stamped : clock.parse ts = some sent) (readStored : clock.parse stored = some t0)
    (readDrained : clock.parse drained = some t1) (ordered : t0 ≤ t1)
    (accepted : freshnessCheck clock ts stored clockSkewWindowSecs = .ok ())
    {queues : RelayQueues} {domain : String} {max : Nat} {entry : QueuedEnvelope}
    (enqueued : entry.queuedAt = t0) (handed : entry ∈ (queues.drain domain t1 max).1) :
    (freshnessCheck clock ts drained clockSkewWindowSecs = .ok () ↔
      wholeSeconds (t1 - sent) ≤ clockSkewWindowSecs) ∧
      wholeSeconds (t1 - sent) ≤ relayEntryTtlSecs + clockSkewWindowSecs + 1 := by
  have fresh := (freshnessCheck_ok_iff stamped readStored).mp accepted
  have kept := of_decide_eq_true (List.mem_filter.mp (RelayQueues.mem_of_drained handed)).2
  rw [enqueued] at kept
  have age : t1 - t0 < 901 * second := (wholeSeconds_lt_iff (by decide)).mp (Int.lt_add_one_of_le kept)
  have recent : wholeSeconds (t1 - sent) ≤ clockSkewWindowSecs ↔ t1 - sent < 301 * second :=
    Int.lt_add_one_iff.symm.trans (wholeSeconds_lt_iff (by decide))
  have late : wholeSeconds (t1 - sent) < 1202 ↔ t1 - sent < 1202 * second :=
    wholeSeconds_lt_iff (by decide)
  rw [freshnessCheck_ok_iff stamped readDrained, recent]
  simp only [clockSkewWindowSecs, relayEntryTtlSecs, second] at *
  omega

def storedMessage : RelayQueues :=
  (RelayQueues.enqueue ∅ "b.example" "agent:b.example/bob" [1]
    ((rfc3339.parse "2026-01-01T00:00:00Z").getD 0)).2

theorem storedMessage_is_fresh_in_time :
    (freshnessCheck rfc3339 "2026-01-01T00:00:00Z" "2026-01-01T00:05:00Z" clockSkewWindowSecs =
        .ok () ↔
      wholeSeconds (1767225900 * second - 1767225600 * second) ≤ clockSkewWindowSecs) ∧
      wholeSeconds (1767225900 * second - 1767225600 * second) ≤
        relayEntryTtlSecs + clockSkewWindowSecs + 1 :=
  have handed : (⟨"agent:b.example/bob", [1], 1767225600 * second⟩ : QueuedEnvelope) ∈
      (storedMessage.drain "b.example" (1767225900 * second) 64).1 := by decide +kernel
  have accepted : freshnessCheck rfc3339 "2026-01-01T00:00:00Z" "2026-01-01T00:00:00Z"
      clockSkewWindowSecs = .ok () := by decide +kernel
  stored_message_is_fresh_iff rfc3339 (by decide +kernel) (by decide +kernel) (by decide +kernel)
    (by decide) accepted rfl handed

/-- Ten minutes later the relay still hands the message out, and the gateway drops it. -/
theorem storedMessage_is_drained_stale :
    freshnessCheck rfc3339 "2026-01-01T00:00:00Z" "2026-01-01T00:00:00Z" clockSkewWindowSecs =
        .ok () ∧
      (storedMessage.drain "b.example" ((rfc3339.parse "2026-01-01T00:10:00Z").getD 0) 64).1.length =
        1 ∧
      freshnessCheck rfc3339 "2026-01-01T00:00:00Z" "2026-01-01T00:10:00Z" clockSkewWindowSecs =
        .error (.staleTimestamp "2026-01-01T00:00:00Z" "2026-01-01T00:10:00Z" clockSkewWindowSecs) := by
  decide +kernel

end Famp.Gateway
