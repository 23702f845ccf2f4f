import Famp.Cli.Render
import Famp.Cli.SendContent
import Famp.Envelope.View
import Famp.Fsm.Task

/-!
# The thread of an inbox entry

`famp_inbox` says for each envelope which task it belongs to and whether it closes
the thread.  It takes both from members of the envelope of its own choice; the rest
of the system takes the task from the shared view and the end of a task from the
transition engine.
-/

set_option autoImplicit false

namespace Famp.Cli

open Bus Famp.Core Envelope Fsm Json Json.Serde

def terminalEvent : String := "famp.send.deliver_terminal"

/-! ## Members of a body -/

theorem get?_of_recordFields {fields : List Field} {tree : Tree} {items : List (Option Tree)}
    (read : recordFields fields tree = some items) {key : String}
    (unknown : key ∉ fields.map Field.name) : tree.get? key = none := by
  cases tree with
  | obj members =>
    have known := (recordFields_obj_iff.mp read).1
    by_contra present
    obtain ⟨item, found⟩ := Option.ne_none_iff_exists'.mp present
    exact unknown (known (key, item) (Tree.mem_of_get? found))
  | _ => rfl

/-- The bodies of the schema have no member of that name. -/
def Lacks (B : Type) [BodySchema B] (key : String) : Prop :=
  ∀ (tree : Tree) (body : B), BodySchema.read tree = some body → tree.get? key = none

theorem lacks_event : Lacks RequestBody "event" ∧ Lacks CommitBody "event" ∧
    Lacks DeliverBody "event" ∧ Lacks AckBody "event" ∧ Lacks ControlBody "event" := by
  refine ⟨?_, ?_, ?_, ?_, ?_⟩
  all_goals
    intro tree body read
    simp only [BodySchema.read] at read
    split at read
    · next fields => exact get?_of_recordFields fields (by decide)
    · cases read

theorem AuditLogBody.event_eq {members : List (String × Tree)} {body : AuditLogBody}
    (read : BodySchema.read (.obj members) = some body) :
    ((Tree.obj members).get? "event").bind Tree.asStr? = some body.event := by
  simp only [BodySchema.read] at read
  split at read
  · next event subject details fields =>
    obtain ⟨-, -, items⟩ := recordFields_obj_iff.mp fields
    simp only [required, Serde.optional, List.map_cons, List.map_nil, List.cons.injEq] at items
    obtain ⟨rfl, -⟩ := items
    obtain ⟨text, named, read⟩ := read_first read
    obtain ⟨_, _, read⟩ := read_first read
    obtain ⟨_, _, read⟩ := read_first read
    cases read
    rwa [readField_eq_bind] at named
  · cases read

theorem body_of_decodeTree {B : Type} [BodySchema B] {value : Value} {wire : WireEnvelope B}
    (decoded : BusEnvelope.decodeTree B value.val = .ok wire) :
    ∃ body, value.get? "body" = some body ∧ BodySchema.read body.val = some wire.body := by
  obtain ⟨members, isObject, -, -, header, -⟩ := BusEnvelope.decodeTree_ok_iff.mp decoded
  have read := (WireEnvelope.read_iff.mp header).2.body
  rw [← isObject, ← Value.get?_map_val, readField_eq_bind, Option.bind_map] at read
  exact Option.bind_eq_some_iff.mp read

theorem textOf_eq (value : Value) (key : String) :
    View.textOf value key = (value.val.get? key).bind Tree.asStr? := by
  rw [View.textOf, ← Value.get?_map_val, Option.bind_map]
  rfl

theorem bodyEvent_of_lacks {B : Type} [BodySchema B] {value : Value} {wire : WireEnvelope B}
    (decoded : BusEnvelope.decodeTree B value.val = .ok wire) (lacks : Lacks B "event") :
    View.bodyEvent value = none := by
  obtain ⟨body, stored, read⟩ := body_of_decodeTree decoded
  rw [View.bodyEvent, stored, Option.bind_some, textOf_eq, lacks _ _ read]
  rfl

theorem bodyEvent_auditLog {value : Value} {wire : WireEnvelope AuditLogBody}
    (decoded : BusEnvelope.decodeTree AuditLogBody value.val = .ok wire) :
    ∃ body, View.body value = some body ∧
      (body.IsObject ∧ View.bodyEvent value = some wire.body.event ∨
        ¬ body.IsObject ∧ View.bodyEvent value = none) := by
  obtain ⟨body, stored, read⟩ := body_of_decodeTree decoded
  refine ⟨body, stored, ?_⟩
  rw [View.bodyEvent, stored, Option.bind_some, textOf_eq]
  by_cases isObject : body.IsObject
  · obtain ⟨members, same⟩ := isObject
    rw [same] at read ⊢
    exact .inl ⟨⟨members, same⟩, AuditLogBody.event_eq read⟩
  · refine .inr ⟨isObject, ?_⟩
    cases tree : body.val with
    | obj members => exact absurd ⟨members, tree⟩ isObject
    | _ => rfl

/-! ## What an envelope does to its thread -/

/-- What the transition engine is given of an envelope. -/
def transitionInput : AnyBusEnvelope → TaskTransitionInput
  | .request wire => ⟨wire.messageClass, wire.terminalStatus⟩
  | .commit wire => ⟨wire.messageClass, wire.terminalStatus⟩
  | .deliver wire => ⟨wire.messageClass, wire.terminalStatus⟩
  | .ack wire => ⟨wire.messageClass, wire.terminalStatus⟩
  | .control wire => ⟨wire.messageClass, wire.terminalStatus⟩
  | .auditLog wire => ⟨wire.messageClass, wire.terminalStatus⟩

/-- The audit log of a local send says that it is the last. -/
def saysTerminal : AnyBusEnvelope → Bool
  | .auditLog wire => wire.body.event == terminalEvent
  | _ => false

def Closes (envelope : AnyBusEnvelope) : Prop :=
  saysTerminal envelope = true ∨ (transitionInput envelope).EntersTerminal

/-- An envelope of which all readers take the same thread and the same end. -/
structure ReadAlike (value : Value) (envelope : AnyBusEnvelope) : Prop where
  /-- Without a reference, the details name the envelope itself or no task. -/
  thread : View.reference value = none →
    ∀ task, View.detailsTask value = some task → View.textOf value "id" = some task
  /-- It is no cancellation and no final delivery. -/
  unfinished : ((transitionInput envelope).cancels || (transitionInput envelope).finishes) = false
  /-- The body of a last audit log is spelled as an object. -/
  spelled : saysTerminal envelope = true → ∃ body, View.body value = some body ∧ body.IsObject

theorem entryTaskId_eq (value : Value) :
    entryTaskId value = (View.reference value).or (View.textOf value "id") := by
  simp only [entryTaskId, View.reference, View.textOf, Option.bind_assoc]

theorem entryThreadState_closed_iff (value : Value) :
    entryThreadState value = "CLOSED" ↔ View.bodyEvent value = some terminalEvent := by
  have event : ((value.get? "body").bind (·.get? "event")).bind Value.asStr? =
      View.bodyEvent value := by
    simp only [View.bodyEvent, View.textOf, Option.bind_assoc]
  rw [entryThreadState, event]
  cases View.bodyEvent value with
  | none => simp
  | some text => by_cases same : text = terminalEvent <;> simp_all [terminalEvent]

theorem taskId_agrees_iff (value : Value) :
    (∀ task, View.taskId value = some task → entryTaskId value = some task) ↔
      (View.reference value = none →
        ∀ task, View.detailsTask value = some task → View.textOf value "id" = some task) := by
  rw [entryTaskId_eq, View.taskId]
  cases View.reference value with
  | some task => simp
  | none =>
    cases View.detailsTask value with
    | some task => simp
    | none =>
      simp only [Option.none_or, reduceCtorEq, false_implies, implies_true, iff_true]
      intro task named
      split at named
      · exact named
      · split at named
        · exact named
        · cases named

theorem threadState_agrees_iff {value : Value} {envelope : AnyBusEnvelope}
    (decoded : AnyBusEnvelope.decodeTree value.val = .ok envelope) :
    (entryThreadState value = "CLOSED" ↔ Closes envelope) ↔
      ((transitionInput envelope).cancels || (transitionInput envelope).finishes) = false ∧
        (saysTerminal envelope = true → ∃ body, View.body value = some body ∧ body.IsObject) := by
  rw [entryThreadState_closed_iff, Closes, entersTerminal_iff]
  unfold AnyBusEnvelope.decodeTree at decoded
  split at decoded
  case h_1 => cases decoded
  case h_8 => cases decoded
  case h_7 =>
    obtain ⟨wire, read, rfl⟩ := ok_of_map decoded
    have sameClass : wire.messageClass = .auditLog := by
      obtain ⟨-, -, -, -, -, sameClass, -⟩ := BusEnvelope.decodeTree_ok_iff.mp read
      exact sameClass
    have noInput : ((transitionInput (.auditLog wire)).cancels ||
        (transitionInput (.auditLog wire)).finishes) = false := by
      simp [transitionInput, TaskTransitionInput.cancels, TaskTransitionInput.finishes, sameClass]
    obtain ⟨body, stored, ⟨isObject, event⟩ | ⟨isArray, event⟩⟩ := bodyEvent_auditLog read
    · simp [noInput, event, stored, isObject, saysTerminal]
    · simp [noInput, event, stored, isArray]
  all_goals
    obtain ⟨wire, read, rfl⟩ := ok_of_map decoded
    obtain ⟨request, commit, deliver, ack, control⟩ := lacks_event
    rw [bodyEvent_of_lacks read (by assumption)]
    simp [saysTerminal]

/-! ## Entries of the inbox -/

section Entries
variable (print : Value → String) (fresh : Uuid) (stamped : StampedEnvelope)

theorem inboxEntry_taskId_iff (task : String) :
    (inboxEntry print fresh stamped).get? "task_id" = some (.str task) ↔
      entryTaskId stamped.envelope = some task := by
  have found : (inboxEntry print fresh stamped).get? "task_id" =
      some (((entryTaskId stamped.envelope).map Value.str).getD .null) := rfl
  rw [found, Option.some_inj, Subtype.ext_iff]
  cases entryTaskId stamped.envelope with
  | none => simp [Value.null, Value.str]
  | some other => simp [Value.str]

theorem inboxEntry_threadState_iff (state : String) :
    (inboxEntry print fresh stamped).get? "thread_state" = some (.str state) ↔
      entryThreadState stamped.envelope = state := by
  have found : (inboxEntry print fresh stamped).get? "thread_state" =
      some (.str (entryThreadState stamped.envelope)) := rfl
  rw [found, Option.some_inj, Subtype.ext_iff]
  simp [Value.str]

end Entries

/-- An entry of the inbox has the thread of the shared view and is closed exactly when
the envelope closes its task, if and only if the envelope is no cancellation and no
final delivery, the details of one without a reference name no other task, and the
body of a last audit log is an object. -/
theorem inbox_threads_agree_iff (K : Text) (print : Value → String) (fresh : Uuid)
    (origin : Origin) {bytes : Bytes} {value : Value} {envelope : AnyBusEnvelope}
    (parsed : K.fromSliceStrict bytes = .ok value)
    (decoded : AnyBusEnvelope.decode K bytes = .ok envelope) :
    ((∀ task, View.taskId value = some task →
        (inboxEntry print fresh ⟨origin, value⟩).get? "task_id" = some (.str task)) ∧
      ((inboxEntry print fresh ⟨origin, value⟩).get? "thread_state" = some (.str "CLOSED") ↔
        Closes envelope)) ↔
      ReadAlike value envelope := by
  rw [AnyBusEnvelope.decode_of_parsed K parsed] at decoded
  simp only [inboxEntry_taskId_iff, inboxEntry_threadState_iff]
  rw [taskId_agrees_iff, threadState_agrees_iff decoded]
  exact ⟨fun ⟨thread, unfinished, spelled⟩ => ⟨thread, unfinished, spelled⟩,
    fun alike => ⟨alike.thread, alike.unfinished, alike.spelled⟩⟩

/-! ## Envelopes of both kinds -/

theorem exists_bytes {value : Value} (printed : (Plain.text.canonicalize value).isOk = true)
    (shallow : value.depth ≤ maxNesting) :
    ∃ bytes, Plain.text.fromSliceStrict bytes = .ok value := by
  cases canonical : Plain.text.canonicalize value with
  | error => rw [canonical] at printed; cases printed
  | ok bytes =>
    have parsed := Plain.text.fromSliceStrict_canonicalize canonical shallow
    rw [Plain.reread_eq] at parsed
    exact ⟨bytes, parsed⟩

theorem exists_decoded (value : Value) (test : AnyBusEnvelope → Bool)
    (printed : (Plain.text.canonicalize value).isOk = true) (shallow : value.depth ≤ maxNesting)
    (passed : (match AnyBusEnvelope.decodeTree value.val with
      | .ok envelope => test envelope
      | .error _ => false) = true) :
    ∃ bytes envelope, Plain.text.fromSliceStrict bytes = .ok value ∧
      AnyBusEnvelope.decode Plain.text bytes = .ok envelope ∧ test envelope = true := by
  obtain ⟨bytes, parsed⟩ := exists_bytes printed shallow
  split at passed
  · next envelope decoded =>
    exact ⟨bytes, envelope, parsed, (AnyBusEnvelope.decode_of_parsed _ parsed).trans decoded, passed⟩
  · cases passed

def localLast : Value :=
  (auditEntry "agent:local.bus/bob" "agent:local.bus/alice").insert "body"
    (Value.record ["event"] (Value.increasing_singleton _) [.str terminalEvent])

theorem localLast_closes : ∃ bytes envelope, Plain.text.fromSliceStrict bytes = .ok localLast ∧
    AnyBusEnvelope.decode Plain.text bytes = .ok envelope ∧
    ((inboxEntry (fun _ => "") Uuid.nil ⟨.local, localLast⟩).get? "thread_state" =
      some (.str "CLOSED") ↔ Closes envelope) := by
  obtain ⟨bytes, envelope, parsed, decoded, terminal⟩ :=
    exists_decoded localLast (fun envelope => saysTerminal envelope &&
      !((transitionInput envelope).cancels || (transitionInput envelope).finishes))
      (by decide +kernel) (by decide +kernel) (by decide +kernel)
  rw [Bool.and_eq_true, Bool.not_eq_true'] at terminal
  have spelled : ∃ body, View.body localLast = some body ∧ body.IsObject :=
    ⟨_, rfl, _, rfl⟩
  have alike : ReadAlike localLast envelope := ⟨by decide +kernel, terminal.2, fun _ => spelled⟩
  exact ⟨bytes, envelope, parsed, decoded,
    ((inbox_threads_agree_iff Plain.text (fun _ => "") Uuid.nil .local parsed decoded).mpr alike).2⟩

/-- The delivery that ends a task on another host. -/
def remoteLastArgs : Send.SendArgs :=
  ⟨some "agent:peer.example/bob", none, none, some Uuid.nil.hyphenated, true, some "done", false, none⟩

def remoteLast : Value :=
  (Send.deliverFor ⟨⟨"own.example", "alice"⟩, by decide +kernel⟩ Send.samplePeer Send.sampleFresh
    Uuid.nil (some "done")).toValue

/-- An audit log whose details name a task, without a reference. -/
def detailsOnly : Value :=
  (auditEntry "agent:local.bus/bob" "agent:local.bus/alice").insert "body"
    (Value.record ["details", "event"] (by decide)
      [Value.record ["task"] (by decide) [.str Uuid.nil.hyphenated], .str "note"])

/-- The entry of a remote send with `--terminal` is open; and the entry of an audit log
has its own id as the thread, where the view has the task of the details. -/
theorem inbox_threads_disagree :
    (Send.buildRemoteEnvelopeValue SigningScheme.byLength Plain.text Plain.printer 2 remoteLastArgs
      "alice" Send.samplePeer Send.sampleHome Send.sampleFresh).toOption = some remoteLast ∧
    (∃ bytes envelope, Plain.text.fromSliceStrict bytes = .ok remoteLast ∧
      AnyBusEnvelope.decode Plain.text bytes = .ok envelope ∧ Closes envelope ∧
      (inboxEntry (fun _ => "") Uuid.nil ⟨.gateway, remoteLast⟩).get? "thread_state" =
        some (.str "OPEN")) ∧
    ∃ bytes envelope, Plain.text.fromSliceStrict bytes = .ok detailsOnly ∧
      AnyBusEnvelope.decode Plain.text bytes = .ok envelope ∧
      View.taskId detailsOnly = some Uuid.nil.hyphenated ∧
      (inboxEntry (fun _ => "") Uuid.nil ⟨.local, detailsOnly⟩).get? "task_id" =
        some (.str "00000000-0000-7000-8000-000000000001") := by
  refine ⟨by decide +kernel, ?_, ?_⟩
  · obtain ⟨bytes, envelope, parsed, decoded, finishes⟩ :=
      exists_decoded remoteLast (fun envelope => (transitionInput envelope).finishes)
        (by decide +kernel) (by decide +kernel) (by decide +kernel)
    have closes : Closes envelope := .inr ((entersTerminal_iff _).mpr (by simp [finishes]))
    exact ⟨bytes, envelope, parsed, decoded, closes,
      (inboxEntry_threadState_iff _ _ _ _).mpr (by decide +kernel)⟩
  · obtain ⟨bytes, envelope, parsed, decoded, -⟩ :=
      exists_decoded detailsOnly (fun _ => true) (by decide +kernel) (by decide +kernel)
        (by decide +kernel)
    exact ⟨bytes, envelope, parsed, decoded, by decide +kernel,
      (inboxEntry_taskId_iff _ _ _ _).mpr (by decide +kernel)⟩

end Famp.Cli
