import Famp.Bus.System
import Famp.Data.Slot

/-!
# Provenance

Every record carries the provenance that the holder of its author's name declared when
it registered, and an `Await` hands out nothing but records of holders that declared
themselves local.
-/

set_option autoImplicit false

namespace Famp.Bus

open Famp.Core Json Data Std

/-! ## Declared provenance -/

/-- The name of a connection with the provenance that it declared. -/
def registration (s : BrokerState) (client : ClientId) : Option (String × Origin) :=
  s.clients[client]?.bind fun state => state.name.map fun name => (name, state.origin)

/-- A `Register` of the connection that is answered with `RegisterOk`. -/
def Registers (client : ClientId) (event : SystemEvent) (entry : String × Origin) : Prop :=
  ∃ pid cwd listen declared drained peers,
    event.input.input = .wire client (.register entry.1 pid cwd listen declared) ∧
      .reply client (.registerOk entry.1 drained peers) ∈ event.output ∧
      entry.2 = declared.getD .unknown

variable {K : Text} {env : BrokerEnv} {s s' : BrokerState} {name : String} {mailbox : MailboxName}
  {client receiver : ClientId} {now nextOffset : Nat} {outs : List Out} {envelope : Value}
  {filter : AwaitFilter} {reader : Option String} {envelopes : List StampedEnvelope}

theorem Quiet.registration_eq (quiet : Quiet s s') (client : ClientId) :
    registration s' client = registration s client := by
  have same := congrArg
    (Option.bind · fun state => state.name.map fun name => (name, state.origin)) (quiet.core client)
  rw [Option.bind_map, Option.bind_map] at same
  exact same

variable {input : BrokerInput} {trace : List SystemEvent} {line record : Bytes} {origin : Origin}
  {handed : StampedEnvelope} {trigger : Trigger}

theorem handle_registration (inv : StateInvariant s)
    (taken : handle K env s input now = some (s', outs)) (client : ClientId) :
    registration s' client = registration s client ∨ s'.clients[client]? = none ∨
      ∃ name pid cwd listen declared drained peers,
        input = .wire client (.register name pid cwd listen declared) ∧
        .reply client (.registerOk name drained peers) ∈ outs ∧
        registration s' client = some (name, declared.getD .unknown) := by
  have kept : ∀ {t holder change}, Quiet s t →
      s'.clients = t.clients.modify holder change →
      (∀ state, (change state).name = state.name ∧ (change state).origin = state.origin) →
        registration s' client = registration s client := by
    intro t holder change quiet clients keeps
    rw [← quiet.registration_eq client]
    unfold registration
    rw [clients, lookup_modify]
    split
    · cases t.clients[client]? with
      | none => rfl
      | some state => simp [keeps]
    · rfl
  cases handle_handled taken with
  | refused same _ => exact Or.inl ((refused_quiet same).registration_eq client)
  | report change _ => exact Or.inl (change.quiet.registration_eq client)
  | @hello other label bindAs fresh _ =>
    left
    unfold registration
    rw [lookup_insert]
    split
    · rename_i same
      subst same
      cases stored : s.clients[other]? with
      | none => rfl
      | some state =>
        rw [stored, Option.any_some, (inv.live other state stored).1] at fresh
        cases fresh
    · rfl
  | @register other state name pid cwd listen declared drained stored _ _ _ _ _ =>
    by_cases same : other = client
    · subst same
      refine Or.inr (Or.inr ⟨name, pid, cwd, listen, declared, _, _, rfl, List.mem_cons_self .., ?_⟩)
      unfold registration
      rw [getElem?_updateClient, if_pos rfl, stored]
      rfl
    · left
      unfold registration
      rw [getElem?_updateClient, if_neg same]
  | @send other target envelope _ _ _ _ touched _ _ _ _ _ =>
    subst touched
    exact Or.inl (((touchActivity_quiet env s other).trans
      (send_quiet K env _ other target envelope)).registration_eq client)
  | inbox touched _ _ held _ _ =>
    subst touched
    exact Or.inl ((inbox_quiet _ held).registration_eq client)
  | await touched _ held run =>
    subst touched
    exact Or.inl ((await_quiet held run).registration_eq client)
  | park touched resolved held _ run =>
    subst touched
    exact Or.inl ((park_quiet _ resolved held run).registration_eq client)
  | @join other _ _ _ _ _ _ touched _ _ _ _ =>
    subst touched
    exact Or.inl (kept (touchActivity_quiet env s other) rfl fun _ => ⟨rfl, rfl⟩)
  | @leave other _ _ _ _ touched _ _ =>
    subst touched
    exact Or.inl (kept (touchActivity_quiet env s other) rfl fun _ => ⟨rfl, rfl⟩)
  | @disconnect other =>
    exact (disconnect_lookup s other client).imp
      (fun same => by rw [registration, same, registration]) Or.inl
  | tick =>
    exact (tick_lookup env s now client).imp
      (fun same => by rw [registration, same, registration]) Or.inl

theorem registration_of_registerOk {other : String} {pid : Nat} {cwd : Option String}
    {listen : Bool} {declared : Option Origin} {drained : List StampedEnvelope}
    {peers : List String}
    (taken : handle K env s (.wire client (.register name pid cwd listen declared)) now =
      some (s', outs)) (replied : .reply client (.registerOk other drained peers) ∈ outs) :
    registration s' client = some (name, declared.getD .unknown) := by
  cases handle_handled taken with
  | refused _ refusal =>
    obtain ⟨-, rfl⟩ := Out.reply.inj (List.mem_singleton.mp replied)
    cases refusal
  | report _ report =>
    obtain rfl := List.mem_singleton.mp replied
    cases report
  | register stored _ _ _ _ _ =>
    unfold registration
    rw [getElem?_updateClient, if_pos rfl, stored]
    rfl

def registrationPlace (K : Text) (filled : InMemoryMailbox → Prop) (client : ClientId) :
    Slot (systemMachine K filled) (String × Origin) where
  content s := registration s.broker client
  fills := Registers client
  empties event := event.after.broker.clients[client]? = none
  start s initial := by
    obtain ⟨⟨startedAt, fresh⟩, -⟩ := initial
    simp [fresh, registration, BrokerState.new]
  filled event entry occurs registers := by
    obtain ⟨earlier, run, -, taken, -⟩ := occurs
    obtain ⟨pid, cwd, listen, declared, drained, peers, input, replied, origin⟩ := registers
    rw [input] at taken
    rw [registration_of_registerOk taken replied, ← origin]
  emptied event _ gone := by
    simp only [registration, gone, Option.bind_none]
  kept event occurs unregistered present := by
    obtain ⟨earlier, run, taken⟩ := occurs
    rcases handle_registration (StateInvariant.of_system run) taken.2.1 client with
      same | gone | ⟨name, pid, cwd, listen, declared, drained, peers, input, replied, _⟩
    · exact same
    · exact absurd gone present
    · exact absurd ⟨pid, cwd, listen, declared, drained, peers, input, replied, rfl⟩
        (unregistered (name, declared.getD .unknown))

/-- The last `Register` of the connection that was answered with `RegisterOk`. -/
def LatestRegistration (trace : List SystemEvent) (client : ClientId) (entry : String × Origin) :
    Prop :=
  ∃ earlier event later, trace = earlier ++ event :: later ∧ Registers client event entry ∧
    ∀ other ∈ later, ∀ entry, ¬Registers client other entry

def DeclaredBy (trace : List SystemEvent) (s : BrokerState) (name : String) (origin : Origin) : Prop :=
  ∃ holder, canonicalHolderId s name = some holder ∧ LatestRegistration trace holder (name, origin)

theorem registration_of_resolved (inv : StateInvariant s)
    (resolved : resolveOpIdentity env s client = .ok name) :
    ∃ holder, canonicalHolderId s name = some holder ∧
      registration s holder = some (name, clientOrigin s client) := by
  obtain ⟨state, stored, connected, effective, named | ⟨unnamed, alive⟩⟩ :=
    resolveOpIdentity_ok resolved
  · refine ⟨client, HoldsName.canonicalHolderId inv ⟨state, stored, connected, named⟩, ?_⟩
    simp [registration, clientOrigin, stored, named]
  · obtain ⟨holder, held⟩ := exists_holder_of_resolveOpIdentity resolved
    obtain ⟨found, foundStored, -, foundNamed⟩ := canonicalHolderId_some held
    have bound : state.bindAs = some name := by
      cases bindAs : state.bindAs with
      | none => simp [effectiveIdentity, unnamed, bindAs] at effective
      | some bound => simpa [effectiveIdentity, unnamed, bindAs] using effective
    refine ⟨holder, held, ?_⟩
    simp [registration, clientOrigin, stored, unnamed, bound, held, foundStored, foundNamed]

theorem declaredBy_of_resolved {filled : InMemoryMailbox → Prop} {s : System}
    (run : (systemMachine K filled).Run trace s)
    (resolved : resolveOpIdentity env s.broker client = .ok name) :
    DeclaredBy trace s.broker name (clientOrigin s.broker client) := by
  obtain ⟨holder, held, registered⟩ :=
    registration_of_resolved (StateInvariant.of_system run) resolved
  obtain ⟨earlier, event, later, split, registers, skips⟩ :=
    (registrationPlace K filled holder).filled_of_content run registered
  exact ⟨holder, held, earlier, event, later, split, registers, fun other member =>
    (skips other member).1⟩

/-! ## Records -/

/-- The event is an accepted `Send` of the name that appends the record. -/
structure Appends (K : Text) (event : SystemEvent) (name : String) (mailbox : MailboxName)
    (envelope : Value) (line : Bytes) (origin : Origin) (record : Bytes) : Prop where
  sent : ∃ client target, event.input.input = .wire client (.send target envelope) ∧
    target.mailbox = mailbox ∧ clientOrigin event.before.broker client = origin ∧
    SendAccepted K event.input.env event.before.broker client envelope name line record
  staged : .appendMailbox mailbox line origin ∈ event.output

theorem Appends.decoded_eq {event : SystemEvent} {handed : Value} {trusted : Origin}
    (appends : Appends K event name mailbox envelope line origin record)
    (decoded : decodeLine K record = .ok (trusted, handed)) :
    origin = trusted ∧ handed = K.reread envelope := by
  obtain ⟨client, target, -, -, sender, accepted⟩ := appends.sent
  have stamps := accepted.stamps
  rw [sender] at stamps
  cases eq_of_decodeLine_stampLine K accepted.canonical stamps decoded
  exact ⟨rfl, rfl⟩

theorem recorded_of_run {s : System} (run : (systemMachine K (· = ∅)).Run trace s) :
    ∀ mailbox, ∀ record ∈ s.boxes.lines mailbox, ∃ earlier event later,
      trace = earlier ++ event :: later ∧ ∃ name envelope line origin,
        Appends K event name mailbox envelope line origin record := by
  induction run with
  | start initial =>
    intro mailbox record member
    simp [InMemoryMailbox.lines, initial.2] at member
  | @step trace s s' call outs run taken ih =>
    intro mailbox record member
    obtain ⟨-, handled, boxes⟩ := taken
    have old : record ∈ s.boxes.lines mailbox → ∃ earlier event later,
        trace ++ [⟨s, call, outs, s'⟩] = earlier ++ event :: later ∧ ∃ name envelope line origin,
          Appends K event name mailbox envelope line origin record := by
      intro member
      obtain ⟨earlier, event, later, rfl, appends⟩ := ih mailbox record member
      exact ⟨earlier, event, later ++ [⟨s, call, outs, s'⟩], by simp, appends⟩
    rcases boxes_step (StateInvariant.of_system run) handled s.boxes with ⟨same, -⟩ |
      ⟨client, target, envelope, name, line, stamped, input, accepted, staged, appended⟩
    · rw [boxes, same] at member
      exact old member
    · rw [boxes, appended, InMemoryMailbox.lines_append] at member
      split at member
      · rename_i here
        rcases List.mem_append.mp member with member | member
        · exact old member
        · obtain rfl := List.mem_singleton.mp member
          exact ⟨trace, _, [], rfl, name, envelope, line, _,
            ⟨client, target, input, here, rfl, accepted⟩, here ▸ staged⟩
      · exact old member

/-! ## What an `Await` hands out -/

theorem mem_readBatch {since : Nat} {drained : DrainResult}
    (member : handed ∈ (readBatch K mailbox filter reader since drained).envelopes) :
    handed.origin = .local ∧
      ∃ record ∈ drained.records, decodeLine K record.bytes = .ok (.local, handed.envelope) := by
  obtain ⟨⟨origin, value⟩, delivered, rfl⟩ := List.mem_map.mp member
  obtain ⟨record, among, decided⟩ := mem_deliverable delivered
  obtain ⟨decoded, trusted⟩ := verdict_deliver decided
  obtain rfl : origin = .local := trusted rfl
  exact ⟨rfl, record, (walked_isPrefix K _ _ _).subset among, decoded⟩

theorem mem_withTrigger {batch : AwaitBatch}
    (member : handed ∈ (withTrigger filter reader batch (some trigger)).envelopes) :
    handed ∈ batch.envelopes ∨ (trigger.origin = .local ∧ handed = ⟨.local, trigger.envelope⟩) := by
  simp only [withTrigger] at member
  split at member
  · unfold foldTrigger at member
    dsimp only at member
    split at member
    · exact Or.inl member
    · rename_i own
      split at member
      · rcases List.mem_append.mp member with member | member
        · exact Or.inl member
        · have trusted : trigger.origin = .local := by
            simp only [Bool.or_eq_true, not_or, bne_iff_ne, ne_eq, not_not] at own
            exact own.1
          rw [List.mem_singleton.mp member, trusted]
          exact Or.inr ⟨rfl, rfl⟩
      · exact Or.inl member
  · exact Or.inl member

def ReadLocally (K : Text) (env : BrokerEnv) (mailbox : MailboxName) (envelope : Value) : Prop :=
  ∃ since drained, env.drainFrom mailbox since = .ok drained ∧
    ∃ record ∈ drained.records, decodeLine K record.bytes = .ok (.local, envelope)

/-- The envelope is the one of the local `Send` that is being handled. -/
def SentLocally (K : Text) (env : BrokerEnv) (s : BrokerState) (input : BrokerInput)
    (outs : List Out) (mailbox : MailboxName) (envelope : Value) : Prop :=
  ∃ client target name line record, input = .wire client (.send target envelope) ∧
    target.mailbox = mailbox ∧ clientOrigin s client = .local ∧
    SendAccepted K env s client envelope name line record ∧
    .appendMailbox mailbox line .local ∈ outs

theorem awaitLoop_handsOut {owner : ClientId} {mailboxes : List MailboxName}
    (run : awaitLoop K env client owner filter mailboxes s = (s', some outs))
    (replied : .reply receiver (.awaitOk envelopes mailbox nextOffset) ∈ outs) :
    ∀ handed ∈ envelopes, handed.origin = .local ∧ ReadLocally K env mailbox handed.envelope := by
  obtain ⟨t, first, ⟨error, -, rfl⟩ | ⟨batch, drained, rfl⟩⟩ := awaitLoop_answer run
  · simp [err] at replied
  · obtain ⟨_, read, rfl⟩ := drainAwaitBatch_ok drained
    obtain ⟨-, same⟩ := Out.reply.inj (List.mem_singleton.mp replied)
    obtain ⟨rfl, rfl, -⟩ := BusReply.awaitOk.inj same
    intro handed member
    obtain ⟨trusted, found⟩ := mem_readBatch member
    exact ⟨trusted, _, _, read, found⟩

theorem turns_handsOut {box : MailboxName} :
    ∀ {waits : List (ClientId × AwaitFilter)} {cursor : Option Nat},
      .reply receiver (.awaitOk envelopes box nextOffset) ∈
        (turns K env mailbox reader trigger cursor waits).2 →
      box = mailbox ∧ ∀ handed ∈ envelopes, handed.origin = .local ∧
        (ReadLocally K env mailbox handed.envelope ∨
          trigger.origin = .local ∧ handed.envelope = trigger.envelope)
  | [], _, staged => by cases staged
  | (waiting, filter) :: rest, cursor, staged => by
    simp only [turns, List.mem_cons, reduceCtorEq, false_or] at staged
    rcases staged with here | later
    · obtain ⟨-, told⟩ := Out.reply.inj here
      simp only [turn] at told
      cases read : env.drainFrom mailbox (cursor.getD 0) with
      | error error => simp [read] at told
      | ok drained =>
        simp only [read] at told
        obtain ⟨-, rfl, rfl, -⟩ := (wakeReply_awaitOk_iff _ _ _ _).mp told.symm
        refine ⟨withTrigger_mailbox .., ?_⟩
        intro handed member
        rcases mem_withTrigger member with member | ⟨trusted, rfl⟩
        · obtain ⟨trusted, found⟩ := mem_readBatch member
          exact ⟨trusted, Or.inl ⟨_, drained, read, found⟩⟩
        · exact ⟨rfl, Or.inr ⟨trusted, rfl⟩⟩
    · exact turns_handsOut later

theorem handle_handsOut (inv : StateInvariant s)
    (taken : handle K env s input now = some (s', outs))
    (replied : .reply receiver (.awaitOk envelopes mailbox nextOffset) ∈ outs) :
    ∀ handed ∈ envelopes, handed.origin = .local ∧
      (ReadLocally K env mailbox handed.envelope ∨
        SentLocally K env s input outs mailbox handed.envelope) := by
  cases handle_handled taken with
  | refused _ refusal =>
    obtain ⟨-, rfl⟩ := Out.reply.inj (List.mem_singleton.mp replied)
    cases refusal
  | report _ report =>
    obtain rfl := List.mem_singleton.mp replied
    cases report
  | hello _ _ => simp at replied
  | register _ _ _ _ _ _ => simp at replied
  | @send client target envelope name line stamped t touched resolved own canonical small stamps =>
    subst touched
    obtain ⟨accepted, rows, outs, -⟩ := handled_send inv taken
      ⟨resolved, own, canonical, small, stamps⟩
    rw [outs] at replied ⊢
    simp only [List.cons_append, List.mem_cons, reduceCtorEq, false_or, List.mem_append,
      List.mem_flatMap, Out.reply.injEq, and_false, List.not_mem_nil, or_false] at replied
    obtain ⟨other, -, staged⟩ := replied
    obtain ⟨rfl, hands⟩ := turns_handsOut staged
    intro handed member
    obtain ⟨trusted, read | ⟨sender, same⟩⟩ := hands handed member
    · exact ⟨trusted, Or.inl read⟩
    · dsimp only at sender same
      rw [sender, same]
      exact ⟨trusted, Or.inr ⟨client, target, name, line, stamped, rfl, rfl, sender, accepted,
        List.mem_cons_self ..⟩⟩
  | inbox _ _ _ _ _ _ => simp at replied
  | await _ _ _ run =>
    intro handed member
    obtain ⟨trusted, read⟩ := awaitLoop_handsOut run replied handed member
    exact ⟨trusted, Or.inl read⟩
  | park _ _ _ _ _ => simp at replied
  | join _ _ _ _ _ => simp at replied
  | leave _ _ _ => simp at replied
  | disconnect =>
    have ended := disconnect_outs _ _ _ replied
    cases ended
  | tick =>
    rcases tick_outs _ _ _ _ replied with ended | expired
    · cases ended
    · cases expired

/-! ## Runs -/

def ReadsBack (K : Text) (envelope : Value) (origin : Origin) (record : Bytes) : Prop :=
  if Readable K envelope then decodeLine K record = .ok (origin, K.reread envelope)
  else ∃ error, decodeLine K record = .error error

structure Provenanced (K : Text) (trace : List SystemEvent) : Prop where
  /-- An append carries the provenance that the holder of the author's name declared. -/
  stamped : ∀ earlier event later, trace = earlier ++ event :: later →
    ∀ mailbox line origin, .appendMailbox mailbox line origin ∈ event.output →
      ∃ name envelope record, Appends K event name mailbox envelope line origin record ∧
        senderLeaf envelope = some name.toList ∧
        DeclaredBy earlier event.before.broker name origin ∧ ReadsBack K envelope origin record
  /-- What an `AwaitOk` hands out was appended for a holder that declared itself local. -/
  handed : ∀ earlier event later, trace = earlier ++ event :: later →
    ∀ receiver envelopes mailbox nextOffset,
      .reply receiver (.awaitOk envelopes mailbox nextOffset) ∈ event.output →
      ∀ handed ∈ envelopes, handed.origin = .local ∧
        ∃ earlier' event' later', earlier ++ [event] = earlier' ++ event' :: later' ∧
          ∃ name envelope line record,
            Appends K event' name mailbox envelope line .local record ∧
            DeclaredBy earlier' event'.before.broker name .local ∧
            (handed.envelope = envelope ∨ handed.envelope = K.reread envelope)

theorem readsBack_of_stamped (K : Text) (canonical : K.canonicalize envelope = .ok line)
    (stamps : stampLine K line origin = .ok record) : ReadsBack K envelope origin record := by
  unfold ReadsBack
  split
  · rename_i readable
    exact (decodeLine_stampLine_ok_iff K canonical stamps).mpr readable
  · rename_i unreadable
    exact decodeLine_stampLine_error K canonical stamps unreadable

theorem senderLeaf_of_isSelfAuthored (own : isSelfAuthored envelope (some name) = true) :
    senderLeaf envelope = some name.toList :=
  beq_iff_eq.mp own

/-- In every run that starts with no mailbox, appends carry the declared provenance of
their author and nothing but local records is handed out by an `Await`. -/
theorem provenance_kept {K : Text} {trace : List SystemEvent} {s : System}
    (run : (systemMachine K (· = ∅)).Run trace s) : Provenanced K trace where
  stamped earlier event later split mailbox line origin staged := by
    obtain ⟨before, -, handled, -⟩ := run.split split
    have inv := StateInvariant.of_system before
    rcases handle_appends inv handled with plain |
      ⟨client, target, envelope, name, line', record, rest, input, accepted, outs, plain⟩
    · cases plain _ staged
    · rw [outs, List.mem_cons] at staged
      rcases staged with same | staged
      · obtain ⟨rfl, rfl, rfl⟩ := Out.appendMailbox.inj same
        refine ⟨name, envelope, record, ⟨⟨client, target, input, rfl, rfl, accepted⟩, ?_⟩,
          senderLeaf_of_isSelfAuthored accepted.own, declaredBy_of_resolved before accepted.resolved,
          readsBack_of_stamped K accepted.canonical accepted.stamps⟩
        rw [outs]
        exact List.mem_cons_self ..
      · cases plain _ staged
  handed earlier event later split receiver envelopes mailbox nextOffset replied handed member := by
    obtain ⟨before, reads, handled, -⟩ := run.split split
    obtain ⟨trusted, found⟩ :=
      handle_handsOut (StateInvariant.of_system before) handled replied handed member
    refine ⟨trusted, ?_⟩
    rcases found with ⟨since, drained, read, record, among, decoded⟩ |
      ⟨client, target, name, line, record, input, box, sender, accepted, staged⟩
    · -- the record that was read was appended by an earlier event
      rw [reads mailbox since drained read] at among
      obtain ⟨earlier', event', later', rfl, name, envelope, line, origin, appends⟩ :=
        recorded_of_run before mailbox _ (InMemoryMailbox.bytes_mem_lines among)
      obtain ⟨rfl, same⟩ := appends.decoded_eq decoded
      obtain ⟨client, target, input, box, sender, accepted⟩ := appends.sent
      obtain ⟨ran, -, -, -⟩ := before.split rfl
      exact ⟨earlier', event', later' ++ [event], by simp, name, envelope, line, record.bytes,
        appends, sender ▸ declaredBy_of_resolved ran accepted.resolved, Or.inr same⟩
    · exact ⟨earlier, event, [], rfl, name, handed.envelope, line, record,
        ⟨⟨client, target, input, box, sender, accepted⟩, staged⟩,
        sender ▸ declaredBy_of_resolved before accepted.resolved, Or.inl rfl⟩

def wakingCalls (envelope : Value) : List Call :=
  waitingCalls ++ [⟨emptyEnv, .wire 2 (.send (.agent "alice") envelope), 6⟩]

theorem wakingCalls_provenance :
    Provenanced Plain.text (systemEvents Plain.text ⟨BrokerState.new 0, ∅⟩
      (wakingCalls (auditEntry "agent:example/bob" "agent:example/alice"))) :=
  provenance_kept (run_systemCalls Plain.text (by rfl) 0 _)

/-- An envelope that the decoder does not take is appended with its provenance, and its
record does not read back. -/
theorem wakingCalls_record_unreadable :
    let trace := systemEvents Plain.text ⟨BrokerState.new 0, ∅⟩ (wakingCalls fromBob)
    (systemMachine Plain.text (· = ∅)).Run trace
        (systemAfter Plain.text ⟨BrokerState.new 0, ∅⟩ (wakingCalls fromBob)) ∧
      (∃ event ∈ trace, Out.appendMailbox (.agent "alice") fromBobLine .local ∈ event.output) ∧
      stampLine Plain.text fromBobLine .local = .ok fromBobRecord ∧
      decodeLine Plain.text fromBobRecord = .error (.envelope (.missingField "class")) := by
  refine ⟨run_systemCalls Plain.text (by rfl) 0 _, ?_, ?_, ?_⟩ <;> decide +kernel

end Famp.Bus
