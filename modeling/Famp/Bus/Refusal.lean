import Famp.Bus.Cursors

/-!
# Refused requests

A request that is refused leaves the state as it was, up to the time of the last
activity, and stages nothing.  An `Await` that fails on one of its mailboxes has
moved the cursors of the mailboxes before it, past records that no `Await`
delivers or back to the end of a mailbox that is shorter than the cursor.

An error can also reach a connection as the outcome of an earlier `Await` that it
had parked and that its own send wakes; that send itself is accepted.
-/

set_option autoImplicit false

namespace Famp.Bus

open Famp.Core Json Data Std

structure SameState (s s' : BrokerState) : Prop where
  channels : s'.channels = s.channels
  roles : s'.channelRoles = s.channelRoles
  pending : s'.pendingAwaits = s.pendingAwaits
  clients : ∀ id : ClientId,
    s'.clients[id]?.map ClientState.atRest = s.clients[id]?.map ClientState.atRest

def Out.isStaged : Out → Bool
  | .appendMailbox .. | .advanceCursor .. | .parkAwait .. => true
  | _ => false

theorem touchActivity_sameState (env : BrokerEnv) (s : BrokerState) (client : ClientId) :
    SameState s (touchActivity env s client) :=
  ⟨(touchActivity_quiet env s client).channels, (touchActivity_quiet env s client).roles,
    touchActivity_pending env s client, touchActivity_clients env s client⟩

/-! ## Records that no Await delivers -/

/-- Undecodable, not of local origin, or written by the reader itself. -/
def PassedOver (K : Text) (reader : Option String) (record : DrainedRecord) : Prop :=
  match decodeLine K record.bytes with
  | .error _ => True
  | .ok (origin, value) => origin ≠ .local ∨ isSelfAuthored value reader = true

/-- The cursor `offset` is what is left of `since` once the mailbox is read: not
past its end, and then past records that no `Await` delivers. -/
def PassesOver (K : Text) (reader : Option String) (since : Nat) (drained : DrainResult)
    (offset : Nat) : Prop :=
  ∃ passed rest, drained.records = passed ++ rest ∧ (∀ record ∈ passed, PassedOver K reader record) ∧
    offset = cursorAfter (min since drained.nextOffset) passed

variable {K : Text} {env : BrokerEnv} {s : BrokerState} {owner : ClientId} {filter : AwaitFilter}
  {mailbox : MailboxName}

variable {client : ClientId} {reader : Option String} {state : ClientState} {t : BrokerState}
  {acc : BrokerState × List Out}

theorem passedOver_of_skip {cap : Option DrainCap} {record : DrainedRecord}
    (skipped : verdict K ⟨filter, reader, true, cap⟩ record = .skip) :
    PassedOver K reader record := by
  unfold verdict at skipped
  unfold PassedOver
  cases decoded : decodeLine K record.bytes with
  | error error => trivial
  | ok found =>
    simp only [decoded] at skipped
    split at skipped
    · rename_i remote
      exact Or.inl (by simpa using remote)
    · split at skipped
      · rename_i own
        exact Or.inr own
      · split at skipped <;> cases skipped

theorem skip_of_deliverable_nil {policy : DrainPolicy} {records : List DrainedRecord}
    (none : deliverable K policy records = []) (passed : ∀ record ∈ records,
      verdict K policy record ≠ .stop) : ∀ record ∈ records, verdict K policy record = .skip := by
  intro record member
  have nothing := List.filterMap_eq_nil_iff.mp none record member
  cases decided : verdict K policy record with
  | skip => rfl
  | deliver entry => simp [decided, Verdict.handed?] at nothing
  | stop => exact absurd decided (passed record member)

theorem readBatch_passesOver {since : Nat} {drained : DrainResult}
    (empty : (readBatch K mailbox filter reader since drained).envelopes = []) :
    PassesOver K reader since drained (readBatch K mailbox filter reader since drained).nextOffset := by
  obtain ⟨rest, split⟩ := walked_isPrefix K (awaitPolicy filter reader) awaitBatchCap drained.records
  refine ⟨_, rest, split.symm, ?_, rfl⟩
  intro record member
  exact passedOver_of_skip (skip_of_deliverable_nil (List.map_eq_nil_iff.mp empty)
    (walked_passes K _ _ drained.records) record member)

/-! ## Awaits that fail -/

/-- The state after the mailboxes in `read` were read by an `Await` of `owner`
that found nothing to deliver in them. -/
structure CursorsPassOver (K : Text) (env : BrokerEnv) (s : BrokerState) (owner : ClientId)
    (read : List MailboxName) (s' : BrokerState) : Prop where
  channels : s'.channels = s.channels
  roles : s'.channelRoles = s.channelRoles
  pending : s'.pendingAwaits = s.pendingAwaits
  others : ∀ id : ClientId, id ≠ owner →
    s'.clients[id]?.map ClientState.atRest = s.clients[id]?.map ClientState.atRest
  settings : (s'.clients[owner]?.map fun state => { state.atRest with awaitOffsets := ∅ }) =
    s.clients[owner]?.map fun state => { state.atRest with awaitOffsets := ∅ }
  unread : ∀ mailbox, mailbox ∉ read → awaitCursor s' owner mailbox = awaitCursor s owner mailbox
  passed : ∀ mailbox ∈ read, awaitCursor s' owner mailbox = awaitCursor s owner mailbox ∨
    ∃ drained offset, env.drainFrom mailbox (awaitOffset s owner mailbox) = .ok drained ∧
      PassesOver K (awaiterIdentity s owner mailbox) (awaitOffset s owner mailbox) drained offset ∧
      awaitCursor s' owner mailbox = some offset

theorem cursorsPassOver_of_awaitLoop {read : List MailboxName} (distinct : read.Nodup)
    (stored : s.clients[owner]? = some state)
    (loop : awaitLoop K env client owner filter read s = (t, none)) :
    CursorsPassOver K env s owner read t := by
  have cursors := awaitLoop_awaitCursor K env client owner filter read distinct stored loop owner
  have kept := awaitLoop_keeps (fun t => (t.channels = s.channels ∧
      t.channelRoles = s.channelRoles ∧ t.pendingAwaits = s.pendingAwaits) ∧
      (∀ id : ClientId, id ≠ owner →
        t.clients[id]?.map ClientState.atRest = s.clients[id]?.map ClientState.atRest) ∧
      (t.clients[owner]?.map fun state => { state.atRest with awaitOffsets := ∅ }) =
        s.clients[owner]?.map fun state => { state.atRest with awaitOffsets := ∅ })
    K env client owner filter ?_ read s ⟨⟨rfl, rfl, rfl⟩, fun _ _ => rfl, rfl⟩
  · rw [loop] at kept
    obtain ⟨⟨channels, roles, pending⟩, others, settings⟩ := kept
    refine ⟨channels, roles, pending, others, settings, ?_, ?_⟩
    · intro mailbox unread
      exact (cursors mailbox).resolve_right fun moved => unread moved.2.1
    · intro mailbox _
      refine (cursors mailbox).imp_right ?_
      rintro ⟨-, -, drained, batch, read, rfl, moved, empty | answered⟩
      · exact ⟨drained, _, read, readBatch_passesOver empty, moved⟩
      · cases answered
  · rintro t mailbox offset ⟨same, others, settings⟩
    refine ⟨same, fun id differ => ?_, ?_⟩
    · rw [← others id differ]
      simp only [setAwaitOffset, getElem?_updateClient, if_neg (Ne.symm differ)]
    · rw [← settings]
      simp only [setAwaitOffset, getElem?_updateClient, if_true, Option.map_map]
      rfl

theorem awaitLoop_append (rest : List MailboxName) :
    ∀ {read : List MailboxName} {s : BrokerState},
      awaitLoop K env client owner filter read s = (t, none) →
        awaitLoop K env client owner filter (read ++ rest) s =
          awaitLoop K env client owner filter rest t
  | [], s, run => by
    obtain ⟨rfl, -⟩ := Prod.mk.inj run
    rfl
  | mailbox :: read, s, run => by
    rw [awaitLoop] at run
    rw [List.cons_append, awaitLoop]
    cases found : drainAwaitBatch K env s owner mailbox filter none with
    | error error =>
      rw [found] at run
      cases run
    | ok batch =>
      rw [found] at run
      dsimp only at run ⊢
      split at run
      next empty => rw [if_pos empty, awaitLoop_append rest run]
      next => cases run

theorem awaitLoop_fails {mailboxes : List MailboxName} {s' : BrokerState} {kind : BusErrorKind}
    {message : String} (distinct : mailboxes.Nodup) (stored : s.clients[owner]? = some state)
    (run : awaitLoop K env client owner filter mailboxes s =
      (s', some [.reply client (.err kind message)])) :
    ∃ read failing unread cause, mailboxes = read ++ failing :: unread ∧
      env.drainFrom failing (awaitOffset s owner failing) = .error cause ∧
      CursorsPassOver K env s owner read s' := by
  have result := awaitLoop_result K env client owner filter mailboxes distinct stored
  rw [run, eq_comm] at result
  obtain ⟨read, failing, unread, rfl, answer, nothing⟩ := List.findSome?_eq_some_iff.mp result
  obtain ⟨distinct, -, apart⟩ := List.nodup_append.mp distinct
  have silent : (awaitLoop K env client owner filter read s).2 = none := by
    rw [awaitLoop_result K env client owner filter read distinct stored]
    exact List.findSome?_eq_none_iff.mpr nothing
  obtain ⟨t, loop⟩ : ∃ t, awaitLoop K env client owner filter read s = (t, none) :=
    ⟨_, Prod.ext rfl silent⟩
  have passes := cursorsPassOver_of_awaitLoop distinct stored loop
  cases drained : drainAwaitBatch K env s owner failing filter none with
  | ok batch =>
    rw [drained] at answer
    simp [batchAnswer] at answer
  | error error =>
    obtain ⟨cause, fails⟩ := drainAwaitBatch_error drained
    -- the loop reaches the failing mailbox with the cursor it had
    have offset : awaitOffset t owner failing = awaitOffset s owner failing := by
      rw [awaitOffset_eq, awaitOffset_eq, passes.unread failing
        fun member => apart failing member failing List.mem_cons_self rfl]
    have failed : drainAwaitBatch K env t owner failing filter none =
        .error (.internal, cause.toText) := by
      rw [drainAwaitBatch_eq, offset, fails]
    rw [awaitLoop_append _ loop, awaitLoop, failed] at run
    obtain ⟨rfl, -⟩ := Prod.mk.inj run
    exact ⟨read, failing, unread, cause, rfl, fails, passes⟩

/-! ## Waiters that a send wakes -/

theorem awaitReplyForMailbox_pending (K : Text) (env : BrokerEnv) (s : BrokerState)
    (client : ClientId) (mailbox : MailboxName) (filter : AwaitFilter) (trigger : Option Trigger) :
    (awaitReplyForMailbox K env s client mailbox filter trigger).1.pendingAwaits =
      s.pendingAwaits := by
  unfold awaitReplyForMailbox
  split
  · rfl
  · split <;> rfl

/-- Every reply is the outcome of a request that was parked in `s`, which it ends. -/
def AnswersParked (s : BrokerState) (outs : List Out) : Prop :=
  ∀ id reply, Out.reply id reply ∈ outs →
    id ∈ s.pendingAwaits ∧ [.reply id reply, .unparkAwait id] <:+: outs

theorem AnswersParked.append {first second : List Out} (answers : AnswersParked s first)
    (more : AnswersParked s second) : AnswersParked s (first ++ second) := by
  intro id reply staged
  rcases List.mem_append.mp staged with staged | staged
  · exact (answers id reply staged).imp_right fun ends => ends.trans (List.prefix_append ..).isInfix
  · exact (more id reply staged).imp_right fun ends => ends.trans (List.suffix_append ..).isInfix

structure WakesParked (s : BrokerState) (acc : BrokerState × List Out) : Prop where
  pending : ∀ id : ClientId, id ∈ acc.1.pendingAwaits → id ∈ s.pendingAwaits
  answers : AnswersParked s acc.2

theorem wakeWaiter_parked (K : Text) (env : BrokerEnv) (mailbox : MailboxName) (trigger : Trigger)
    (wakes : WakesParked s acc) (waiting : ClientId) :
    WakesParked s (wakeWaiter K env mailbox trigger acc waiting) := by
  unfold wakeWaiter
  split
  · exact wakes
  · rename_i request found
    have waits : waiting ∈ s.pendingAwaits :=
      wakes.pending waiting ((mem_iff_lookup _ _).mpr ⟨request, found⟩)
    refine ⟨?_, wakes.answers.append ?_⟩
    · intro id member
      rw [awaitReplyForMailbox_pending] at member
      exact wakes.pending id (ExtTreeMap.mem_of_mem_erase member)
    · intro id reply staged
      simp only [List.mem_cons, Out.reply.injEq, reduceCtorEq, List.not_mem_nil, or_false] at staged
      obtain ⟨rfl, rfl⟩ := staged
      exact ⟨waits, List.infix_rfl⟩

theorem wakeMember_parked (K : Text) (env : BrokerEnv) (channel : String) (trigger : Trigger)
    (wakes : WakesParked s acc) (member : String) :
    WakesParked s (wakeMember K env channel trigger acc member) := by
  unfold wakeMember
  split
  · exact wakes
  · exact List.foldlRecOn _ _ wakes fun _ kept waiting _ =>
      wakeWaiter_parked K env (.channel channel) trigger kept waiting

theorem send_replies_parked {target : Target} {envelope : Value} {identity : String}
    {line stamped : Bytes} (resolved : resolveOpIdentity env s client = .ok identity)
    (own : isSelfAuthored envelope (some identity) = true)
    (canonical : K.canonicalize envelope = .ok line) (small : line.length ≤ maxFrameBytes)
    (stamps : stampLine K line (clientOrigin s client) = .ok stamped) {id : ClientId}
    {reply : BusReply} (staged : Out.reply id reply ∈ (send K env s client target envelope).2) :
    (id ∈ s.pendingAwaits ∧
        [.reply id reply, .unparkAwait id] <:+: (send K env s client target envelope).2) ∨
      ∃ rows, reply = .sendOk (taskIdFrom envelope) rows := by
  have start : ∀ mailbox, WakesParked s (s, [Out.appendMailbox mailbox line (clientOrigin s client)]) :=
    fun _ => ⟨fun _ member => member, by simp [AnswersParked]⟩
  rw [send_eq resolved own canonical small] at staged ⊢
  cases target with
  | agent name =>
    simp only [sendAgent, stamps] at staged ⊢
    rcases List.mem_append.mp staged with woken | answer
    · refine .inl (((List.foldlRecOn _ _ (start (.agent name)) fun _ kept waiting _ =>
        wakeWaiter_parked K env (.agent name) _ kept waiting).answers id reply woken).imp_right ?_)
      exact fun ends => ends.trans (List.prefix_append ..).isInfix
    · exact .inr ⟨_, (Out.reply.inj (List.mem_singleton.mp answer)).2⟩
  | channel name =>
    simp only [sendChannel, stamps] at staged ⊢
    rcases List.mem_append.mp staged with woken | answer
    · refine .inl (((List.foldlRecOn _ _ (start (.channel name)) fun _ kept member _ =>
        wakeMember_parked K env name _ kept member).answers id reply woken).imp_right ?_)
      exact fun ends => ends.trans (List.prefix_append ..).isInfix
    · exact .inr ⟨_, (Out.reply.inj (List.mem_singleton.mp answer)).2⟩

/-! ## Refusals -/

/-- The reply is the outcome of an `Await` that the sender had parked, which ends with
it: its send is accepted. -/
def WakesItself (s : BrokerState) (client : ClientId) (msg : BusMessage) (reply : BusReply)
    (outs : List Out) : Prop :=
  ∃ target envelope rows, msg = .send target envelope ∧ client ∈ s.pendingAwaits ∧
    [.reply client reply, .unparkAwait client] <:+: outs ∧
    Out.reply client (.sendOk (taskIdFrom envelope) rows) ∈ outs

/-- An `Await` that read some of its mailboxes and failed on the next one. -/
def FailsOnMailbox (K : Text) (env : BrokerEnv) (s : BrokerState) (client : ClientId)
    (msg : BusMessage) (s' : BrokerState) : Prop :=
  ∃ (t : BrokerState) (timeoutMs : Nat) (task : Option Uuid) (identity : String) (owner : ClientId)
    (read : List MailboxName) (failing : MailboxName) (unread : List MailboxName)
    (cause : MailboxErr),
    msg = .await timeoutMs task ∧ SameState s t ∧ resolveOpIdentity env t client = .ok identity ∧
      canonicalHolderId t identity = some owner ∧
      awaitMailboxes t owner identity = read ++ failing :: unread ∧
      env.drainFrom failing (awaitOffset t owner failing) = .error cause ∧
      CursorsPassOver K env t owner read s'

/-- A refused request stages nothing and changes nothing but activity times and,
for an `Await` that fails on a mailbox, the cursors of the mailboxes before it. -/
theorem refused_request_changes_nothing {K : Text} {env : BrokerEnv} {s s' : BrokerState}
    {client : ClientId} {msg : BusMessage} {now : Nat} {outs : List Out} {reply : BusReply}
    (taken : handle K env s (.wire client msg) now = some (s', outs))
    (replied : Out.reply client reply ∈ outs) (refusal : reply.isRefusal = true) :
    WakesItself s client msg reply outs ∨
      ((∀ out ∈ outs, out.isStaged = false) ∧
        (SameState s s' ∨ FailsOnMailbox K env s client msg s')) := by
  cases handle_handled taken with
  | refused same _ =>
    refine Or.inr ⟨by simp [Out.isStaged], Or.inl ?_⟩
    rcases same with rfl | rfl
    · exact ⟨rfl, rfl, rfl, fun _ => rfl⟩
    · exact touchActivity_sameState env s client
  | report _ report =>
    obtain rfl := List.mem_singleton.mp replied
    cases reply <;> simp [Out.isReport, BusReply.isRefusal] at report refusal
  | hello _ _ =>
    obtain ⟨_, rfl⟩ := Out.reply.inj (List.mem_singleton.mp replied)
    cases refusal
  | register _ _ _ _ _ _ =>
    simp only [List.mem_cons, Out.reply.injEq, true_and] at replied
    rcases replied with rfl | other
    · cases refusal
    · simp at other
  | @send _ target envelope _ _ _ t touched resolved own canonical small stamps =>
    left
    rcases send_replies_parked resolved own canonical small stamps replied with
      ⟨parked, ends⟩ | ⟨_, rfl⟩
    · obtain ⟨rows, answered⟩ := sendOk_mem_send resolved own canonical small stamps target
      rw [touched, (touchActivity_sameState env s client).pending] at parked
      exact ⟨target, envelope, rows, rfl, parked, ends, answered⟩
    · cases refusal
  | inbox _ _ _ _ _ _ =>
    obtain ⟨_, rfl⟩ := Out.reply.inj (List.mem_singleton.mp replied)
    cases refusal
  | @await _ owner timeoutMs task identity t _ _ touched resolved holder drained =>
    rcases awaitLoop_outs drained with ⟨kind, message, rfl⟩ | ⟨_, _, _, rfl⟩
    · refine Or.inr ⟨by simp [Out.isStaged], Or.inr ?_⟩
      obtain ⟨state, stored, _, _⟩ := canonicalHolderId_some holder
      obtain ⟨read, failing, unread, cause, split, fails, passed⟩ :=
        awaitLoop_fails (awaitMailboxes_nodup t owner identity) stored drained
      exact ⟨t, timeoutMs, task, identity, owner, read, failing, unread, cause, rfl,
        touched ▸ touchActivity_sameState env s client, resolved, holder, split, fails, passed⟩
    · obtain ⟨_, rfl⟩ := Out.reply.inj (List.mem_singleton.mp replied)
      cases refusal
  | park _ _ _ _ _ => simp at replied
  | join _ _ _ _ _ =>
    simp only [List.mem_cons, Out.reply.injEq, true_and] at replied
    rcases replied with rfl | other
    · cases refusal
    · simp at other
  | leave _ _ _ =>
    obtain ⟨_, rfl⟩ := Out.reply.inj (List.mem_singleton.mp replied)
    cases refusal

def brokenChannelEnv : BrokerEnv where
  drainFrom mailbox _ :=
    if mailbox.isChannel then .error (.internal "io") else .ok ⟨[⟨[120], 0, 2⟩], 2⟩
  isAlive _ := true
  wallClock := 8

def memberCalls : List Call :=
  [.wire 1 (.hello 3 "cli" none), .wire 1 (.register "alice" 11 none true (some .local)),
    .wire 1 (.join "#a" none)].map
    fun input => ⟨emptyEnv, input, 5⟩

/-- The cursor of the agent's mailbox has moved past the undecodable line when the
request fails on the channel. -/
theorem failing_await_passes_over :
    let s := stateAfter Plain.text (BrokerState.new 0) memberCalls
    let result := respond Plain.text s ⟨brokenChannelEnv, .wire 1 (.await 1000 none), 6⟩
    ((∀ out ∈ result.2, out.isStaged = false) ∧
      (SameState s result.1 ∨
        FailsOnMailbox Plain.text brokenChannelEnv s 1 (.await 1000 none) result.1)) ∧
      awaitOffset result.1 1 (.agent "alice") = 2 := by
  refine ⟨?_, by decide +kernel⟩
  have outcome := refused_request_changes_nothing
    (handle_eq_respond Plain.text (stateAfter Plain.text (BrokerState.new 0) memberCalls)
      ⟨brokenChannelEnv, .wire 1 (.await 1000 none), 6⟩)
    (show Out.reply 1 (.err .internal "internal mailbox error: io") ∈ _ by decide +kernel) rfl
  refine outcome.resolve_left ?_
  rintro ⟨_, _, _, impossible, _⟩
  cases impossible

def brokenEnv : BrokerEnv where
  drainFrom _ _ := .error (.internal "io")
  isAlive _ := true
  wallClock := 8

def parkedCalls : List Call :=
  [.wire 1 (.hello 3 "cli" none), .wire 1 (.register "alice" 11 none true (some .local)),
    .wire 1 (.await 1000 none)].map
    fun input => ⟨emptyEnv, input, 5⟩

def fromAlice : Value := Value.record ["from"] (Value.increasing_singleton _) [.str "agent:example/alice"]

def tenBytesEnv : BrokerEnv := { emptyEnv with drainFrom := fun _ _ => .ok ⟨[], 10⟩ }

def shrunkEnv : BrokerEnv :=
  { brokenEnv with
    drainFrom := fun mailbox _ => if mailbox.isChannel then .error (.internal "io") else .ok ⟨[], 2⟩ }

def tenBytesCalls : List Call :=
  [.wire 1 (.hello 3 "cli" none), .wire 1 (.register "alice" 11 none true (some .local)),
    .wire 1 (.join "#a" none)].map
    fun input => ⟨tenBytesEnv, input, 5⟩

/-- A connection with a parked `Await` sends to itself while its mailbox cannot be
read: it is told the error of the `Await`, and its send is carried out.  An `Await`
that fails on a channel moves the cursor of a shrunk mailbox back, past no
record. -/
theorem refusals_that_change_state :
    (let s := stateAfter Plain.text (BrokerState.new 0) parkedCalls
      let result := respond Plain.text s
        ⟨brokenEnv, .wire 1 (.send (.agent "alice") fromAlice), 6⟩
      (∃ trace, (brokerMachine Plain.text).Run trace s) ∧
        Out.reply 1 (.err .internal "internal mailbox error: io") ∈ result.2 ∧
        (∃ out ∈ result.2, out.isStaged = true) ∧ ¬SameState s result.1) ∧
      (let s := stateAfter Plain.text (BrokerState.new 0) tenBytesCalls
        let result := respond Plain.text s ⟨shrunkEnv, .wire 1 (.await 1000 none), 6⟩
        (∃ trace, (brokerMachine Plain.text).Run trace s) ∧
          Out.reply 1 (.err .internal "internal mailbox error: io") ∈ result.2 ∧
          awaitOffset s 1 (.agent "alice") = 10 ∧ awaitOffset result.1 1 (.agent "alice") = 2) := by
  refine ⟨⟨⟨_, run_calls Plain.text 0 parkedCalls⟩, by decide +kernel, by decide +kernel, ?_⟩,
    ⟨_, run_calls Plain.text 0 tenBytesCalls⟩, by decide +kernel, by decide +kernel,
    by decide +kernel⟩
  intro same
  have before : 1 ∈ (stateAfter Plain.text (BrokerState.new 0) parkedCalls).pendingAwaits := by
    decide +kernel
  rw [← same.pending] at before
  revert before
  decide +kernel

end Famp.Bus
