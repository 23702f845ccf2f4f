import Famp.Bus.Parked
import Famp.Data.Slot

/-!
# Every parked request is answered once

Runs of the broker, seen from one connection: its requests are parked, completed
and released.  A request that is parked in the place of another one takes its
answer away, and that is the only way in which a request goes without one.
-/

set_option autoImplicit false

namespace Famp.Bus

open Famp.Core Json Data Std

/-! ## When a request is parked -/

/-- Every read succeeds, and nothing past the cursors is to be delivered. -/
def NothingToDeliver (K : Text) (env : BrokerEnv) (s : BrokerState) (owner : ClientId)
    (filter : AwaitFilter) (mailboxes : List MailboxName) : Prop :=
  ∀ mailbox ∈ mailboxes, ∃ drained,
    env.drainFrom mailbox (awaitOffset s owner mailbox) = .ok drained ∧
      (readBatch K mailbox filter (awaiterIdentity s owner mailbox) (awaitOffset s owner mailbox)
        drained).envelopes = []

variable {K : Text} {env : BrokerEnv} {client : ClientId} {s s' : BrokerState} {outs : List Out}
  {now : Nat} {filter : AwaitFilter} {event first second : BrokerEvent}
  {earlier between later : List BrokerEvent}

theorem firstAnswer_eq_none_iff (K : Text) (env : BrokerEnv) (s : BrokerState)
    (client owner : ClientId) (filter : AwaitFilter) (mailboxes : List MailboxName) :
    firstAnswer K env s client owner filter mailboxes = none ↔
      NothingToDeliver K env s owner filter mailboxes := by
  rw [firstAnswer, List.findSome?_eq_none_iff, NothingToDeliver]
  refine forall₂_congr fun mailbox _ => ?_
  rw [drainAwaitBatch_eq]
  cases env.drainFrom mailbox (awaitOffset s owner mailbox) with
  | error error => simp [batchAnswer]
  | ok drained => simp [batchAnswer, withTrigger]

/-- The request resolves, and nothing is there for it. -/
def FindsNothing (K : Text) (env : BrokerEnv) (s : BrokerState) (client : ClientId)
    (filter : AwaitFilter) : Prop :=
  ∃ identity owner, resolveOpIdentity env s client = .ok identity ∧
    canonicalHolderId s identity = some owner ∧
      NothingToDeliver K env s owner filter (awaitMailboxes s owner identity)

theorem parks_iff_findsNothing {timeoutMs : Nat} {task : Option Uuid} (inv : StateInvariant s)
    (taken : handle K env s (.wire client (.await timeoutMs task)) now = some (s', outs)) :
    (∃ filter deadline, Out.parkAwait client filter deadline ∈ outs) ↔
      FindsNothing K env s client ((task.map AwaitFilter.task).getD .any) := by
  have quiet := touchActivity_quiet env s client
  constructor
  · rintro ⟨filter, deadline, parks⟩
    cases handle_handled taken with
    | refused same refusal => simp at parks
    | report change isReport =>
      obtain rfl := List.mem_singleton.mp parks
      cases isReport
    | await same resolved holder run =>
      rcases awaitLoop_outs run with ⟨kind, message, rfl⟩ | ⟨envelopes, mailbox, nextOffset, rfl⟩
      · simp at parks
      · simp at parks
    | @park _ owner _ _ identity _ _ parked same resolved holder request run =>
      subst same request
      have holder' := (quiet.canonicalHolderId_eq inv identity).symm.trans holder
      refine ⟨identity, owner, (quiet.resolveOpIdentity_eq env client).symm.trans resolved,
        holder', ?_⟩
      rw [← firstAnswer_eq_none_iff K env s client, ← awaitLoop_touched holder, run]
  · rintro ⟨identity, owner, resolved, holder, nothing⟩
    have resolved' := (quiet.resolveOpIdentity_eq env client).trans resolved
    have holder' := (quiet.canonicalHolderId_eq inv identity).trans holder
    rw [← firstAnswer_eq_none_iff K env s client, ← awaitLoop_touched holder'] at nothing
    rw [handle_await inv resolved, Option.some.injEq] at taken
    obtain rfl : _ = outs := congrArg Prod.snd taken
    simp only [awaitEnvelope, resolveAwaitOwner, resolved', holder', Option.getD_some]
    split
    next loop =>
      rw [loop] at nothing
      cases nothing
    next => exact ⟨_, _, List.mem_singleton_self _⟩

/-! ## The texts of internal errors -/

/-- A mailbox could not be read. -/
def ReadFails (env : BrokerEnv) : Prop :=
  ∃ mailbox since error, env.drainFrom mailbox since = .error error

def stampFailed : String := "failed to stamp mailbox record"

/-- Every internal error comes from a read that failed, or says that a record could
not be stamped. -/
def Explained (env : BrokerEnv) (outs : List Out) : Prop :=
  ∀ client text, Out.reply client (.err .internal text) ∈ outs → text = stampFailed ∨ ReadFails env

theorem explained_reply {reply : BusReply} {more : List Out}
    (other : ∀ text, reply ≠ .err .internal text)
    (silent : ∀ out ∈ more, ∀ client reply, out ≠ .reply client reply) :
    Explained env (.reply client reply :: more) := by
  intro receiver text staged
  rcases List.mem_cons.mp staged with same | staged
  · exact absurd (Out.reply.inj same).2.symm (other text)
  · exact absurd rfl (silent _ staged receiver _)

theorem explained_read {mailbox : MailboxName} {since : Nat} {error : MailboxErr}
    (fails : env.drainFrom mailbox since = .error error) (outs : List Out) : Explained env outs :=
  fun _ _ _ => Or.inr ⟨mailbox, since, error, fails⟩

/-- A woken request is told that nothing was found only if its mailbox cannot be
read: the trigger matches it, so a backlog that is read to its end is followed by
the trigger. -/
theorem turn_explained {mailbox : MailboxName} {reader : Option String} {trigger : Trigger}
    {cursor : Option Nat} {kind : BusErrorKind} {text : String} (trusted : trigger.origin = .local)
    (wanted : filterMatches filter trigger.envelope = true)
    (foreign : isSelfAuthored trigger.envelope reader = false)
    (refused : (turn K env mailbox reader trigger cursor filter).2 = .err kind text) :
    ReadFails env := by
  unfold turn at refused
  split at refused
  next error fails => exact ⟨mailbox, _, error, fails⟩
  next drained read =>
    exfalso
    dsimp only [withTrigger] at refused
    generalize readBatch K mailbox filter reader (cursor.getD 0) drained = batch at refused
    split at refused
    next all => simp [foldTrigger, trusted, foreign, wanted, wakeReply] at refused
    next stopped =>
      rw [Bool.not_eq_true] at stopped
      simp only [wakeReply, stopped, Bool.not_false, if_true] at refused
      split at refused <;> cases refused

section Handlers
variable (K : Text) (env : BrokerEnv) (s : BrokerState) (client : ClientId)

theorem explained_err {kind : BusErrorKind} (other : kind ≠ .internal) (message : String) :
    Explained env [err client kind message] :=
  explained_reply (fun _ same => other (BusReply.err.inj same).1) (by simp)

theorem register_explained (name : String) (pid : Nat) (cwd : Option String) (listen : Bool)
    (origin : Option Origin) :
    Explained env (register K env s client name pid cwd listen origin).2 := by
  unfold register
  split
  · exact explained_err env client (by simp) _
  · split
    · exact explained_err env client (by simp) _
    · split
      · exact explained_err env client (by simp) _
      · split
        next error fails => exact explained_read fails _
        next drained read =>
          dsimp only
          split
          · exact explained_err env client (by simp) _
          · split
            · exact explained_err env client (by simp) _
            · exact explained_reply (by simp) (by simp)

omit client in
theorem drainChannels_fails {canonical : ClientId} {name : String} : ∀ {channels : List String}
    {error : MailboxErr}, drainChannels K env s canonical name channels = .error error →
      ReadFails env
  | [], _, failed => by cases failed
  | channel :: rest, error, failed => by
    unfold drainChannels at failed
    dsimp only at failed
    split at failed
    next error fails => exact ⟨_, _, error, fails⟩
    next drained read =>
      split at failed
      next error fails => exact drainChannels_fails fails
      next => cases failed

theorem inbox_explained {since : Option Nat} (taken : inbox K env s client since = some (s', outs)) :
    Explained env outs := by
  unfold inbox at taken
  split at taken
  · cases taken
    exact explained_err env client (by simp) _
  · dsimp only at taken
    split at taken
    next error fails => exact explained_read fails _
    next agentDrained read =>
      split at taken
      · cases taken
      · split at taken
        next error fails => exact fun _ _ _ => Or.inr (drainChannels_fails K env s fails)
        next envelopes advances drains =>
          split at taken
          · cases taken
            exact explained_err env client (by simp) _
          · cases taken
            exact explained_reply (by simp) (by simp)

theorem awaitLoop_explained {owner : ClientId} {mailboxes : List MailboxName}
    (run : awaitLoop K env client owner filter mailboxes s = (s', some outs)) :
    Explained env outs := by
  obtain ⟨t, mailbox, ⟨error, failed, rfl⟩ | ⟨batch, -, rfl⟩⟩ := awaitLoop_answer run
  · obtain ⟨cause, read⟩ := drainAwaitBatch_error failed
    exact explained_read read _
  · exact explained_reply (by simp) (by simp)

theorem await_explained (timeoutMs : Nat) (task : Option Uuid) (now : Nat) :
    Explained env (awaitEnvelope K env s client timeoutMs task now).2 := by
  unfold awaitEnvelope
  split
  · exact explained_err env client (by simp) _
  · dsimp only
    split
    next run => exact awaitLoop_explained K env s client run
    next => exact fun _ _ staged => by simp at staged

theorem join_explained (channel : String) (role : Option String) :
    Explained env (join K env s client channel role).2 := by
  unfold join
  split
  · exact explained_err env client (by simp) _
  · dsimp only
    split
    next error fails => exact explained_read fails _
    next drained read =>
      split
      · exact explained_err env client (by simp) _
      · exact explained_reply (by simp) (by simp)

theorem slot_explained {op : String} {out : Out} (refused : slotOwner s client op = .error out) :
    Explained env [out] := by
  obtain ⟨message, rfl⟩ := slotOwner_error s client refused
  exact explained_err env client (by simp) message

theorem send_explained (inv : StateInvariant s) (target : Target) (envelope : Value) :
    Explained env (send K env s client target envelope).2 := by
  cases resolved : resolveOpIdentity env s client with
  | error kind =>
    simp only [send, resolved]
    exact explained_err env client (by simp) _
  | ok identity =>
    by_cases own : isSelfAuthored envelope (some identity) = true
    · cases canonical : K.canonicalize envelope with
      | error error =>
        simp only [send, resolved, own, encodeEnvelope, canonical]
        exact explained_err env client (by simp) _
      | ok line =>
        by_cases large : maxFrameBytes < line.length
        · simp only [send, resolved, own, encodeEnvelope, canonical, large, if_true]
          exact explained_err env client (by simp) _
        · have small := Nat.le_of_not_lt large
          cases stamps : stampLine K line (clientOrigin s client) with
          | error error =>
            rw [send_eq resolved own canonical small]
            cases target <;> simp only [sendAgent, sendChannel, stamps] <;>
              exact fun _ _ staged => Or.inl
                (BusReply.err.inj (Out.reply.inj (List.mem_singleton.mp staged)).2).2
          | ok stamped =>
            obtain ⟨-, rows, outs⟩ := send_wakes target inv resolved own canonical small stamps
            obtain ⟨answers, woken, -, replies⟩ := wakes_completions K env target.mailbox
              ⟨clientOrigin s client, envelope, stamped.length⟩ s (recipients s envelope target)
            rw [outs, woken]
            intro receiver text staged
            simp only [List.cons_append, List.mem_cons, reduceCtorEq, List.mem_append,
              List.mem_flatMap, completion, Out.reply.injEq, List.not_mem_nil, or_false,
              false_or, and_false] at staged
            obtain ⟨answer, member, rfl, refusal⟩ := staged
            obtain ⟨name, among, cursor, filter, waits, reply⟩ := replies answer member
            exact Or.inr (turn_explained waits.trusted waits.wanted (foreign_of_recipient among)
              (reply.symm.trans refusal.symm))
    · simp only [send, resolved, own]
      exact explained_err env client (by simp) _

end Handlers

theorem hello_explained (env : BrokerEnv) (s : BrokerState) (client : ClientId) (busProto : Nat)
    (bindAs : Option String) : Explained env (hello env s client busProto bindAs).2 := by
  unfold hello
  split
  · exact explained_reply (by simp) (by simp)
  · split
    · split <;> exact explained_reply (by simp) (by simp)
    · exact explained_reply (by simp) (by simp)

theorem explained_of_some {result : BrokerState × List Out} (taken : some result = some (s', outs))
    (explained : Explained env result.2) : Explained env outs := by
  cases taken
  exact explained

theorem dispatch_explained {msg : BusMessage} (inv : StateInvariant s)
    (taken : dispatch K env s client now msg = some (s', outs)) : Explained env outs := by
  cases msg with
  | inbox since includeTerminal => exact inbox_explained K env s client taken
  | hello busProto label bindAs =>
    exact explained_of_some taken (hello_explained env s client busProto bindAs)
  | register name pid cwd listen origin =>
    exact explained_of_some taken (register_explained K env s client name pid cwd listen origin)
  | send target envelope =>
    exact explained_of_some taken (send_explained K env s client inv target envelope)
  | await timeoutMs task =>
    exact explained_of_some taken (await_explained K env s client timeoutMs task now)
  | join channel role => exact explained_of_some taken (join_explained K env s client channel role)
  | leave channel =>
    refine explained_of_some taken ?_
    unfold leave
    split
    · exact explained_err env client (by simp) _
    · exact explained_reply (by simp) (by simp)
  | sessions => exact explained_of_some taken (explained_reply (by simp) (by simp))
  | whoami => exact explained_of_some taken (explained_reply (by simp) (by simp))
  | inspect kind =>
    exact explained_of_some taken fun _ _ staged => by simp at staged
  | setListen listen =>
    refine explained_of_some taken ?_
    unfold setListen
    split
    next out refused => exact slot_explained env s client refused
    next => exact explained_reply (by simp) (by simp)
  | setWakeAddr wakeAddr =>
    refine explained_of_some taken ?_
    unfold setWakeAddr
    split
    next out refused => exact slot_explained env s client refused
    next => exact explained_reply (by simp) (by simp)

theorem handle_explained {input : BrokerInput} (inv : StateInvariant s)
    (taken : handle K env s input now = some (s', outs)) : Explained env outs := by
  cases input with
  | disconnect client =>
    exact explained_of_some taken fun _ _ staged => nomatch disconnect_outs s client _ staged
  | tick =>
    refine explained_of_some taken ?_
    intro _ _ staged
    rcases tick_outs env s now _ staged with ended | expires
    · cases ended
    · cases expires
  | wire client msg =>
    simp only [handle, handleWire] at taken
    split at taken
    · cases taken
      exact explained_err env client (by simp) _
    · split at taken
      · cases taken
        exact explained_err env client (by simp) _
      · refine dispatch_explained ?_ taken
        split
        · exact inv
        · exact inv.of_quiet (touchActivity_quiet env s client)

/-! ## Runs -/

def Parks (client : ClientId) (event : BrokerEvent) (parked : ParkedAwait) : Prop :=
  Out.parkAwait client parked.filter parked.deadline ∈ event.output

def Completes (client : ClientId) (event : BrokerEvent) : Prop :=
  Out.unparkAwait client ∈ event.output

def Releases (client : ClientId) (event : BrokerEvent) : Prop :=
  Out.releaseClient client ∈ event.output

theorem attended_of_occurs (occurs : (brokerMachine K).Occurs event) :
    Attended event.before event.after event.input.input event.input.now event.output := by
  obtain ⟨earlier, run, taken⟩ := occurs
  exact (handle_handled taken).attended (StateInvariant.of_run run)

theorem Attended.emptied {input : BrokerInput} (attended : Attended s s' input now outs)
    (unparks : Out.unparkAwait client ∈ outs) :
    client ∈ s.pendingAwaits ∧ s'.pendingAwaits[client]? = none := by
  obtain ⟨answers, completions⟩ := attended.completions
  obtain ⟨answer, member, rfl⟩ := List.mem_map.mp ((completions.mem_iff client).mp unparks)
  refine ⟨completions.before answer member, ?_⟩
  rw [← Option.not_isSome_iff_eq_none, ← ExtTreeMap.mem_iff_isSome_getElem?]
  exact completions.after answer member

/-- The place of the parked request of a connection. -/
def parkingPlace (K : Text) (client : ClientId) : Slot (brokerMachine K) ParkedAwait where
  content s := s.pendingAwaits[client]?
  fills := Parks client
  empties event := Completes client event ∨ Releases client event
  start s initial := by
    obtain ⟨startedAt, rfl⟩ := initial
    simp [BrokerState.new]
  filled event parked occurs parks :=
    ((attended_of_occurs occurs).parks client parked.filter parked.deadline parks).1
  emptied event occurs gone := by
    rcases gone with completes | releases
    · exact ((attended_of_occurs occurs).emptied completes).2
    · exact (attended_of_occurs occurs).releases client releases
  kept event occurs unparked ungone :=
    (attended_of_occurs occurs).keeps client (fun filter deadline => unparked ⟨filter, deadline⟩)
      (fun completes => ungone (Or.inl completes)) fun releases => ungone (Or.inr releases)

/-- Over the whole run the requests of every connection are parked and completed in
turn, and a request whose deadline has passed at a tick has been completed, or its
connection released. -/
structure AnsweredOnce (trace : List BrokerEvent) : Prop where
  /-- A completion is one reply with one release, to a connection that was parked
  before the step and is not parked after it. -/
  completions : ∀ event ∈ trace, ∃ answers,
    Completions event.before event.after event.input.input event.output answers
  /-- No request is completed twice. -/
  single : ∀ client earlier between later first second,
    trace = earlier ++ first :: between ++ second :: later →
      Completes client first → Completes client second →
        ∃ event ∈ between, ∃ parked, Parks client event parked
  /-- No request goes without completion, neither because another one is parked nor
  because its deadline passes. -/
  answered : ∀ client parked earlier between later first second,
    trace = earlier ++ first :: between ++ second :: later → Parks client first parked →
      ((∃ other, Parks client second other) ∨
        second.input.input = .tick ∧ parked.deadline ≤ second.input.now) →
          ∃ event ∈ between ++ [second], Completes client event ∨ Releases client event
  /-- A wake that produces nothing is reported only where a read failed. -/
  explained : ∀ event ∈ trace, ∀ client,
    Out.reply client (.err .internal "await wake produced no matching envelopes") ∈ event.output →
      ReadFails event.input.env

/-- A request of a connection with a parked request that is parked in its place. -/
def Swallows (K : Text) (event : BrokerEvent) : Prop :=
  ∃ client timeoutMs task, event.input.input = .wire client (.await timeoutMs task) ∧
    client ∈ event.before.pendingAwaits ∧
      FindsNothing K event.input.env event.before client ((task.map AwaitFilter.task).getD .any)

theorem parks_iff (occurs : (brokerMachine K).Occurs event) (client : ClientId) :
    (∃ parked, Parks client event parked) ↔ ∃ timeoutMs task,
      event.input.input = .wire client (.await timeoutMs task) ∧
        FindsNothing K event.input.env event.before client
          ((task.map AwaitFilter.task).getD .any) := by
  have attended := attended_of_occurs occurs
  obtain ⟨earlier, run, taken⟩ := occurs
  have inv := StateInvariant.of_run run
  have handled_of : ∀ timeoutMs task, event.input.input = .wire client (.await timeoutMs task) →
      handle K event.input.env event.before (.wire client (.await timeoutMs task))
        event.input.now = some (event.after, event.output) := by
    intro timeoutMs task input
    rw [← input]
    exact taken
  constructor
  · rintro ⟨parked, parks⟩
    obtain ⟨timeoutMs, task, input⟩ := (attended.parks client _ _ parks).2
    exact ⟨timeoutMs, task, input,
      (parks_iff_findsNothing inv (handled_of timeoutMs task input)).mp ⟨_, _, parks⟩⟩
  · rintro ⟨timeoutMs, task, input, finds⟩
    obtain ⟨filter, deadline, parks⟩ :=
      (parks_iff_findsNothing inv (handled_of timeoutMs task input)).mpr finds
    exact ⟨⟨filter, deadline⟩, parks⟩

theorem swallows_iff (occurs : (brokerMachine K).Occurs event) :
    Swallows K event ↔ ∃ client, client ∈ event.before.pendingAwaits ∧
      ∃ parked, Parks client event parked := by
  constructor
  · rintro ⟨client, timeoutMs, task, input, waits, finds⟩
    exact ⟨client, waits, (parks_iff occurs client).mpr ⟨timeoutMs, task, input, finds⟩⟩
  · rintro ⟨client, waits, parks⟩
    obtain ⟨timeoutMs, task, input, finds⟩ := (parks_iff occurs client).mp parks
    exact ⟨client, timeoutMs, task, input, waits, finds⟩

section Run
variable {K : Text} {trace : List BrokerEvent} {s : BrokerState}

theorem run_before_second (run : (brokerMachine K).Run trace s)
    (split : trace = earlier ++ first :: between ++ second :: later) :
    (brokerMachine K).Run (earlier ++ first :: between) second.before ∧
      (brokerMachine K).Occurs second := by
  obtain ⟨before, taken⟩ := run.split split
  exact ⟨before, _, before, taken⟩

theorem single_of_run (run : (brokerMachine K).Run trace s)
    (split : trace = earlier ++ first :: between ++ second :: later) (one : Completes client first)
    (two : Completes client second) : ∃ event ∈ between, ∃ parked, Parks client event parked := by
  obtain ⟨before, occurs⟩ := run_before_second run split
  obtain ⟨parked, stored⟩ :=
    (mem_iff_lookup _ _).mp ((attended_of_occurs occurs).emptied two).1
  -- the request that the second event completes was parked after the first one
  obtain ⟨event, member, parks⟩ :=
    (parkingPlace K client).filled_after before (Or.inl one) stored
  exact ⟨event, member, parked, parks⟩

theorem answered_of_run (run : (brokerMachine K).Run trace s)
    (fair : ∀ event ∈ trace, ¬Swallows K event) {parked : ParkedAwait}
    (split : trace = earlier ++ first :: between ++ second :: later)
    (parks : Parks client first parked) (ends : (∃ other, Parks client second other) ∨
      second.input.input = .tick ∧ parked.deadline ≤ second.input.now) :
    ∃ event ∈ between ++ [second], Completes client event ∨ Releases client event := by
  by_contra unanswered
  simp only [not_exists, not_and] at unanswered
  obtain ⟨before, occurs⟩ := run_before_second run split
  have inside : ∀ event ∈ between, event ∈ trace := by
    intro event member
    rw [split]
    exact List.mem_append_left _ (List.mem_append_right _ (List.mem_cons_of_mem _ member))
  have waiting : second.before.pendingAwaits[client]? = some parked := by
    refine (parkingPlace K client).content_of_filled before rfl parks ?_ ?_
    · exact fun event member => unanswered event (List.mem_append_left _ member)
    · intro event member held other stored again
      refine fair event (inside event member)
        ((swallows_iff (run.occurs (inside event member))).mpr ⟨client, ?_, other, again⟩)
      exact (mem_iff_lookup _ _).mpr ⟨held, stored⟩
  have last := unanswered second (List.mem_append_right _ (List.mem_singleton_self _))
  rcases ends with again | ⟨isTick, passed⟩
  · refine fair second ?_ ((swallows_iff occurs).mpr ⟨client, ?_, again⟩)
    · rw [split]
      exact List.mem_append_right _ (List.mem_cons_self ..)
    · exact (mem_iff_lookup _ _).mpr ⟨parked, waiting⟩
  · exact last ((attended_of_occurs occurs).expires isTick client parked waiting passed)

theorem not_swallows_of_answered (run : (brokerMachine K).Run trace s)
    (answered : AnsweredOnce trace) : ∀ event ∈ trace, ¬Swallows K event := by
  intro event member swallows
  obtain ⟨client, waits, other, parks⟩ := (swallows_iff (run.occurs member)).mp swallows
  obtain ⟨parked, stored⟩ := (mem_iff_lookup _ _).mp waits
  obtain ⟨before, later, split⟩ := List.append_of_mem member
  obtain ⟨runBefore, taken⟩ := run.split split
  -- the request that is swallowed was parked by an earlier event
  obtain ⟨earlier, first, between, rfl, parkedFirst, skips⟩ :=
    (parkingPlace K client).filled_of_content runBefore stored
  obtain ⟨gone, among, ends⟩ := answered.answered client parked earlier between later first event
    split parkedFirst (Or.inl ⟨other, parks⟩)
  rcases List.mem_append.mp among with among | among
  · exact (skips gone among).2 ends
  · obtain rfl := List.mem_singleton.mp among
    exact (parkingPlace K client).not_empties_of_fills (run.occurs member) parks ends

/-- In every run the parked requests are answered once each exactly if no request
is parked in the place of another one. -/
theorem awaits_answered_once_iff (run : (brokerMachine K).Run trace s) :
    AnsweredOnce trace ↔ ∀ event ∈ trace, ¬Swallows K event := by
  constructor
  · exact not_swallows_of_answered run
  · intro fair
    exact {
      completions := fun event member => (attended_of_occurs (run.occurs member)).completions
      single := fun _ _ _ _ _ _ split one two => single_of_run run split one two
      answered := fun _ _ _ _ _ _ _ split parks ends => answered_of_run run fair split parks ends
      explained := fun event member client staged => by
        obtain ⟨earlier, before, taken⟩ := run.occurs member
        rcases handle_explained (StateInvariant.of_run before) taken client _ staged with same | fails
        · exact absurd same (by decide)
        · exact fails }

end Run

theorem waitingCalls_answered_once :
    AnsweredOnce (eventsOf Plain.text (BrokerState.new 0)
      (waitingCalls ++ [⟨emptyEnv, .tick, 2000⟩])) := by
  refine (awaits_answered_once_iff (run_calls Plain.text 0 _)).mpr ?_
  rintro event member ⟨client, timeoutMs, task, input, waits, -⟩
  simp only [waitingCalls, List.map_cons, List.map_nil, List.cons_append, List.nil_append, eventsOf,
    List.mem_cons, List.not_mem_nil, or_false] at member
  rcases member with rfl | rfl | rfl | rfl | rfl | rfl
  case inr.inr.inl =>
    obtain ⟨rfl, -⟩ := BrokerInput.wire.inj input
    exact absurd waits (by decide +kernel)
  all_goals cases input

/-- A connection asks for one task and then for another, and the first deadline
passes. -/
def impatientCalls : List Call :=
  [⟨emptyEnv, .wire 1 (.hello 3 "cli" none), 5⟩,
    ⟨emptyEnv, .wire 1 (.register "alice" 11 none true (some .local)), 5⟩,
    ⟨emptyEnv, .wire 1 (.await 1000 (some ⟨1⟩)), 5⟩,
    ⟨emptyEnv, .wire 1 (.await 5000 (some ⟨2⟩)), 6⟩,
    ⟨emptyEnv, .tick, 2000⟩, ⟨emptyEnv, .tick, 6000⟩]

theorem impatientCalls_swallowed :
    let trace := eventsOf Plain.text (BrokerState.new 0) impatientCalls
    (brokerMachine Plain.text).Run trace (stateAfter Plain.text (BrokerState.new 0) impatientCalls) ∧
      (trace.drop 2).map Event.output = [[.parkAwait 1 (.task ⟨1⟩) 1005],
        [.parkAwait 1 (.task ⟨2⟩) 5006], [], [.reply 1 .awaitTimeout, .unparkAwait 1]] ∧
      ¬AnsweredOnce trace := by
  intro trace
  refine ⟨run_calls Plain.text 0 impatientCalls, by decide +kernel, ?_⟩
  intro once
  -- from the first request to the tick after its deadline nothing is completed
  obtain ⟨event, member, ends⟩ := once.answered 1 ⟨.task ⟨1⟩, 1005⟩ [_, _] [_] [_] _ _ rfl
    (by unfold Parks; decide +kernel) (Or.inr ⟨rfl, by decide⟩)
  simp only [List.singleton_append, List.mem_cons, List.not_mem_nil, or_false] at member
  rcases member with rfl | rfl
  · exact absurd ends (by unfold Completes Releases; decide +kernel)
  · exact absurd ends (by unfold Completes Releases; decide +kernel)

end Famp.Bus
