import Famp.Bus.DrainWalk

/-!
# Await

Parking and draining of `Await` requests, the per-mailbox cursors they move, and
the wake of parked requests by a send.  Cursors live on the connection that
holds the name, so a proxy and its holder share them.
-/

set_option autoImplicit false

namespace Famp.Bus

open Famp.Core Json

def err (client : ClientId) (kind : BusErrorKind) (message : String) : Out :=
  .reply client (.err kind message)

def awaitBatchCap : Nat := 50

/-- 23 hours. -/
def maxAwaitMs : Nat := 23 * 60 * 60 * 1000

structure AwaitBatch where
  mailbox : MailboxName
  envelopes : List StampedEnvelope
  nextOffset : Nat
  fullyDrained : Bool

/-- The envelope of the send that wakes a waiter, with its provenance and the
length of the line that will be appended for it. -/
structure Trigger where
  origin : Origin
  envelope : Value
  lineLen : Nat

def resolveAwaitOwner (env : BrokerEnv) (s : BrokerState) (client : ClientId) :
    Except BusErrorKind (String × ClientId) :=
  match resolveOpIdentity env s client with
  | .error kind => .error kind
  | .ok identity => .ok (identity, (canonicalHolderId s identity).getD client)

def awaitMailboxes (s : BrokerState) (owner : ClientId) (identity : String) : List MailboxName :=
  .agent identity ::
    match s.clients[owner]? with
    | none => []
    | some state => state.joined.toList.map .channel

def awaitOffset (s : BrokerState) (owner : ClientId) (mailbox : MailboxName) : Nat :=
  (s.clients[owner]?.bind fun state => state.awaitOffsets[mailbox]?).getD 0

def setAwaitOffset (s : BrokerState) (owner : ClientId) (mailbox : MailboxName) (offset : Nat) :
    BrokerState :=
  s.updateClient owner fun state =>
    { state with awaitOffsets := state.awaitOffsets.insert mailbox offset }

/-- On a channel the reader does not receive its own posts. -/
def awaiterIdentity (s : BrokerState) (owner : ClientId) (mailbox : MailboxName) : Option String :=
  if mailbox.isChannel then
    s.clients[owner]?.bind fun state => (effectiveIdentity state).toOption
  else none

/-- The trigger is folded into a walk that accounted for the whole drain.  The
line is not in the mailbox yet: its end is computed from where the walk ended. -/
def foldTrigger (filter : AwaitFilter) (reader : Option String) (batch : AwaitBatch)
    (trigger : Trigger) : AwaitBatch :=
  let stop := batch.nextOffset + trigger.lineLen + jsonlRecordTerminatorLen
  if trigger.origin != .local || isSelfAuthored trigger.envelope reader then
    { batch with nextOffset := stop }
  else if filterMatches filter trigger.envelope then
    { batch with
      envelopes := batch.envelopes ++ [⟨trigger.origin, trigger.envelope⟩], nextOffset := stop }
  else batch

def drainAwaitBatch (K : Text) (env : BrokerEnv) (s : BrokerState) (owner : ClientId)
    (mailbox : MailboxName) (filter : AwaitFilter) (trigger : Option Trigger) :
    Except (BusErrorKind × String) AwaitBatch :=
  let since := awaitOffset s owner mailbox
  match env.drainFrom mailbox since with
  | .error error => .error (.internal, error.toText)
  | .ok drained =>
    let reader := awaiterIdentity s owner mailbox
    let outcome := walk K since drained
      { filter := filter, skipSelfAuthored := reader, requireLocalOrigin := true
        cap := some (.delivered awaitBatchCap) }
    let batch : AwaitBatch :=
      ⟨mailbox, stamp outcome.delivered, outcome.nextOffset, outcome.fullyDrained⟩
    match trigger with
    | some trigger =>
      if outcome.fullyDrained then .ok (foldTrigger filter reader batch trigger) else .ok batch
    | none => .ok batch

/-- The mailboxes of an unparked `Await`, one after the other: the first batch
that is not empty is the reply, and a failing read ends the request. -/
def awaitLoop (K : Text) (env : BrokerEnv) (client owner : ClientId) (filter : AwaitFilter) :
    List MailboxName → BrokerState → BrokerState × Option (List Out)
  | [], s => (s, none)
  | mailbox :: rest, s =>
    match drainAwaitBatch K env s owner mailbox filter none with
    | .error (kind, message) => (s, some [err client kind message])
    | .ok batch =>
      let s' :=
        if batch.nextOffset ≠ awaitOffset s owner mailbox then
          setAwaitOffset s owner mailbox batch.nextOffset
        else s
      if batch.envelopes.isEmpty then awaitLoop K env client owner filter rest s'
      else
        (s', some [.reply client (.awaitOk batch.envelopes batch.mailbox batch.nextOffset)])

def awaitEnvelope (K : Text) (env : BrokerEnv) (s : BrokerState) (client : ClientId)
    (timeoutMs : Nat) (task : Option Uuid) (now : Nat) : BrokerState × List Out :=
  match resolveAwaitOwner env s client with
  | .error _ => (s, [err client .notRegistered "client is not registered"])
  | .ok (identity, owner) =>
    let filter := (task.map AwaitFilter.task).getD .any
    match awaitLoop K env client owner filter (awaitMailboxes s owner identity) s with
    | (s', some outs) => (s', outs)
    | (s', none) =>
      let deadline := now + min timeoutMs maxAwaitMs
      ({ s' with pendingAwaits := s'.pendingAwaits.insert client ⟨filter, deadline⟩ },
        [.parkAwait client filter deadline])

def awaitReplyForMailbox (K : Text) (env : BrokerEnv) (s : BrokerState) (client : ClientId)
    (mailbox : MailboxName) (filter : AwaitFilter) (trigger : Option Trigger) :
    BrokerState × BusReply :=
  match resolveAwaitOwner env s client with
  | .error _ => (s, .err .notRegistered "client is not registered")
  | .ok (_, owner) =>
    match drainAwaitBatch K env s owner mailbox filter trigger with
    | .error (kind, message) => (s, .err kind message)
    | .ok batch =>
      (setAwaitOffset s owner mailbox batch.nextOffset,
        if !batch.envelopes.isEmpty then
          .awaitOk batch.envelopes batch.mailbox batch.nextOffset
        else if !batch.fullyDrained then .awaitTimeout
        else .err .internal "await wake produced no matching envelopes")

def wokenWaiterIsCanonicalHolder (env : BrokerEnv) (s : BrokerState) (name : String)
    (waiters : List ClientId) : Bool :=
  waiters.any fun waiting =>
    match resolveAwaitOwner env s waiting with
    | .ok (identity, owner) => identity == name && owner == waiting
    | .error _ => false

/-- A parked request of the connection that holds `name`, or of a proxy of it. -/
def waitsFor (env : BrokerEnv) (s : BrokerState) (name : String) (state : ClientState) : Bool :=
  match state.name, state.bindAs with
  | some held, _ => held == name
  | none, some bound => bound == name && proxyHolderAlive env s name
  | none, none => false

def waitingClientsForName (env : BrokerEnv) (s : BrokerState) (name : String) (envelope : Value)
    (origin : Origin) : List ClientId :=
  if origin != .local then []
  else
    s.pendingAwaits.toList.filterMap fun entry =>
      match s.clients[entry.1]? with
      | none => none
      | some state =>
        if state.connected && waitsFor env s name state && filterMatches entry.2.filter envelope
        then some entry.1 else none

def wakeWaiter (K : Text) (env : BrokerEnv) (mailbox : MailboxName) (trigger : Trigger)
    (acc : BrokerState × List Out) (waiting : ClientId) : BrokerState × List Out :=
  match acc.1.pendingAwaits[waiting]? with
  | none => acc
  | some parked =>
    let unparked := { acc.1 with pendingAwaits := acc.1.pendingAwaits.erase waiting }
    let (s', reply) :=
      awaitReplyForMailbox K env unparked waiting mailbox parked.filter (some trigger)
    (s', acc.2 ++ [.reply waiting reply, .unparkAwait waiting])

end Famp.Bus
