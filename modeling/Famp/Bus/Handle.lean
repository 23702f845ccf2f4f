import Famp.Bus.Awaiting

/-!
# The broker's transition function

`handle` takes one input to the next state and the staged effects.  The result
is `none` where the source would panic: an `Inbox` whose name resolves but is
held by no connection.
-/

set_option autoImplicit false

namespace Famp.Bus

open Famp.Core Json Std

/-! ## Session settings -/

/-- The shared guard of `SetListen` and `SetWakeAddr`: only the connection that
holds a name may change its slot. -/
def slotOwner (s : BrokerState) (client : ClientId) (op : String) :
    Except Out ClientState :=
  match s.clients[client]? with
  | none => .error (err client .notRegistered "client is not registered")
  | some state =>
    if !state.connected then .error (err client .notRegistered "client is not registered")
    else if state.bindAs.isSome && state.name.isNone then
      .error (err client .notRegistered ("proxy (bind_as) connection cannot " ++ op))
    else if state.name.isNone then
      .error (err client .notRegistered "client is not registered")
    else .ok state

def setListen (env : BrokerEnv) (s : BrokerState) (client : ClientId) (listen : Bool) :
    BrokerState × List Out :=
  match slotOwner s client "set_listen" with
  | .error reply => (s, [reply])
  | .ok _ =>
    (s.updateClient client fun state =>
        { state with listenMode := listen, lastActivity := env.wallClock },
      [.reply client (.setListenOk listen)])

def setWakeAddr (env : BrokerEnv) (s : BrokerState) (client : ClientId)
    (wakeAddr : Option String) : BrokerState × List Out :=
  match slotOwner s client "set_wake_addr" with
  | .error reply => (s, [reply])
  | .ok _ =>
    let stored := wakeAddr.filter wakeAddrValid
    (s.updateClient client fun state =>
        { state with wakeAddr := stored, lastActivity := env.wallClock },
      [.reply client (.setWakeAddrOk stored)])

def touchActivity (env : BrokerEnv) (s : BrokerState) (client : ClientId) : BrokerState :=
  let target :=
    match s.clients[client]? with
    | none => none
    | some state =>
      if !state.connected then none
      else if state.name.isSome then some client
      else state.bindAs.bind (canonicalHolderId s)
  match target with
  | none => s
  | some target => s.updateClient target fun state => { state with lastActivity := env.wallClock }

/-! ## Hello and Register -/

def freshClient (env : BrokerEnv) (bindAs : Option String) : ClientState :=
  { handshaked := true, name := none, pid := none, joined := ∅, connected := true
    bindAs := bindAs, cwd := none, listenMode := false, wakeAddr := none, origin := .unknown
    registeredAt := env.wallClock, lastActivity := env.wallClock
    awaitOffsets := ∅, inboxOffsets := ∅ }

def hello (env : BrokerEnv) (s : BrokerState) (client : ClientId) (busProto : Nat)
    (bindAs : Option String) : BrokerState × List Out :=
  if busProto ≠ busProtoVersion then
    (s, [.reply client (.helloErr .brokerProtoMismatch
      ("client bus_proto=" ++ toString busProto ++
        " is not supported by this broker; expected bus_proto=" ++ toString busProtoVersion))])
  else
    match bindAs with
    | some name =>
      if proxyHolderAlive env s name then
        ({ s with clients := s.clients.insert client (freshClient env (some name)) },
          [.reply client (.helloOk busProtoVersion)])
      else
        (s, [.reply client (.helloErr .notRegistered
          ("bind_as identity '" ++ name ++ "' is not registered"))])
    | none =>
      ({ s with clients := s.clients.insert client (freshClient env none) },
        [.reply client (.helloOk busProtoVersion)])

def connectedNames (s : BrokerState) : List String :=
  s.clients.toList.filterMap fun entry => if entry.2.connected then entry.2.name else none

def nameTaken (s : BrokerState) (client : ClientId) (name : String) : Bool :=
  s.clients.toList.any fun entry => entry.1 != client && holds name entry.2

def registerClient (env : BrokerEnv) (name : String) (pid : Nat) (cwd : Option String)
    (listen : Bool) (origin : Option Origin) (nextOffset : Nat) (state : ClientState) :
    ClientState :=
  { state with
    name := some name, pid := some pid, connected := true, cwd := cwd, listenMode := listen
    origin := origin.getD .default, registeredAt := env.wallClock, lastActivity := env.wallClock
    awaitOffsets := state.awaitOffsets.insert (.agent name) nextOffset }

def register (K : Text) (env : BrokerEnv) (s : BrokerState) (client : ClientId) (name : String)
    (pid : Nat) (cwd : Option String) (listen : Bool) (origin : Option Origin) :
    BrokerState × List Out :=
  if pid = 0 then
    (s, [err client .envelopeInvalid "pid 0 is not a valid process identifier"])
  else if s.clients[client]?.any fun state => state.bindAs.isSome then
    (s, [err client .notRegistered "proxy (bind_as) connection cannot register"])
  else if nameTaken s client name then (s, [err client .nameTaken "name already registered"])
  else
    match env.drainFrom (.agent name) 0 with
    | .error error => (s, [err client .internal error.toText])
    | .ok drained =>
      let reply := BusReply.registerOk name (decodeLines K 0 drained) (connectedNames s)
      match encodeFrame K reply.toValue with
      | .error error =>
        (s, [err client .envelopeTooLarge
          ("RegisterOk exceeds 16 MiB reply-frame limit: " ++ error.toText)])
      | .ok _ =>
        match s.clients[client]? with
        | none => (s, [err client .brokerProtoMismatch "Hello required as first frame"])
        | some _ =>
          (s.updateClient client
              (registerClient env name pid cwd listen origin drained.nextOffset),
            [.reply client reply, .advanceCursor (.agent name) drained.nextOffset])

/-! ## Send -/

def clientOrigin (s : BrokerState) (client : ClientId) : Origin :=
  match s.clients[client]? with
  | none => .unknown
  | some state =>
    if state.name.isSome then state.origin
    else
      match state.bindAs with
      | none => .unknown
      | some bound =>
        (((canonicalHolderId s bound).bind fun id => s.clients[id]?).map
          ClientState.origin).getD .unknown

def encodeEnvelope (K : Text) (envelope : Value) (client : ClientId) : Except Out Bytes :=
  match K.canonicalize envelope with
  | .error error => .error (err client .envelopeInvalid error)
  | .ok line =>
    if maxFrameBytes < line.length then
      .error (err client .envelopeTooLarge "envelope too large")
    else .ok line

def taskIdFrom (envelope : Value) : Uuid :=
  (((envelope.get? "id").bind Value.asStr?).bind Uuid.parseStr).getD .nil

def recipientWakeAddr (s : BrokerState) (name : String) (senderOrigin : Origin) : Option String :=
  if senderOrigin != .local then none
  else
    match (canonicalHolderId s name).bind fun id => s.clients[id]? with
    | none => none
    | some state => if state.listenMode then state.wakeAddr else none

def sendAgent (K : Text) (env : BrokerEnv) (s : BrokerState) (sender : ClientId) (name : String)
    (envelope : Value) (line : Bytes) : BrokerState × List Out :=
  let origin := clientOrigin s sender
  let waiters := waitingClientsForName env s name envelope origin
  let wakeAddr :=
    if wokenWaiterIsCanonicalHolder env s name waiters then none
    else recipientWakeAddr s name origin
  match stampLine K line origin with
  | .error _ => (s, [err sender .internal "failed to stamp mailbox record"])
  | .ok stamped =>
    let woken := waiters.foldl (wakeWaiter K env (.agent name) ⟨origin, envelope, stamped.length⟩)
      (s, [.appendMailbox (.agent name) line origin])
    (woken.1, woken.2 ++ [.reply sender (.sendOk (taskIdFrom envelope)
      [⟨.agent name, true, !waiters.isEmpty, wakeAddr⟩])])

/-- The waiters of one member are chosen in the state that the wakes of the
members before it have left. -/
def wakeMember (K : Text) (env : BrokerEnv) (channel : String) (trigger : Trigger)
    (acc : BrokerState × List Out) (member : String) : BrokerState × List Out :=
  if isSelfAuthored trigger.envelope (some member) then acc
  else
    (waitingClientsForName env acc.1 member trigger.envelope trigger.origin).foldl
      (wakeWaiter K env (.channel channel) trigger) acc

def sendChannel (K : Text) (env : BrokerEnv) (s : BrokerState) (sender : ClientId) (name : String)
    (envelope : Value) (line : Bytes) : BrokerState × List Out :=
  let members := (s.channels[name]?.getD ∅).toList
  let origin := clientOrigin s sender
  match stampLine K line origin with
  | .error _ => (s, [err sender .internal "failed to stamp mailbox record"])
  | .ok stamped =>
    let woken := members.foldl (wakeMember K env name ⟨origin, envelope, stamped.length⟩)
      (s, [.appendMailbox (.channel name) line origin])
    (woken.1, woken.2 ++ [.reply sender (.sendOk (taskIdFrom envelope)
      (members.map fun member => ⟨.agent member, true, false, none⟩))])

def send (K : Text) (env : BrokerEnv) (s : BrokerState) (client : ClientId) (target : Target)
    (envelope : Value) : BrokerState × List Out :=
  match resolveOpIdentity env s client with
  | .error _ => (s, [err client .notRegistered "client is not registered"])
  | .ok identity =>
    if !isSelfAuthored envelope (some identity) then
      (s, [err client .envelopeInvalid
        "envelope 'from' does not match the authenticated identity"])
    else
      match encodeEnvelope K envelope client with
      | .error reply => (s, [reply])
      | .ok line =>
        match target with
        | .agent name => sendAgent K env s client name envelope line
        | .channel name => sendChannel K env s client name envelope line

/-! ## Inbox -/

def channelDrainCap : Nat := 256

def inboxOffset (s : BrokerState) (owner : ClientId) (mailbox : MailboxName) : Nat :=
  (s.clients[owner]?.bind fun state => state.inboxOffsets[mailbox]?).getD 0

/-- One joined channel of a poll: what it adds to the reply, and the cursor to
store for it.  A cursor past the end of the mailbox is clamped even when there
is nothing to deliver. -/
def drainChannel (K : Text) (name : String) (cursor : Nat) (drained : DrainResult) :
    List StampedEnvelope × Option Nat :=
  if drained.records.isEmpty then
    ([], if drained.nextOffset < cursor then some drained.nextOffset else none)
  else
    let outcome := walk K cursor drained
      { filter := .any, skipSelfAuthored := some name, requireLocalOrigin := false
        cap := some (.scanned channelDrainCap) }
    (stamp outcome.delivered,
      some (if channelDrainCap < drained.records.length then outcome.nextOffset
        else drained.nextOffset))

/-- The joined channels of a poll, in order, with the staged cursor writes. -/
def drainChannels (K : Text) (env : BrokerEnv) (s : BrokerState) (canonical : ClientId)
    (name : String) :
    List String → Except MailboxErr (List StampedEnvelope × List (MailboxName × Nat))
  | [] => .ok ([], [])
  | channel :: rest =>
    let mailbox := MailboxName.channel channel
    let cursor := inboxOffset s canonical mailbox
    match env.drainFrom mailbox cursor with
    | .error error => .error error
    | .ok drained =>
      match drainChannels K env s canonical name rest with
      | .error error => .error error
      | .ok (envelopes, advances) =>
        let (found, advance) := drainChannel K name cursor drained
        .ok (found ++ envelopes,
          (advance.map fun offset => (mailbox, offset)).toList ++ advances)

def setInboxOffset (s : BrokerState) (owner : ClientId) (advance : MailboxName × Nat) :
    BrokerState :=
  s.updateClient owner fun state =>
    { state with inboxOffsets := state.inboxOffsets.insert advance.1 advance.2 }

def inbox (K : Text) (env : BrokerEnv) (s : BrokerState) (client : ClientId)
    (since : Option Nat) : Option (BrokerState × List Out) :=
  match resolveOpIdentity env s client with
  | .error _ => some (s, [err client .notRegistered "client is not registered"])
  | .ok name =>
    let agentSince := since.getD 0
    match env.drainFrom (.agent name) agentSince with
    | .error error => some (s, [err client .internal error.toText])
    | .ok agentDrained =>
      match canonicalHolderId s name with
      | none => none
      | some canonical =>
        let joinedChannels :=
          (s.clients[canonical]?.map fun state => state.joined.toList).getD []
        match drainChannels K env s canonical name joinedChannels with
        | .error error => some (s, [err client .internal error.toText])
        | .ok (envelopes, advances) =>
          let reply := BusReply.inboxOk
            (decodeLines K agentSince agentDrained ++ envelopes) agentDrained.nextOffset
          match encodeFrame K reply.toValue with
          | .error error =>
            some (s, [err client .envelopeTooLarge
              ("InboxOk exceeds 16 MiB reply-frame limit: " ++ error.toText)])
          | .ok _ =>
            some (advances.foldl (fun s advance => setInboxOffset s canonical advance) s,
              [.reply client reply])

/-! ## Join and Leave -/

/-- The members of the channel as they will be after the join, each with its
role; the joining member's new role counts already. -/
def prospectiveMembers (s : BrokerState) (channel name : String) (role : Option String) :
    List MemberInfo :=
  ((s.channels[channel]?.getD ∅).insert name).toList.map fun member =>
    ⟨member, if member = name then role.or s.channelRoles[(channel, member)]?
      else s.channelRoles[(channel, member)]?⟩

def joinClient (channel : String) (nextOffset : Nat) (state : ClientState) : ClientState :=
  { state with
    joined := state.joined.insert channel
    awaitOffsets := state.awaitOffsets.insert (.channel channel) nextOffset
    inboxOffsets := state.inboxOffsets.insert (.channel channel) nextOffset }

def commitJoin (s : BrokerState) (channel name : String) (target : ClientId)
    (role : Option String) (nextOffset : Nat) : BrokerState :=
  { s with
    channels := s.channels.insert channel ((s.channels[channel]?.getD ∅).insert name)
    clients := s.clients.modify target (joinClient channel nextOffset)
    channelRoles :=
      match role with
      | some role => s.channelRoles.insert (channel, name) role
      | none => s.channelRoles }

def join (K : Text) (env : BrokerEnv) (s : BrokerState) (client : ClientId) (channel : String)
    (role : Option String) : BrokerState × List Out :=
  match resolveOpIdentity env s client with
  | .error _ => (s, [err client .notRegistered "client is not registered"])
  | .ok name =>
    let target := (canonicalHolderId s name).getD client
    match env.drainFrom (.channel channel) 0 with
    | .error error => (s, [err client .internal error.toText])
    | .ok drained =>
      let reply := BusReply.joinOk channel (prospectiveMembers s channel name role)
        (decodeLines K 0 drained)
      match encodeFrame K reply.toValue with
      | .error error =>
        (s, [err client .envelopeTooLarge
          ("JoinOk exceeds 16 MiB reply-frame limit: " ++ error.toText)])
      | .ok _ =>
        (commitJoin s channel name target role drained.nextOffset,
          [.reply client reply, .advanceCursor (.channel channel) drained.nextOffset])

def leaveClient (channel : String) (state : ClientState) : ClientState :=
  { state with
    joined := state.joined.erase channel
    awaitOffsets := state.awaitOffsets.erase (.channel channel)
    inboxOffsets := state.inboxOffsets.erase (.channel channel) }

def commitLeave (s : BrokerState) (channel name : String) (target : ClientId) : BrokerState :=
  { s with
    channels := s.channels.modify channel fun members => members.erase name
    clients := s.clients.modify target (leaveClient channel)
    channelRoles := s.channelRoles.erase (channel, name) }

def leave (env : BrokerEnv) (s : BrokerState) (client : ClientId) (channel : String) :
    BrokerState × List Out :=
  match resolveOpIdentity env s client with
  | .error _ => (s, [err client .notRegistered "client is not registered"])
  | .ok name =>
    (commitLeave s channel name ((canonicalHolderId s name).getD client),
      [.reply client (.leaveOk channel)])

/-! ## Sessions and Whoami -/

def sessions (s : BrokerState) (client : ClientId) : List Out :=
  [.reply client (.sessionsOk (s.clients.toList.filterMap fun entry =>
    if entry.2.connected then
      match entry.2.name, entry.2.pid with
      | some name, some pid => some ⟨name, pid, entry.2.joined.toList⟩
      | _, _ => none
    else none))]

def whoami (env : BrokerEnv) (s : BrokerState) (client : ClientId) : List Out :=
  let (active, joined) :=
    match s.clients[client]? with
    | none => (none, [])
    | some state =>
      match state.name, state.bindAs with
      | some name, _ => (some name, state.joined.toList)
      | none, some bound =>
        if proxyHolderAlive env s bound then
          (some bound,
            (((canonicalHolderId s bound).bind fun id => s.clients[id]?).map fun holder =>
              holder.joined.toList).getD [])
        else (none, [])
      | none, none => (none, [])
  [.reply client (.whoamiOk active joined)]

/-! ## Disconnect and Tick -/

/-- The name, process and channels of a session that ends. -/
def sessionSnapshot (state : ClientState) : Option (String × Nat × List String) :=
  match state.name, state.pid with
  | some name, some pid => some (name, pid, state.joined.toList)
  | _, _ => none

def dropClient (s : BrokerState) (client : ClientId) : BrokerState :=
  { s with clients := s.clients.erase client, pendingAwaits := s.pendingAwaits.erase client }

def disconnect (s : BrokerState) (client : ClientId) : BrokerState × List Out :=
  match s.clients[client]?.bind sessionSnapshot with
  | some (name, pid, joined) =>
    (dropClient { s with channels := s.channels.map fun _ members => members.erase name } client,
      [.sessionEnded name pid joined, .releaseClient client])
  | none => (dropClient s client, [.releaseClient client])

def deadClients (env : BrokerEnv) (s : BrokerState) : List ClientId :=
  s.clients.toList.filterMap fun entry =>
    entry.2.pid.bind fun pid => if env.isAlive pid then none else some entry.1

def disconnectStep (acc : BrokerState × List Out) (client : ClientId) : BrokerState × List Out :=
  let (s, outs) := disconnect acc.1 client
  (s, acc.2 ++ outs)

def expireStep (acc : BrokerState × List Out) (client : ClientId) : BrokerState × List Out :=
  ({ acc.1 with pendingAwaits := acc.1.pendingAwaits.erase client },
    acc.2 ++ [.reply client .awaitTimeout, .unparkAwait client])

def tick (env : BrokerEnv) (s : BrokerState) (now : Nat) : BrokerState × List Out :=
  let reaped := (deadClients env s).foldl disconnectStep (s, [])
  let expired := reaped.1.pendingAwaits.toList.filterMap fun entry =>
    if entry.2.deadline ≤ now then some entry.1 else none
  expired.foldl expireStep reaped

/-! ## Dispatch -/

def BusMessage.isHello : BusMessage → Bool
  | .hello .. => true
  | _ => false

/-- Frames that do not count as activity before they are accepted. -/
def BusMessage.defersActivity : BusMessage → Bool
  | .hello .. | .register .. | .setListen .. | .setWakeAddr .. => true
  | _ => false

def dispatch (K : Text) (env : BrokerEnv) (s : BrokerState) (client : ClientId) (now : Nat) :
    BusMessage → Option (BrokerState × List Out)
  | .hello busProto _ bindAs => some (hello env s client busProto bindAs)
  | .register name pid cwd listen origin =>
    some (register K env s client name pid cwd listen origin)
  | .send target envelope => some (send K env s client target envelope)
  | .inbox since _ => inbox K env s client since
  | .await timeoutMs task => some (awaitEnvelope K env s client timeoutMs task now)
  | .join channel role => some (join K env s client channel role)
  | .leave channel => some (leave env s client channel)
  | .sessions => some (s, sessions s client)
  | .whoami => some (s, whoami env s client)
  | .inspect kind => some (s, [.inspectRequest client kind])
  | .setListen listen => some (setListen env s client listen)
  | .setWakeAddr wakeAddr => some (setWakeAddr env s client wakeAddr)

def handleWire (K : Text) (env : BrokerEnv) (s : BrokerState) (client : ClientId)
    (msg : BusMessage) (now : Nat) : Option (BrokerState × List Out) :=
  let alreadyHandshaked := s.clients[client]?.any ClientState.handshaked
  if !msg.isHello && !alreadyHandshaked then
    some (s, [err client .brokerProtoMismatch "Hello required as first frame"])
  else if msg.isHello && alreadyHandshaked then
    some (s, [err client .brokerProtoMismatch "Hello already received on this connection"])
  else
    dispatch K env (if msg.defersActivity then s else touchActivity env s client) client now msg

def handle (K : Text) (env : BrokerEnv) (s : BrokerState) (input : BrokerInput) (now : Nat) :
    Option (BrokerState × List Out) :=
  match input with
  | .wire client msg => handleWire K env s client msg now
  | .disconnect client => some (disconnect s client)
  | .tick => some (tick env s now)

end Famp.Bus
