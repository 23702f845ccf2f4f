import Famp.Bus.StateInvariant

/-!
# Channel membership

Membership is stored twice: every channel lists the names of its members, and
every connection lists the channels it has joined.  The two lists agree as long
as no connection that is in a channel takes another name: such a connection
keeps its channels, while the channels keep its old name.
-/

set_option autoImplicit false

namespace Famp.Bus

open Famp.Core Json Data Std

/-- The channel lists the name. -/
def Listed (s : BrokerState) (channel name : String) : Prop :=
  ∃ members, s.channels[channel]? = some members ∧ name ∈ members

/-- The connection that holds the name has joined the channel. -/
def HolderJoined (s : BrokerState) (channel name : String) : Prop :=
  ∃ (id : ClientId) (state : ClientState), s.clients[id]? = some state ∧ state.connected = true ∧
    state.name = some name ∧ channel ∈ state.joined

def MembershipAgrees (s : BrokerState) : Prop :=
  ∀ channel name, Listed s channel name ↔ HolderJoined s channel name

instance (s : BrokerState) (channel name : String) : Decidable (Listed s channel name) :=
  decidable_of_iff ((s.channels[channel]?.any fun members => members.contains name) = true) <| by
    simp [Listed, Option.any_eq_true]

instance (s : BrokerState) (channel name : String) : Decidable (HolderJoined s channel name) :=
  decidable_of_iff _ <| (any_toList_iff s.clients fun _ state =>
    state.connected && state.name == some name && state.joined.contains channel).trans <| by
      simp [HolderJoined, and_assoc]

/-- Every check of `register` passes. -/
def registerAccepts (K : Text) (env : BrokerEnv) (s : BrokerState) (client : ClientId)
    (name : String) (pid : Nat) : Bool :=
  pid != 0 && s.clients[client]?.any (fun state => state.bindAs.isNone) &&
    !nameTaken s client name &&
    match env.drainFrom (.agent name) 0 with
    | .error _ => false
    | .ok drained =>
      (encodeFrame K
        (BusReply.registerOk name (decodeLines K 0 drained) (connectedNames s)).toValue).isOk

/-- The input binds another name to a connection that is in a channel: the
connection holds a name already, and `register` accepts the new one. -/
def renamesMember (K : Text) (s : BrokerState) (call : Call) : Bool :=
  match call.input with
  | .wire client (.register name pid _ _ _) =>
    (s.clients[client]?.any fun state =>
        state.name.any (fun held => held != name) && !state.joined.isEmpty) &&
      registerAccepts K call.env s client name pid
  | _ => false

theorem registerAccepts_iff (K : Text) (env : BrokerEnv) (s : BrokerState) (client : ClientId)
    (name : String) (pid : Nat) :
    registerAccepts K env s client name pid = true ↔
      pid ≠ 0 ∧ (∃ state, s.clients[client]? = some state ∧ state.bindAs = none) ∧
        nameTaken s client name = false ∧ ∃ drained, env.drainFrom (.agent name) 0 = .ok drained ∧
          Fits K (.registerOk name (decodeLines K 0 drained) (connectedNames s)) := by
  have encodes : ∀ value : Value,
      (encodeFrame K value).isOk = true ↔ ∃ frame, encodeFrame K value = .ok frame := by
    intro value
    cases encodeFrame K value <;> simp [Except.isOk, Except.toBool]
  unfold registerAccepts Fits
  cases env.drainFrom (.agent name) 0 with
  | error error => simp
  | ok drained => simp [Option.any_eq_true, encodes, and_assoc]

theorem renamesMember_iff (K : Text) (s : BrokerState) (call : Call) :
    renamesMember K s call = true ↔
      ∃ (client : ClientId) (name : String) (pid : Nat) (cwd : Option String) (listen : Bool)
        (origin : Option Origin) (state : ClientState) (held : String),
        call.input = .wire client (.register name pid cwd listen origin) ∧
          s.clients[client]? = some state ∧ state.name = some held ∧ held ≠ name ∧
          state.joined ≠ ∅ ∧ registerAccepts K call.env s client name pid = true := by
  unfold renamesMember
  split
  · rename_i client name pid cwd listen origin asked
    simp only [asked, Bool.and_eq_true, Option.any_eq_true, bne_iff_ne, Bool.not_eq_true',
      BrokerInput.wire.injEq, BusMessage.register.injEq]
    constructor
    · rintro ⟨⟨state, stored, ⟨held, named, differ⟩, nonempty⟩, accepted⟩
      refine ⟨client, name, pid, cwd, listen, origin, state, held, ⟨rfl, rfl, rfl, rfl, rfl, rfl⟩,
        stored, named, differ, ?_, accepted⟩
      rintro empty
      simp [empty] at nonempty
    · rintro ⟨_, _, _, _, _, _, state, held, ⟨rfl, rfl, rfl, rfl, rfl, rfl⟩, stored, named, differ,
        nonempty, accepted⟩
      refine ⟨⟨state, stored, ⟨held, named, differ⟩, ?_⟩, accepted⟩
      rw [Bool.eq_false_iff, ne_eq, ExtTreeSet.isEmpty_iff]
      exact nonempty
  · rename_i other
    constructor
    · intro impossible
      cases impossible
    · rintro ⟨client, name, pid, cwd, listen, origin, _, _, asked, _⟩
      exact absurd asked (other client name pid cwd listen origin)

/-! ## Connections without a name join nothing -/

def UnnamedIdle (s : BrokerState) : Prop :=
  ∀ (id : ClientId) (state : ClientState), s.clients[id]? = some state → state.name = none →
    state.joined = ∅

variable {s s' : BrokerState} {K : Text} {name : String} {holder client : ClientId}

theorem UnnamedIdle.of_quiet (idle : UnnamedIdle s) (quiet : Quiet s s') : UnnamedIdle s' := by
  intro id state stored unnamed
  obtain ⟨before, stored, core⟩ := quiet.earlier stored
  rw [name_of_core core] at unnamed
  have same : state.core.joined = before.core.joined := by rw [core]
  exact same.trans (idle id before stored unnamed)

theorem UnnamedIdle.changeNamed (idle : UnnamedIdle s) {change : ClientState → ClientState}
    (named : Named s holder) (keeps : ∀ state, (change state).name = state.name) :
    UnnamedIdle { s with clients := s.clients.modify holder change } := by
  intro id state stored unnamed
  simp only [lookup_modify] at stored
  split at stored
  · rename_i same
    subst same
    obtain ⟨before, earlier, rfl⟩ := Option.map_eq_some_iff.mp stored
    rw [keeps] at unnamed
    exact absurd unnamed (named before earlier)
  · exact idle id state stored unnamed

theorem UnnamedIdle.disconnect (idle : UnnamedIdle s) (client : ClientId) :
    UnnamedIdle (disconnect s client).1 := by
  intro id state stored unnamed
  rw [disconnect_clients, lookup_erase] at stored
  split at stored
  · cases stored
  · exact idle id state stored unnamed

theorem UnnamedIdle.reap : ∀ (dead : List ClientId) (acc : BrokerState × List Out),
    UnnamedIdle acc.1 → UnnamedIdle (dead.foldl disconnectStep acc).1
  | [], _, idle => idle
  | client :: rest, acc, idle => reap rest (disconnectStep acc client) (idle.disconnect client)

variable {env : BrokerEnv} {state : ClientState} {channel : String} {call : Call}

theorem UnnamedIdle.step {input : BrokerInput} (idle : UnnamedIdle s)
    (taken : Transition K env s input s') : UnnamedIdle s' := by
  cases taken with
  | quiet quiet => exact idle.of_quiet quiet
  | hello fresh _ =>
    intro id state stored unnamed
    simp only [lookup_insert] at stored
    split at stored
    · cases stored
      rfl
    · exact idle id state stored unnamed
  | register stored _ _ _ _ _ =>
    intro id found storedId unnamed
    rw [getElem?_updateClient] at storedId
    split at storedId
    · obtain ⟨before, _, rfl⟩ := Option.map_eq_some_iff.mp storedId
      cases unnamed
    · exact idle id found storedId unnamed
  | join quiet _ holder _ _ =>
    exact (idle.of_quiet quiet).changeNamed (Named.of_canonicalHolderId holder) fun _ => rfl
  | leave quiet _ holder =>
    exact (idle.of_quiet quiet).changeNamed (Named.of_canonicalHolderId holder) fun _ => rfl
  | disconnect => exact idle.disconnect _
  | tick quiet => exact (UnnamedIdle.reap (deadClients env s) (s, []) idle).of_quiet quiet

theorem UnnamedIdle.of_run {trace : List (Event BrokerState Call (List Out))}
    (run : (brokerMachine K).Run trace s) : UnnamedIdle s := by
  refine run.invariant UnnamedIdle ?_ ?_
  · rintro _ ⟨startedAt, rfl⟩ id state stored
    simp [BrokerState.new] at stored
  · intro s call outs s' idle taken
    exact idle.step (handle_transition taken)

/-! ## The two sides under each kind of step -/

theorem listed_of_quiet (quiet : Quiet s s') (channel name : String) :
    Listed s' channel name ↔ Listed s channel name := by
  simp only [Listed, quiet.channels]

theorem holderJoined_of_quiet (quiet : Quiet s s') (channel name : String) :
    HolderJoined s' channel name ↔ HolderJoined s channel name := by
  have transfer : ∀ {a b : ClientState}, a.core = b.core →
      a.connected = true ∧ a.name = some name ∧ channel ∈ a.joined →
        b.connected = true ∧ b.name = some name ∧ channel ∈ b.joined := by
    intro a b core held
    change b.core.connected = true ∧ b.core.name = some name ∧ channel ∈ b.core.joined
    rw [← core]
    exact held
  constructor
  · rintro ⟨id, state, stored, held⟩
    obtain ⟨before, stored, core⟩ := quiet.earlier stored
    exact ⟨id, before, stored, transfer core held⟩
  · rintro ⟨id, state, stored, held⟩
    obtain ⟨after, stored, core⟩ := quiet.later stored
    exact ⟨id, after, stored, transfer core.symm held⟩

theorem MembershipAgrees.of_quiet (agrees : MembershipAgrees s) (quiet : Quiet s s') :
    MembershipAgrees s' := by
  intro channel name
  rw [listed_of_quiet quiet, holderJoined_of_quiet quiet]
  exact agrees channel name

theorem MembershipAgrees.hello (agrees : MembershipAgrees s) (inv : StateInvariant s)
    (env : BrokerEnv) (bindAs : Option String)
    (fresh : s.clients[client]?.any ClientState.handshaked = false) :
    MembershipAgrees { s with clients := s.clients.insert client (freshClient env bindAs) } := by
  intro channel name
  refine (agrees channel name).trans ⟨?_, ?_⟩
  · rintro ⟨id, state, stored, held⟩
    refine ⟨id, state, ?_, held⟩
    simp only [lookup_insert]
    rw [if_neg]
    · exact stored
    · rintro rfl
      simp [stored, (inv.live client state stored).1] at fresh
  · rintro ⟨id, state, stored, connected, named, joined⟩
    simp only [lookup_insert] at stored
    split at stored
    · cases stored
      simp [freshClient] at named
    · exact ⟨id, state, stored, connected, named, joined⟩

/-- A connection other than this one holds the name and has joined the channel. -/
def OtherJoined (s : BrokerState) (client : ClientId) (channel name : String) : Prop :=
  ∃ id state, client ≠ id ∧ s.clients[id]? = some state ∧ state.connected = true ∧
    state.name = some name ∧ channel ∈ state.joined

theorem holderJoined_iff_of_lookup {channel member : String} {after : ClientState}
    (here : s'.clients[client]? = some after)
    (others : ∀ id, client ≠ id → s'.clients[id]? = s.clients[id]?) :
    HolderJoined s' channel member ↔
      (after.connected = true ∧ after.name = some member ∧ channel ∈ after.joined) ∨
        OtherJoined s client channel member := by
  constructor
  · rintro ⟨id, state, stored, held⟩
    by_cases same : client = id
    · subst same
      cases here.symm.trans stored
      exact .inl held
    · exact .inr ⟨id, state, same, (others id same).symm.trans stored, held⟩
  · rintro (held | ⟨id, state, differ, stored, held⟩)
    · exact ⟨client, after, here, held⟩
    · exact ⟨id, state, (others id differ).trans stored, held⟩

/-- A `Register` keeps the channels of its connection.  The two sides still agree
if there are none, or if the name is the one that was held. -/
theorem MembershipAgrees.register (agrees : MembershipAgrees s) (env : BrokerEnv) (pid : Nat)
    (cwd : Option String) (listen : Bool) (origin : Option Origin) (offset : Nat)
    (stored : s.clients[client]? = some state) (connected : state.connected = true)
    (keeps : state.joined = ∅ ∨ state.name = some name) :
    MembershipAgrees
      (s.updateClient client (registerClient env name pid cwd listen origin offset)) := by
  have lookup := fun id => getElem?_updateClient s client id
    (registerClient env name pid cwd listen origin offset)
  have after := lookup client
  rw [if_pos rfl, stored, Option.map_some] at after
  intro channel other
  refine (agrees channel other).trans ?_
  rw [holderJoined_iff_of_lookup stored fun _ _ => rfl,
    holderJoined_iff_of_lookup after fun id differ => (lookup id).trans (if_neg differ)]
  refine or_congr_left ?_
  rcases keeps with empty | kept
  · simp [registerClient, empty]
  · simp [registerClient, connected, kept]

theorem listed_commitJoin (s : BrokerState) (channel name : String) (holder : ClientId)
    (role : Option String) (offset : Nat) (other member : String) :
    Listed (commitJoin s channel name holder role offset) other member ↔
      Listed s other member ∨ (channel = other ∧ name = member) := by
  simp only [Listed, commitJoin, lookup_insert]
  by_cases same : channel = other
  · subst same
    cases found : s.channels[channel]? with
    | none => simp
    | some members => simp [or_comm]
  · simp [same]

theorem listed_commitLeave (s : BrokerState) (channel name : String) (holder : ClientId)
    (other member : String) :
    Listed (commitLeave s channel name holder) other member ↔
      Listed s other member ∧ ¬(channel = other ∧ name = member) := by
  simp only [Listed, commitLeave, lookup_modify]
  by_cases same : channel = other
  · subst same
    cases found : s.channels[channel]? with
    | none => simp
    | some members => simp [and_comm]
  · simp [same]

theorem MembershipAgrees.join (agrees : MembershipAgrees s) (role : Option String) (offset : Nat)
    (holds : canonicalHolderId s name = some holder) :
    MembershipAgrees (commitJoin s channel name holder role offset) := by
  obtain ⟨state, stored, connected, named⟩ := canonicalHolderId_some holds
  have lookup : ∀ id, (commitJoin s channel name holder role offset).clients[id]? = _ :=
    fun id => lookup_modify ..
  have after := lookup holder
  rw [if_pos rfl, stored, Option.map_some] at after
  intro other member
  rw [listed_commitJoin, agrees other member, holderJoined_iff_of_lookup stored fun _ _ => rfl,
    holderJoined_iff_of_lookup after fun id differ => (lookup id).trans (if_neg differ)]
  simp only [joinClient, mem_set_insert, connected, named, Option.some.injEq]
  tauto

theorem MembershipAgrees.leave (agrees : MembershipAgrees s) (inv : StateInvariant s)
    (holds : canonicalHolderId s name = some holder) :
    MembershipAgrees (commitLeave s channel name holder) := by
  obtain ⟨state, stored, connected, named⟩ := canonicalHolderId_some holds
  have lookup : ∀ id, (commitLeave s channel name holder).clients[id]? = _ :=
    fun id => lookup_modify ..
  have after := lookup holder
  rw [if_pos rfl, stored, Option.map_some] at after
  intro other member
  rw [listed_commitLeave, agrees other member, holderJoined_iff_of_lookup stored fun _ _ => rfl,
    holderJoined_iff_of_lookup after fun id differ => (lookup id).trans (if_neg differ)]
  -- the name has one holder, and it is the one that leaves
  have apart : OtherJoined s holder other member → name ≠ member := by
    rintro ⟨id, found, differ, storedId, -, namedId, -⟩ rfl
    exact differ (inv.unique holder id state found name stored storedId named namedId)
  simp only [leaveClient, mem_set_erase, connected, named, Option.some.injEq]
  tauto

theorem listed_disconnect (inv : StateInvariant s) (client : ClientId) (channel name : String) :
    Listed (disconnect s client).1 channel name ↔
      Listed s channel name ∧ ¬HoldsName s client name := by
  unfold disconnect
  cases ended : s.clients[client]?.bind sessionSnapshot with
  | none =>
    refine ⟨fun listed => ⟨listed, ?_⟩, fun both => both.1⟩
    rintro ⟨state, stored, _, named⟩
    obtain ⟨pid, process, _⟩ := inv.named client state stored (by simp [named])
    simp [stored, sessionSnapshot, named, process] at ended
  | some session =>
    obtain ⟨gone, pid, channels⟩ := session
    obtain ⟨state, stored, snapshot⟩ := Option.bind_eq_some_iff.mp ended
    have named := sessionSnapshot_name snapshot
    have holder : HoldsName s client name ↔ gone = name := by
      constructor
      · rintro ⟨found, storedFound, _, namedFound⟩
        rw [stored, Option.some.injEq] at storedFound
        subst storedFound
        exact Option.some.inj (named.symm.trans namedFound)
      · rintro rfl
        exact ⟨state, stored, (inv.live client state stored).2, named⟩
    rw [holder]
    simp only [Listed, dropClient, ExtTreeMap.getElem?_map]
    cases found : s.channels[channel]? with
    | none => simp
    | some members => simp [and_comm]

theorem holderJoined_disconnect (inv : StateInvariant s) (client : ClientId)
    (channel name : String) : HolderJoined (disconnect s client).1 channel name ↔
      HolderJoined s channel name ∧ ¬HoldsName s client name := by
  simp only [HolderJoined, disconnect_clients, lookup_erase]
  constructor
  · rintro ⟨id, found, stored, live, named, inside⟩
    split at stored
    · cases stored
    · rename_i differ
      refine ⟨⟨id, found, stored, live, named, inside⟩, ?_⟩
      intro holder
      exact differ (holder.unique inv ⟨found, stored, live, named⟩)
  · rintro ⟨⟨id, found, stored, live, named, inside⟩, apart⟩
    refine ⟨id, found, ?_, live, named, inside⟩
    rw [if_neg]
    · exact stored
    · rintro rfl
      exact apart ⟨found, stored, live, named⟩

theorem MembershipAgrees.disconnect (agrees : MembershipAgrees s) (inv : StateInvariant s)
    (client : ClientId) : MembershipAgrees (disconnect s client).1 := by
  intro channel name
  rw [listed_disconnect inv, holderJoined_disconnect inv, agrees channel name]

theorem MembershipAgrees.reap : ∀ (dead : List ClientId) (acc : BrokerState × List Out),
    StateInvariant acc.1 → MembershipAgrees acc.1 →
      MembershipAgrees (dead.foldl disconnectStep acc).1
  | [], _, _, agrees => agrees
  | client :: rest, acc, inv, agrees =>
    reap rest (disconnectStep acc client) (inv.disconnect client) (agrees.disconnect inv client)

/-! ## Whole runs -/

theorem MembershipAgrees.step (agrees : MembershipAgrees s) (inv : StateInvariant s)
    (idle : UnnamedIdle s) (keepsName : renamesMember K s call = false)
    (taken : Transition K call.env s call.input s') : MembershipAgrees s' := by
  generalize asked : call.input = input at taken
  cases taken with
  | quiet quiet => exact agrees.of_quiet quiet
  | hello fresh _ => exact agrees.hello inv call.env _ fresh
  | @register client state name pid cwd listen origin drained stored positive unbound free read
      fits =>
      refine agrees.register call.env pid cwd listen origin drained.nextOffset stored
        (inv.live client state stored).2 ?_
      cases held : state.name with
      | none => exact Or.inl (idle client state stored held)
      | some old =>
        by_cases empty : state.joined = ∅
        · exact Or.inl empty
        · refine Or.inr (congrArg some ?_)
          by_contra differ
          have accepted : registerAccepts K call.env s client name pid = true :=
            (registerAccepts_iff ..).mpr
              ⟨positive, ⟨state, stored, unbound⟩, free, drained, read, fits⟩
          have renames : renamesMember K s call = true :=
            (renamesMember_iff K s call).mpr ⟨client, name, pid, cwd, listen, origin, state, old,
              asked, stored, held, differ, empty, accepted⟩
          rw [keepsName] at renames
          cases renames
  | join quiet _ holder _ _ => exact (agrees.of_quiet quiet).join _ _ holder
  | leave quiet _ holder => exact (agrees.of_quiet quiet).leave (inv.of_quiet quiet) holder
  | disconnect => exact agrees.disconnect inv _
  | tick quiet =>
    exact (MembershipAgrees.reap (deadClients call.env s) (s, []) inv agrees).of_quiet quiet

theorem handle_register {pid : Nat} {cwd : Option String} {listen : Bool} {origin : Option Origin}
    {drained : DrainResult} {now : Nat} (stored : s.clients[client]? = some state)
    (live : state.handshaked = true) (unbound : state.bindAs = none) (positive : pid ≠ 0)
    (free : nameTaken s client name = false) (read : env.drainFrom (.agent name) 0 = .ok drained)
    (fits : Fits K (.registerOk name (decodeLines K 0 drained) (connectedNames s))) :
    handle K env s (.wire client (.register name pid cwd listen origin)) now =
      some (s.updateClient client (registerClient env name pid cwd listen origin drained.nextOffset),
        [.reply client (.registerOk name (decodeLines K 0 drained) (connectedNames s)),
          .advanceCursor (.agent name) drained.nextOffset]) := by
  obtain ⟨frame, encoded⟩ := fits
  simp [handle, handleWire, BusMessage.isHello, stored, live, dispatch, BusMessage.defersActivity,
    register, positive, unbound, free, read, encoded]

theorem not_agrees_of_renamesMember {outs : List Out} (agrees : MembershipAgrees s)
    (inv : StateInvariant s) (renames : renamesMember K s call = true)
    (taken : handle K call.env s call.input call.now = some (s', outs)) : ¬MembershipAgrees s' := by
  obtain ⟨client, name, pid, cwd, listen, origin, state, held, asked, stored, named, differ,
    nonempty, accepted⟩ := (renamesMember_iff K s call).mp renames
  obtain ⟨positive, ⟨same, storedSame, unbound⟩, free, drained, read, fits⟩ :=
    (registerAccepts_iff ..).mp accepted
  rw [stored, Option.some.injEq] at storedSame
  subst storedSame
  obtain ⟨live, connected⟩ := inv.live client state stored
  rw [asked, handle_register stored live unbound positive free read fits] at taken
  obtain rfl : _ = s' := congrArg Prod.fst (Option.some.inj taken)
  -- a channel that was joined still lists the old name, which nobody holds now
  obtain ⟨channel, inside⟩ : ∃ channel, channel ∈ state.joined := by
    by_contra none
    rw [not_exists] at none
    exact nonempty (ExtTreeSet.ext_mem fun channel => by simp [none channel])
  intro still
  have listed : Listed s channel held :=
    (agrees channel held).mpr ⟨client, state, stored, connected, named, inside⟩
  obtain ⟨id, found, storedId, _, namedId, _⟩ := (still channel held).mp listed
  rw [getElem?_updateClient] at storedId
  split at storedId
  · obtain ⟨_, _, rfl⟩ := Option.map_eq_some_iff.mp storedId
    exact differ (Option.some.inj namedId).symm
  · rename_i other
    exact other (inv.unique client id state found held stored storedId named namedId)

/-- The two sides of membership agree in every state of a run exactly when no
step of the run gives another name to a connection that is in a channel. -/
theorem membership_agrees_iff {K : Text} {trace : List (Event BrokerState Call (List Out))}
    {s : BrokerState} (run : (brokerMachine K).Run trace s) :
    (MembershipAgrees s ∧ ∀ event ∈ trace, MembershipAgrees event.before) ↔
      ∀ event ∈ trace, renamesMember K event.before event.input = false := by
  refine run.everywhere_iff (fun event => renamesMember K event.before event.input = false)
    MembershipAgrees ?_ ?_
  · rintro _ ⟨startedAt, rfl⟩ channel name
    simp [Listed, HolderJoined, BrokerState.new]
  · intro trace s call outs s' run agrees taken
    have inv := StateInvariant.of_run run
    constructor
    · intro still
      rw [Bool.eq_false_iff]
      intro renames
      exact not_agrees_of_renamesMember agrees inv renames taken still
    · intro keepsName
      exact agrees.step inv (UnnamedIdle.of_run run) keepsName (handle_transition taken)

/-- A proxy joins and leaves on behalf of the holder, and the holder registers
again under its own name. -/
def faithfulCalls : List Call :=
  [.wire 1 (.hello 3 "cli" none), .wire 1 (.register "alice" 11 none true none),
    .wire 2 (.hello 3 "cli" (some "alice")), .wire 2 (.join "#a" none), .wire 1 (.join "#b" none),
    .wire 1 (.register "alice" 12 none true none), .wire 2 (.leave "#b")].map
    fun input => ⟨emptyEnv, input, 5⟩

theorem faithfulCalls_membership_agrees :
    MembershipAgrees (stateAfter Plain.text (BrokerState.new 0) faithfulCalls) ∧
      HolderJoined (stateAfter Plain.text (BrokerState.new 0) faithfulCalls) "#a" "alice" :=
  ⟨((membership_agrees_iff (run_calls Plain.text 0 faithfulCalls)).mpr (by decide +kernel)).1,
    by decide +kernel⟩

/-- A member of a channel registers again under another name. -/
def renameCalls : List Call :=
  [.wire 1 (.hello 3 "cli" none), .wire 1 (.register "alice" 11 none false none),
    .wire 1 (.join "#a" none), .wire 1 (.register "bob" 11 none false none)].map
    fun input => ⟨emptyEnv, input, 5⟩

/-- After the rename the channel lists the old name, which no connection holds,
and does not list the new one, whose connection has joined. -/
theorem renameCalls_membership_differs :
    let s := stateAfter Plain.text (BrokerState.new 0) renameCalls
    (∃ trace, (brokerMachine Plain.text).Run trace s) ∧ ¬MembershipAgrees s ∧
      Listed s "#a" "alice" ∧ ¬HolderJoined s "#a" "alice" ∧
      HolderJoined s "#a" "bob" ∧ ¬Listed s "#a" "bob" := by
  have listed : Listed (stateAfter Plain.text (BrokerState.new 0) renameCalls) "#a" "alice" := by
    decide +kernel
  have unheld :
      ¬HolderJoined (stateAfter Plain.text (BrokerState.new 0) renameCalls) "#a" "alice" := by
    decide +kernel
  refine ⟨⟨_, run_calls Plain.text 0 renameCalls⟩, ?_, listed, unheld, by decide +kernel,
    by decide +kernel⟩
  exact fun agrees => unheld ((agrees "#a" "alice").mp listed)

end Famp.Bus
