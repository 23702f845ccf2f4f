import Famp.Bus.Handled
import Famp.Data.Run

/-!
# What a step can do

`Quiet` relates two states that differ only in cursors, settings, activity times
and parked requests.  `Transition` lists what an input can do besides: open a
connection, bind a name, join or leave a channel, end a session.  Invariants are
proved from these cases and not from the handlers.
-/

set_option autoImplicit false

namespace Famp.Bus

open Famp.Core Json Data Std

/-! ## Updates of one client -/

theorem getElem?_updateClient (s : BrokerState) (id other : ClientId)
    (change : ClientState → ClientState) :
    (s.updateClient id change).clients[other]? =
      if id = other then s.clients[other]?.map change else s.clients[other]? := by
  exact lookup_modify s.clients id other change

/-- A client without the fields that a quiet step may change. -/
def ClientState.core (state : ClientState) : ClientState :=
  { state with
    listenMode := false, wakeAddr := none, lastActivity := 0, awaitOffsets := ∅, inboxOffsets := ∅ }

variable {a b : ClientState} {t : BrokerState} {name : String} {now : Nat} {input : BrokerInput}
  {outs : List Out}

theorem name_of_core (same : a.core = b.core) : a.name = b.name := by
  change a.core.name = b.core.name
  rw [same]

theorem effectiveIdentity_of_core (same : a.core = b.core) :
    effectiveIdentity a = effectiveIdentity b := by
  change effectiveIdentity a.core = effectiveIdentity b.core
  rw [same]

/-! ## Quiet steps -/

structure Quiet (s s' : BrokerState) : Prop where
  channels : s'.channels = s.channels
  roles : s'.channelRoles = s.channelRoles
  core : ∀ id : ClientId, s'.clients[id]?.map ClientState.core = s.clients[id]?.map ClientState.core
  offsets : ∀ (id : ClientId) (state state' : ClientState), s.clients[id]? = some state →
    s'.clients[id]? = some state' → state.name = none →
      state'.awaitOffsets = state.awaitOffsets ∧ state'.inboxOffsets = state.inboxOffsets
  pending : ∀ id : ClientId, id ∈ s'.pendingAwaits → id ∈ s.pendingAwaits ∨
    ∃ state identity, s.clients[id]? = some state ∧ effectiveIdentity state = .ok identity

variable {s s' : BrokerState} {env : BrokerEnv} {client owner id : ClientId} {K : Text}
  {identity : String} {state : ClientState} {filter : AwaitFilter} {mailboxes : List MailboxName}
  {result : Option (List Out)}

namespace Quiet

theorem refl (s : BrokerState) : Quiet s s where
  channels := rfl
  roles := rfl
  core _ := rfl
  offsets _ _ _ stored stored' _ := by
    rw [stored] at stored'
    cases stored'
    exact ⟨rfl, rfl⟩
  pending _ parked := Or.inl parked

theorem earlier (quiet : Quiet s s') {state' : ClientState}
    (stored : s'.clients[id]? = some state') :
    ∃ state, s.clients[id]? = some state ∧ state'.core = state.core := by
  have same := quiet.core id
  rw [stored, Option.map_some, eq_comm, Option.map_eq_some_iff] at same
  obtain ⟨state, stored, core⟩ := same
  exact ⟨state, stored, core.symm⟩

theorem later (quiet : Quiet s s') (stored : s.clients[id]? = some state) :
    ∃ state', s'.clients[id]? = some state' ∧ state'.core = state.core := by
  have same := quiet.core id
  rw [stored, Option.map_some, Option.map_eq_some_iff] at same
  exact same

theorem absent (quiet : Quiet s s') (missing : s.clients[id]? = none) : s'.clients[id]? = none := by
  have same := quiet.core id
  rwa [missing, Option.map_none, Option.map_eq_none_iff] at same

theorem trans {u : BrokerState} (first : Quiet s t) (second : Quiet t u) : Quiet s u where
  channels := second.channels.trans first.channels
  roles := second.roles.trans first.roles
  core id := (second.core id).trans (first.core id)
  offsets id state state' stored stored' unnamed := by
    obtain ⟨middle, between, core⟩ := first.later stored
    have name : middle.name = none := (name_of_core core).trans unnamed
    have one := first.offsets id state middle stored between unnamed
    have two := second.offsets id middle state' between stored' name
    exact ⟨two.1.trans one.1, two.2.trans one.2⟩
  pending id parked := by
    rcases second.pending id parked with parked | ⟨state, identity, stored, identified⟩
    · exact first.pending id parked
    · obtain ⟨before, stored, core⟩ := first.earlier stored
      exact Or.inr ⟨before, identity, stored, by rw [← effectiveIdentity_of_core core, identified]⟩

theorem updateClient (s : BrokerState) (id : ClientId) (change : ClientState → ClientState)
    (core : ∀ state, (change state).core = state.core)
    (offsets : ∀ state, s.clients[id]? = some state → state.name = none →
      (change state).awaitOffsets = state.awaitOffsets ∧
        (change state).inboxOffsets = state.inboxOffsets) : Quiet s (s.updateClient id change) where
  channels := rfl
  roles := rfl
  core other := by
    rw [getElem?_updateClient]
    split
    · cases s.clients[other]? with
      | none => rfl
      | some state => simp only [Option.map_some, core]
    · rfl
  offsets other state state' stored stored' unnamed := by
    rw [getElem?_updateClient] at stored'
    split at stored'
    · rename_i same
      subst same
      rw [stored, Option.map_some, Option.some.injEq] at stored'
      subst stored'
      exact offsets state stored unnamed
    · rw [stored, Option.some.injEq] at stored'
      subst stored'
      exact ⟨rfl, rfl⟩
  pending _ parked := Or.inl parked

theorem unpark (s : BrokerState) (client : ClientId) :
    Quiet s { s with pendingAwaits := s.pendingAwaits.erase client } where
  channels := rfl
  roles := rfl
  core _ := rfl
  offsets := (refl s).offsets
  pending _ parked := Or.inl (ExtTreeMap.mem_of_mem_erase parked)

theorem park (parked : ParkedAwait) (stored : s.clients[client]? = some state)
    (identified : effectiveIdentity state = .ok identity) :
    Quiet s { s with pendingAwaits := s.pendingAwaits.insert client parked } where
  channels := rfl
  roles := rfl
  core _ := rfl
  offsets := (refl s).offsets
  pending id member := by
    rcases ExtTreeMap.mem_insert.mp member with same | member
    · obtain rfl := Std.compare_eq_iff_eq.mp same
      exact Or.inr ⟨state, identity, stored, identified⟩
    · exact Or.inl member

end Quiet

/-! ## The quiet handlers -/

/-- The cursors of `id` may move: no proxy is stored there. -/
def Named (s : BrokerState) (id : ClientId) : Prop :=
  ∀ state, s.clients[id]? = some state → state.name ≠ none

theorem Named.of_canonicalHolderId {bound : String} {holder : ClientId}
    (found : canonicalHolderId s bound = some holder) : Named s holder := by
  intro state stored
  obtain ⟨held, storedHolder, _, named⟩ := canonicalHolderId_some found
  rw [stored, Option.some.injEq] at storedHolder
  rw [storedHolder, named]
  exact Option.some_ne_none _

theorem Named.of_quiet (named : Named s id) (quiet : Quiet s s') : Named s' id := by
  intro state' stored
  obtain ⟨state, stored, core⟩ := quiet.earlier stored
  rw [name_of_core core]
  exact named state stored

theorem setAwaitOffset_quiet (named : Named s owner) (mailbox : MailboxName) (offset : Nat) :
    Quiet s (setAwaitOffset s owner mailbox offset) :=
  Quiet.updateClient s owner _ (fun _ => rfl) fun state stored unnamed =>
    absurd unnamed (named state stored)

theorem setInboxOffset_quiet (named : Named s owner) (advance : MailboxName × Nat) :
    Quiet s (setInboxOffset s owner advance) :=
  Quiet.updateClient s owner _ (fun _ => rfl) fun state stored unnamed =>
    absurd unnamed (named state stored)

theorem SettingsChange.quiet (change : SettingsChange s s') : Quiet s s' := by
  rcases change with rfl | ⟨id, change, rfl, fields⟩
  · exact Quiet.refl _
  · refine Quiet.updateClient s id change ?_ ?_
    · intro state
      obtain ⟨_, _, _, changed⟩ := fields state
      rw [changed]
      rfl
    · intro state _ _
      obtain ⟨_, _, _, changed⟩ := fields state
      rw [changed]
      exact ⟨rfl, rfl⟩

theorem touchActivity_quiet (env : BrokerEnv) (s : BrokerState) (client : ClientId) :
    Quiet s (touchActivity env s client) :=
  (touchActivity_settings env s client).quiet

theorem resolveAwaitOwner_ok (resolved : resolveAwaitOwner env s client = .ok (identity, owner)) :
    resolveOpIdentity env s client = .ok identity ∧ canonicalHolderId s identity = some owner := by
  unfold resolveAwaitOwner at resolved
  cases identified : resolveOpIdentity env s client with
  | error kind => simp [identified] at resolved
  | ok found =>
    simp only [identified, Except.ok.injEq, Prod.mk.injEq] at resolved
    obtain ⟨rfl, same⟩ := resolved
    obtain ⟨holder, holds⟩ := exists_holder_of_resolveOpIdentity identified
    rw [holds, Option.getD_some] at same
    exact ⟨rfl, by rw [holds, same]⟩

theorem quiet_of_awaitLoop (named : Named s owner)
    (run : awaitLoop K env client owner filter mailboxes s = (s', result)) : Quiet s s' := by
  have quiet := awaitLoop_keeps (Quiet s) K env client owner filter
    (fun t mailbox offset quiet => quiet.trans
      (setAwaitOffset_quiet (named.of_quiet quiet) mailbox offset)) mailboxes s (Quiet.refl s)
  rwa [run] at quiet

theorem awaitReplyForMailbox_quiet (K : Text) (env : BrokerEnv) (s : BrokerState)
    (client : ClientId) (mailbox : MailboxName) (filter : AwaitFilter) (trigger : Option Trigger) :
    Quiet s (awaitReplyForMailbox K env s client mailbox filter trigger).1 := by
  unfold awaitReplyForMailbox
  split
  · exact Quiet.refl s
  · rename_i owner resolved
    split
    · exact Quiet.refl s
    · exact setAwaitOffset_quiet
        (Named.of_canonicalHolderId (resolveAwaitOwner_ok resolved).2) mailbox _

theorem wakeWaiter_quiet (K : Text) (env : BrokerEnv) (mailbox : MailboxName) (trigger : Trigger)
    (acc : BrokerState × List Out) (waiting : ClientId) :
    Quiet acc.1 (wakeWaiter K env mailbox trigger acc waiting).1 := by
  unfold wakeWaiter
  split
  · exact Quiet.refl _
  · exact (Quiet.unpark acc.1 waiting).trans (awaitReplyForMailbox_quiet K env _ waiting mailbox _ _)

theorem Quiet.foldl {α : Type} (turn : BrokerState × List Out → α → BrokerState × List Out)
    (quiet : ∀ acc item, Quiet acc.1 (turn acc item).1) : ∀ (items : List α)
    (acc : BrokerState × List Out), Quiet acc.1 (items.foldl turn acc).1
  | [], acc => Quiet.refl acc.1
  | item :: rest, acc => (quiet acc item).trans (Quiet.foldl turn quiet rest (turn acc item))

theorem wakeMember_quiet (K : Text) (env : BrokerEnv) (channel : String) (trigger : Trigger)
    (acc : BrokerState × List Out) (member : String) :
    Quiet acc.1 (wakeMember K env channel trigger acc member).1 := by
  unfold wakeMember
  split
  · exact Quiet.refl _
  · exact Quiet.foldl _ (wakeWaiter_quiet K env (.channel channel) trigger) _ acc

theorem sendAgent_quiet (K : Text) (env : BrokerEnv) (s : BrokerState) (sender : ClientId)
    (name : String) (envelope : Value) (line : Bytes) :
    Quiet s (sendAgent K env s sender name envelope line).1 := by
  unfold sendAgent
  dsimp only
  split
  · exact Quiet.refl s
  · rename_i stamped _
    exact Quiet.foldl _ (wakeWaiter_quiet K env (.agent name)
      ⟨clientOrigin s sender, envelope, stamped.length⟩) _
      (s, [.appendMailbox (.agent name) line (clientOrigin s sender)])

theorem sendChannel_quiet (K : Text) (env : BrokerEnv) (s : BrokerState) (sender : ClientId)
    (name : String) (envelope : Value) (line : Bytes) :
    Quiet s (sendChannel K env s sender name envelope line).1 := by
  unfold sendChannel
  dsimp only
  split
  · exact Quiet.refl s
  · rename_i stamped _
    exact Quiet.foldl _ (wakeMember_quiet K env name
      ⟨clientOrigin s sender, envelope, stamped.length⟩) _
      (s, [.appendMailbox (.channel name) line (clientOrigin s sender)])

theorem send_quiet (K : Text) (env : BrokerEnv) (s : BrokerState) (client : ClientId)
    (target : Target) (envelope : Value) : Quiet s (send K env s client target envelope).1 := by
  unfold send
  split
  · exact Quiet.refl s
  · split
    · exact Quiet.refl s
    · split
      · exact Quiet.refl s
      · split
        · exact sendAgent_quiet K env s client _ envelope _
        · exact sendChannel_quiet K env s client _ envelope _

theorem setInboxOffsets_quiet : ∀ (advances : List (MailboxName × Nat))
    {s : BrokerState}, Named s owner →
      Quiet s (advances.foldl (fun s advance => setInboxOffset s owner advance) s)
  | [], s, _ => Quiet.refl s
  | advance :: rest, s, named => by
    have first := setInboxOffset_quiet named advance
    exact first.trans (setInboxOffsets_quiet rest (named.of_quiet first))

/-! ## Sessions that end -/

theorem disconnect_clients (s : BrokerState) (client : ClientId) :
    (disconnect s client).1.clients = s.clients.erase client := by
  unfold disconnect
  split <;> rfl

theorem disconnect_pendingAwaits (s : BrokerState) (client : ClientId) :
    (disconnect s client).1.pendingAwaits = s.pendingAwaits.erase client := by
  unfold disconnect
  split <;> rfl

theorem disconnect_channelRoles (s : BrokerState) (client : ClientId) :
    (disconnect s client).1.channelRoles = s.channelRoles := by
  unfold disconnect
  split <;> rfl

theorem sessionSnapshot_name {pid : Nat} {joined : List String}
    (ended : sessionSnapshot state = some (name, pid, joined)) : state.name = some name := by
  unfold sessionSnapshot at ended
  split at ended
  · cases ended
    assumption
  · cases ended

/-! ## The inversion of a step -/

inductive Transition (K : Text) (env : BrokerEnv) (s : BrokerState) : BrokerInput → BrokerState → Prop
  | quiet {client : ClientId} {msg : BusMessage} {s' : BrokerState} :
      Quiet s s' → Transition K env s (.wire client msg) s'
  | hello {client : ClientId} {busProto : Nat} {label : String} {bindAs : Option String} :
      s.clients[client]?.any ClientState.handshaked = false →
      (∀ name, bindAs = some name → proxyHolderAlive env s name = true) →
      Transition K env s (.wire client (.hello busProto label bindAs))
        { s with clients := s.clients.insert client (freshClient env bindAs) }
  | register {client : ClientId} {state : ClientState} {name : String} {pid : Nat}
      {cwd : Option String} {listen : Bool} {origin : Option Origin} {drained : DrainResult} :
      s.clients[client]? = some state → pid ≠ 0 → state.bindAs = none →
      nameTaken s client name = false → env.drainFrom (.agent name) 0 = .ok drained →
      Fits K (.registerOk name (decodeLines K 0 drained) (connectedNames s)) →
      Transition K env s (.wire client (.register name pid cwd listen origin))
        (s.updateClient client (registerClient env name pid cwd listen origin drained.nextOffset))
  | join {t : BrokerState} {client holder : ClientId} {channel name : String}
      {role : Option String} {drained : DrainResult} :
      Quiet s t → resolveOpIdentity env t client = .ok name →
      canonicalHolderId t name = some holder → env.drainFrom (.channel channel) 0 = .ok drained →
      Fits K (.joinOk channel (prospectiveMembers t channel name role) (decodeLines K 0 drained)) →
      Transition K env s (.wire client (.join channel role))
        (commitJoin t channel name holder role drained.nextOffset)
  | leave {t : BrokerState} {client holder : ClientId} {channel name : String} :
      Quiet s t → resolveOpIdentity env t client = .ok name →
      canonicalHolderId t name = some holder →
      Transition K env s (.wire client (.leave channel)) (commitLeave t channel name holder)
  | disconnect {client : ClientId} :
      Transition K env s (.disconnect client) (disconnect s client).1
  | tick {s' : BrokerState} :
      Quiet ((deadClients env s).foldl disconnectStep (s, [])).1 s' → Transition K env s .tick s'

theorem refused_quiet (same : s' = s ∨ s' = touchActivity env s client) : Quiet s s' := by
  rcases same with rfl | rfl
  · exact Quiet.refl _
  · exact touchActivity_quiet env s client

theorem inbox_quiet {canonical : ClientId} (advances : List (MailboxName × Nat))
    (holder : canonicalHolderId (touchActivity env s client) name = some canonical) :
    Quiet s (advances.foldl (fun s advance => setInboxOffset s canonical advance)
      (touchActivity env s client)) :=
  (touchActivity_quiet env s client).trans
    (setInboxOffsets_quiet advances (Named.of_canonicalHolderId holder))

theorem await_quiet (holder : canonicalHolderId (touchActivity env s client) identity = some owner)
    (run : awaitLoop K env client owner filter mailboxes (touchActivity env s client) =
      (s', result)) : Quiet s s' :=
  (touchActivity_quiet env s client).trans
    (quiet_of_awaitLoop (Named.of_canonicalHolderId holder) run)

theorem park_quiet (parked : ParkedAwait)
    (resolved : resolveOpIdentity env (touchActivity env s client) client = .ok identity)
    (holder : canonicalHolderId (touchActivity env s client) identity = some owner)
    (run : awaitLoop K env client owner filter mailboxes (touchActivity env s client) =
      (t, result)) : Quiet s { t with pendingAwaits := t.pendingAwaits.insert client parked } := by
  have loop := quiet_of_awaitLoop (Named.of_canonicalHolderId holder) run
  obtain ⟨state, stored, _, effective, _⟩ := resolveOpIdentity_ok resolved
  obtain ⟨state', stored', core⟩ := loop.later stored
  have parks := Quiet.park parked stored' ((effectiveIdentity_of_core core).trans effective)
  exact (touchActivity_quiet env s client).trans (loop.trans parks)

theorem tick_quiet (env : BrokerEnv) (s : BrokerState) (now : Nat) :
    Quiet ((deadClients env s).foldl disconnectStep (s, [])).1 (tick env s now).1 :=
  Quiet.foldl expireStep (fun acc client => Quiet.unpark acc.1 client) _ _

/-- Everything that an input can do to the state. -/
theorem Handled.transition (handled : Handled K env s now input s' outs) :
    Transition K env s input s' := by
  cases handled with
  | refused same _ => exact .quiet (refused_quiet same)
  | report change _ => exact .quiet change.quiet
  | hello fresh alive => exact .hello fresh alive
  | register stored positive unbound free read fits =>
    exact .register stored positive unbound free read fits
  | @send client target envelope _ _ _ _ touched _ _ _ _ _ =>
    subst touched
    exact .quiet ((touchActivity_quiet env s client).trans
      (send_quiet K env _ client target envelope))
  | @inbox _ _ _ _ _ _ _ advances _ touched _ _ holder _ _ =>
    subst touched
    exact .quiet (inbox_quiet advances holder)
  | await touched _ holder drained =>
    subst touched
    exact .quiet (await_quiet holder drained)
  | @park _ _ _ _ _ _ _ parked touched resolved holder _ drained =>
    subst touched
    exact .quiet (park_quiet parked resolved holder drained)
  | @join client _ _ _ _ _ _ touched resolved holder read fits =>
    subst touched
    exact .join (touchActivity_quiet env s client) resolved holder read fits
  | @leave client _ _ _ _ touched resolved holder =>
    subst touched
    exact .leave (touchActivity_quiet env s client) resolved holder
  | disconnect => exact .disconnect
  | tick => exact .tick (tick_quiet env s now)

theorem handle_transition (handled : handle K env s input now = some (s', outs)) :
    Transition K env s input s' :=
  (handle_handled handled).transition

end Famp.Bus
