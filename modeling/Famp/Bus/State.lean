import Famp.Bus.Proto

/-!
# Broker state and identity resolution

The state of the broker actor, and the environment it reads: mailboxes, process
liveness and the wall clock.  A connection either holds a name itself or is a
proxy bound to the name of another connection; the operations of a proxy act on
the connection that holds the name.
-/

set_option autoImplicit false

namespace Famp.Bus

open Data Std

structure ClientState where
  handshaked : Bool
  name : Option String
  pid : Option Nat
  joined : ExtTreeSet String
  connected : Bool
  bindAs : Option String
  cwd : Option String
  listenMode : Bool
  wakeAddr : Option String
  origin : Origin
  registeredAt : Nat
  lastActivity : Nat
  awaitOffsets : ExtTreeMap MailboxName Nat
  inboxOffsets : ExtTreeMap MailboxName Nat

structure ParkedAwait where
  filter : AwaitFilter
  deadline : Nat
  deriving DecidableEq, Repr

structure BrokerState where
  clients : ExtTreeMap ClientId ClientState
  channels : ExtTreeMap String (ExtTreeSet String)
  pendingAwaits : ExtTreeMap ClientId ParkedAwait
  channelRoles : ExtTreeMap (String × String) String
  startedAt : Nat

def BrokerState.new (startedAt : Nat) : BrokerState :=
  { clients := ∅, channels := ∅, pendingAwaits := ∅, channelRoles := ∅, startedAt := startedAt }

/-- What the broker reads while it handles one input. -/
structure BrokerEnv where
  drainFrom : MailboxName → Nat → Except MailboxErr DrainResult
  isAlive : Nat → Bool
  wallClock : Nat

/-- The broker reads from the mailboxes in `boxes`. -/
def storeEnv (boxes : InMemoryMailbox) (env : BrokerEnv) : BrokerEnv :=
  { env with drainFrom := fun name since => .ok (boxes.drainFrom name since) }

namespace BrokerState

def updateClient (s : BrokerState) (id : ClientId) (change : ClientState → ClientState) :
    BrokerState :=
  { s with clients := s.clients.modify id change }

end BrokerState

/-! ## Identity -/

def effectiveIdentity (state : ClientState) : Except BusErrorKind String :=
  match state.name with
  | some name => .ok name
  | none =>
    match state.bindAs with
    | some bound => .ok bound
    | none => .error .notRegistered

def holds (bound : String) (state : ClientState) : Bool :=
  state.connected && state.name == some bound

def proxyHolderAlive (env : BrokerEnv) (s : BrokerState) (bound : String) : Bool :=
  s.clients.toList.any fun entry => holds bound entry.2 && entry.2.pid.any env.isAlive

/-- The connection that holds the name. -/
def canonicalHolderId (s : BrokerState) (bound : String) : Option ClientId :=
  findKey? s.clients fun _ state => holds bound state

def resolveOpIdentity (env : BrokerEnv) (s : BrokerState) (client : ClientId) :
    Except BusErrorKind String :=
  match s.clients[client]? with
  | none => .error .notRegistered
  | some state =>
    if state.connected then
      match effectiveIdentity state with
      | .error kind => .error kind
      | .ok identity =>
        if state.name.isSome then .ok identity
        else if proxyHolderAlive env s identity then .ok identity
        else .error .notRegistered
    else .error .notRegistered

variable {s : BrokerState} {bound : String} {env : BrokerEnv}

theorem holds_iff {state : ClientState} :
    holds bound state = true ↔ state.connected = true ∧ state.name = some bound := by
  simp [holds]

theorem canonicalHolderId_some {holder : ClientId}
    (found : canonicalHolderId s bound = some holder) :
    ∃ state, s.clients[holder]? = some state ∧ state.connected = true ∧ state.name = some bound := by
  obtain ⟨state, stored, passes⟩ := findKey?_some found
  exact ⟨state, stored, holds_iff.mp passes⟩

theorem exists_canonicalHolderId {id : ClientId} {state : ClientState}
    (stored : s.clients[id]? = some state) (held : holds bound state = true) :
    ∃ holder, canonicalHolderId s bound = some holder := by
  cases found : canonicalHolderId s bound with
  | none =>
    have fails := findKey?_none found stored
    rw [held] at fails
    cases fails
  | some holder => exact ⟨holder, rfl⟩

theorem exists_holder_of_proxyHolderAlive (alive : proxyHolderAlive env s bound = true) :
    ∃ (id : ClientId) (state : ClientState),
      s.clients[id]? = some state ∧ holds bound state = true := by
  obtain ⟨id, state, stored, passes⟩ := (any_toList_iff s.clients
    fun _ state => holds bound state && state.pid.any env.isAlive).mp alive
  simp only [Bool.and_eq_true] at passes
  exact ⟨id, state, stored, passes.1⟩

theorem resolveOpIdentity_ok {client : ClientId} {identity : String}
    (resolved : resolveOpIdentity env s client = .ok identity) :
    ∃ state, s.clients[client]? = some state ∧ state.connected = true ∧
      effectiveIdentity state = .ok identity ∧
      (state.name = some identity ∨
        state.name = none ∧ proxyHolderAlive env s identity = true) := by
  unfold resolveOpIdentity at resolved
  cases stored : s.clients[client]? with
  | none => simp [stored] at resolved
  | some state =>
    simp only [stored] at resolved
    split at resolved
    · rename_i connected
      cases identified : effectiveIdentity state with
      | error kind => simp [identified] at resolved
      | ok found =>
        simp only [identified] at resolved
        cases named : state.name with
        | some name =>
          simp only [named, Option.isSome_some, if_true, Except.ok.injEq] at resolved
          subst resolved
          simp only [effectiveIdentity, named, Except.ok.injEq] at identified
          subst identified
          exact ⟨state, rfl, connected, by simp only [effectiveIdentity, named],
            Or.inl named⟩
        | none =>
          simp only [named, Option.isSome_none, Bool.false_eq_true, if_false] at resolved
          split at resolved
          · rename_i alive
            cases resolved
            exact ⟨state, rfl, connected, identified, Or.inr ⟨named, alive⟩⟩
          · cases resolved
    · cases resolved

theorem exists_holder_of_resolveOpIdentity {client : ClientId} {identity : String}
    (resolved : resolveOpIdentity env s client = .ok identity) :
    ∃ holder, canonicalHolderId s identity = some holder := by
  obtain ⟨state, stored, connected, _, named | ⟨_, alive⟩⟩ := resolveOpIdentity_ok resolved
  · exact exists_canonicalHolderId stored (holds_iff.mpr ⟨connected, named⟩)
  · obtain ⟨id, state, stored, held⟩ := exists_holder_of_proxyHolderAlive alive
    exact exists_canonicalHolderId stored held

end Famp.Bus
