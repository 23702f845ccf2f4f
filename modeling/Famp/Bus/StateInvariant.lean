import Famp.Bus.Transition
import Famp.Json.Plain

/-!
# The invariant of the broker state

Names are held by one connection each, proxies own nothing, and every parked
request belongs to a stored connection with an identity.  From this it follows
that an identity that resolves always has a holder, so the panic of `inbox` and
the fallbacks of the other handlers are dead code.
-/

set_option autoImplicit false

namespace Famp.Bus

open Famp.Core Json Data Std

/-- One call of `Broker::handle`: the environment that it reads is arbitrary. -/
structure Call where
  env : BrokerEnv
  input : BrokerInput
  now : Nat

def brokerMachine (K : Text) : Machine BrokerState Call (List Out) where
  initial s := ∃ startedAt, s = BrokerState.new startedAt
  step s call outs s' := handle K call.env s call.input call.now = some (s', outs)

abbrev BrokerEvent := Event BrokerState Call (List Out)

structure StateInvariant (s : BrokerState) : Prop where
  unique : ∀ (i j : ClientId) (a b : ClientState) (name : String), s.clients[i]? = some a →
    s.clients[j]? = some b → a.name = some name → b.name = some name → i = j
  live : ∀ (i : ClientId) (state : ClientState), s.clients[i]? = some state →
    state.handshaked = true ∧ state.connected = true
  proxy : ∀ (i : ClientId) (state : ClientState), s.clients[i]? = some state →
    state.bindAs.isSome = true → state.name = none ∧ state.pid = none ∧ state.joined = ∅ ∧
      state.awaitOffsets = ∅ ∧ state.inboxOffsets = ∅
  named : ∀ (i : ClientId) (state : ClientState), s.clients[i]? = some state →
    state.name.isSome = true → ∃ pid, state.pid = some pid ∧ pid ≠ 0
  parked : ∀ i : ClientId, i ∈ s.pendingAwaits →
    ∃ state identity, s.clients[i]? = some state ∧ effectiveIdentity state = .ok identity

variable {s s' : BrokerState} {name : String}

variable {client holder : ClientId} {change : ClientState → ClientState} {K : Text}

namespace StateInvariant

theorem new (startedAt : Nat) : StateInvariant (BrokerState.new startedAt) where
  unique _ _ _ _ _ stored := by simp [BrokerState.new] at stored
  live _ _ stored := by simp [BrokerState.new] at stored
  proxy _ _ stored := by simp [BrokerState.new] at stored
  named _ _ stored := by simp [BrokerState.new] at stored
  parked _ member := by simp [BrokerState.new] at member

theorem of_quiet (inv : StateInvariant s) (quiet : Quiet s s') : StateInvariant s' where
  unique i j a b name storedI storedJ namedI namedJ := by
    obtain ⟨a', storedI, coreI⟩ := quiet.earlier storedI
    obtain ⟨b', storedJ, coreJ⟩ := quiet.earlier storedJ
    exact inv.unique i j a' b' name storedI storedJ ((name_of_core coreI).symm.trans namedI)
      ((name_of_core coreJ).symm.trans namedJ)
  live i state stored := by
    obtain ⟨before, stored, core⟩ := quiet.earlier stored
    change state.core.handshaked = true ∧ state.core.connected = true
    rw [core]
    exact inv.live i before stored
  proxy i state stored bound := by
    obtain ⟨before, earlier, core⟩ := quiet.earlier stored
    change state.core.bindAs.isSome = true at bound
    rw [core] at bound
    obtain ⟨name, pid, joined, await, inbox⟩ := inv.proxy i before earlier bound
    obtain ⟨awaitSame, inboxSame⟩ := quiet.offsets i before state earlier stored name
    have pidSame : state.core.pid = before.core.pid := by rw [core]
    have joinedSame : state.core.joined = before.core.joined := by rw [core]
    exact ⟨(name_of_core core).trans name, pidSame.trans pid, joinedSame.trans joined,
      awaitSame.trans await, inboxSame.trans inbox⟩
  named i state stored isNamed := by
    obtain ⟨before, stored, core⟩ := quiet.earlier stored
    rw [name_of_core core] at isNamed
    have pidSame : state.core.pid = before.core.pid := by rw [core]
    obtain ⟨pid, found, positive⟩ := inv.named i before stored isNamed
    exact ⟨pid, pidSame.trans found, positive⟩
  parked i member := by
    have before : ∃ state identity, s.clients[i]? = some state ∧
        effectiveIdentity state = .ok identity := by
      rcases quiet.pending i member with member | found
      · exact inv.parked i member
      · exact found
    obtain ⟨state, identity, stored, identified⟩ := before
    obtain ⟨state', stored, core⟩ := quiet.later stored
    exact ⟨state', identity, stored, (effectiveIdentity_of_core core).trans identified⟩

/-! ## One lemma per kind of step -/

theorem hello (inv : StateInvariant s) (env : BrokerEnv) (bindAs : Option String)
    (fresh : s.clients[client]?.any ClientState.handshaked = false) :
    StateInvariant { s with clients := s.clients.insert client (freshClient env bindAs) } := by
  -- every stored client is handshaked, so the connection is not stored yet
  have absent : s.clients[client]? = none := by
    cases stored : s.clients[client]? with
    | none => rfl
    | some state => simp [stored, (inv.live client state stored).1] at fresh
  have cases' : ∀ (i : ClientId) (state : ClientState),
      (s.clients.insert client (freshClient env bindAs))[i]? = some state →
        state = freshClient env bindAs ∨ s.clients[i]? = some state := by
    intro i state stored
    rw [lookup_insert] at stored
    split at stored
    · exact Or.inl (Option.some.inj stored).symm
    · exact Or.inr stored
  refine ⟨?_, ?_, ?_, ?_, ?_⟩
  · intro i j a b name storedI storedJ namedI namedJ
    rcases cases' i a storedI with rfl | storedI
    · simp [freshClient] at namedI
    · rcases cases' j b storedJ with rfl | storedJ
      · simp [freshClient] at namedJ
      · exact inv.unique i j a b name storedI storedJ namedI namedJ
  · intro i state stored
    rcases cases' i state stored with rfl | stored
    · exact ⟨rfl, rfl⟩
    · exact inv.live i state stored
  · intro i state stored bound
    rcases cases' i state stored with rfl | stored
    · exact ⟨rfl, rfl, rfl, rfl, rfl⟩
    · exact inv.proxy i state stored bound
  · intro i state stored isNamed
    rcases cases' i state stored with rfl | stored
    · simp [freshClient] at isNamed
    · exact inv.named i state stored isNamed
  · intro i member
    obtain ⟨state, identity, stored, identified⟩ := inv.parked i member
    refine ⟨state, identity, ?_, identified⟩
    rw [lookup_insert, if_neg]
    · exact stored
    · rintro rfl
      rw [absent] at stored
      cases stored

theorem register (inv : StateInvariant s) (env : BrokerEnv) {state : ClientState} {pid : Nat}
    (cwd : Option String) (listen : Bool) (origin : Option Origin) (offset : Nat)
    (stored : s.clients[client]? = some state) (positive : pid ≠ 0) (unbound : state.bindAs = none)
    (free : nameTaken s client name = false) :
    StateInvariant
      (s.updateClient client (registerClient env name pid cwd listen origin offset)) := by
  have others : ∀ (i : ClientId) (found : ClientState), s.clients[i]? = some found →
      found.name = some name → i = client := by
    intro i found storedI namedI
    by_contra differ
    have taken : nameTaken s client name = true :=
      (any_toList_iff s.clients fun id state => id != client && holds name state).mpr
        ⟨i, found, storedI, by
          simp [differ, holds_iff, (inv.live i found storedI).2, namedI]⟩
    rw [free] at taken
    cases taken
  have cases' : ∀ (i : ClientId) (found : ClientState),
      (s.updateClient client
        (registerClient env name pid cwd listen origin offset)).clients[i]? = some found →
      (i = client ∧ found = registerClient env name pid cwd listen origin offset state) ∨
        (i ≠ client ∧ s.clients[i]? = some found) := by
    intro i found storedI
    rw [getElem?_updateClient] at storedI
    split at storedI
    · rename_i same
      subst same
      rw [stored, Option.map_some, Option.some.injEq] at storedI
      exact Or.inl ⟨rfl, storedI.symm⟩
    · rename_i differ
      exact Or.inr ⟨Ne.symm differ, storedI⟩
  refine ⟨?_, ?_, ?_, ?_, ?_⟩
  · intro i j a b held storedI storedJ namedI namedJ
    rcases cases' i a storedI with ⟨rfl, rfl⟩ | ⟨differI, earlierI⟩
    · rcases cases' j b storedJ with ⟨rfl, _⟩ | ⟨differJ, storedJ⟩
      · rfl
      · simp only [registerClient, Option.some.injEq] at namedI
        exact absurd (others j b storedJ (namedI ▸ namedJ)) differJ
    · rcases cases' j b storedJ with ⟨same, rfl⟩ | ⟨_, storedJ⟩
      · simp only [registerClient, Option.some.injEq] at namedJ
        exact absurd (others i a earlierI (namedJ ▸ namedI)) differI
      · exact inv.unique i j a b held earlierI storedJ namedI namedJ
  · intro i found storedI
    rcases cases' i found storedI with ⟨_, rfl⟩ | ⟨_, storedI⟩
    · exact ⟨(inv.live client state stored).1, rfl⟩
    · exact inv.live i found storedI
  · intro i found storedI bound
    rcases cases' i found storedI with ⟨_, rfl⟩ | ⟨_, storedI⟩
    · simp [registerClient, unbound] at bound
    · exact inv.proxy i found storedI bound
  · intro i found storedI isNamed
    rcases cases' i found storedI with ⟨_, rfl⟩ | ⟨_, storedI⟩
    · exact ⟨pid, rfl, positive⟩
    · exact inv.named i found storedI isNamed
  · intro i member
    obtain ⟨found, identity, storedI, identified⟩ := inv.parked i member
    by_cases same : client = i
    · subst same
      refine ⟨registerClient env name pid cwd listen origin offset state, name, ?_, rfl⟩
      rw [getElem?_updateClient, if_pos rfl, stored, Option.map_some]
    · exact ⟨found, identity, by rw [getElem?_updateClient, if_neg same, storedI], identified⟩

/-- A change of the channels and cursors of a connection that holds a name. -/
theorem changeHolder (inv : StateInvariant s) (named : Named s holder)
    (clients : s'.clients = s.clients.modify holder change)
    (pending : s'.pendingAwaits = s.pendingAwaits)
    (keeps : ∀ state, (change state).handshaked = state.handshaked ∧
      (change state).connected = state.connected ∧ (change state).name = state.name ∧
      (change state).pid = state.pid ∧ (change state).bindAs = state.bindAs) :
    StateInvariant s' := by
  have cases' : ∀ (i : ClientId) (found : ClientState), s'.clients[i]? = some found →
      ∃ state, s.clients[i]? = some state ∧
        ((i = holder ∧ found = change state) ∨ found = state) := by
    intro i found stored
    rw [clients, lookup_modify] at stored
    split at stored
    · rename_i same
      obtain ⟨state, earlier, rfl⟩ := Option.map_eq_some_iff.mp stored
      exact ⟨state, earlier, Or.inl ⟨same.symm, rfl⟩⟩
    · exact ⟨found, stored, Or.inr rfl⟩
  have nameSame : ∀ {i : ClientId} {found state : ClientState},
      ((i = holder ∧ found = change state) ∨ found = state) → found.name = state.name := by
    rintro i found state (⟨_, rfl⟩ | rfl)
    · exact (keeps state).2.2.1
    · rfl
  refine ⟨?_, ?_, ?_, ?_, ?_⟩
  · intro i j a b name storedI storedJ namedI namedJ
    obtain ⟨a', storedI, changedI⟩ := cases' i a storedI
    obtain ⟨b', storedJ, changedJ⟩ := cases' j b storedJ
    rw [nameSame changedI] at namedI
    rw [nameSame changedJ] at namedJ
    exact inv.unique i j a' b' name storedI storedJ namedI namedJ
  · intro i found stored
    obtain ⟨state, earlier, ⟨_, rfl⟩ | rfl⟩ := cases' i found stored
    · rw [(keeps state).1, (keeps state).2.1]
      exact inv.live i state earlier
    · exact inv.live i found earlier
  · intro i found stored bound
    obtain ⟨state, earlier, ⟨rfl, rfl⟩ | rfl⟩ := cases' i found stored
    · rw [(keeps state).2.2.2.2] at bound
      exact absurd (inv.proxy i state earlier bound).1 (named state earlier)
    · exact inv.proxy i found earlier bound
  · intro i found stored isNamed
    obtain ⟨state, earlier, ⟨_, rfl⟩ | rfl⟩ := cases' i found stored
    · rw [(keeps state).2.2.1] at isNamed
      rw [(keeps state).2.2.2.1]
      exact inv.named i state earlier isNamed
    · exact inv.named i found earlier isNamed
  · intro i member
    rw [pending] at member
    obtain ⟨state, identity, stored, identified⟩ := inv.parked i member
    by_cases same : holder = i
    · subst same
      refine ⟨change state, identity, by rw [clients, lookup_modify, if_pos rfl, stored]; rfl, ?_⟩
      rw [← identified]
      simp only [effectiveIdentity, (keeps state).2.2.1, (keeps state).2.2.2.2]
    · exact ⟨state, identity, by rw [clients, lookup_modify, if_neg same, stored], identified⟩

theorem disconnect (inv : StateInvariant s) (client : ClientId) :
    StateInvariant (disconnect s client).1 := by
  have kept : ∀ (i : ClientId) (state : ClientState),
      (Famp.Bus.disconnect s client).1.clients[i]? = some state → s.clients[i]? = some state := by
    intro i state stored
    rw [disconnect_clients, lookup_erase] at stored
    split at stored
    · cases stored
    · exact stored
  refine ⟨?_, ?_, ?_, ?_, ?_⟩
  · intro i j a b name storedI storedJ
    exact inv.unique i j a b name (kept i a storedI) (kept j b storedJ)
  · intro i state stored
    exact inv.live i state (kept i state stored)
  · intro i state stored
    exact inv.proxy i state (kept i state stored)
  · intro i state stored
    exact inv.named i state (kept i state stored)
  · intro i member
    rw [disconnect_pendingAwaits, ExtTreeMap.mem_erase] at member
    obtain ⟨state, identity, stored, identified⟩ := inv.parked i member.2
    refine ⟨state, identity, ?_, identified⟩
    rw [disconnect_clients, lookup_erase, if_neg, stored]
    exact fun same => member.1 (Std.compare_eq_iff_eq.mpr same)

theorem reap : ∀ (dead : List ClientId) (acc : BrokerState × List Out), StateInvariant acc.1 →
    StateInvariant (dead.foldl disconnectStep acc).1
  | [], _, inv => inv
  | client :: rest, acc, inv => reap rest (disconnectStep acc client) (inv.disconnect client)

theorem step {env : BrokerEnv} {input : BrokerInput} (inv : StateInvariant s)
    (taken : Transition K env s input s') : StateInvariant s' := by
  cases taken with
  | quiet quiet => exact inv.of_quiet quiet
  | hello fresh _ => exact inv.hello env _ fresh
  | register stored positive unbound free _ _ =>
    exact inv.register env _ _ _ _ stored positive unbound free
  | join quiet _ holder _ _ =>
    exact (inv.of_quiet quiet).changeHolder (Named.of_canonicalHolderId holder) rfl rfl
      fun _ => ⟨rfl, rfl, rfl, rfl, rfl⟩
  | leave quiet _ holder =>
    exact (inv.of_quiet quiet).changeHolder (Named.of_canonicalHolderId holder) rfl rfl
      fun _ => ⟨rfl, rfl, rfl, rfl, rfl⟩
  | disconnect => exact inv.disconnect _
  | tick quiet => exact (reap (deadClients env s) (s, []) inv).of_quiet quiet

theorem of_run {trace : List (Event BrokerState Call (List Out))}
    (run : (brokerMachine K).Run trace s) : StateInvariant s := by
  refine run.invariant StateInvariant ?_ ?_
  · rintro _ ⟨startedAt, rfl⟩
    exact new startedAt
  · intro s call outs s' inv taken
    exact inv.step (handle_transition taken)

end StateInvariant

/-! ## Holders of names -/

def HoldsName (s : BrokerState) (id : ClientId) (name : String) : Prop :=
  ∃ state, s.clients[id]? = some state ∧ state.connected = true ∧ state.name = some name

theorem HoldsName.of_canonicalHolderId (found : canonicalHolderId s name = some holder) :
    HoldsName s holder name :=
  canonicalHolderId_some found

theorem HoldsName.unique (inv : StateInvariant s) {i j : ClientId} (first : HoldsName s i name)
    (second : HoldsName s j name) : i = j := by
  obtain ⟨a, storedI, _, namedI⟩ := first
  obtain ⟨b, storedJ, _, namedJ⟩ := second
  exact inv.unique i j a b name storedI storedJ namedI namedJ

theorem HoldsName.canonicalHolderId (inv : StateInvariant s) {id : ClientId}
    (holder : HoldsName s id name) : canonicalHolderId s name = some id := by
  obtain ⟨state, stored, connected, named⟩ := holder
  refine findKey?_eq_of_unique stored (holds_iff.mpr ⟨connected, named⟩) ?_
  intro other found storedOther passes
  exact inv.unique other id found state name storedOther stored (holds_iff.mp passes).2 named

theorem HoldsName.of_core {a b : ClientState} (same : a.core = b.core)
    (held : a.connected = true ∧ a.name = some name) : b.connected = true ∧ b.name = some name := by
  change b.core.connected = true ∧ b.core.name = some name
  rw [← same]
  exact held

theorem Quiet.holdsName_iff (quiet : Quiet s s') (id : ClientId) (name : String) :
    HoldsName s' id name ↔ HoldsName s id name := by
  constructor
  · rintro ⟨state, stored, held⟩
    obtain ⟨before, stored, core⟩ := quiet.earlier stored
    exact ⟨before, stored, HoldsName.of_core core held⟩
  · rintro ⟨state, stored, held⟩
    obtain ⟨after, stored, core⟩ := quiet.later stored
    exact ⟨after, stored, HoldsName.of_core core.symm held⟩

theorem holdsName_modify {target : ClientId} (clients : s'.clients = s.clients.modify target change)
    (keeps : ∀ state, (change state).connected = state.connected ∧
      (change state).name = state.name) (id : ClientId) (name : String) :
    HoldsName s' id name ↔ HoldsName s id name := by
  simp only [HoldsName, clients, lookup_modify]
  by_cases same : target = id
  · subst same
    cases s.clients[target]? with
    | none => simp
    | some state => simp [keeps state]
  · simp [same]

theorem Quiet.canonicalHolderId_eq (quiet : Quiet s s') (inv : StateInvariant s) (name : String) :
    canonicalHolderId s' name = canonicalHolderId s name := by
  cases found : Famp.Bus.canonicalHolderId s' name with
  | some holder =>
    have held := (quiet.holdsName_iff holder name).mp (HoldsName.of_canonicalHolderId found)
    exact (held.canonicalHolderId inv).symm
  | none =>
    cases before : Famp.Bus.canonicalHolderId s name with
    | none => rfl
    | some holder =>
      have held := (quiet.holdsName_iff holder name).mpr (HoldsName.of_canonicalHolderId before)
      rw [held.canonicalHolderId (inv.of_quiet quiet)] at found
      cases found

theorem Quiet.proxyHolderAlive_eq (quiet : Quiet s s') (env : BrokerEnv) (bound : String) :
    proxyHolderAlive env s' bound = proxyHolderAlive env s bound := by
  have passes : ∀ {a b : ClientState}, a.core = b.core →
      (holds bound a && a.pid.any env.isAlive) = (holds bound b && b.pid.any env.isAlive) := by
    intro a b core
    change (holds bound a.core && a.core.pid.any env.isAlive) = _
    rw [core]
    rfl
  rw [Bool.eq_iff_iff]
  unfold proxyHolderAlive
  rw [any_toList_iff s'.clients fun _ state => holds bound state && state.pid.any env.isAlive,
    any_toList_iff s.clients fun _ state => holds bound state && state.pid.any env.isAlive]
  constructor
  · rintro ⟨id, state, stored, alive⟩
    obtain ⟨before, stored, core⟩ := quiet.earlier stored
    exact ⟨id, before, stored, (passes core).symm.trans alive⟩
  · rintro ⟨id, state, stored, alive⟩
    obtain ⟨after, stored, core⟩ := quiet.later stored
    exact ⟨id, after, stored, (passes core).trans alive⟩

theorem Quiet.resolveOpIdentity_eq (quiet : Quiet s s') (env : BrokerEnv) (client : ClientId) :
    resolveOpIdentity env s' client = resolveOpIdentity env s client := by
  unfold resolveOpIdentity
  cases stored : s.clients[client]? with
  | none => rw [quiet.absent stored]
  | some state =>
    obtain ⟨after, storedAfter, core⟩ := quiet.later stored
    have connected : after.core.connected = state.core.connected := by rw [core]
    have connectedSame : after.connected = state.connected := connected
    simp only [storedAfter, connectedSame, effectiveIdentity_of_core core, name_of_core core,
      quiet.proxyHolderAlive_eq env]

/-- The holder that a request finds is the one that was there before it. -/
theorem holder_untouched {env : BrokerEnv} {client other holder : ClientId} {name : String}
    (inv : StateInvariant s)
    (resolved : resolveOpIdentity env (touchActivity env s client) other = .ok name)
    (held : canonicalHolderId (touchActivity env s client) name = some holder) :
    resolveOpIdentity env s other = .ok name ∧ canonicalHolderId s name = some holder := by
  have quiet := touchActivity_quiet env s client
  rw [quiet.resolveOpIdentity_eq] at resolved
  rw [quiet.canonicalHolderId_eq inv] at held
  exact ⟨resolved, held⟩

/-! ## Dead fallbacks -/

theorem inbox_ne_none (K : Text) (env : BrokerEnv) (s : BrokerState) (client : ClientId)
    (since : Option Nat) : inbox K env s client since ≠ none := by
  intro panics
  unfold inbox at panics
  dsimp only at panics
  split at panics
  · cases panics
  · rename_i name resolved
    obtain ⟨holder, holds⟩ := exists_holder_of_resolveOpIdentity resolved
    split at panics
    · cases panics
    · simp only [holds] at panics
      split at panics
      · cases panics
      · split at panics <;> cases panics

theorem handle_ne_none (K : Text) (env : BrokerEnv) (s : BrokerState) (input : BrokerInput)
    (now : Nat) : handle K env s input now ≠ none := by
  cases input with
  | disconnect client => exact Option.some_ne_none _
  | tick => exact Option.some_ne_none _
  | wire client msg =>
    simp only [handle, handleWire]
    split
    · exact Option.some_ne_none _
    · split
      · exact Option.some_ne_none _
      · cases msg <;>
          first
          | exact inbox_ne_none K env _ client _
          | exact Option.some_ne_none _

/-! ## The run of a list of calls -/

/-- The result of one call, which is always there. -/
def respond (K : Text) (s : BrokerState) (call : Call) : BrokerState × List Out :=
  (handle K call.env s call.input call.now).getD (s, [])

theorem handle_eq_respond (K : Text) (s : BrokerState) (call : Call) :
    handle K call.env s call.input call.now = some (respond K s call) := by
  obtain ⟨result, handled⟩ :=
    Option.ne_none_iff_exists'.mp (handle_ne_none K call.env s call.input call.now)
  simp only [respond, handled, Option.getD_some]

def stateAfter (K : Text) (s : BrokerState) : List Call → BrokerState
  | [] => s
  | call :: rest => stateAfter K (respond K s call).1 rest

def eventsOf (K : Text) (s : BrokerState) : List Call → List (Event BrokerState Call (List Out))
  | [] => []
  | call :: rest =>
    ⟨s, call, (respond K s call).2, (respond K s call).1⟩ :: eventsOf K (respond K s call).1 rest

theorem input_mem_of_eventsOf (K : Text) : ∀ {calls : List Call} {s : BrokerState}
    {event : BrokerEvent}, event ∈ eventsOf K s calls → event.input ∈ calls
  | [], _, _, member => by cases member
  | call :: rest, s, event, member => by
    rcases List.mem_cons.mp member with rfl | later
    · exact List.mem_cons_self ..
    · exact List.mem_cons_of_mem _ (input_mem_of_eventsOf K later)

theorem eventsOf_append (K : Text) : ∀ (calls more : List Call) (s : BrokerState),
    eventsOf K s (calls ++ more) = eventsOf K s calls ++ eventsOf K (stateAfter K s calls) more
  | [], _, _ => rfl
  | call :: rest, more, s => by
    simp only [List.cons_append, eventsOf, stateAfter, eventsOf_append K rest more]

theorem run_append_calls (K : Text) : ∀ (calls : List Call)
    {trace : List (Event BrokerState Call (List Out))} {s : BrokerState},
    (brokerMachine K).Run trace s →
      (brokerMachine K).Run (trace ++ eventsOf K s calls) (stateAfter K s calls)
  | [], trace, s, run => by simpa only [eventsOf, stateAfter, List.append_nil] using run
  | call :: rest, trace, s, run => by
    have first : (brokerMachine K).Run
        (trace ++ [⟨s, call, (respond K s call).2, (respond K s call).1⟩]) (respond K s call).1 :=
      run.step (handle_eq_respond K s call)
    have more := run_append_calls K rest first
    rwa [List.append_assoc] at more

theorem run_calls (K : Text) (startedAt : Nat) (calls : List Call) :
    (brokerMachine K).Run (eventsOf K (BrokerState.new startedAt) calls)
      (stateAfter K (BrokerState.new startedAt) calls) :=
  run_append_calls K calls (.start ⟨startedAt, rfl⟩)

/-! ## The invariant and what follows from it -/

/-- Every state of every run satisfies the invariant.  Wherever an identity
resolves it has a holder, also in the states between the parts of one call, so
no fallback to the calling connection is taken and no call panics. -/
theorem reachable_state_invariant {K : Text} {trace : List (Event BrokerState Call (List Out))}
    {s : BrokerState} (run : (brokerMachine K).Run trace s) :
    StateInvariant s ∧
      (∀ (t : BrokerState) (env : BrokerEnv) (client : ClientId) (identity : String),
        resolveOpIdentity env t client = .ok identity →
          ∃ holder, canonicalHolderId t identity = some holder ∧
            (canonicalHolderId t identity).getD client = holder ∧
            resolveAwaitOwner env t client = .ok (identity, holder)) ∧
      ∀ (env : BrokerEnv) (input : BrokerInput) (now : Nat), handle K env s input now ≠ none := by
  refine ⟨StateInvariant.of_run run, ?_, fun env => handle_ne_none K env s⟩
  intro t env client identity resolved
  obtain ⟨holder, holds⟩ := exists_holder_of_resolveOpIdentity resolved
  refine ⟨holder, holds, by rw [holds, Option.getD_some], ?_⟩
  simp only [resolveAwaitOwner, resolved, holds, Option.getD_some]

/-- Mailboxes without records, and processes that are all alive. -/
def emptyEnv : BrokerEnv where
  drainFrom _ since := .ok ⟨[], since⟩
  isAlive _ := true
  wallClock := 7

/-- One connection holds a name, a proxy of it parks a request, and another
connection takes a second name. -/
def proxyCalls : List Call :=
  [.wire 1 (.hello 3 "cli" none), .wire 1 (.register "alice" 11 none true (some .local)),
    .wire 2 (.hello 3 "cli" (some "alice")), .wire 2 (.await 1000 none),
    .wire 3 (.hello 3 "cli" none), .wire 3 (.register "bob" 12 none false none)].map
    fun input => ⟨emptyEnv, input, 5⟩

theorem proxyCalls_state_invariant :
    let s := stateAfter Plain.text (BrokerState.new 0) proxyCalls
    StateInvariant s ∧ 2 ∈ s.pendingAwaits ∧
      resolveAwaitOwner emptyEnv s 2 = .ok ("alice", 1) := by
  have facts := reachable_state_invariant (run_calls Plain.text 0 proxyCalls)
  obtain ⟨holder, found, _, owner⟩ := facts.2.1
    (stateAfter Plain.text (BrokerState.new 0) proxyCalls) emptyEnv 2 "alice" (by decide +kernel)
  have first : canonicalHolderId (stateAfter Plain.text (BrokerState.new 0) proxyCalls) "alice" =
      some 1 := by decide +kernel
  rw [first, Option.some.injEq] at found
  subst found
  exact ⟨facts.1, by decide +kernel, owner⟩

end Famp.Bus
