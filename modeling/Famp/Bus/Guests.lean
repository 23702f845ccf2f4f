import Famp.Bus.StateInvariant

/-!
# Guests

A guest is a connection that holds no name and waits for nothing.  `Beside` relates a
state to the same state with guests besides, up to the times of the last activity.  Every
input of another connection has the same effects in both, and leaves them related.
-/

set_option autoImplicit false

namespace Famp.Bus

open Famp.Core Json Data Std

/-! ## States with guests -/

/-- A connection that was active at another time. -/
def ClientState.activeAt (time : Nat) (state : ClientState) : ClientState :=
  { state with lastActivity := time }

abbrev Clients := ExtTreeMap ClientId ClientState

/-- The second map has the connections of the first, and guests without a name. -/
structure GuestsAmong (guest : ClientId → Prop) (clients clients' : Clients) : Prop where
  others : ∀ id, ¬guest id → ∃ time, clients'[id]? = clients[id]?.map (ClientState.activeAt time)
  absent : ∀ id, guest id → clients[id]? = none
  nameless : ∀ id state, guest id → clients'[id]? = some state → state.name = none ∧ state.pid = none

structure Beside (guest : ClientId → Prop) (s s' : BrokerState) : Prop extends
    GuestsAmong guest s.clients s'.clients where
  channels : s'.channels = s.channels
  roles : s'.channelRoles = s.channelRoles
  pending : s'.pendingAwaits = s.pendingAwaits
  unparked : ∀ id, guest id → s.pendingAwaits[id]? = none

variable {client id owner : ClientId} {acc acc' : BrokerState × List Out} {env : BrokerEnv}

variable {change : ClientState → ClientState} {name : String} {sender : ClientId}
  {guest : ClientId → Prop} {s s' : BrokerState}

namespace GuestsAmong
variable {guest : ClientId → Prop} {clients clients' : Clients}

omit clients clients' in
theorem apart {key : ClientId} (isGuest : guest key) (other : ¬guest id) : id ≠ key := by
  rintro rfl
  exact other isGuest

theorem modify (among : GuestsAmong guest clients clients') (id : ClientId)
    (commutes : ∀ time state, ∃ time', change (state.activeAt time) = (change state).activeAt time')
    (other : ¬guest id) :
    GuestsAmong guest (clients.modify id change) (clients'.modify id change) where
  others key notGuest := by
    obtain ⟨time, shown⟩ := among.others key notGuest
    rw [lookup_modify, lookup_modify, shown]
    split
    · cases clients[key]? with
      | none => exact ⟨time, rfl⟩
      | some state =>
        obtain ⟨time', same⟩ := commutes time state
        exact ⟨time', congrArg some same⟩
    · exact ⟨time, rfl⟩
  absent key isGuest := by
    rw [lookup_modify, among.absent key isGuest, Option.map_none, ite_self]
  nameless key state isGuest stored := by
    rw [lookup_modify, if_neg (apart isGuest other)] at stored
    exact among.nameless key state isGuest stored

theorem touch (among : GuestsAmong guest clients clients') (other : ¬guest id) (time : Nat) :
    GuestsAmong guest clients (clients'.modify id (ClientState.activeAt time)) where
  others key notGuest := by
    obtain ⟨earlier, shown⟩ := among.others key notGuest
    rw [lookup_modify, shown]
    split
    · exact ⟨time, by rw [Option.map_map]; rfl⟩
    · exact ⟨earlier, rfl⟩
  absent := among.absent
  nameless key state isGuest stored := by
    rw [lookup_modify, if_neg (apart isGuest other)] at stored
    exact among.nameless key state isGuest stored

theorem insert (among : GuestsAmong guest clients clients') (other : ¬guest id)
    (state : ClientState) :
    GuestsAmong guest (clients.insert id state) (clients'.insert id state) where
  others key notGuest := by
    obtain ⟨time, shown⟩ := among.others key notGuest
    rw [lookup_insert, lookup_insert, shown]
    split
    · exact ⟨state.lastActivity, rfl⟩
    · exact ⟨time, rfl⟩
  absent key isGuest := by
    rw [lookup_insert, if_neg (apart isGuest other), among.absent key isGuest]
  nameless key found isGuest stored := by
    rw [lookup_insert, if_neg (apart isGuest other)] at stored
    exact among.nameless key found isGuest stored

theorem insertGuest (among : GuestsAmong guest clients clients') (isGuest : guest id)
    {state : ClientState} (nameless : state.name = none) (pidless : state.pid = none) :
    GuestsAmong guest clients (clients'.insert id state) where
  others key notGuest := by
    rw [lookup_insert, if_neg (apart isGuest notGuest).symm]
    exact among.others key notGuest
  absent := among.absent
  nameless key found guest stored := by
    rw [lookup_insert] at stored
    split at stored
    · cases stored
      exact ⟨nameless, pidless⟩
    · exact among.nameless key found guest stored

theorem erase (among : GuestsAmong guest clients clients') (id : ClientId) :
    GuestsAmong guest (clients.erase id) (clients'.erase id) where
  others key notGuest := by
    obtain ⟨time, shown⟩ := among.others key notGuest
    rw [lookup_erase, lookup_erase, shown]
    split <;> exact ⟨time, rfl⟩
  absent key isGuest := by
    rw [lookup_erase, among.absent key isGuest, ite_self]
  nameless key state isGuest stored := by
    rw [lookup_erase] at stored
    split at stored
    · cases stored
    · exact among.nameless key state isGuest stored

theorem eraseGuest (among : GuestsAmong guest clients clients') (isGuest : guest id) :
    GuestsAmong guest clients (clients'.erase id) where
  others key notGuest := by
    rw [lookup_erase, if_neg (apart isGuest notGuest).symm]
    exact among.others key notGuest
  absent := among.absent
  nameless key state guest stored := by
    rw [lookup_erase] at stored
    split at stored
    · cases stored
    · exact among.nameless key state guest stored

end GuestsAmong

namespace Beside
variable {guest : ClientId → Prop} {s s' : BrokerState}

theorem new (startedAt startedAt' : Nat) :
    Beside guest (BrokerState.new startedAt) (BrokerState.new startedAt') where
  channels := rfl
  roles := rfl
  pending := rfl
  others id _ := ⟨0, by simp [BrokerState.new]⟩
  absent id _ := by simp [BrokerState.new]
  nameless id state _ stored := by simp [BrokerState.new] at stored
  unparked id _ := by simp [BrokerState.new]

/-! ## Reading all connections -/

/-- What shows neither the time of a connection nor a guest is seen alike. -/
theorem bind_eq (beside : Beside guest s s') {γ : Type} {view : ClientState → Option γ}
    (timeless : ∀ time state, view (state.activeAt time) = view state)
    (blind : ∀ state, state.name = none → state.pid = none → view state = none) (id : ClientId) :
    s'.clients[id]?.bind view = s.clients[id]?.bind view := by
  by_cases isGuest : guest id
  · rw [beside.absent id isGuest]
    cases stored : s'.clients[id]? with
    | none => rfl
    | some state =>
      obtain ⟨nameless, pidless⟩ := beside.nameless id state isGuest stored
      exact blind state nameless pidless
  · obtain ⟨time, shown⟩ := beside.others id isGuest
    rw [shown]
    cases s.clients[id]? with
    | none => rfl
    | some state => exact timeless time state

theorem any_eq (beside : Beside guest s s') {test : ClientState → Bool}
    (timeless : ∀ time state, test (state.activeAt time) = test state)
    (blind : ∀ state, state.name = none → state.pid = none → test state = false) (id : ClientId) :
    s'.clients[id]?.any test = s.clients[id]?.any test := by
  have shown : ∀ found : Option ClientState,
      found.any test = (found.bind fun state => if test state then some () else none).isSome := by
    intro found
    cases found with
    | none => rfl
    | some state => cases passes : test state <;> simp [passes]
  rw [shown, shown, beside.bind_eq (fun time state => by rw [timeless]) fun state nameless pidless => by
    rw [blind state nameless pidless]; rfl]

theorem filterMap_eq (beside : Beside guest s s') {γ : Type} {view : ClientId → ClientState → Option γ}
    (timeless : ∀ id time state, view id (state.activeAt time) = view id state)
    (blind : ∀ id state, state.name = none → state.pid = none → view id state = none) :
    (s'.clients.toList.filterMap fun entry => view entry.1 entry.2) =
      s.clients.toList.filterMap fun entry => view entry.1 entry.2 :=
  filterMap_toList_congr fun id => beside.bind_eq (timeless id) (blind id) id

theorem anyEntry_eq (beside : Beside guest s s') {test : ClientId → ClientState → Bool}
    (timeless : ∀ id time state, test id (state.activeAt time) = test id state)
    (blind : ∀ id state, state.name = none → state.pid = none → test id state = false) :
    (s'.clients.toList.any fun entry => test entry.1 entry.2) =
      s.clients.toList.any fun entry => test entry.1 entry.2 := by
  have seen : ∀ id, s'.clients[id]?.any (test id) = s.clients[id]?.any (test id) := fun id =>
    beside.any_eq (timeless id) (blind id) id
  have found : ∀ (t : BrokerState), (t.clients.toList.any fun entry => test entry.1 entry.2) = true ↔
      ∃ id, t.clients[id]?.any (test id) = true := by
    intro t
    rw [any_toList_iff]
    constructor
    · rintro ⟨id, state, stored, passes⟩
      exact ⟨id, by simp [stored, passes]⟩
    · rintro ⟨id, passes⟩
      cases stored : t.clients[id]? with
      | none => simp [stored] at passes
      | some state => exact ⟨id, state, stored, by simpa [stored] using passes⟩
  rw [Bool.eq_iff_iff, found, found]
  simp only [seen]

theorem holds_blind (bound : String) (state : ClientState) (nameless : state.name = none) :
    holds bound state = false := by
  simp [holds, nameless]

theorem canonicalHolderId_eq (beside : Beside guest s s') (name : String) :
    canonicalHolderId s' name = canonicalHolderId s name :=
  findKey?_congr fun id => beside.any_eq (fun _ _ => rfl)
    (fun state nameless _ => holds_blind name state nameless) id

theorem proxyHolderAlive_eq (beside : Beside guest s s') (env : BrokerEnv) (bound : String) :
    proxyHolderAlive env s' bound = proxyHolderAlive env s bound :=
  @anyEntry_eq _ _ _ beside (fun _ state => holds bound state && state.pid.any env.isAlive)
    (fun _ _ _ => rfl) fun _ state nameless _ => by rw [holds_blind bound state nameless]; rfl

theorem nameTaken_eq (beside : Beside guest s s') (client : ClientId) (name : String) :
    nameTaken s' client name = nameTaken s client name :=
  @anyEntry_eq _ _ _ beside (fun id state => id != client && holds name state)
    (fun _ _ _ => rfl) fun _ state nameless _ => by rw [holds_blind name state nameless, Bool.and_false]

theorem connectedNames_eq (beside : Beside guest s s') : connectedNames s' = connectedNames s :=
  @filterMap_eq _ _ _ beside _ (fun _ state => if state.connected then state.name else none)
    (fun _ _ _ => rfl) fun _ state nameless _ => by rw [nameless, ite_self]

/-- The row of a connection in the reply to `sessions`. -/
def sessionRow (state : ClientState) : Option SessionRow :=
  if state.connected then
    match state.name, state.pid with
    | some name, some pid => some ⟨name, pid, state.joined.toList⟩
    | _, _ => none
  else none

theorem sessions_eq (beside : Beside guest s s') (client : ClientId) :
    sessions s' client = sessions s client := by
  unfold sessions
  congr 3
  refine @filterMap_eq _ _ _ beside _ (fun _ => sessionRow) (fun _ _ _ => rfl) fun _ _ nameless _ => ?_
  rw [sessionRow, nameless, ite_self]

theorem deadClients_eq (beside : Beside guest s s') (env : BrokerEnv) :
    deadClients env s' = deadClients env s :=
  @filterMap_eq _ _ _ beside _
    (fun id state => state.pid.bind fun pid => if env.isAlive pid then none else some id)
    (fun _ _ _ => rfl) fun _ state _ pidless => by rw [pidless]; rfl

/-! ## Reading one connection -/

theorem holder_not_guest (beside : Beside guest s s') {holder : ClientId}
    (found : canonicalHolderId s name = some holder) : ¬guest holder := by
  intro isGuest
  obtain ⟨state, stored, -⟩ := canonicalHolderId_some found
  rw [beside.absent holder isGuest] at stored
  cases stored

theorem resolveOpIdentity_eq (beside : Beside guest s s') (env : BrokerEnv) (other : ¬guest client) :
    resolveOpIdentity env s' client = resolveOpIdentity env s client := by
  obtain ⟨time, shown⟩ := beside.others client other
  simp only [resolveOpIdentity, shown]
  cases s.clients[client]? with
  | none => rfl
  | some state =>
    simp only [Option.map_some, beside.proxyHolderAlive_eq env]
    rfl

theorem resolveAwaitOwner_eq (beside : Beside guest s s') (env : BrokerEnv) (other : ¬guest client) :
    resolveAwaitOwner env s' client = resolveAwaitOwner env s client := by
  simp only [resolveAwaitOwner, beside.resolveOpIdentity_eq env other, beside.canonicalHolderId_eq]

theorem owner_not_guest (beside : Beside guest s s') {identity : String}
    (resolved : resolveAwaitOwner env s client = .ok (identity, owner)) : ¬guest owner :=
  beside.holder_not_guest (resolveAwaitOwner_ok resolved).2

section Owner
variable {owner : ClientId} (other : ¬guest owner)
include other

theorem awaitOffset_eq (beside : Beside guest s s') (mailbox : MailboxName) :
    awaitOffset s' owner mailbox = awaitOffset s owner mailbox := by
  obtain ⟨time, shown⟩ := beside.others owner other
  simp only [awaitOffset, shown]
  cases s.clients[owner]? <;> rfl

theorem inboxOffset_eq (beside : Beside guest s s') (mailbox : MailboxName) :
    inboxOffset s' owner mailbox = inboxOffset s owner mailbox := by
  obtain ⟨time, shown⟩ := beside.others owner other
  simp only [inboxOffset, shown]
  cases s.clients[owner]? <;> rfl

theorem joined_eq (beside : Beside guest s s') :
    s'.clients[owner]?.map (fun state => state.joined.toList) =
      s.clients[owner]?.map fun state => state.joined.toList := by
  obtain ⟨time, shown⟩ := beside.others owner other
  rw [shown, Option.map_map]
  rfl

theorem awaitMailboxes_eq (beside : Beside guest s s') (identity : String) :
    awaitMailboxes s' owner identity = awaitMailboxes s owner identity := by
  obtain ⟨time, shown⟩ := beside.others owner other
  simp only [awaitMailboxes, shown]
  cases s.clients[owner]? <;> rfl

theorem awaiterIdentity_eq (beside : Beside guest s s') (mailbox : MailboxName) :
    awaiterIdentity s' owner mailbox = awaiterIdentity s owner mailbox := by
  obtain ⟨time, shown⟩ := beside.others owner other
  simp only [awaiterIdentity, shown]
  cases s.clients[owner]? <;> rfl

theorem drainAwaitBatch_eq (beside : Beside guest s s') (K : Text) (env : BrokerEnv)
    (mailbox : MailboxName) (filter : AwaitFilter) (trigger : Option Trigger) :
    drainAwaitBatch K env s' owner mailbox filter trigger =
      drainAwaitBatch K env s owner mailbox filter trigger := by
  simp only [drainAwaitBatch, beside.awaitOffset_eq other, beside.awaiterIdentity_eq other]

theorem drainChannels_eq (beside : Beside guest s s') (K : Text) (env : BrokerEnv) (name : String) :
    ∀ channels, drainChannels K env s' owner name channels = drainChannels K env s owner name channels
  | [] => rfl
  | channel :: rest => by
    simp only [drainChannels, beside.inboxOffset_eq other, drainChannels_eq beside K env name rest]

end Owner

theorem clientOrigin_eq (beside : Beside guest s s') (other : ¬guest client) :
    clientOrigin s' client = clientOrigin s client := by
  have origin : ∀ bound, ((canonicalHolderId s bound).bind fun id => s'.clients[id]?).map ClientState.origin =
      ((canonicalHolderId s bound).bind fun id => s.clients[id]?).map ClientState.origin := by
    intro bound
    cases found : canonicalHolderId s bound with
    | none => rfl
    | some holder =>
      obtain ⟨time, shown⟩ := beside.others holder (beside.holder_not_guest found)
      rw [Option.bind_some, Option.bind_some, shown, Option.map_map]
      rfl
  obtain ⟨time, shown⟩ := beside.others client other
  simp only [clientOrigin, shown]
  cases s.clients[client]? with
  | none => rfl
  | some state =>
    simp only [Option.map_some, beside.canonicalHolderId_eq, origin]
    rfl

theorem recipientWakeAddr_eq (beside : Beside guest s s') (name : String) (origin : Origin) :
    recipientWakeAddr s' name origin = recipientWakeAddr s name origin := by
  simp only [recipientWakeAddr, beside.canonicalHolderId_eq]
  cases found : canonicalHolderId s name with
  | none => rfl
  | some holder =>
    obtain ⟨time, shown⟩ := beside.others holder (beside.holder_not_guest found)
    simp only [Option.bind_some, shown]
    cases s.clients[holder]? <;> rfl

theorem waitsFor_eq (beside : Beside guest s s') (env : BrokerEnv) (name : String) (time : Nat)
    (state : ClientState) : waitsFor env s' name (state.activeAt time) = waitsFor env s name state := by
  simp only [waitsFor, beside.proxyHolderAlive_eq env]
  rfl

theorem parked_not_guest (beside : Beside guest s s') {parked : ParkedAwait}
    (stored : s.pendingAwaits[id]? = some parked) : ¬guest id := by
  intro isGuest
  rw [beside.unparked id isGuest] at stored
  cases stored

theorem waiting_not_guest (beside : Beside guest s s') {envelope : Value} {origin : Origin} :
    ∀ waiting ∈ waitingClientsForName env s name envelope origin, ¬guest waiting := by
  intro waiting member
  unfold waitingClientsForName at member
  split at member
  · cases member
  · obtain ⟨⟨id, parked⟩, entry, selected⟩ := List.mem_filterMap.mp member
    have other := beside.parked_not_guest ((mem_toList_iff s.pendingAwaits id parked).mp entry)
    dsimp only at selected
    split at selected
    · cases selected
    · split at selected
      · cases selected
        exact other
      · cases selected

theorem waitingClientsForName_eq (beside : Beside guest s s') (env : BrokerEnv) (name : String)
    (envelope : Value) (origin : Origin) :
    waitingClientsForName env s' name envelope origin = waitingClientsForName env s name envelope origin := by
  unfold waitingClientsForName
  rw [beside.pending]
  congr 1
  refine List.filterMap_congr ?_
  rintro ⟨id, parked⟩ member
  obtain ⟨time, shown⟩ :=
    beside.others id (beside.parked_not_guest ((mem_toList_iff s.pendingAwaits id parked).mp member))
  dsimp only
  rw [shown]
  cases s.clients[id]? with
  | none => rfl
  | some state =>
    simp only [Option.map_some, beside.waitsFor_eq env]
    rfl

theorem update (beside : Beside guest s s') (other : ¬guest id)
    (commutes : ∀ time state, ∃ time', change (state.activeAt time) =
      (change state).activeAt time') :
    Beside guest (s.updateClient id change) (s'.updateClient id change) where
  toGuestsAmong := beside.toGuestsAmong.modify id commutes other
  channels := beside.channels
  roles := beside.roles
  pending := beside.pending
  unparked := beside.unparked

theorem setAwaitOffset (beside : Beside guest s s') (other : ¬guest owner) (mailbox : MailboxName)
    (offset : Nat) :
    Beside guest (setAwaitOffset s owner mailbox offset) (setAwaitOffset s' owner mailbox offset) :=
  beside.update other fun time _ => ⟨time, rfl⟩

theorem setInboxOffset (beside : Beside guest s s') (other : ¬guest owner)
    (advance : MailboxName × Nat) :
    Beside guest (setInboxOffset s owner advance) (setInboxOffset s' owner advance) :=
  beside.update other fun time _ => ⟨time, rfl⟩

theorem setInboxOffsets (other : ¬guest owner) :
    ∀ (advances : List (MailboxName × Nat)) {s s' : BrokerState}, Beside guest s s' →
      Beside guest (advances.foldl (fun s advance => Famp.Bus.setInboxOffset s owner advance) s)
        (advances.foldl (fun s advance => Famp.Bus.setInboxOffset s owner advance) s')
  | [], _, _, beside => beside
  | advance :: rest, _, _, beside => setInboxOffsets other rest (beside.setInboxOffset other advance)

theorem touchActivity (beside : Beside guest s s') (env : BrokerEnv) (other : ¬guest client) :
    Beside guest (touchActivity env s client) (touchActivity env s' client) := by
  obtain ⟨time, shown⟩ := beside.others client other
  unfold Famp.Bus.touchActivity
  rw [shown]
  cases stored : s.clients[client]? with
  | none => exact beside
  | some state =>
    have bound : state.bindAs.bind (canonicalHolderId s') = state.bindAs.bind (canonicalHolderId s) := by
      rw [funext beside.canonicalHolderId_eq]
    simp only [Option.map_some, ClientState.activeAt, bound]
    generalize found : (if (!state.connected) = true then none
      else if state.name.isSome = true then some client
      else state.bindAs.bind (canonicalHolderId s)) = target
    cases target with
    | none => exact beside
    | some target =>
      have holder : ¬guest target := by
        split at found
        · cases found
        · split at found
          · cases found
            exact other
          · obtain ⟨name, -, held⟩ := Option.bind_eq_some_iff.mp found
            exact beside.holder_not_guest held
      exact beside.update holder fun _ _ => ⟨env.wallClock, rfl⟩

theorem unpark (beside : Beside guest s s') (client : ClientId) :
    Beside guest { s with pendingAwaits := s.pendingAwaits.erase client }
      { s' with pendingAwaits := s'.pendingAwaits.erase client } where
  toGuestsAmong := beside.toGuestsAmong
  channels := beside.channels
  roles := beside.roles
  pending := by rw [beside.pending]
  unparked id isGuest := by
    rw [lookup_erase, beside.unparked id isGuest, ite_self]

theorem park (beside : Beside guest s s') (other : ¬guest client) (parked : ParkedAwait) :
    Beside guest { s with pendingAwaits := s.pendingAwaits.insert client parked }
      { s' with pendingAwaits := s'.pendingAwaits.insert client parked } where
  toGuestsAmong := beside.toGuestsAmong
  channels := beside.channels
  roles := beside.roles
  pending := by rw [beside.pending]
  unparked id isGuest := by
    rw [lookup_insert, if_neg (GuestsAmong.apart isGuest other), beside.unparked id isGuest]

theorem changeChannels (beside : Beside guest s s')
    (change : ExtTreeMap String (ExtTreeSet String) → ExtTreeMap String (ExtTreeSet String)) :
    Beside guest { s with channels := change s.channels } { s' with channels := change s'.channels } where
  toGuestsAmong := beside.toGuestsAmong
  channels := by rw [beside.channels]
  roles := beside.roles
  pending := beside.pending
  unparked := beside.unparked

theorem drop (beside : Beside guest s s') (client : ClientId) :
    Beside guest (dropClient s client) (dropClient s' client) where
  toGuestsAmong := beside.toGuestsAmong.erase client
  channels := beside.channels
  roles := beside.roles
  pending := (beside.unpark client).pending
  unparked := (beside.unpark client).unparked

end Beside

/-! ## Answers -/

/-- Two results with the same answer, the second in a state with guests. -/
structure Alike {α : Type} (guest : ClientId → Prop) (result result' : BrokerState × α) : Prop where
  beside : Beside guest result.1 result'.1
  answer : result'.2 = result.2

namespace Alike
variable {guest : ClientId → Prop} {s s' : BrokerState}

theorem foldl {α : Type} {turn : BrokerState × List Out → α → BrokerState × List Out} {items : List α}
    (each : ∀ item ∈ items, ∀ acc acc', Alike guest acc acc' → Alike guest (turn acc item) (turn acc' item)) :
    ∀ {acc acc' : BrokerState × List Out}, Alike guest acc acc' →
      Alike guest (items.foldl turn acc) (items.foldl turn acc') := by
  induction items with
  | nil => exact fun alike => alike
  | cons item rest ih =>
    intro acc acc' alike
    exact ih (fun other later => each other (List.mem_cons_of_mem _ later))
      (each item (List.mem_cons_self ..) _ _ alike)

end Alike

section Handlers
variable {guest : ClientId → Prop} {s s' : BrokerState} (beside : Beside guest s s')
variable (K : Text) (env : BrokerEnv)
include beside

theorem hello_alike (other : ¬guest client) (busProto : Nat) (bindAs : Option String) :
    Alike guest (hello env s client busProto bindAs) (hello env s' client busProto bindAs) := by
  have stored : ∀ state, Beside guest { s with clients := s.clients.insert client state }
      { s' with clients := s'.clients.insert client state } := fun state =>
    { beside with toGuestsAmong := beside.toGuestsAmong.insert other state }
  unfold hello
  split
  · exact ⟨beside, rfl⟩
  · split
    · rw [beside.proxyHolderAlive_eq env]
      split
      · exact ⟨stored _, rfl⟩
      · exact ⟨beside, rfl⟩
    · exact ⟨stored _, rfl⟩

theorem register_alike (other : ¬guest client) (name : String) (pid : Nat) (cwd : Option String)
    (listen : Bool) (origin : Option Origin) :
    Alike guest (register K env s client name pid cwd listen origin)
      (register K env s' client name pid cwd listen origin) := by
  obtain ⟨time, shown⟩ := beside.others client other
  have bound : (s'.clients[client]?.any fun state => state.bindAs.isSome) =
      s.clients[client]?.any fun state => state.bindAs.isSome := by
    rw [shown]
    cases s.clients[client]? <;> rfl
  unfold register
  rw [bound, beside.nameTaken_eq, beside.connectedNames_eq]
  split
  · exact ⟨beside, rfl⟩
  · split
    · exact ⟨beside, rfl⟩
    · split
      · exact ⟨beside, rfl⟩
      · split
        · exact ⟨beside, rfl⟩
        · rename_i drained _
          dsimp only
          split
          · exact ⟨beside, rfl⟩
          · rw [shown]
            cases s.clients[client]? with
            | none => exact ⟨beside, rfl⟩
            | some state => exact ⟨beside.update other fun _ _ => ⟨env.wallClock, rfl⟩, rfl⟩

theorem awaitReplyForMailbox_alike (other : ¬guest client) (mailbox : MailboxName)
    (filter : AwaitFilter) (trigger : Option Trigger) :
    Alike guest (awaitReplyForMailbox K env s client mailbox filter trigger)
      (awaitReplyForMailbox K env s' client mailbox filter trigger) := by
  unfold awaitReplyForMailbox
  rw [beside.resolveAwaitOwner_eq env other]
  split
  · exact ⟨beside, rfl⟩
  · rename_i owner resolved
    have owns := beside.owner_not_guest resolved
    rw [beside.drainAwaitBatch_eq owns]
    split
    · exact ⟨beside, rfl⟩
    · exact ⟨beside.setAwaitOffset owns mailbox _, rfl⟩

omit beside in
theorem wakeWaiter_alike (mailbox : MailboxName) (trigger : Trigger) (waiting : ClientId)
    (alike : Alike guest acc acc') :
    Alike guest (wakeWaiter K env mailbox trigger acc waiting)
      (wakeWaiter K env mailbox trigger acc' waiting) := by
  unfold wakeWaiter
  rw [alike.beside.pending]
  cases stored : acc.1.pendingAwaits[waiting]? with
  | none => exact alike
  | some parked =>
    have reply := awaitReplyForMailbox_alike (alike.beside.unpark waiting) K env
      (alike.beside.parked_not_guest stored) mailbox parked.filter (some trigger)
    rw [alike.beside.pending] at reply
    exact ⟨reply.beside, by simp only [alike.answer, reply.answer]⟩

omit beside in
theorem wakeMember_alike (channel : String) (trigger : Trigger) (member : String)
    (alike : Alike guest acc acc') :
    Alike guest (wakeMember K env channel trigger acc member)
      (wakeMember K env channel trigger acc' member) := by
  unfold wakeMember
  rw [alike.beside.waitingClientsForName_eq]
  split
  · exact alike
  · exact Alike.foldl (fun waiting _ _ _ alike => wakeWaiter_alike K env _ trigger waiting alike) alike

theorem wokenWaiterIsCanonicalHolder_eq (name : String) {waiters : List ClientId}
    (others : ∀ waiting ∈ waiters, ¬guest waiting) :
    wokenWaiterIsCanonicalHolder env s' name waiters = wokenWaiterIsCanonicalHolder env s name waiters := by
  rw [Bool.eq_iff_iff]
  simp only [wokenWaiterIsCanonicalHolder, List.any_eq_true]
  refine exists_congr fun waiting => and_congr_right fun member => ?_
  rw [beside.resolveAwaitOwner_eq env (others waiting member)]

theorem sendAgent_alike (other : ¬guest sender) (name : String) (envelope : Value) (line : Bytes) :
    Alike guest (sendAgent K env s sender name envelope line) (sendAgent K env s' sender name envelope line) := by
  unfold sendAgent
  dsimp only
  rw [beside.clientOrigin_eq other, beside.waitingClientsForName_eq, beside.recipientWakeAddr_eq,
    wokenWaiterIsCanonicalHolder_eq beside env name beside.waiting_not_guest]
  split
  · exact ⟨beside, rfl⟩
  · rename_i stamped _
    have appended : Alike guest (s, [Out.appendMailbox (.agent name) line (clientOrigin s sender)])
        (s', [.appendMailbox (.agent name) line (clientOrigin s sender)]) := ⟨beside, rfl⟩
    have woken := @Alike.foldl guest _ _ (waitingClientsForName env s name envelope (clientOrigin s sender))
      (fun waiting _ _ _ alike => wakeWaiter_alike K env (.agent name)
        ⟨clientOrigin s sender, envelope, stamped.length⟩ waiting alike) _ _ appended
    exact ⟨woken.beside, by rw [woken.answer]⟩

theorem sendChannel_alike (other : ¬guest sender) (name : String) (envelope : Value)
    (line : Bytes) : Alike guest (sendChannel K env s sender name envelope line)
      (sendChannel K env s' sender name envelope line) := by
  unfold sendChannel
  rw [beside.clientOrigin_eq other, beside.channels]
  dsimp only
  split
  · exact ⟨beside, rfl⟩
  · rename_i stamped _
    have appended : Alike guest (s, [Out.appendMailbox (.channel name) line (clientOrigin s sender)])
        (s', [.appendMailbox (.channel name) line (clientOrigin s sender)]) := ⟨beside, rfl⟩
    have woken := @Alike.foldl guest _ _ (s.channels[name]?.getD ∅).toList
      (fun member _ _ _ alike => wakeMember_alike K env name
        ⟨clientOrigin s sender, envelope, stamped.length⟩ member alike) _ _ appended
    exact ⟨woken.beside, by rw [woken.answer]⟩

theorem send_alike (other : ¬guest client) (target : Target) (envelope : Value) :
    Alike guest (send K env s client target envelope) (send K env s' client target envelope) := by
  unfold send
  rw [beside.resolveOpIdentity_eq env other]
  split
  · exact ⟨beside, rfl⟩
  · split
    · exact ⟨beside, rfl⟩
    · split
      · exact ⟨beside, rfl⟩
      · split
        · exact sendAgent_alike beside K env other _ envelope _
        · exact sendChannel_alike beside K env other _ envelope _

omit beside in
theorem awaitLoop_alike (client : ClientId) (owns : ¬guest owner) (filter : AwaitFilter) :
    ∀ (mailboxes : List MailboxName) {s s' : BrokerState}, Beside guest s s' →
      Alike guest (awaitLoop K env client owner filter mailboxes s)
        (awaitLoop K env client owner filter mailboxes s')
  | [], _, _, beside => ⟨beside, rfl⟩
  | mailbox :: rest, s, s', beside => by
    unfold awaitLoop
    rw [beside.drainAwaitBatch_eq owns, beside.awaitOffset_eq owns]
    split
    · exact ⟨beside, rfl⟩
    · rename_i batch _
      have moved : Beside guest
          (if batch.nextOffset ≠ awaitOffset s owner mailbox then
            setAwaitOffset s owner mailbox batch.nextOffset else s)
          (if batch.nextOffset ≠ awaitOffset s owner mailbox then
            setAwaitOffset s' owner mailbox batch.nextOffset else s') := by
        split
        · exact beside.setAwaitOffset owns mailbox _
        · exact beside
      dsimp only
      split
      · exact awaitLoop_alike client owns filter rest moved
      · exact ⟨moved, rfl⟩

theorem awaitEnvelope_alike (other : ¬guest client) (timeoutMs : Nat) (task : Option Uuid)
    (now : Nat) :
    Alike guest (awaitEnvelope K env s client timeoutMs task now)
      (awaitEnvelope K env s' client timeoutMs task now) := by
  unfold awaitEnvelope
  rw [beside.resolveAwaitOwner_eq env other]
  split
  · exact ⟨beside, rfl⟩
  · rename_i identity owner resolved
    have owns := beside.owner_not_guest resolved
    rw [beside.awaitMailboxes_eq owns]
    have loop := awaitLoop_alike K env client owns ((task.map AwaitFilter.task).getD .any)
      (awaitMailboxes s owner identity) beside
    dsimp only
    cases run : awaitLoop K env client owner ((task.map AwaitFilter.task).getD .any)
        (awaitMailboxes s owner identity) s with
    | mk t answer =>
      cases run' : awaitLoop K env client owner ((task.map AwaitFilter.task).getD .any)
          (awaitMailboxes s owner identity) s' with
      | mk t' answer' =>
        rw [run, run'] at loop
        obtain rfl : answer' = answer := loop.answer
        cases answer' with
        | some outs => exact ⟨loop.beside, rfl⟩
        | none => exact ⟨loop.beside.park other _, rfl⟩

theorem inbox_alike (other : ¬guest client) (since : Option Nat) :
    (inbox K env s client since = none ∧ inbox K env s' client since = none) ∨
      ∃ result result', inbox K env s client since = some result ∧
        inbox K env s' client since = some result' ∧ Alike guest result result' := by
  unfold inbox
  rw [beside.resolveOpIdentity_eq env other]
  split
  · exact .inr ⟨_, _, rfl, rfl, beside, rfl⟩
  · rename_i name _
    dsimp only
    split
    · exact .inr ⟨_, _, rfl, rfl, beside, rfl⟩
    · rw [beside.canonicalHolderId_eq]
      cases found : canonicalHolderId s name with
      | none => exact .inl ⟨rfl, rfl⟩
      | some owner =>
        have owns := beside.holder_not_guest found
        dsimp only
        rw [beside.joined_eq owns, beside.drainChannels_eq owns]
        split
        · exact .inr ⟨_, _, rfl, rfl, beside, rfl⟩
        · split
          · exact .inr ⟨_, _, rfl, rfl, beside, rfl⟩
          · exact .inr ⟨_, _, rfl, rfl, Beside.setInboxOffsets owns _ beside, rfl⟩

theorem prospectiveMembers_eq (channel name : String) (role : Option String) :
    prospectiveMembers s' channel name role = prospectiveMembers s channel name role := by
  simp only [prospectiveMembers, beside.channels, beside.roles]

theorem join_alike (other : ¬guest client) (channel : String) (role : Option String) :
    Alike guest (join K env s client channel role) (join K env s' client channel role) := by
  unfold join
  rw [beside.resolveOpIdentity_eq env other]
  cases resolved : resolveOpIdentity env s client with
  | error _ => exact ⟨beside, rfl⟩
  | ok name =>
    obtain ⟨holder, held⟩ := exists_holder_of_resolveOpIdentity resolved
    have owns := beside.holder_not_guest held
    dsimp only
    rw [beside.canonicalHolderId_eq, held, prospectiveMembers_eq beside]
    split
    · exact ⟨beside, rfl⟩
    · rename_i drained _
      split
      · exact ⟨beside, rfl⟩
      · refine ⟨?_, rfl⟩
        exact { beside with
          toGuestsAmong := beside.toGuestsAmong.modify holder (fun time _ => ⟨time, rfl⟩) owns
          channels := by simp only [commitJoin, beside.channels]
          roles := by simp only [commitJoin, beside.roles] }

theorem leave_alike (other : ¬guest client) (channel : String) :
    Alike guest (leave env s client channel) (leave env s' client channel) := by
  unfold leave
  rw [beside.resolveOpIdentity_eq env other]
  cases resolved : resolveOpIdentity env s client with
  | error _ => exact ⟨beside, rfl⟩
  | ok name =>
    obtain ⟨holder, held⟩ := exists_holder_of_resolveOpIdentity resolved
    have owns := beside.holder_not_guest held
    dsimp only
    rw [beside.canonicalHolderId_eq, held]
    refine ⟨?_, rfl⟩
    exact { beside with
      toGuestsAmong := beside.toGuestsAmong.modify holder (fun time _ => ⟨time, rfl⟩) owns
      channels := by simp only [commitLeave, beside.channels]
      roles := by simp only [commitLeave, beside.roles] }

theorem whoami_eq (other : ¬guest client) : whoami env s' client = whoami env s client := by
  have joined : ∀ bound, (((canonicalHolderId s bound).bind fun id => s'.clients[id]?).map fun holder =>
      holder.joined.toList) = ((canonicalHolderId s bound).bind fun id => s.clients[id]?).map fun holder =>
      holder.joined.toList := by
    intro bound
    cases found : canonicalHolderId s bound with
    | none => rfl
    | some holder => exact beside.joined_eq (beside.holder_not_guest found)
  obtain ⟨time, shown⟩ := beside.others client other
  unfold whoami
  rw [shown]
  cases s.clients[client]? with
  | none => rfl
  | some state =>
    simp only [Option.map_some, beside.proxyHolderAlive_eq env, beside.canonicalHolderId_eq, joined]
    rfl

theorem slotOwner_alike (other : ¬guest client) (op : String) :
    (∃ reply, slotOwner s client op = .error reply ∧ slotOwner s' client op = .error reply) ∨
      ∃ state state', slotOwner s client op = .ok state ∧ slotOwner s' client op = .ok state' := by
  obtain ⟨time, shown⟩ := beside.others client other
  unfold slotOwner
  rw [shown]
  cases s.clients[client]? with
  | none => exact .inl ⟨_, rfl, rfl⟩
  | some state =>
    simp only [Option.map_some, ClientState.activeAt]
    split
    · exact .inl ⟨_, rfl, rfl⟩
    · split
      · exact .inl ⟨_, rfl, rfl⟩
      · split
        · exact .inl ⟨_, rfl, rfl⟩
        · exact .inr ⟨_, _, rfl, rfl⟩

theorem setListen_alike (other : ¬guest client) (listen : Bool) :
    Alike guest (setListen env s client listen) (setListen env s' client listen) := by
  unfold setListen
  rcases slotOwner_alike beside other "set_listen" with ⟨reply, refused, refused'⟩ | ⟨_, _, held, held'⟩
  · rw [refused, refused']
    exact ⟨beside, rfl⟩
  · rw [held, held']
    exact ⟨beside.update other fun _ _ => ⟨env.wallClock, rfl⟩, rfl⟩

theorem setWakeAddr_alike (other : ¬guest client) (wakeAddr : Option String) :
    Alike guest (setWakeAddr env s client wakeAddr) (setWakeAddr env s' client wakeAddr) := by
  unfold setWakeAddr
  rcases slotOwner_alike beside other "set_wake_addr" with ⟨reply, refused, refused'⟩ | ⟨_, _, held, held'⟩
  · rw [refused, refused']
    exact ⟨beside, rfl⟩
  · rw [held, held']
    exact ⟨beside.update other fun _ _ => ⟨env.wallClock, rfl⟩, rfl⟩

theorem disconnect_alike (other : ¬guest client) :
    Alike guest (disconnect s client) (disconnect s' client) := by
  obtain ⟨time, shown⟩ := beside.others client other
  have snapshot : s'.clients[client]?.bind sessionSnapshot = s.clients[client]?.bind sessionSnapshot := by
    rw [shown]
    cases s.clients[client]? <;> rfl
  unfold disconnect
  rw [snapshot]
  split
  · exact ⟨(beside.changeChannels _).drop client, rfl⟩
  · exact ⟨beside.drop client, rfl⟩

omit beside in
theorem disconnectStep_alike (other : ¬guest client) (alike : Alike guest acc acc') :
    Alike guest (disconnectStep acc client) (disconnectStep acc' client) := by
  have ended := disconnect_alike alike.beside other
  exact ⟨ended.beside, by simp only [disconnectStep, alike.answer, ended.answer]⟩

omit beside in
theorem expireStep_alike (client : ClientId) (alike : Alike guest acc acc') :
    Alike guest (expireStep acc client) (expireStep acc' client) :=
  ⟨alike.beside.unpark client, by simp only [expireStep, alike.answer]⟩

theorem tick_alike (now : Nat) : Alike guest (tick env s now) (tick env s' now) := by
  have reaped : Alike guest ((deadClients env s).foldl disconnectStep (s, []))
      ((deadClients env s).foldl disconnectStep (s', [])) := by
    refine Alike.foldl ?_ ⟨beside, rfl⟩
    intro client dead _ _ alike
    refine disconnectStep_alike ?_ alike
    obtain ⟨⟨id, state⟩, entry, selected⟩ := List.mem_filterMap.mp dead
    obtain ⟨pid, -, gone⟩ := Option.bind_eq_some_iff.mp selected
    have stored := (mem_toList_iff s.clients id state).mp entry
    split at gone
    · cases gone
    · cases gone
      intro isGuest
      rw [beside.absent _ isGuest] at stored
      cases stored
  unfold tick
  rw [beside.deadClients_eq env]
  dsimp only
  rw [reaped.beside.pending]
  exact Alike.foldl (fun client _ _ _ alike => expireStep_alike client alike) reaped

end Handlers

theorem dispatch_alike (K : Text) (env : BrokerEnv) (other : ¬guest client) (now : Nat)
    (msg : BusMessage) (beside : Beside guest s s') :
    (dispatch K env s client now msg = none ∧ dispatch K env s' client now msg = none) ∨
      ∃ result result', dispatch K env s client now msg = some result ∧
        dispatch K env s' client now msg = some result' ∧ Alike guest result result' := by
  cases msg with
  | hello busProto label bindAs =>
    exact .inr ⟨_, _, rfl, rfl, hello_alike beside env other busProto bindAs⟩
  | register name pid cwd listen origin =>
    exact .inr ⟨_, _, rfl, rfl, register_alike beside K env other name pid cwd listen origin⟩
  | send target envelope => exact .inr ⟨_, _, rfl, rfl, send_alike beside K env other target envelope⟩
  | inbox since _ => exact inbox_alike beside K env other since
  | await timeoutMs task =>
    exact .inr ⟨_, _, rfl, rfl, awaitEnvelope_alike beside K env other timeoutMs task now⟩
  | join channel role => exact .inr ⟨_, _, rfl, rfl, join_alike beside K env other channel role⟩
  | leave channel => exact .inr ⟨_, _, rfl, rfl, leave_alike beside env other channel⟩
  | sessions => exact .inr ⟨_, _, rfl, rfl, beside, beside.sessions_eq client⟩
  | whoami => exact .inr ⟨_, _, rfl, rfl, beside, whoami_eq beside env other⟩
  | inspect kind => exact .inr ⟨_, _, rfl, rfl, beside, rfl⟩
  | setListen listen => exact .inr ⟨_, _, rfl, rfl, setListen_alike beside env other listen⟩
  | setWakeAddr wakeAddr => exact .inr ⟨_, _, rfl, rfl, setWakeAddr_alike beside env other wakeAddr⟩

/-- The input comes from no guest. -/
def BrokerInput.spares (guest : ClientId → Prop) : BrokerInput → Prop
  | .wire client _ | .disconnect client => ¬guest client
  | .tick => True

/-- An input of a connection that is no guest has the same effects with guests besides. -/
theorem handle_alike {t t' : BrokerState} {K : Text} {input : BrokerInput} {now : Nat}
    {outs outs' : List Out} (beside : Beside guest s s') (spares : input.spares guest)
    (taken : handle K env s input now = some (t, outs))
    (taken' : handle K env s' input now = some (t', outs')) : Beside guest t t' ∧ outs' = outs := by
  cases input with
  | wire client msg =>
    obtain ⟨time, shown⟩ := beside.others client spares
    have handshaked : s'.clients[client]?.any ClientState.handshaked =
        s.clients[client]?.any ClientState.handshaked := by
      rw [shown]
      cases s.clients[client]? <;> rfl
    simp only [handle, handleWire, handshaked] at taken taken'
    split at taken
    next refused =>
      rw [if_pos refused] at taken'
      cases taken
      cases taken'
      exact ⟨beside, rfl⟩
    next accepted =>
      rw [if_neg accepted] at taken'
      split at taken
      next refused =>
        rw [if_pos refused] at taken'
        cases taken
        cases taken'
        exact ⟨beside, rfl⟩
      next opened =>
        rw [if_neg opened] at taken'
        have both := dispatch_alike K env spares now msg
          (show Beside guest (if msg.defersActivity then s else touchActivity env s client)
              (if msg.defersActivity then s' else touchActivity env s' client) by
            split
            · exact beside
            · exact beside.touchActivity env spares)
        rcases both with ⟨stuck, -⟩ | ⟨result, result', done, done', alike⟩
        · rw [taken] at stuck
          cases stuck
        · rw [taken] at done
          rw [taken'] at done'
          cases done
          cases done'
          exact ⟨alike.beside, alike.answer⟩
  | disconnect client =>
    have ended := disconnect_alike beside spares
    rw [show disconnect s client = (t, outs) from Option.some.inj taken,
      show disconnect s' client = (t', outs') from Option.some.inj taken'] at ended
    exact ⟨ended.beside, ended.answer⟩
  | tick =>
    have ticked := tick_alike beside env now
    rw [show tick env s now = (t, outs) from Option.some.inj taken,
      show tick env s' now = (t', outs') from Option.some.inj taken'] at ticked
    exact ⟨ticked.beside, ticked.answer⟩

end Famp.Bus
