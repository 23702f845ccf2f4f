import Famp.Bus.Wake

/-!
# Cursors

What an input does to the cursors that the broker keeps for the holder of a name:
one for each mailbox that an `Await` reads, and one for each channel that an
`Inbox` reads.
-/

set_option autoImplicit false

namespace Famp.Bus

open Famp.Core Json Data Std

/-- The stored cursor of an `Inbox`, if there is one. -/
def inboxCursor (s : BrokerState) (owner : ClientId) (mailbox : MailboxName) : Option Nat :=
  s.clients[owner]?.bind fun state => state.inboxOffsets[mailbox]?

theorem joined_nodup (state : ClientState) : state.joined.toList.Nodup :=
  ExtTreeSet.distinct_toList.imp fun differ same => differ (Std.compare_eq_iff_eq.mpr same)

theorem inboxOffset_eq (s : BrokerState) (owner : ClientId) (mailbox : MailboxName) :
    inboxOffset s owner mailbox = (inboxCursor s owner mailbox).getD 0 := rfl

/-! ## What a connection keeps -/

variable {owner holder client : ClientId} {s s' t : BrokerState} {state : ClientState}
  {env : BrokerEnv} {mailbox : MailboxName} {K : Text} {name channel : String} {outs : List Out}
  {offset now : Nat}

variable {change : ClientState → ClientState} {result : Option (List Out)} {role : Option String}
  {input : BrokerInput}

section Kept
variable {α : Type} {field : ClientState → Option α}

theorem bind_updateClient (s : BrokerState) (id owner : ClientId)
    (keeps : ∀ state, field (change state) = field state) :
    (s.updateClient id change).clients[owner]?.bind field = s.clients[owner]?.bind field := by
  rw [getElem?_updateClient]
  split
  · cases s.clients[owner]? with
    | none => rfl
    | some state => exact keeps state
  · rfl

theorem SettingsChange.bind_eq (change : SettingsChange s s') (owner : ClientId)
    (keeps : ∀ state listenMode wakeAddr lastActivity, field { state with
      listenMode := listenMode, wakeAddr := wakeAddr, lastActivity := lastActivity } =
        field state) : s'.clients[owner]?.bind field = s.clients[owner]?.bind field := by
  rcases change with rfl | ⟨id, change, rfl, settings⟩
  · rfl
  · refine bind_updateClient s id owner ?_
    intro state
    obtain ⟨_, _, _, same⟩ := settings state
    rw [same, keeps]

/-- A change of one entry in the map of cursors of the connection `holder`. -/
theorem bind_modify_entry {clients : ExtTreeMap ClientId ClientState}
    {cursors : ClientState → ExtTreeMap MailboxName Nat} {other : MailboxName} {entry : Option Nat}
    (stored : clients[holder]? = some state) (changed : (cursors (change state))[other]? =
      if mailbox = other then entry else (cursors state)[other]?) :
    ((clients.modify holder change)[owner]?.bind fun state => (cursors state)[other]?) =
      if holder = owner ∧ mailbox = other then entry
      else clients[owner]?.bind fun state => (cursors state)[other]? := by
  rw [lookup_modify]
  by_cases same : holder = owner
  · subst same
    simp [stored, changed]
  · simp [same]

theorem awaitLoop_bind_eq {filter : AwaitFilter} {mailboxes : List MailboxName}
    (run : awaitLoop K env client holder filter mailboxes s = (s', result)) (owner : ClientId)
    (keeps : ∀ state offsets, field { state with awaitOffsets := offsets } = field state) :
    s'.clients[owner]?.bind field = s.clients[owner]?.bind field := by
  have kept := awaitLoop_keeps
    (fun t => t.clients[owner]?.bind field = s.clients[owner]?.bind field) K env client
    holder filter (fun t mailbox offset same =>
      (bind_updateClient t holder owner fun state => keeps state _).trans same) mailboxes s rfl
  rwa [run] at kept

theorem Wakes.bind_eq {trigger : Trigger} {names : List String}
    (wakes : Wakes K env s mailbox trigger names s') (owner : ClientId)
    (keeps : ∀ state, field state.unmoved = field state) :
    s'.clients[owner]?.bind field = s.clients[owner]?.bind field := by
  have same := congrArg (Option.bind · field) (wakes.clients owner)
  have forgets : field ∘ ClientState.unmoved = field := funext keeps
  rw [Option.bind_map, Option.bind_map, forgets] at same
  exact same

theorem disconnect_lookup (s : BrokerState) (client owner : ClientId) :
    (disconnect s client).1.clients[owner]? = s.clients[owner]? ∨
      (disconnect s client).1.clients[owner]? = none := by
  rw [disconnect_clients, lookup_erase]
  split
  · exact Or.inr rfl
  · exact Or.inl rfl

theorem reap_lookup (owner : ClientId) : ∀ (dead : List ClientId) (acc : BrokerState × List Out),
    (dead.foldl disconnectStep acc).1.clients[owner]? = acc.1.clients[owner]? ∨
      (dead.foldl disconnectStep acc).1.clients[owner]? = none
  | [], _ => Or.inl rfl
  | client :: rest, acc => by
    have later := reap_lookup owner rest (disconnectStep acc client)
    rcases disconnect_lookup acc.1 client owner with kept | gone
    · exact kept ▸ later
    · exact Or.inr (later.elim (fun same => same.trans gone) id)

theorem expire_clients (expired : List ClientId) (acc : BrokerState × List Out) :
    (expired.foldl expireStep acc).1.clients = acc.1.clients := by
  induction expired generalizing acc with
  | nil => rfl
  | cons client rest ih => exact ih (expireStep acc client)

theorem tick_lookup (env : BrokerEnv) (s : BrokerState) (now : Nat) (owner : ClientId) :
    (tick env s now).1.clients[owner]? = s.clients[owner]? ∨
      (tick env s now).1.clients[owner]? = none := by
  unfold tick
  dsimp only
  rw [expire_clients]
  exact reap_lookup owner (deadClients env s) (s, [])

theorem bind_of_lookup
    (lookup : s'.clients[owner]? = s.clients[owner]? ∨ s'.clients[owner]? = none) :
    s'.clients[owner]?.bind field = s.clients[owner]?.bind field ∨
      s'.clients[owner]?.bind field = none :=
  lookup.imp (congrArg (Option.bind · field)) (congrArg (Option.bind · field))

end Kept

/-! ## Cursors of `Await` -/

/-- How the cursor of `owner` for a mailbox is moved to an offset, with the reply
that goes with it. -/
inductive Advance (K : Text) (env : BrokerEnv) (s : BrokerState) (outs : List Out)
    (owner : ClientId) : BrokerInput → MailboxName → Nat → Prop
  | register {name : String} {pid : Nat} {cwd : Option String} {listen : Bool}
      {origin : Option Origin} {drained : DrainResult} :
      env.drainFrom (.agent name) 0 = .ok drained →
      .reply owner (.registerOk name (decodeLines K 0 drained) (connectedNames s)) ∈ outs →
      Advance K env s outs owner (.wire owner (.register name pid cwd listen origin)) (.agent name)
        drained.nextOffset
  | join {client : ClientId} {channel name : String} {role : Option String}
      {members : List MemberInfo} {drained : DrainResult} :
      resolveOpIdentity env s client = .ok name → canonicalHolderId s name = some owner →
      env.drainFrom (.channel channel) 0 = .ok drained →
      .reply client (.joinOk channel members (decodeLines K 0 drained)) ∈ outs →
      Advance K env s outs owner (.wire client (.join channel role)) (.channel channel)
        drained.nextOffset
  | await {client : ClientId} {timeoutMs : Nat} {task : Option Uuid} {identity : String}
      {mailbox : MailboxName} {drained : DrainResult} {batch : AwaitBatch} :
      resolveOpIdentity env s client = .ok identity → canonicalHolderId s identity = some owner →
      mailbox ∈ awaitMailboxes s owner identity →
      env.drainFrom mailbox (awaitOffset s owner mailbox) = .ok drained →
      batch = readBatch K mailbox ((task.map AwaitFilter.task).getD .any)
        (channelReader mailbox identity) (awaitOffset s owner mailbox) drained →
      batch.envelopes = [] ∨
        .reply client (.awaitOk batch.envelopes mailbox batch.nextOffset) ∈ outs →
      Advance K env s outs owner (.wire client (.await timeoutMs task)) mailbox batch.nextOffset
  | wake {client : ClientId} {target : Target} {envelope : Value} {identity name : String}
      {line stamped : Bytes} {offset : Nat} :
      SendAccepted K env s client envelope identity line stamped →
      name ∈ recipients s envelope target → canonicalHolderId s name = some owner →
      (wakeTurns K env s target.mailbox ⟨clientOrigin s client, envelope, stamped.length⟩ name).1 =
        some offset →
      (∀ out ∈ (wakeTurns K env s target.mailbox
        ⟨clientOrigin s client, envelope, stamped.length⟩ name).2, out ∈ outs) →
      Advance K env s outs owner (.wire client (.send target envelope)) target.mailbox offset

/-- The cursor is where it was, or gone, or it was moved. -/
def CursorStep (K : Text) (env : BrokerEnv) (s s' : BrokerState) (input : BrokerInput)
    (outs : List Out) (owner : ClientId) (mailbox : MailboxName) : Prop :=
  awaitCursor s' owner mailbox = awaitCursor s owner mailbox ∨
    awaitCursor s' owner mailbox = none ∨
      ∃ offset, awaitCursor s' owner mailbox = some offset ∧
        Advance K env s outs owner input mailbox offset

theorem awaitLoop_awaitCursor (K : Text) (env : BrokerEnv) (client owner : ClientId)
    (filter : AwaitFilter) :
    ∀ (mailboxes : List MailboxName) {s s' : BrokerState} {result : Option (List Out)}
      {state : ClientState}, mailboxes.Nodup → s.clients[owner]? = some state →
      awaitLoop K env client owner filter mailboxes s = (s', result) → ∀ id mailbox,
        awaitCursor s' id mailbox = awaitCursor s id mailbox ∨
          (id = owner ∧ mailbox ∈ mailboxes ∧ ∃ drained batch,
            env.drainFrom mailbox (awaitOffset s owner mailbox) = .ok drained ∧
            batch = readBatch K mailbox filter (awaiterIdentity s owner mailbox)
              (awaitOffset s owner mailbox) drained ∧
            awaitCursor s' id mailbox = some batch.nextOffset ∧
            (batch.envelopes = [] ∨
              result = some [.reply client (.awaitOk batch.envelopes mailbox batch.nextOffset)])) := by
  intro mailboxes
  induction mailboxes with
  | nil =>
    intro s s' result state _ _ run id mailbox
    cases run
    exact Or.inl rfl
  | cons first rest ih =>
    intro s s' result state distinct stored run id mailbox
    obtain ⟨fresh, distinct⟩ := List.nodup_cons.mp distinct
    simp only [awaitLoop, drainAwaitBatch_eq, withTrigger] at run
    cases read : env.drainFrom first (awaitOffset s owner first) with
    | error error =>
      simp only [read] at run
      cases run
      exact Or.inl rfl
    | ok drained =>
      simp only [read] at run
      generalize found : readBatch K first filter (awaiterIdentity s owner first)
        (awaitOffset s owner first) drained = batch at run
      have box : batch.mailbox = first := by rw [← found]; rfl
      obtain ⟨⟨state', stored'⟩, readers, elsewhere, here⟩ :=
        storeCursor s stored first batch.nextOffset
      generalize (if batch.nextOffset ≠ awaitOffset s owner first then
        setAwaitOffset s owner first batch.nextOffset else s) = t
        at stored' readers elsewhere here run
      split at run
      · rename_i empty
        have later := ih distinct stored' run id mailbox
        by_cases this : id = owner ∧ mailbox = first
        · -- the mailbox is not read again
          obtain ⟨rfl, rfl⟩ := this
          have kept := later.resolve_right fun read => fresh read.2.1
          rw [kept]
          refine here.imp_right fun moved => ⟨rfl, List.mem_cons_self .., drained, batch, read,
            found.symm, moved, Or.inl (List.isEmpty_iff.mp empty)⟩
        · have away : id = owner → mailbox ≠ first := fun same box => this ⟨same, box⟩
          rw [elsewhere id mailbox away] at later
          refine later.imp_right ?_
          rintro ⟨rfl, member, drained, batch, read, found, moved, answered⟩
          rw [awaitOffset_eq, elsewhere id mailbox away, ← awaitOffset_eq] at read found
          rw [readers] at found
          exact ⟨rfl, List.mem_cons_of_mem _ member, drained, batch, read, found, moved, answered⟩
      · cases run
        by_cases this : id = owner ∧ mailbox = first
        · obtain ⟨rfl, rfl⟩ := this
          exact here.imp_right fun moved => ⟨rfl, List.mem_cons_self .., drained, batch, read,
            found.symm, moved, Or.inr (by rw [box])⟩
        · exact Or.inl (elsewhere id mailbox fun same box => this ⟨same, box⟩)

theorem setInboxOffsets_awaitCursor (canonical owner : ClientId) (mailbox : MailboxName) :
    ∀ (advances : List (MailboxName × Nat)) (s : BrokerState),
      awaitCursor (advances.foldl (fun s advance => setInboxOffset s canonical advance) s) owner
        mailbox = awaitCursor s owner mailbox
  | [], _ => rfl
  | advance :: rest, s => by
    rw [List.foldl_cons, setInboxOffsets_awaitCursor canonical owner mailbox rest]
    exact bind_updateClient s canonical owner fun _ => rfl

theorem commitJoin_awaitCursor (stored : t.clients[holder]? = some state) :
    awaitCursor (commitJoin t channel name holder role offset) owner mailbox =
      if holder = owner ∧ .channel channel = mailbox then some offset
      else awaitCursor t owner mailbox :=
  bind_modify_entry stored (lookup_insert ..)

theorem commitLeave_awaitCursor (stored : t.clients[holder]? = some state) :
    awaitCursor (commitLeave t channel name holder) owner mailbox =
      if holder = owner ∧ .channel channel = mailbox then none else awaitCursor t owner mailbox :=
  bind_modify_entry stored (lookup_erase ..)

/-- The cursors after the mailboxes of an `Await`, seen from the state before it. -/
theorem awaitLoop_cursorStep {identity : String} {timeoutMs : Nat} {task : Option Uuid}
    (inv : StateInvariant s)
    (resolved : resolveOpIdentity env (touchActivity env s client) client = .ok identity)
    (held : canonicalHolderId (touchActivity env s client) identity = some holder)
    (run : awaitLoop K env client holder ((task.map AwaitFilter.task).getD .any)
      (awaitMailboxes (touchActivity env s client) holder identity) (touchActivity env s client) =
        (s', result)) (answers : ∀ answer, result = some [answer] → answer ∈ outs) :
    CursorStep K env s s' (.wire client (.await timeoutMs task)) outs owner mailbox := by
  have quiet := touchActivity_quiet env s client
  obtain ⟨state, stored, _⟩ := canonicalHolderId_some held
  have loop := awaitLoop_awaitCursor K env client holder _ _
    (awaitMailboxes_nodup (touchActivity env s client) holder identity) stored run owner mailbox
  rw [touchActivity_awaitCursor] at loop
  refine loop.imp_right fun moved => Or.inr ?_
  obtain ⟨rfl, member, drained, batch, read, found, cursor, answered⟩ := moved
  rw [quiet.resolveOpIdentity_eq] at resolved
  rw [awaiterIdentity_holder held] at found
  rw [quiet.canonicalHolderId_eq inv] at held
  rw [awaitOffset_eq, touchActivity_awaitCursor, ← awaitOffset_eq] at read found
  rw [quiet.awaitMailboxes_eq] at member
  exact ⟨_, cursor, .await resolved held member read found (answered.imp_right (answers _))⟩

theorem handle_awaitCursor (inv : StateInvariant s)
    (taken : handle K env s input now = some (s', outs)) (owner : ClientId)
    (mailbox : MailboxName) : CursorStep K env s s' input outs owner mailbox := by
  cases handle_handled taken with
  | refused same _ =>
    left
    rcases same with rfl | rfl
    · rfl
    · exact touchActivity_awaitCursor env s _ owner mailbox
  | report change _ => exact Or.inl (change.bind_eq owner fun _ _ _ _ => rfl)
  | @hello client label bindAs fresh _ =>
    unfold CursorStep awaitCursor
    rw [lookup_insert]
    split
    · exact Or.inr (Or.inl (by simp [freshClient]))
    · exact Or.inl rfl
  | @register client state name pid cwd listen origin drained stored _ _ _ read _ =>
    unfold CursorStep awaitCursor
    rw [getElem?_updateClient]
    split
    · rename_i same
      subst same
      simp only [stored, Option.map_some, Option.bind_some, registerClient, lookup_insert]
      split
      · rename_i same
        subst same
        exact Or.inr (Or.inr ⟨_, rfl, .register read (List.mem_cons_self ..)⟩)
      · exact Or.inl rfl
    · exact Or.inl rfl
  | @send client target envelope identity line stamped t touched resolved own canonical small stamps =>
    subst touched
    obtain ⟨accepted, rows, outs, wakes⟩ := handled_send inv taken
      ⟨resolved, own, canonical, small, stamps⟩
    by_cases woken : ∃ name ∈ recipients s envelope target,
        canonicalHolderId s name = some owner ∧ mailbox = target.mailbox
    · obtain ⟨name, recipient, holder, rfl⟩ := woken
      have moved := wakes.moved name recipient owner holder
      cases turned : (wakeTurns K env s target.mailbox
        ⟨clientOrigin s client, envelope, stamped.length⟩ name).1 with
      | none => exact Or.inr (Or.inl (moved.trans turned))
      | some offset =>
        refine Or.inr (Or.inr ⟨offset, moved.trans turned,
          .wake accepted recipient holder turned ?_⟩)
        intro out staged
        rw [outs]
        exact List.mem_append_left _ (List.mem_cons_of_mem _
          (List.mem_flatMap.mpr ⟨name, recipient, staged⟩))
    · refine Or.inl (wakes.kept owner mailbox ?_)
      intro name recipient holder same
      exact woken ⟨name, recipient, holder, same⟩
  | inbox touched resolved _ holder _ _ =>
    left
    rw [setInboxOffsets_awaitCursor, touched, touchActivity_awaitCursor]
  | @await client holder timeoutMs task identity t _ _ touched resolved held run =>
    subst touched
    exact awaitLoop_cursorStep inv resolved held run fun answer same => by
      rw [Option.some.inj same]
      exact List.mem_singleton_self _
  | @park client holder timeoutMs task identity t t' parked touched resolved held request run =>
    subst touched request
    have loop : ∀ staged, CursorStep K env s t' (.wire client (.await timeoutMs task)) staged owner
        mailbox :=
      fun _ => awaitLoop_cursorStep inv resolved held run fun _ same => by cases same
    exact loop _
  | @join client holder channel name role drained t touched resolved held read _ =>
    subst touched
    have before := touchActivity_awaitCursor env s client owner mailbox
    obtain ⟨state, stored, _⟩ := canonicalHolderId_some held
    obtain ⟨resolved, held⟩ := holder_untouched inv resolved held
    rw [CursorStep, ← before, commitJoin_awaitCursor stored]
    split
    · rename_i here
      obtain ⟨rfl, rfl⟩ := here
      exact Or.inr (Or.inr ⟨_, rfl, .join resolved held read (List.mem_cons_self ..)⟩)
    · exact Or.inl rfl
  | @leave client holder channel name t touched resolved held =>
    subst touched
    obtain ⟨state, stored, _⟩ := canonicalHolderId_some held
    rw [CursorStep, ← touchActivity_awaitCursor env s client owner mailbox,
      commitLeave_awaitCursor stored]
    split
    · exact Or.inr (Or.inl rfl)
    · exact Or.inl rfl
  | @disconnect client => exact (bind_of_lookup (disconnect_lookup s client owner)).imp_right Or.inl
  | tick => exact (bind_of_lookup (tick_lookup env s now owner)).imp_right Or.inl

/-! ## Cursors of `Inbox` -/

/-- What a poll takes from one channel, and the cursor it stores for it. -/
def polled (K : Text) (env : BrokerEnv) (s : BrokerState) (owner : ClientId) (name channel : String) :
    List StampedEnvelope × Option Nat :=
  match env.drainFrom (.channel channel) (inboxOffset s owner (.channel channel)) with
  | .error _ => ([], none)
  | .ok drained => drainChannel K name (inboxOffset s owner (.channel channel)) drained

theorem polled_of_read {drained : DrainResult} (K : Text) (name : String)
    (read : env.drainFrom (.channel channel) (inboxOffset s owner (.channel channel)) =
      .ok drained) :
    polled K env s owner name channel =
      drainChannel K name (inboxOffset s owner (.channel channel)) drained := by
  simp only [polled, read]

/-- The cursor writes of a poll. -/
def pollAdvances (K : Text) (env : BrokerEnv) (s : BrokerState) (owner : ClientId) (name : String)
    (channels : List String) : List (MailboxName × Nat) :=
  channels.flatMap fun channel =>
    ((polled K env s owner name channel).2.map fun offset => (.channel channel, offset)).toList

theorem drainChannels_ok : ∀ {channels : List String} {envelopes : List StampedEnvelope}
      {advances : List (MailboxName × Nat)},
      drainChannels K env s owner name channels = .ok (envelopes, advances) →
        (∀ channel ∈ channels, ∃ drained, env.drainFrom (.channel channel)
          (inboxOffset s owner (.channel channel)) = .ok drained) ∧
        envelopes = channels.flatMap (fun channel => (polled K env s owner name channel).1) ∧
        advances = pollAdvances K env s owner name channels
  | [], envelopes, advances, run => by
    cases run
    simp [pollAdvances]
  | channel :: rest, envelopes, advances, run => by
    simp only [drainChannels] at run
    split at run
    · cases run
    · rename_i drained read
      split at run
      · cases run
      · rename_i envelopes' advances' later
        obtain ⟨reads, rfl, rfl⟩ := drainChannels_ok later
        cases run
        refine ⟨List.forall_mem_cons.mpr ⟨⟨drained, read⟩, reads⟩, ?_, ?_⟩
        · rw [List.flatMap_cons, polled_of_read K name read]
        · rw [pollAdvances, pollAdvances, List.flatMap_cons, polled_of_read K name read]

theorem mem_pollAdvances_iff {channels : List String} :
    (mailbox, offset) ∈ pollAdvances K env s owner name channels ↔
      ∃ channel ∈ channels, mailbox = .channel channel ∧
        (polled K env s owner name channel).2 = some offset := by
  simp only [pollAdvances, List.mem_flatMap, Option.mem_toList, Option.map_eq_some_iff,
    Prod.mk.injEq]
  constructor
  · rintro ⟨channel, member, offset, found, rfl, rfl⟩
    exact ⟨channel, member, rfl, found⟩
  · rintro ⟨channel, member, rfl, found⟩
    exact ⟨channel, member, offset, found, rfl, rfl⟩

theorem pollAdvances_nodup (K : Text) (env : BrokerEnv) (s : BrokerState) (owner : ClientId)
    (name : String) : ∀ {channels : List String}, channels.Nodup →
      ((pollAdvances K env s owner name channels).map Prod.fst).Nodup
  | [], _ => List.nodup_nil
  | channel :: rest, distinct => by
    obtain ⟨fresh, distinct⟩ := List.nodup_cons.mp distinct
    have later := pollAdvances_nodup K env s owner name distinct
    rw [pollAdvances, List.flatMap_cons, ← pollAdvances, List.map_append]
    cases (polled K env s owner name channel).2 with
    | none => exact later
    | some offset =>
      refine List.nodup_cons.mpr ⟨?_, later⟩
      intro member
      obtain ⟨⟨mailbox, other⟩, among, same⟩ := List.mem_map.mp member
      obtain ⟨channel', member', rfl, _⟩ := mem_pollAdvances_iff.mp among
      cases same
      exact fresh member'

theorem touchActivity_inboxCursor (env : BrokerEnv) (s : BrokerState) (client owner : ClientId)
    (mailbox : MailboxName) :
    inboxCursor (touchActivity env s client) owner mailbox = inboxCursor s owner mailbox :=
  (touchActivity_settings env s client).bind_eq owner fun _ _ _ _ => rfl

theorem setInboxOffset_inboxCursor (s : BrokerState) (stored : s.clients[owner]? = some state)
    (advance : MailboxName × Nat) (id : ClientId) (mailbox : MailboxName) :
    inboxCursor (setInboxOffset s owner advance) id mailbox =
      if id = owner ∧ advance.1 = mailbox then some advance.2 else inboxCursor s id mailbox := by
  unfold inboxCursor setInboxOffset
  rw [getElem?_updateClient]
  by_cases same : owner = id
  · subst same
    simp [stored, lookup_insert]
  · rw [if_neg same, if_neg fun both => same both.1.symm]

theorem setInboxOffsets_inboxCursor (owner id : ClientId) (mailbox : MailboxName) :
    ∀ (advances : List (MailboxName × Nat)) {s : BrokerState} {state : ClientState},
      s.clients[owner]? = some state → (advances.map Prod.fst).Nodup →
      let s' := advances.foldl (fun s advance => setInboxOffset s owner advance) s
      (id = owner ∧ ∃ offset, (mailbox, offset) ∈ advances ∧ inboxCursor s' id mailbox = some offset) ∨
        ((id = owner → ∀ offset, (mailbox, offset) ∉ advances) ∧
          inboxCursor s' id mailbox = inboxCursor s id mailbox)
  | [], s, _, _, _ => by
    refine Or.inr ⟨fun _ _ => List.not_mem_nil, rfl⟩
  | advance :: rest, s, state, stored, distinct => by
    obtain ⟨fresh, distinct⟩ := List.nodup_cons.mp distinct
    have stored' : (setInboxOffset s owner advance).clients[owner]? = some
        { state with inboxOffsets := state.inboxOffsets.insert advance.1 advance.2 } := by
      simp [setInboxOffset, getElem?_updateClient, stored]
    have later := setInboxOffsets_inboxCursor owner id mailbox rest stored' distinct
    dsimp only [List.foldl_cons] at later ⊢
    rw [setInboxOffset_inboxCursor s stored] at later
    rcases later with ⟨rfl, offset, member, found⟩ | ⟨absent, kept⟩
    · exact Or.inl ⟨rfl, offset, List.mem_cons_of_mem _ member, found⟩
    · by_cases here : id = owner ∧ advance.1 = mailbox
      · rw [if_pos here] at kept
        obtain ⟨rfl, rfl⟩ := here
        exact Or.inl ⟨rfl, advance.2, List.mem_cons_self .., kept⟩
      · rw [if_neg here] at kept
        refine Or.inr ⟨?_, kept⟩
        intro same offset member
        rcases List.mem_cons.mp member with first | member
        · exact here ⟨same, by rw [← first]⟩
        · exact absent same offset member

/-- How the cursor of `owner` for a channel is moved to an offset. -/
inductive InboxAdvance (K : Text) (env : BrokerEnv) (s : BrokerState) (owner : ClientId) :
    BrokerInput → MailboxName → Nat → Prop
  | join {client : ClientId} {channel name : String} {role : Option String}
      {drained : DrainResult} :
      resolveOpIdentity env s client = .ok name → canonicalHolderId s name = some owner →
      env.drainFrom (.channel channel) 0 = .ok drained →
      InboxAdvance K env s owner (.wire client (.join channel role)) (.channel channel)
        drained.nextOffset
  | poll {client : ClientId} {since : Option Nat} {includeTerminal : Option Bool}
      {state : ClientState} {channel name : String} {offset : Nat} :
      resolveOpIdentity env s client = .ok name → canonicalHolderId s name = some owner →
      s.clients[owner]? = some state → channel ∈ state.joined →
      (polled K env s owner name channel).2 = some offset →
      InboxAdvance K env s owner (.wire client (.inbox since includeTerminal)) (.channel channel)
        offset

theorem polled_touchActivity (K : Text) (env : BrokerEnv) (s : BrokerState) (client owner : ClientId)
    (name channel : String) :
    polled K env (touchActivity env s client) owner name channel = polled K env s owner name channel := by
  simp only [polled, inboxOffset_eq, touchActivity_inboxCursor]

theorem commitJoin_inboxCursor (stored : t.clients[holder]? = some state) :
    inboxCursor (commitJoin t channel name holder role offset) owner mailbox =
      if holder = owner ∧ .channel channel = mailbox then some offset
      else inboxCursor t owner mailbox :=
  bind_modify_entry stored (lookup_insert ..)

theorem commitLeave_inboxCursor (stored : t.clients[holder]? = some state) :
    inboxCursor (commitLeave t channel name holder) owner mailbox =
      if holder = owner ∧ .channel channel = mailbox then none else inboxCursor t owner mailbox :=
  bind_modify_entry stored (lookup_erase ..)

/-- The answer to a poll for the holder of `name`: what the agent's mailbox and the
joined channels hold. -/
structure PollAnswered (K : Text) (env : BrokerEnv) (s s' : BrokerState) (client owner : ClientId)
    (name : String) (since : Option Nat) (state : ClientState) (agentDrained : DrainResult)
    (outs : List Out) : Prop where
  quiet : Quiet s s'
  read : env.drainFrom (.agent name) (since.getD 0) = .ok agentDrained
  reads : ∀ channel ∈ state.joined, ∃ drained,
    env.drainFrom (.channel channel) (inboxOffset s owner (.channel channel)) = .ok drained
  fits : Fits K (.inboxOk (decodeLines K (since.getD 0) agentDrained ++
    state.joined.toList.flatMap fun channel => (polled K env s owner name channel).1)
    agentDrained.nextOffset)
  outs_eq : outs = [.reply client (.inboxOk (decodeLines K (since.getD 0) agentDrained ++
    state.joined.toList.flatMap fun channel => (polled K env s owner name channel).1)
    agentDrained.nextOffset)]
  moved : ∀ channel ∈ state.joined, inboxCursor s' owner (.channel channel) =
    (polled K env s owner name channel).2.or (inboxCursor s owner (.channel channel))
  kept : ∀ id mailbox, (id = owner → ∀ channel ∈ state.joined, mailbox ≠ .channel channel) →
    inboxCursor s' id mailbox = inboxCursor s id mailbox

theorem inboxCursor_pollAdvances (K : Text) (env : BrokerEnv) (s : BrokerState)
    (stored : s.clients[owner]? = some state) (name : String) (id : ClientId)
    (mailbox : MailboxName) :
    let s' := (pollAdvances K env s owner name state.joined.toList).foldl
      (fun s advance => setInboxOffset s owner advance) s
    (∀ channel ∈ state.joined, inboxCursor s' owner (.channel channel) =
        (polled K env s owner name channel).2.or (inboxCursor s owner (.channel channel))) ∧
      ((id = owner → ∀ channel ∈ state.joined, mailbox ≠ .channel channel) →
        inboxCursor s' id mailbox = inboxCursor s id mailbox) := by
  have writes := fun id mailbox => setInboxOffsets_inboxCursor owner id mailbox
    (pollAdvances K env s owner name state.joined.toList) stored
    (pollAdvances_nodup K env s owner name (joined_nodup state))
  constructor
  · intro channel joined
    rcases writes owner (.channel channel) with ⟨-, offset, member, moved⟩ | ⟨absent, kept⟩
    · obtain ⟨_, -, same, found⟩ := mem_pollAdvances_iff.mp member
      cases same
      rw [moved, found, Option.some_or]
    · have unmoved : (polled K env s owner name channel).2 = none := by
        rw [Option.eq_none_iff_forall_not_mem]
        intro offset found
        exact absent rfl offset (mem_pollAdvances_iff.mpr
          ⟨channel, ExtTreeSet.mem_toList.mpr joined, rfl, found⟩)
      rw [kept, unmoved, Option.none_or]
  · intro away
    rcases writes id mailbox with ⟨same, offset, member, -⟩ | ⟨-, kept⟩
    · obtain ⟨channel, joined, here, -⟩ := mem_pollAdvances_iff.mp member
      exact absurd here (away same channel (ExtTreeSet.mem_toList.mp joined))
    · exact kept

theorem handle_poll {since : Option Nat} {includeTerminal : Option Bool} (inv : StateInvariant s)
    (taken : handle K env s (.wire client (.inbox since includeTerminal)) now = some (s', outs))
    (resolved : resolveOpIdentity env s client = .ok name)
    (held : canonicalHolderId s name = some owner) (stored : s.clients[owner]? = some state) :
    ((∀ receiver envelopes nextOffset, .reply receiver (.inboxOk envelopes nextOffset) ∉ outs) ∧
        ∀ id mailbox, inboxCursor s' id mailbox = inboxCursor s id mailbox) ∨
      ∃ agentDrained, PollAnswered K env s s' client owner name since state agentDrained outs := by
  cases handle_handled taken with
  | refused same refusal =>
    refine Or.inl ⟨?_, ?_⟩
    · intro receiver envelopes nextOffset replied
      obtain ⟨-, rfl⟩ := Out.reply.inj (List.mem_singleton.mp replied)
      cases refusal
    · intro id mailbox
      rcases same with rfl | rfl
      · rfl
      · exact touchActivity_inboxCursor env s client id mailbox
  | report change report =>
    refine Or.inl ⟨?_, fun id mailbox => change.bind_eq id fun _ _ _ _ => rfl⟩
    intro receiver envelopes nextOffset replied
    rw [← List.mem_singleton.mp replied] at report
    cases report
  | @inbox _ canonical _ _ name' agentDrained _ advances t touched resolved' read held' drained fits =>
    subst touched
    have quiet := touchActivity_quiet env s client
    rw [quiet.resolveOpIdentity_eq, resolved] at resolved'
    cases resolved'
    have wholly := inbox_quiet advances held'
    rw [quiet.canonicalHolderId_eq inv, held] at held'
    cases held'
    obtain ⟨state', stored', core⟩ := quiet.later stored
    have joined : state'.core.joined = state.core.joined := by rw [core]
    change state'.joined = state.joined at joined
    rw [stored', Option.map_some, Option.getD_some] at drained
    obtain ⟨reads, rfl, rfl⟩ := drainChannels_ok drained
    have writes := inboxCursor_pollAdvances K env (touchActivity env s client) stored' name
    simp only [polled_touchActivity, touchActivity_inboxCursor, inboxOffset_eq, joined,
      ExtTreeSet.mem_toList] at writes reads fits wholly ⊢
    exact Or.inr ⟨agentDrained, wholly, read, reads, fits, rfl, (writes owner (.agent name)).1,
      fun id mailbox => (writes id mailbox).2⟩

theorem handle_inboxCursor (inv : StateInvariant s)
    (taken : handle K env s input now = some (s', outs)) (owner : ClientId)
    (mailbox : MailboxName) : inboxCursor s' owner mailbox = inboxCursor s owner mailbox ∨
      inboxCursor s' owner mailbox = none ∨
        ∃ offset, inboxCursor s' owner mailbox = some offset ∧
          InboxAdvance K env s owner input mailbox offset := by
  cases handle_handled taken with
  | refused same _ =>
    left
    rcases same with rfl | rfl
    · rfl
    · exact touchActivity_inboxCursor env s _ owner mailbox
  | report change _ => exact Or.inl (change.bind_eq owner fun _ _ _ _ => rfl)
  | @hello client label bindAs fresh _ =>
    unfold inboxCursor
    rw [lookup_insert]
    split
    · exact Or.inr (Or.inl (by simp [freshClient]))
    · exact Or.inl rfl
  | @register client => exact Or.inl (bind_updateClient s client owner fun _ => rfl)
  | @send client target envelope identity line stamped t touched resolved own canonical small stamps =>
    subst touched
    obtain ⟨accepted, rows, outs, wakes⟩ := handled_send inv taken
      ⟨resolved, own, canonical, small, stamps⟩
    exact Or.inl (wakes.bind_eq owner fun _ => rfl)
  | @inbox client canonical since _ name _ _ advances t touched resolved _ held drained _ =>
    subst touched
    obtain ⟨resolved, held⟩ := holder_untouched inv resolved held
    obtain ⟨state, stored, _⟩ := canonicalHolderId_some held
    rcases handle_poll inv taken resolved held stored with ⟨-, kept⟩ | ⟨_, answered⟩
    · exact Or.inl (kept owner mailbox)
    · by_cases here : owner = canonical ∧ ∃ channel ∈ state.joined, mailbox = .channel channel
      · obtain ⟨rfl, channel, joined, rfl⟩ := here
        have moved := answered.moved channel joined
        cases found : (polled K env s owner name channel).2 with
        | none =>
          rw [found, Option.none_or] at moved
          exact Or.inl moved
        | some offset =>
          rw [found, Option.some_or] at moved
          exact Or.inr (Or.inr ⟨offset, moved, .poll resolved held stored joined found⟩)
      · refine Or.inl (answered.kept owner mailbox ?_)
        exact fun same channel joined box => here ⟨same, channel, joined, box⟩
  | @await client holder timeoutMs task identity t _ _ touched resolved held run =>
    subst touched
    left
    rw [← touchActivity_inboxCursor env s client owner mailbox]
    exact awaitLoop_bind_eq run owner fun _ _ => rfl
  | @park client holder timeoutMs task identity t t' parked touched resolved held request run =>
    subst touched
    left
    rw [← touchActivity_inboxCursor env s client owner mailbox]
    exact awaitLoop_bind_eq run owner fun _ _ => rfl
  | @join client holder channel name role drained t touched resolved held read _ =>
    subst touched
    obtain ⟨state, stored, _⟩ := canonicalHolderId_some held
    obtain ⟨resolved, held⟩ := holder_untouched inv resolved held
    rw [← touchActivity_inboxCursor env s client owner mailbox, commitJoin_inboxCursor stored]
    split
    · rename_i here
      obtain ⟨rfl, rfl⟩ := here
      exact Or.inr (Or.inr ⟨_, rfl, .join resolved held read⟩)
    · exact Or.inl rfl
  | @leave client holder channel name t touched resolved held =>
    subst touched
    obtain ⟨state, stored, _⟩ := canonicalHolderId_some held
    rw [← touchActivity_inboxCursor env s client owner mailbox, commitLeave_inboxCursor stored]
    split
    · exact Or.inr (Or.inl rfl)
    · exact Or.inl rfl
  | @disconnect client => exact (bind_of_lookup (disconnect_lookup s client owner)).imp_right Or.inl
  | tick => exact (bind_of_lookup (tick_lookup env s now owner)).imp_right Or.inl

end Famp.Bus
