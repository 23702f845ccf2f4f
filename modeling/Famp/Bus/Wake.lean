import Famp.Bus.StateInvariant

/-!
# The wakes of a send

A send goes through the parked requests that it answers, holder by holder.  What
the requests of one holder are told depends on the cursor of that holder alone,
so the turns of one holder can be read off the state before the send: `turns`
takes them one after the other, and `send_wakes` says that the send does the same.
-/

set_option autoImplicit false

namespace Famp.Bus

open Famp.Core Json Data Std

/-! ## Cursors -/

/-- The stored cursor of a mailbox, if there is one. -/
def awaitCursor (s : BrokerState) (owner : ClientId) (mailbox : MailboxName) : Option Nat :=
  s.clients[owner]?.bind fun state => state.awaitOffsets[mailbox]?

theorem awaitOffset_eq (s : BrokerState) (owner : ClientId) (mailbox : MailboxName) :
    awaitOffset s owner mailbox = (awaitCursor s owner mailbox).getD 0 := rfl

variable {s t : BrokerState} {env : BrokerEnv} {K : Text} {name identity : String}
  {envelope : Value} {client owner waiting : ClientId} {line stamped : Bytes} {origin : Origin}
  {filter : AwaitFilter} {mailbox : MailboxName} {trigger : Trigger}

variable {state : ClientState} {env' : BrokerEnv} {cursor : Option Nat} {other : String}
  {target : Target} {s' : BrokerState}

theorem awaitCursor_setAwaitOffset (stored : s.clients[owner]? = some state) (mailbox : MailboxName)
    (offset : Nat) (other : MailboxName) :
    awaitCursor (setAwaitOffset s owner mailbox offset) owner other =
      if mailbox = other then some offset else awaitCursor s owner other := by
  simp [awaitCursor, setAwaitOffset, getElem?_updateClient, stored, lookup_insert]

theorem awaiterIdentity_setAwaitOffset (s : BrokerState) (owner : ClientId) (mailbox : MailboxName)
    (offset : Nat) (other : MailboxName) :
    awaiterIdentity (setAwaitOffset s owner mailbox offset) owner other =
      awaiterIdentity s owner other := by
  simp only [awaiterIdentity, setAwaitOffset, getElem?_updateClient, if_true]
  cases s.clients[owner]? <;> rfl

theorem awaitMailboxes_nodup (s : BrokerState) (owner : ClientId) (identity : String) :
    (awaitMailboxes s owner identity).Nodup := by
  unfold awaitMailboxes
  refine List.nodup_cons.mpr ⟨?_, ?_⟩
  · split <;> simp
  · split
    · exact List.nodup_nil
    · rename_i state _
      refine List.Nodup.map ?_ ?_
      · intro a b same
        exact MailboxName.channel.inj same
      · exact state.joined.distinct_toList.imp fun differ same =>
          differ (Std.compare_eq_iff_eq.mpr same)

/-! ## One batch -/

def awaitPolicy (filter : AwaitFilter) (reader : Option String) : DrainPolicy :=
  ⟨filter, reader, true, some (.delivered awaitBatchCap)⟩

/-- The batch that an `Await` reads from a mailbox. -/
def readBatch (K : Text) (mailbox : MailboxName) (filter : AwaitFilter) (reader : Option String)
    (since : Nat) (drained : DrainResult) : AwaitBatch :=
  let taken := walked K (awaitPolicy filter reader) awaitBatchCap drained.records
  ⟨mailbox, stamp (deliverable K (awaitPolicy filter reader) taken),
    cursorAfter (min since drained.nextOffset) taken,
    drainsAll K (awaitPolicy filter reader) awaitBatchCap drained.records⟩

/-- The trigger goes after a backlog that was read to its end. -/
def withTrigger (filter : AwaitFilter) (reader : Option String) (batch : AwaitBatch) :
    Option Trigger → AwaitBatch
  | none => batch
  | some trigger =>
    if batch.fullyDrained then foldTrigger filter reader batch trigger else batch

theorem withTrigger_mailbox (filter : AwaitFilter) (reader : Option String) (batch : AwaitBatch)
    (trigger : Option Trigger) : (withTrigger filter reader batch trigger).mailbox = batch.mailbox := by
  cases trigger with
  | none => rfl
  | some trigger =>
    simp only [withTrigger]
    split
    · unfold foldTrigger
      dsimp only
      split
      · rfl
      · split <;> rfl
    · rfl

theorem walk_await (K : Text) (since : Nat) (drained : DrainResult) (filter : AwaitFilter)
    (reader : Option String) :
    let taken := walked K (awaitPolicy filter reader) awaitBatchCap drained.records
    walk K since drained ⟨filter, reader, true, some (.delivered awaitBatchCap)⟩ =
      ⟨deliverable K (awaitPolicy filter reader) taken,
        cursorAfter (min since drained.nextOffset) taken,
        drainsAll K (awaitPolicy filter reader) awaitBatchCap drained.records⟩ := by
  exact walkRecords_eq K (awaitPolicy filter reader) drained.records 49 []
    (min since drained.nextOffset)

theorem drainAwaitBatch_eq (K : Text) (env : BrokerEnv) (s : BrokerState) (owner : ClientId)
    (mailbox : MailboxName) (filter : AwaitFilter) (trigger : Option Trigger) :
    drainAwaitBatch K env s owner mailbox filter trigger =
      match env.drainFrom mailbox (awaitOffset s owner mailbox) with
      | .error error => .error (.internal, error.toText)
      | .ok drained =>
        let reader := awaiterIdentity s owner mailbox
        .ok (withTrigger filter reader
          (readBatch K mailbox filter reader (awaitOffset s owner mailbox) drained) trigger) := by
  simp only [drainAwaitBatch, walk_await]
  cases env.drainFrom mailbox (awaitOffset s owner mailbox) with
  | error error => rfl
  | ok drained =>
    cases trigger with
    | none => rfl
    | some trigger => exact (apply_ite Except.ok _ _ _).symm

theorem drainAwaitBatch_error {trigger : Option Trigger} {error : BusErrorKind × String}
    (failed : drainAwaitBatch K env s owner mailbox filter trigger = .error error) :
    ∃ cause, env.drainFrom mailbox (awaitOffset s owner mailbox) = .error cause := by
  rw [drainAwaitBatch_eq] at failed
  split at failed
  next cause read => exact ⟨cause, read⟩
  next => cases failed

theorem drainAwaitBatch_ok {batch : AwaitBatch}
    (read : drainAwaitBatch K env s owner mailbox filter none = .ok batch) : ∃ drained,
      env.drainFrom mailbox (awaitOffset s owner mailbox) = .ok drained ∧
        readBatch K mailbox filter (awaiterIdentity s owner mailbox)
          (awaitOffset s owner mailbox) drained = batch := by
  rw [drainAwaitBatch_eq] at read
  split at read
  next => cases read
  next drained found => exact ⟨drained, found, Except.ok.inj read⟩

/-! ## The mailboxes of one request -/

theorem setAwaitOffset_awaitCursor (s : BrokerState) (owner id : ClientId) (mailbox other : MailboxName)
    (offset : Nat) (away : id = owner → other ≠ mailbox) :
    awaitCursor (setAwaitOffset s owner mailbox offset) id other = awaitCursor s id other := by
  unfold awaitCursor setAwaitOffset
  rw [getElem?_updateClient]
  split
  · rename_i same
    have differ := away same.symm
    cases s.clients[id]? with
    | none => rfl
    | some state => simp [lookup_insert, Ne.symm differ]
  · rfl

theorem storeCursor (s : BrokerState) (stored : s.clients[owner]? = some state)
    (mailbox : MailboxName) (offset : Nat) :
    let t := if offset ≠ awaitOffset s owner mailbox then setAwaitOffset s owner mailbox offset else s
    (∃ state', t.clients[owner]? = some state') ∧
      (∀ other, awaiterIdentity t owner other = awaiterIdentity s owner other) ∧
      (∀ id other, (id = owner → other ≠ mailbox) → awaitCursor t id other = awaitCursor s id other) ∧
      (awaitCursor t owner mailbox = awaitCursor s owner mailbox ∨
        awaitCursor t owner mailbox = some offset) := by
  intro t
  by_cases moves : offset ≠ awaitOffset s owner mailbox
  · have moved : t = setAwaitOffset s owner mailbox offset := if_pos moves
    rw [moved]
    refine ⟨?_, awaiterIdentity_setAwaitOffset s owner mailbox offset,
      fun id other => setAwaitOffset_awaitCursor s owner id mailbox other offset, Or.inr ?_⟩
    · simp [setAwaitOffset, getElem?_updateClient, stored]
    · rw [awaitCursor_setAwaitOffset stored, if_pos rfl]
  · have same : t = s := if_neg moves
    rw [same]
    exact ⟨⟨state, stored⟩, fun _ => rfl, fun _ _ _ => rfl, Or.inl rfl⟩

theorem drainAwaitBatch_storeCursor (stored : s.clients[owner]? = some state) {other : MailboxName}
    (differ : mailbox ≠ other) (offset : Nat) :
    drainAwaitBatch K env (if offset ≠ awaitOffset s owner mailbox then
        setAwaitOffset s owner mailbox offset else s) owner other filter none =
      drainAwaitBatch K env s owner other filter none := by
  obtain ⟨-, readers, elsewhere, -⟩ := storeCursor s stored mailbox offset
  have offsets := elsewhere owner other fun _ => differ.symm
  rw [drainAwaitBatch_eq, drainAwaitBatch_eq, readers, awaitOffset_eq, offsets, awaitOffset_eq]

/-- How an unparked request is answered from one mailbox, if it is. -/
def batchAnswer (client : ClientId) : Except (BusErrorKind × String) AwaitBatch → Option (List Out)
  | .error (kind, message) => some [err client kind message]
  | .ok batch =>
    if batch.envelopes.isEmpty then none
    else some [.reply client (.awaitOk batch.envelopes batch.mailbox batch.nextOffset)]

/-- The first answer of the mailboxes, each read as the request finds it. -/
def firstAnswer (K : Text) (env : BrokerEnv) (s : BrokerState) (client owner : ClientId)
    (filter : AwaitFilter) (mailboxes : List MailboxName) : Option (List Out) :=
  mailboxes.findSome? fun mailbox =>
    batchAnswer client (drainAwaitBatch K env s owner mailbox filter none)

theorem firstAnswer_congr {mailboxes : List MailboxName}
    (same : ∀ mailbox ∈ mailboxes, drainAwaitBatch K env t owner mailbox filter none =
      drainAwaitBatch K env s owner mailbox filter none) :
    firstAnswer K env t client owner filter mailboxes =
      firstAnswer K env s client owner filter mailboxes := by
  have answers := congrArg (List.findSome? (batchAnswer client)) (List.map_congr_left same)
  rwa [List.findSome?_map, List.findSome?_map] at answers

theorem awaitLoop_result (K : Text) (env : BrokerEnv) (client owner : ClientId)
    (filter : AwaitFilter) : ∀ (mailboxes : List MailboxName) {s : BrokerState}
      {state : ClientState}, mailboxes.Nodup → s.clients[owner]? = some state →
      (awaitLoop K env client owner filter mailboxes s).2 =
        firstAnswer K env s client owner filter mailboxes
  | [], _, _, _, _ => rfl
  | mailbox :: rest, s, state, distinct, stored => by
    obtain ⟨fresh, distinct⟩ := List.nodup_cons.mp distinct
    rw [awaitLoop, firstAnswer, List.findSome?_cons]
    cases drainAwaitBatch K env s owner mailbox filter none with
    | error error => rfl
    | ok batch =>
      by_cases empty : batch.envelopes.isEmpty = true
      · obtain ⟨⟨state', stored'⟩, -⟩ := storeCursor s stored mailbox batch.nextOffset
        simp only [batchAnswer.eq_2, empty, if_true]
        rw [awaitLoop_result K env client owner filter rest distinct stored']
        -- the cursors of the mailboxes that follow have not moved
        exact firstAnswer_congr fun other member => drainAwaitBatch_storeCursor stored
          (ne_of_mem_of_not_mem member fresh).symm batch.nextOffset
      · simp only [batchAnswer, if_neg empty]

/-! ## The turns of one holder -/

/-- What a woken request is told. -/
def wakeReply (batch : AwaitBatch) : BusReply :=
  if !batch.envelopes.isEmpty then .awaitOk batch.envelopes batch.mailbox batch.nextOffset
  else if !batch.fullyDrained then .awaitTimeout
  else .err .internal "await wake produced no matching envelopes"

theorem wakeReply_awaitOk_iff (batch : AwaitBatch) (entries : List StampedEnvelope)
    (box : MailboxName) (nextOffset : Nat) :
    wakeReply batch = .awaitOk entries box nextOffset ↔
      batch.envelopes ≠ [] ∧ batch.envelopes = entries ∧ batch.mailbox = box ∧
        batch.nextOffset = nextOffset := by
  unfold wakeReply
  by_cases empty : batch.envelopes = []
  · rw [if_neg (by simp [empty])]
    split <;> simp [empty]
  · rw [if_pos (by simp [empty])]
    simp [empty]

section Turns
variable (K : Text) (env : BrokerEnv) (mailbox : MailboxName) (reader : Option String)
  (trigger : Trigger)

/-- One woken request: the cursor of its holder afterwards, and the reply. -/
def turn (cursor : Option Nat) (filter : AwaitFilter) : Option Nat × BusReply :=
  match env.drainFrom mailbox (cursor.getD 0) with
  | .error error => (cursor, .err .internal error.toText)
  | .ok drained =>
    let batch := withTrigger filter reader
      (readBatch K mailbox filter reader (cursor.getD 0) drained) (some trigger)
    (some batch.nextOffset, wakeReply batch)

/-- The woken requests of one holder, in order. -/
def turns : Option Nat → List (ClientId × AwaitFilter) → Option Nat × List Out
  | cursor, [] => (cursor, [])
  | cursor, (waiting, filter) :: rest =>
    let next := turn K env mailbox reader trigger cursor filter
    let later := turns next.1 rest
    (later.1, .reply waiting next.2 :: .unparkAwait waiting :: later.2)

end Turns

/-! ## The requests that a send answers -/

/-- The connection and the filter of a parked request that `envelope` answers. -/
def selectWait (env : BrokerEnv) (s : BrokerState) (name : String) (envelope : Value)
    (entry : ClientId × ParkedAwait) : Option (ClientId × AwaitFilter) :=
  match s.clients[entry.1]? with
  | none => none
  | some state =>
    if state.connected && waitsFor env s name state && filterMatches entry.2.filter envelope
    then some (entry.1, entry.2.filter) else none

/-- `waitingClientsForName` with the filter of each parked request. -/
def selectedWaits (env : BrokerEnv) (s : BrokerState) (name : String) (envelope : Value)
    (origin : Origin) : List (ClientId × AwaitFilter) :=
  if origin != .local then []
  else s.pendingAwaits.toList.filterMap (selectWait env s name envelope)

theorem waitingClientsForName_eq (env : BrokerEnv) (s : BrokerState) (name : String)
    (envelope : Value) (origin : Origin) :
    waitingClientsForName env s name envelope origin =
      (selectedWaits env s name envelope origin).map Prod.fst := by
  unfold waitingClientsForName selectedWaits
  split
  · rfl
  · rw [List.map_filterMap]
    congr 1
    funext entry
    unfold selectWait
    cases s.clients[entry.1]? with
    | none => rfl
    | some state =>
      dsimp only
      split <;> rfl

/-- A parked request of `waiting` for the mail of `name` that `envelope` answers. -/
structure Waits (env : BrokerEnv) (s : BrokerState) (name : String) (envelope : Value)
    (origin : Origin) (waiting : ClientId) (filter : AwaitFilter) : Prop where
  trusted : origin = .local
  parked : ∃ request, s.pendingAwaits[waiting]? = some request ∧ request.filter = filter
  connection : ∃ state, s.clients[waiting]? = some state ∧ state.connected = true ∧
    waitsFor env s name state = true
  wanted : filterMatches filter envelope = true

theorem mem_selectedWaits_iff :
    (waiting, filter) ∈ selectedWaits env s name envelope origin ↔
      Waits env s name envelope origin waiting filter := by
  unfold selectedWaits
  split
  · rename_i remote
    constructor
    · intro member
      cases member
    · intro waits
      simp [waits.trusted] at remote
  · rename_i trusted
    rw [List.mem_filterMap]
    constructor
    · rintro ⟨⟨id, request⟩, member, selected⟩
      have parked := (mem_toList_iff _ _ _).mp member
      cases stored : s.clients[id]? with
      | none => simp [selectWait, stored] at selected
      | some state =>
        simp only [selectWait, stored, Option.ite_none_right_eq_some, Option.some.injEq, Prod.mk.injEq,
          Bool.and_eq_true] at selected
        obtain ⟨⟨⟨connected, waits⟩, wanted⟩, rfl, rfl⟩ := selected
        exact ⟨by simpa using trusted, ⟨request, parked, rfl⟩, ⟨state, stored, connected, waits⟩,
          wanted⟩
    · rintro ⟨_, ⟨request, parked, rfl⟩, ⟨state, stored, connected, waits⟩, wanted⟩
      refine ⟨(waiting, request), (mem_toList_iff _ _ _).mpr parked, ?_⟩
      simp [selectWait, stored, connected, waits, wanted]

theorem selectedWaits_nodup (env : BrokerEnv) (s : BrokerState) (name : String) (envelope : Value)
    (origin : Origin) : ((selectedWaits env s name envelope origin).map Prod.fst).Nodup := by
  unfold selectedWaits
  split
  · exact List.nodup_nil
  · rw [List.map_filterMap]
    refine (List.pairwise_filterMap.mpr ?_)
    refine ExtTreeMap.distinct_keys_toList.imp ?_
    intro a b differ x foundA y foundB same
    have key : ∀ {entry : ClientId × ParkedAwait} {id : ClientId},
        (selectWait env s name envelope entry).map Prod.fst = some id → entry.1 = id := by
      intro entry id found
      cases stored : s.clients[entry.1]? with
      | none => simp [selectWait, stored] at found
      | some state =>
        simp only [selectWait, stored, Option.map_eq_some_iff, Option.ite_none_right_eq_some,
          Option.some.injEq] at found
        obtain ⟨_, ⟨_, rfl⟩, rfl⟩ := found
        rfl
    exact differ (Std.compare_eq_iff_eq.mpr ((key foundA).trans (same.trans (key foundB).symm)))

theorem Waits.resolves (waits : Waits env s name envelope origin waiting filter) :
    resolveOpIdentity env s waiting = .ok name := by
  obtain ⟨state, stored, connected, waitsHere⟩ := waits.connection
  cases named : state.name with
  | some held =>
    simp only [waitsFor, named, beq_iff_eq] at waitsHere
    simp [resolveOpIdentity, stored, connected, effectiveIdentity, named, waitsHere]
  | none =>
    cases bound : state.bindAs with
    | none => simp [waitsFor, named, bound] at waitsHere
    | some target =>
      simp only [waitsFor, named, bound, Bool.and_eq_true, beq_iff_eq] at waitsHere
      obtain ⟨rfl, alive⟩ := waitsHere
      simp [resolveOpIdentity, stored, connected, effectiveIdentity, named, bound, alive]

theorem Waits.name_unique {name' : String} {envelope' : Value} {origin' : Origin}
    {filter' : AwaitFilter} (first : Waits env s name envelope origin waiting filter)
    (second : Waits env' s name' envelope' origin' waiting filter') : name = name' := by
  have one := first.resolves
  obtain ⟨state, stored, _, effective, _⟩ := resolveOpIdentity_ok one
  obtain ⟨state', stored', _, effective', _⟩ := resolveOpIdentity_ok second.resolves
  rw [stored, Option.some.injEq] at stored'
  subst stored'
  rw [effective, Except.ok.injEq] at effective'
  exact effective'

/-! ## What the turns of one holder change -/

/-- A client without its `Await` cursors and the time of its last activity. -/
def ClientState.unmoved (state : ClientState) : ClientState :=
  { state with awaitOffsets := ∅, lastActivity := 0 }

def holderCursor (s : BrokerState) (name : String) (mailbox : MailboxName) : Option Nat :=
  (canonicalHolderId s name).bind fun owner => awaitCursor s owner mailbox

/-- On a channel the holder of the name does not receive its own posts. -/
def channelReader (mailbox : MailboxName) (name : String) : Option String :=
  if mailbox.isChannel then some name else none

/-- After the requests of the connections in `gone` were answered, the cursor of
the holder of `name` is `cursor`; nothing else has changed. -/
structure Woken (s s' : BrokerState) (name : String) (mailbox : MailboxName) (cursor : Option Nat)
    (gone : List ClientId) : Prop where
  quiet : Quiet s s'
  clients : ∀ id : ClientId,
    s'.clients[id]?.map ClientState.unmoved = s.clients[id]?.map ClientState.unmoved
  moved : ∀ id, canonicalHolderId s name = some id → awaitCursor s' id mailbox = cursor
  kept : ∀ id other, (canonicalHolderId s name = some id → other ≠ mailbox) →
    awaitCursor s' id other = awaitCursor s id other
  pending : ∀ id : ClientId,
    s'.pendingAwaits[id]? = if id ∈ gone then none else s.pendingAwaits[id]?

namespace Woken
variable {s t u : BrokerState} {name : String} {mailbox : MailboxName}

theorem refl (s : BrokerState) (name : String) (mailbox : MailboxName) :
    Woken s s name mailbox (holderCursor s name mailbox) [] where
  quiet := Quiet.refl s
  clients _ := rfl
  moved id holder := by simp only [holderCursor, holder, Option.bind_some]
  kept _ _ _ := rfl
  pending _ := by simp

theorem trans {first second : Option Nat} {gone more : List ClientId} (inv : StateInvariant s)
    (one : Woken s t name mailbox first gone) (two : Woken t u name mailbox second more) :
    Woken s u name mailbox second (gone ++ more) where
  quiet := one.quiet.trans two.quiet
  clients id := (two.clients id).trans (one.clients id)
  moved id holder := two.moved id (by rw [one.quiet.canonicalHolderId_eq inv, holder])
  kept id other away := by
    have later : canonicalHolderId t name = some id → other ≠ mailbox := by
      rw [one.quiet.canonicalHolderId_eq inv]
      exact away
    rw [two.kept id other later, one.kept id other away]
  pending id := by
    rw [two.pending, one.pending]
    by_cases earlier : id ∈ gone <;> by_cases later : id ∈ more <;> simp [earlier, later]

theorem unpark (s : BrokerState) (name : String) (mailbox : MailboxName) (waiting : ClientId) :
    Woken s { s with pendingAwaits := s.pendingAwaits.erase waiting } name mailbox
      (holderCursor s name mailbox) [waiting] where
  quiet := Quiet.unpark s waiting
  clients _ := rfl
  moved := (refl s name mailbox).moved
  kept _ _ _ := rfl
  pending id := by
    simp only [lookup_erase, List.mem_singleton, eq_comm]

theorem advance (holder : canonicalHolderId s name = some owner) (mailbox : MailboxName)
    (offset : Nat) :
    Woken s (setAwaitOffset s owner mailbox offset) name mailbox (some offset) [] := by
  obtain ⟨state, stored, _, _⟩ := canonicalHolderId_some holder
  refine ⟨setAwaitOffset_quiet (Named.of_canonicalHolderId holder) mailbox offset, ?_, ?_, ?_,
    fun id => by simp [setAwaitOffset, BrokerState.updateClient]⟩
  · intro id
    rw [setAwaitOffset, getElem?_updateClient]
    split
    · rw [Option.map_map]
      rfl
    · rfl
  · intro id held
    rw [holder, Option.some.injEq] at held
    subst held
    rw [awaitCursor_setAwaitOffset stored, if_pos rfl]
  · intro id other away
    by_cases same : owner = id
    · subst same
      rw [awaitCursor_setAwaitOffset stored, if_neg (Ne.symm (away holder))]
    · simp only [awaitCursor, setAwaitOffset, getElem?_updateClient, if_neg same]

end Woken

theorem awaiterIdentity_holder (holder : canonicalHolderId s name = some owner)
    (mailbox : MailboxName) : awaiterIdentity s owner mailbox = channelReader mailbox name := by
  obtain ⟨state, stored, _, named⟩ := canonicalHolderId_some holder
  simp [awaiterIdentity, channelReader, stored, effectiveIdentity, named, Except.toOption]

theorem wakeWaiter_woken {request : ParkedAwait} (inv : StateInvariant s) (mailbox : MailboxName)
    (trigger : Trigger) (outs : List Out) (holder : canonicalHolderId s name = some owner)
    (resolved : resolveOpIdentity env s waiting = .ok name)
    (parked : s.pendingAwaits[waiting]? = some request) :
    let next := turn K env mailbox (channelReader mailbox name) trigger (holderCursor s name mailbox)
      request.filter
    let result := wakeWaiter K env mailbox trigger (s, outs) waiting
    Woken s result.1 name mailbox next.1 [waiting] ∧
      result.2 = outs ++ [.reply waiting next.2, .unparkAwait waiting] := by
  have unparked := Woken.unpark s name mailbox waiting
  have holds : canonicalHolderId { s with pendingAwaits := s.pendingAwaits.erase waiting } name =
      some owner := holder
  have resolves : resolveAwaitOwner env
      { s with pendingAwaits := s.pendingAwaits.erase waiting } waiting = .ok (name, owner) := by
    have same : resolveOpIdentity env { s with pendingAwaits := s.pendingAwaits.erase waiting }
        waiting = .ok name := resolved
    simp only [resolveAwaitOwner, same, holds, Option.getD_some]
  have reader : awaiterIdentity { s with pendingAwaits := s.pendingAwaits.erase waiting } owner
      mailbox = channelReader mailbox name := awaiterIdentity_holder holder mailbox
  have cursor : holderCursor s name mailbox = awaitCursor s owner mailbox := by
    simp only [holderCursor, holder, Option.bind_some]
  have since : awaitOffset { s with pendingAwaits := s.pendingAwaits.erase waiting } owner mailbox =
      (awaitCursor s owner mailbox).getD 0 := rfl
  simp only [wakeWaiter, parked, awaitReplyForMailbox, resolves, drainAwaitBatch_eq, reader, since,
    turn, cursor]
  cases read : env.drainFrom mailbox ((awaitCursor s owner mailbox).getD 0) with
  | error error =>
    rw [cursor] at unparked
    exact ⟨unparked, rfl⟩
  | ok drained => exact ⟨unparked.trans inv (Woken.advance holds mailbox _), rfl⟩

theorem wakeWaiters_woken (mailbox : MailboxName) (trigger : Trigger) :
    ∀ (waits : List (ClientId × AwaitFilter)) {s : BrokerState} (outs : List Out), StateInvariant s →
      canonicalHolderId s name = some owner → (waits.map Prod.fst).Nodup →
      (∀ wait ∈ waits, resolveOpIdentity env s wait.1 = .ok name ∧
        ∃ request, s.pendingAwaits[wait.1]? = some request ∧ request.filter = wait.2) →
      let later := turns K env mailbox (channelReader mailbox name) trigger
        (holderCursor s name mailbox) waits
      let result := (waits.map Prod.fst).foldl (wakeWaiter K env mailbox trigger) (s, outs)
      Woken s result.1 name mailbox later.1 (waits.map Prod.fst) ∧ result.2 = outs ++ later.2 := by
  intro waits
  induction waits with
  | nil =>
    intro s outs _ _ _ _
    exact ⟨Woken.refl s name mailbox, (List.append_nil outs).symm⟩
  | cons wait rest ih =>
    intro s outs inv holder distinct waits
    obtain ⟨waiting, filter⟩ := wait
    obtain ⟨fresh, distinctRest⟩ := List.nodup_cons.mp distinct
    obtain ⟨resolved, request, parked, rfl⟩ := waits _ (List.mem_cons_self ..)
    obtain ⟨first, answered⟩ := wakeWaiter_woken inv mailbox trigger outs holder resolved parked
      (K := K)
    cases woke : wakeWaiter K env mailbox trigger (s, outs) waiting with
    | mk t staged =>
      simp only [woke] at first answered
      have holder' : canonicalHolderId t name = some owner := by
        rw [first.quiet.canonicalHolderId_eq inv, holder]
      have cursor : holderCursor t name mailbox = (turn K env mailbox (channelReader mailbox name)
          trigger (holderCursor s name mailbox) request.filter).1 := by
        rw [holderCursor, holder', Option.bind_some, first.moved owner holder]
      have waitsRest : ∀ wait ∈ rest, resolveOpIdentity env t wait.1 = .ok name ∧
          ∃ request, t.pendingAwaits[wait.1]? = some request ∧ request.filter = wait.2 := by
        intro wait member
        obtain ⟨resolved, request, parked, filter⟩ := waits wait (List.mem_cons_of_mem _ member)
        refine ⟨by rw [first.quiet.resolveOpIdentity_eq, resolved], request, ?_, filter⟩
        have differ : wait.1 ≠ waiting := by
          intro same
          exact fresh (List.mem_map.mpr ⟨wait, member, same⟩)
        rw [first.pending, if_neg (by simpa using differ), parked]
      obtain ⟨later, answers⟩ :=
        ih staged (inv.of_quiet first.quiet) holder' distinctRest waitsRest
      rw [cursor] at later answers
      simp only [List.map_cons, List.foldl_cons, woke, turns]
      refine ⟨first.trans inv later, ?_⟩
      rw [answers, answered, List.append_assoc]
      rfl

/-! ## The wakes of one name -/

/-- The requests for the mail of `name` that the trigger answers, in order. -/
def wakeTurns (K : Text) (env : BrokerEnv) (s : BrokerState) (mailbox : MailboxName)
    (trigger : Trigger) (name : String) : Option Nat × List Out :=
  turns K env mailbox (channelReader mailbox name) trigger (holderCursor s name mailbox)
    (selectedWaits env s name trigger.envelope trigger.origin)

/-- The connections whose requests for the mail of `name` the trigger answers. -/
abbrev answered (env : BrokerEnv) (s : BrokerState) (trigger : Trigger) (name : String) :
    List ClientId :=
  (selectedWaits env s name trigger.envelope trigger.origin).map Prod.fst

theorem wakeName_woken (K : Text) (env : BrokerEnv) (inv : StateInvariant s) (mailbox : MailboxName)
    (trigger : Trigger) (name : String) (outs : List Out) :
    let wakes := wakeTurns K env s mailbox trigger name
    let result := (waitingClientsForName env s name trigger.envelope trigger.origin).foldl
      (wakeWaiter K env mailbox trigger) (s, outs)
    Woken s result.1 name mailbox wakes.1 (answered env s trigger name) ∧
      result.2 = outs ++ wakes.2 := by
  rw [waitingClientsForName_eq]
  cases selected : selectedWaits env s name trigger.envelope trigger.origin with
  | nil =>
    simp only [wakeTurns, answered, selected, turns, List.map_nil, List.foldl_nil]
    exact ⟨Woken.refl s name mailbox, (List.append_nil outs).symm⟩
  | cons wait rest =>
    have waits : ∀ wait ∈ selectedWaits env s name trigger.envelope trigger.origin,
        Waits env s name trigger.envelope trigger.origin wait.1 wait.2 := by
      intro wait member
      exact mem_selectedWaits_iff.mp member
    have first := waits wait (by rw [selected]; exact List.mem_cons_self ..)
    obtain ⟨owner, holder⟩ := exists_holder_of_resolveOpIdentity first.resolves
    have turns := wakeWaiters_woken mailbox trigger _ outs inv holder
      (selectedWaits_nodup env s name trigger.envelope trigger.origin)
      (fun wait member => ⟨(waits wait member).resolves, (waits wait member).parked⟩) (K := K)
    rw [← selected]
    exact turns

/-! ## Names do not disturb each other -/

theorem Quiet.waitsFor_eq (quiet : Quiet s t) (env : BrokerEnv) (name : String) {a b : ClientState}
    (same : a.core = b.core) : waitsFor env t name a = waitsFor env s name b := by
  have bound : a.core.bindAs = b.core.bindAs := by rw [same]
  change a.bindAs = b.bindAs at bound
  simp only [waitsFor, name_of_core same, bound, quiet.proxyHolderAlive_eq env name]

theorem Quiet.selectWait_eq (quiet : Quiet s t) (env : BrokerEnv) (name : String) (envelope : Value)
    (entry : ClientId × ParkedAwait) :
    selectWait env t name envelope entry = selectWait env s name envelope entry := by
  unfold selectWait
  cases stored : s.clients[entry.1]? with
  | none => rw [quiet.absent stored]
  | some state =>
    obtain ⟨state', stored', core⟩ := quiet.later stored
    have connected : state'.core.connected = state.core.connected := by rw [core]
    change state'.connected = state.connected at connected
    simp only [stored', connected, quiet.waitsFor_eq env name core]

theorem selectedWaits_woken (woken : Woken s t name mailbox cursor (answered env s trigger name))
    (differ : other ≠ name) :
    selectedWaits env t other trigger.envelope trigger.origin =
      selectedWaits env s other trigger.envelope trigger.origin := by
  have left : t.pendingAwaits.toList = s.pendingAwaits.toList.filter fun entry =>
      decide (entry.1 ∉ answered env s trigger name) := by
    refine toList_eq_filter (fun id => decide (id ∉ answered env s trigger name)) ?_
    intro id
    rw [woken.pending]
    by_cases gone : id ∈ answered env s trigger name <;> simp [gone]
  unfold selectedWaits
  split
  · rfl
  · rename_i trusted
    rw [left, List.filterMap_filter]
    refine List.filterMap_congr ?_
    intro entry member
    by_cases gone : entry.1 ∈ answered env s trigger name
    · -- an answered connection waits for the mail of `name` and of no other
      obtain ⟨⟨id, filter⟩, selected, rfl⟩ := List.mem_map.mp gone
      have waits := mem_selectedWaits_iff.mp selected
      rw [if_neg (by simpa using gone)]
      obtain ⟨state, stored, connected, _⟩ := waits.connection
      simp only [selectWait, stored]
      rw [if_neg]
      intro also
      simp only [Bool.and_eq_true] at also
      have second : Waits env s other trigger.envelope trigger.origin entry.1 entry.2.filter :=
        ⟨by simpa using trusted, ⟨entry.2, (mem_toList_iff _ _ _).mp member, rfl⟩,
          ⟨state, stored, connected, also.1.2⟩, also.2⟩
      exact differ (second.name_unique waits)
    · rw [if_pos (by simpa using gone)]
      exact woken.quiet.selectWait_eq env other trigger.envelope entry

theorem wakeTurns_woken (inv : StateInvariant s)
    (woken : Woken s t name mailbox cursor (answered env s trigger name)) (differ : other ≠ name) :
    wakeTurns K env t mailbox trigger other = wakeTurns K env s mailbox trigger other := by
  have cursor : holderCursor t other mailbox = holderCursor s other mailbox := by
    rw [holderCursor, holderCursor, woken.quiet.canonicalHolderId_eq inv]
    cases holder : canonicalHolderId s other with
    | none => rfl
    | some id =>
      refine woken.kept id mailbox ?_
      intro holds
      obtain ⟨state, stored, _, named⟩ := canonicalHolderId_some holder
      obtain ⟨state', stored', _, named'⟩ := canonicalHolderId_some holds
      rw [stored, Option.some.injEq] at stored'
      subst stored'
      rw [named, Option.some.injEq] at named'
      exact absurd named' differ
  simp only [wakeTurns, cursor, selectedWaits_woken woken differ]

/-! ## The wakes of a send -/

/-- The names whose parked requests a send looks at: on a channel all members but
the author of the envelope. -/
def recipients (s : BrokerState) (envelope : Value) : Target → List String
  | .agent name => [name]
  | .channel channel =>
    (s.channels[channel]?.getD ∅).toList.filter fun member =>
      !isSelfAuthored envelope (some member)

theorem foreign_of_recipient (recipient : name ∈ recipients s envelope target) :
    isSelfAuthored envelope (channelReader target.mailbox name) = false := by
  cases target with
  | agent agent => rfl
  | channel channel =>
    have kept := (List.mem_filter.mp recipient).2
    simpa [channelReader, Target.mailbox, MailboxName.isChannel] using kept

/-- What the wakes for `names` leave of `s`. -/
structure Wakes (K : Text) (env : BrokerEnv) (s : BrokerState) (mailbox : MailboxName)
    (trigger : Trigger) (names : List String) (s' : BrokerState) : Prop where
  quiet : Quiet s s'
  clients : ∀ id : ClientId,
    s'.clients[id]?.map ClientState.unmoved = s.clients[id]?.map ClientState.unmoved
  moved : ∀ name ∈ names, ∀ id, canonicalHolderId s name = some id →
    awaitCursor s' id mailbox = (wakeTurns K env s mailbox trigger name).1
  kept : ∀ id other, (∀ name ∈ names, canonicalHolderId s name = some id → other ≠ mailbox) →
    awaitCursor s' id other = awaitCursor s id other
  pending : ∀ id : ClientId, s'.pendingAwaits[id]? =
    if id ∈ names.flatMap (answered env s trigger) then none else s.pendingAwaits[id]?

namespace Wakes
variable {K : Text} {env : BrokerEnv} {s t u : BrokerState} {mailbox : MailboxName}
  {trigger : Trigger}

theorem nil (s : BrokerState) : Wakes K env s mailbox trigger [] s :=
  ⟨Quiet.refl s, fun _ => rfl, by simp, fun _ _ _ => rfl, by simp⟩

theorem cons {rest : List String} (inv : StateInvariant s) (fresh : name ∉ rest)
    (first : Woken s t name mailbox (wakeTurns K env s mailbox trigger name).1
      (answered env s trigger name)) (later : Wakes K env t mailbox trigger rest u) :
    Wakes K env s mailbox trigger (name :: rest) u := by
  have holders := first.quiet.canonicalHolderId_eq inv
  have differs : ∀ other ∈ rest, other ≠ name := by
    rintro other member rfl
    exact fresh member
  have single : ∀ {id : ClientId} {a b : String}, canonicalHolderId s a = some id →
      canonicalHolderId s b = some id → a = b := by
    intro id a b holdsA holdsB
    obtain ⟨state, stored, _, namedA⟩ := canonicalHolderId_some holdsA
    obtain ⟨state', stored', _, namedB⟩ := canonicalHolderId_some holdsB
    rw [stored, Option.some.injEq] at stored'
    subst stored'
    exact Option.some.inj (namedA.symm.trans namedB)
  refine ⟨first.quiet.trans later.quiet, fun id => (later.clients id).trans (first.clients id),
    ?_, ?_, ?_⟩
  · intro other member id holder
    rcases List.mem_cons.mp member with rfl | member
    · rw [later.kept id mailbox ?_, first.moved id holder]
      intro another elsewhere holds
      rw [holders] at holds
      exact absurd (single holds holder) (differs another elsewhere)
    · rw [later.moved other member id (by rw [holders, holder]),
        wakeTurns_woken inv first (differs other member)]
  · intro id other away
    rw [later.kept id other ?_, first.kept id other (away name (List.mem_cons_self ..))]
    intro another member holds
    rw [holders] at holds
    exact away another (List.mem_cons_of_mem _ member) holds
  · intro id
    have same : rest.flatMap (answered env t trigger) = rest.flatMap (answered env s trigger) := by
      refine List.flatMap_congr ?_
      intro other member
      rw [answered, selectedWaits_woken first (differs other member)]
    rw [later.pending, first.pending, same, List.flatMap_cons]
    by_cases earlier : id ∈ answered env s trigger name <;>
      by_cases after : id ∈ rest.flatMap (answered env s trigger) <;>
        simp only [List.mem_append, earlier, after, true_or, or_true, or_self, if_true, if_false]

end Wakes

theorem wakeMembers_wakes (channel : String) (trigger : Trigger) :
    ∀ (members : List String) {s : BrokerState} (outs : List Out), StateInvariant s →
      members.Nodup →
      let names := members.filter fun member => !isSelfAuthored trigger.envelope (some member)
      let result := members.foldl (wakeMember K env channel trigger) (s, outs)
      Wakes K env s (.channel channel) trigger names result.1 ∧
        result.2 = outs ++
          names.flatMap fun name => (wakeTurns K env s (.channel channel) trigger name).2 := by
  intro members
  induction members with
  | nil =>
    intro s outs _ _
    exact ⟨Wakes.nil s, (List.append_nil outs).symm⟩
  | cons member rest ih =>
    intro s outs inv distinct
    obtain ⟨fresh, distinct⟩ := List.nodup_cons.mp distinct
    by_cases own : isSelfAuthored trigger.envelope (some member) = true
    · have skipped : wakeMember K env channel trigger (s, outs) member = (s, outs) := by
        simp only [wakeMember, own, if_true]
      simp only [List.foldl_cons, skipped, List.filter_cons, own, Bool.not_true,
        Bool.false_eq_true, if_false]
      exact ih outs inv distinct
    · obtain ⟨first, answers⟩ :=
        wakeName_woken K env inv (.channel channel) trigger member outs
      have woke : wakeMember K env channel trigger (s, outs) member =
          (waitingClientsForName env s member trigger.envelope trigger.origin).foldl
            (wakeWaiter K env (.channel channel) trigger) (s, outs) := by
        simp only [wakeMember, own, Bool.false_eq_true, if_false]
      rw [← woke] at first answers
      cases turned : wakeMember K env channel trigger (s, outs) member with
      | mk t staged =>
        simp only [turned] at first answers
        obtain ⟨later, more⟩ := ih staged (inv.of_quiet first.quiet) distinct
        simp only [List.foldl_cons, turned, List.filter_cons, own, Bool.not_false, if_true]
        have absent : member ∉ rest.filter fun member =>
            !isSelfAuthored trigger.envelope (some member) :=
          fun kept => fresh (List.mem_filter.mp kept).1
        refine ⟨Wakes.cons inv absent first later, ?_⟩
        rw [more, answers, List.append_assoc, List.flatMap_cons]
        congr 2
        refine List.flatMap_congr ?_
        intro other kept
        rw [wakeTurns_woken inv first]
        rintro rfl
        exact absent kept

theorem send_wakes (target : Target) (inv : StateInvariant s)
    (resolved : resolveOpIdentity env s client = .ok identity)
    (own : isSelfAuthored envelope (some identity) = true)
    (canonical : K.canonicalize envelope = .ok line) (small : line.length ≤ maxFrameBytes)
    (stamps : stampLine K line (clientOrigin s client) = .ok stamped) :
    let trigger : Trigger := ⟨clientOrigin s client, envelope, stamped.length⟩
    let names := recipients s envelope target
    Wakes K env s target.mailbox trigger names (send K env s client target envelope).1 ∧
      ∃ rows, (send K env s client target envelope).2 =
        .appendMailbox target.mailbox line (clientOrigin s client) ::
          (names.flatMap fun name => (wakeTurns K env s target.mailbox trigger name).2) ++
            [.reply client (.sendOk (taskIdFrom envelope) rows)] := by
  rw [send_eq resolved own canonical small]
  cases target with
  | agent name =>
    simp only [sendAgent, stamps]
    obtain ⟨woken, answers⟩ := wakeName_woken K env inv (.agent name)
      ⟨clientOrigin s client, envelope, stamped.length⟩ name
      [.appendMailbox (.agent name) line (clientOrigin s client)]
    simp only [recipients, List.flatMap_cons, List.flatMap_nil, List.append_nil]
    exact ⟨Wakes.cons inv List.not_mem_nil woken (Wakes.nil _), _, congrArg (· ++ _) answers⟩
  | channel name =>
    simp only [sendChannel, stamps]
    have distinct : (s.channels[name]?.getD ∅).toList.Nodup :=
      ExtTreeSet.distinct_toList.imp fun differ same =>
        differ (Std.compare_eq_iff_eq.mpr same)
    obtain ⟨wakes, answers⟩ := wakeMembers_wakes name
      ⟨clientOrigin s client, envelope, stamped.length⟩ _
      [.appendMailbox (.channel name) line (clientOrigin s client)] inv distinct (K := K)
    exact ⟨wakes, _, congrArg (· ++ _) answers⟩

/-! ## The state before a request -/

/-- A client without the time of its last activity. -/
def ClientState.atRest (state : ClientState) : ClientState := { state with lastActivity := 0 }

theorem touchActivity_cases (env : BrokerEnv) (s : BrokerState) (client : ClientId) :
    touchActivity env s client = s ∨ ∃ id, touchActivity env s client =
      s.updateClient id fun state => { state with lastActivity := env.wallClock } := by
  unfold touchActivity
  dsimp only
  split
  · exact Or.inl rfl
  · exact Or.inr ⟨_, rfl⟩

theorem touchActivity_pending (env : BrokerEnv) (s : BrokerState) (client : ClientId) :
    (touchActivity env s client).pendingAwaits = s.pendingAwaits := by
  rcases touchActivity_cases env s client with same | ⟨id, same⟩ <;> rw [same]
  rfl

theorem touchActivity_clients (env : BrokerEnv) (s : BrokerState) (client id : ClientId) :
    (touchActivity env s client).clients[id]?.map ClientState.atRest =
      s.clients[id]?.map ClientState.atRest := by
  rcases touchActivity_cases env s client with same | ⟨touched, same⟩ <;> rw [same]
  rw [getElem?_updateClient]
  split
  · rw [Option.map_map]
    rfl
  · rfl

theorem touchActivity_awaitCursor (env : BrokerEnv) (s : BrokerState) (client id : ClientId)
    (mailbox : MailboxName) :
    awaitCursor (touchActivity env s client) id mailbox = awaitCursor s id mailbox := by
  have same := congrArg (Option.bind · fun state => state.awaitOffsets[mailbox]?)
    (touchActivity_clients env s client id)
  rw [Option.bind_map, Option.bind_map] at same
  exact same

theorem Quiet.clientOrigin_eq (quiet : Quiet s t) (inv : StateInvariant s) (client : ClientId) :
    clientOrigin t client = clientOrigin s client := by
  have origins : ∀ id : ClientId, t.clients[id]?.map ClientState.origin =
      s.clients[id]?.map ClientState.origin := by
    intro id
    have same := congrArg (Option.map ClientState.origin) (quiet.core id)
    rw [Option.map_map, Option.map_map] at same
    exact same
  unfold clientOrigin
  cases stored : s.clients[client]? with
  | none => rw [quiet.absent stored]
  | some state =>
    obtain ⟨state', stored', core⟩ := quiet.later stored
    have bound : state'.core.bindAs = state.core.bindAs := by rw [core]
    have origin : state'.core.origin = state.core.origin := by rw [core]
    change state'.bindAs = state.bindAs at bound
    change state'.origin = state.origin at origin
    simp only [stored', name_of_core core, bound, origin, quiet.canonicalHolderId_eq inv]
    split
    · rfl
    · cases state.bindAs with
      | none => rfl
      | some bound =>
        dsimp only
        cases canonicalHolderId s bound with
        | none => rfl
        | some id => simp only [Option.bind_some, origins id]

theorem Quiet.awaiterIdentity_eq (quiet : Quiet s t) (owner : ClientId) (mailbox : MailboxName) :
    awaiterIdentity t owner mailbox = awaiterIdentity s owner mailbox := by
  have same := congrArg (Option.bind · fun state => (effectiveIdentity state).toOption)
    (quiet.core owner)
  rw [Option.bind_map, Option.bind_map] at same
  unfold awaiterIdentity
  split
  · exact same
  · rfl

theorem drainAwaitBatch_touchActivity (K : Text) (env env' : BrokerEnv) (s : BrokerState)
    (client owner : ClientId) (mailbox : MailboxName) (filter : AwaitFilter) :
    drainAwaitBatch K env (touchActivity env' s client) owner mailbox filter none =
      drainAwaitBatch K env s owner mailbox filter none := by
  rw [drainAwaitBatch_eq, drainAwaitBatch_eq, awaitOffset_eq, touchActivity_awaitCursor,
    (touchActivity_quiet env' s client).awaiterIdentity_eq, awaitOffset_eq]

theorem Quiet.awaitMailboxes_eq (quiet : Quiet s t) (owner : ClientId) (identity : String) :
    awaitMailboxes t owner identity = awaitMailboxes s owner identity := by
  unfold awaitMailboxes
  cases stored : s.clients[owner]? with
  | none => rw [quiet.absent stored]
  | some state =>
    obtain ⟨state', stored', core⟩ := quiet.later stored
    have joined : state'.core.joined = state.core.joined := by rw [core]
    change state'.joined = state.joined at joined
    rw [stored']
    dsimp only
    rw [joined]

theorem awaitLoop_touched {identity : String}
    (holder : canonicalHolderId (touchActivity env' s client) identity = some owner) :
    (awaitLoop K env client owner filter
        (awaitMailboxes (touchActivity env' s client) owner identity)
        (touchActivity env' s client)).2 =
      firstAnswer K env s client owner filter (awaitMailboxes s owner identity) := by
  obtain ⟨state, stored, _⟩ := canonicalHolderId_some holder
  rw [awaitLoop_result K env client owner filter _ (awaitMailboxes_nodup _ owner identity) stored,
    (touchActivity_quiet env' s client).awaitMailboxes_eq]
  exact firstAnswer_congr fun mailbox _ =>
    drainAwaitBatch_touchActivity K env env' s client owner mailbox filter

/-- Every check of `Send` passes. -/
structure SendAccepted (K : Text) (env : BrokerEnv) (s : BrokerState) (client : ClientId)
    (envelope : Value) (identity : String) (line stamped : Bytes) : Prop where
  resolved : resolveOpIdentity env s client = .ok identity
  own : isSelfAuthored envelope (some identity) = true
  canonical : K.canonicalize envelope = .ok line
  small : line.length ≤ maxFrameBytes
  stamps : stampLine K line (clientOrigin s client) = .ok stamped

theorem SendAccepted.unique {identity' : String} {line' stamped' : Bytes}
    (first : SendAccepted K env s client envelope identity line stamped)
    (second : SendAccepted K env s client envelope identity' line' stamped') :
    identity' = identity ∧ line' = line ∧ stamped' = stamped := by
  have names := second.resolved.symm.trans first.resolved
  have lines := second.canonical.symm.trans first.canonical
  rw [Except.ok.injEq] at names lines
  subst lines
  have records := second.stamps.symm.trans first.stamps
  rw [Except.ok.injEq] at records
  exact ⟨names, rfl, records⟩

theorem sendAccepted_touchActivity_iff (inv : StateInvariant s) (client : ClientId)
    (envelope : Value) (identity : String) (line stamped : Bytes) :
    SendAccepted K env (touchActivity env s client) client envelope identity line stamped ↔
      SendAccepted K env s client envelope identity line stamped := by
  have quiet := touchActivity_quiet env s client
  constructor
  · rintro ⟨resolved, own, canonical, small, stamps⟩
    rw [quiet.resolveOpIdentity_eq] at resolved
    rw [quiet.clientOrigin_eq inv] at stamps
    exact ⟨resolved, own, canonical, small, stamps⟩
  · rintro ⟨resolved, own, canonical, small, stamps⟩
    rw [← quiet.resolveOpIdentity_eq] at resolved
    rw [← quiet.clientOrigin_eq inv] at stamps
    exact ⟨resolved, own, canonical, small, stamps⟩

theorem selectedWaits_touchActivity (env : BrokerEnv) (s : BrokerState) (client : ClientId)
    (name : String) (envelope : Value) (origin : Origin) :
    selectedWaits env (touchActivity env s client) name envelope origin =
      selectedWaits env s name envelope origin := by
  have select : selectWait env (touchActivity env s client) name envelope =
      selectWait env s name envelope := by
    funext entry
    exact (touchActivity_quiet env s client).selectWait_eq env name envelope entry
  simp only [selectedWaits, touchActivity_pending, select]

theorem wakeTurns_touchActivity (inv : StateInvariant s) (client : ClientId) (mailbox : MailboxName)
    (trigger : Trigger) (name : String) :
    wakeTurns K env (touchActivity env s client) mailbox trigger name =
      wakeTurns K env s mailbox trigger name := by
  have quiet := touchActivity_quiet env s client
  have cursor : holderCursor (touchActivity env s client) name mailbox =
      holderCursor s name mailbox := by
    simp only [holderCursor, quiet.canonicalHolderId_eq inv, touchActivity_awaitCursor]
  simp only [wakeTurns, cursor, selectedWaits_touchActivity]

theorem Wakes.of_touchActivity {names : List String} (inv : StateInvariant s)
    (wakes : Wakes K env (touchActivity env s client) mailbox trigger names s') :
    Wakes K env s mailbox trigger names s' := by
  have quiet := touchActivity_quiet env s client
  have holders := quiet.canonicalHolderId_eq inv
  refine ⟨quiet.trans wakes.quiet, ?_, ?_, ?_, ?_⟩
  · intro id
    have rests := congrArg (Option.map ClientState.unmoved) (touchActivity_clients env s client id)
    rw [Option.map_map, Option.map_map] at rests
    exact (wakes.clients id).trans rests
  · intro name member id holder
    rw [wakes.moved name member id (by rw [holders, holder]), wakeTurns_touchActivity inv]
  · intro id other away
    rw [wakes.kept id other ?_, touchActivity_awaitCursor]
    intro name member holds
    rw [holders] at holds
    exact away name member holds
  · intro id
    have same : answered env (touchActivity env s client) trigger = answered env s trigger := by
      funext name
      rw [answered, selectedWaits_touchActivity]
    rw [wakes.pending, touchActivity_pending, same]

theorem handshaked_of_resolveOpIdentity (inv : StateInvariant s)
    (resolved : resolveOpIdentity env s client = .ok identity) :
    s.clients[client]?.any ClientState.handshaked = true := by
  obtain ⟨state, stored, _, _⟩ := resolveOpIdentity_ok resolved
  rw [stored, Option.any_some, (inv.live client state stored).1]

theorem handle_send (inv : StateInvariant s)
    (accepted : SendAccepted K env s client envelope identity line stamped) (target : Target)
    (now : Nat) :
    let trigger : Trigger := ⟨clientOrigin s client, envelope, stamped.length⟩
    let names := recipients s envelope target
    ∃ s' rows, handle K env s (.wire client (.send target envelope)) now =
        some (s', .appendMailbox target.mailbox line (clientOrigin s client) ::
          (names.flatMap fun name => (wakeTurns K env s target.mailbox trigger name).2) ++
            [.reply client (.sendOk (taskIdFrom envelope) rows)]) ∧
      Wakes K env s target.mailbox trigger names s' := by
  have quiet := touchActivity_quiet env s client
  have touched := (sendAccepted_touchActivity_iff inv client envelope identity line stamped).mpr
    accepted
  obtain ⟨wakes, rows, outs⟩ := send_wakes target (inv.of_quiet quiet) touched.resolved touched.own
    touched.canonical touched.small touched.stamps
  have handled : handle K env s (.wire client (.send target envelope)) now =
      some (send K env (touchActivity env s client) client target envelope) := by
    simp [handle, handleWire, BusMessage.isHello, BusMessage.defersActivity, dispatch,
      handshaked_of_resolveOpIdentity inv accepted.resolved]
  have names : recipients (touchActivity env s client) envelope target =
      recipients s envelope target := by
    cases target with
    | agent name => rfl
    | channel name => simp only [recipients, quiet.channels]
  simp only [names, quiet.clientOrigin_eq inv, wakeTurns_touchActivity inv] at wakes outs
  exact ⟨_, rows, by rw [handled, ← outs], wakes.of_touchActivity inv⟩

theorem handle_await (inv : StateInvariant s)
    (resolved : resolveOpIdentity env s client = .ok identity) (timeoutMs : Nat)
    (task : Option Uuid) (now : Nat) :
    handle K env s (.wire client (.await timeoutMs task)) now =
      some (awaitEnvelope K env (touchActivity env s client) client timeoutMs task now) := by
  simp [handle, handleWire, BusMessage.isHello, BusMessage.defersActivity, dispatch,
    handshaked_of_resolveOpIdentity inv resolved]

theorem handled_send {now : Nat} {outs : List Out} (inv : StateInvariant s)
    (taken : handle K env s (.wire client (.send target envelope)) now = some (s', outs))
    (touched : SendAccepted K env (touchActivity env s client) client envelope identity line
      stamped) :
    let trigger : Trigger := ⟨clientOrigin s client, envelope, stamped.length⟩
    let names := recipients s envelope target
    SendAccepted K env s client envelope identity line stamped ∧
      ∃ rows, outs = .appendMailbox target.mailbox line (clientOrigin s client) ::
          (names.flatMap fun name => (wakeTurns K env s target.mailbox trigger name).2) ++
            [.reply client (.sendOk (taskIdFrom envelope) rows)] ∧
        Wakes K env s target.mailbox trigger names s' := by
  have accepted := (sendAccepted_touchActivity_iff inv client envelope identity line stamped).mp touched
  obtain ⟨s₁, rows, handled, wakes⟩ := handle_send inv accepted target now
  rw [taken] at handled
  obtain ⟨rfl, shown⟩ := Prod.mk.inj (Option.some.inj handled)
  exact ⟨accepted, rows, shown, wakes⟩

/-! ## A parked request and its sender -/

/-- Alice has a parked request, and bob is connected. -/
def waitingCalls : List Call :=
  [.wire 1 (.hello 3 "cli" none), .wire 1 (.register "alice" 11 none true (some .local)),
    .wire 1 (.await 1000 none), .wire 2 (.hello 3 "cli" none),
    .wire 2 (.register "bob" 12 none false (some .local))].map
    fun input => ⟨emptyEnv, input, 5⟩

theorem selectedWaits_waitingCalls (env : BrokerEnv) :
    selectedWaits env (stateAfter Plain.text (BrokerState.new 0) waitingCalls) "alice" envelope
      .local = [(1, .any)] := rfl

/-- An envelope with nothing but its author. -/
def fromBob : Value := Value.record ["from"] (by decide) [.str "agent:example/bob"]

def fromBobLine : Bytes := utf8 "\x7b\"from\":\"agent:example/bob\"\x7d"

def fromBobRecord : Bytes :=
  utf8 "\x7b\"envelope\":\x7b\"from\":\"agent:example/bob\"\x7d,\"origin\":\"local\"\x7d"

end Famp.Bus
