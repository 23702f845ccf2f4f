import Famp.Bus.FrameLimit
import Famp.Bus.Reading

/-!
# Every channel post is polled once

The holder of a name joins a channel, and from then on it polls, itself or through the
connections bound to it.  As long as it holds the name and neither joins the channel
again nor leaves it, what the answered polls draw from the channel is, in order, what
was posted since the join and not written by the holder, up to the cursor of the
channel.
-/

set_option autoImplicit false

namespace Famp.Bus

open Famp.Core Envelope Json Data Std

/-! ## Polls and what they draw -/

/-- The event is a poll for the holder of `name` that was answered with `InboxOk`. -/
def answersPoll (name : String) (event : SystemEvent) : Bool :=
  match event.input.input, event.output with
  | .wire client (.inbox _ _), [.reply _ (.inboxOk _ _)] =>
    match resolveOpIdentity event.input.env event.before.broker client with
    | .ok identity => identity == name
    | .error _ => false
  | _, _ => false

/-- What the poll draws from the channel. -/
def drawn (K : Text) (owner : ClientId) (name channel : String) (event : SystemEvent) :
    List StampedEnvelope :=
  if answersPoll name event then
    (polled K event.input.env event.before.broker owner name channel).1
  else []

variable {owner client : ClientId} {name channel : String} {K : Text} {s s' : BrokerState}
  {event : SystemEvent} {env : BrokerEnv} {read rest : List Bytes} {len : Nat}

theorem answersPoll_iff :
    answersPoll name event = true ↔ ∃ client since includeTerminal receiver envelopes nextOffset,
      event.input.input = .wire client (.inbox since includeTerminal) ∧
      resolveOpIdentity event.input.env event.before.broker client = .ok name ∧
      event.output = [.reply receiver (.inboxOk envelopes nextOffset)] := by
  unfold answersPoll
  constructor
  · intro answered
    split at answered
    · rename_i client since includeTerminal receiver envelopes nextOffset asked replied
      split at answered
      · rename_i identity resolved
        rw [beq_iff_eq] at answered
        exact ⟨client, since, includeTerminal, receiver, envelopes, nextOffset, asked,
          answered ▸ resolved, replied⟩
      · cases answered
    · cases answered
  · rintro ⟨client, since, includeTerminal, receiver, envelopes, nextOffset, asked, resolved, replied⟩
    simp only [asked, replied, resolved, beq_self_eq_true]

/-- The records of the channel that a poll finds past the cursor. -/
def pendingRecords (owner : ClientId) (channel : String) (s : System) : List DrainedRecord :=
  (s.boxes.drainFrom (.channel channel) (inboxOffset s.broker owner (.channel channel))).records

/-- What was posted to the channel since the event, without what `name` wrote. -/
def postsSince (K : Text) (name channel : String) (joining : SystemEvent) (s : System) :
    List StampedEnvelope :=
  handouts K false (some name) ((s.boxes.lines (.channel channel)).drop
    (joining.before.boxes.lines (.channel channel)).length)

/-! ## The window of a membership -/

/-- A `Join` for the holder of `name`, which is `owner`, that was answered with `JoinOk`. -/
def Joins (owner : ClientId) (name channel : String) (event : SystemEvent) : Prop :=
  ∃ client role members drained,
    event.input.input = .wire client (.join channel role) ∧
    resolveOpIdentity event.input.env event.before.broker client = .ok name ∧
    canonicalHolderId event.before.broker name = some owner ∧
    .reply client (.joinOk channel members drained) ∈ event.output

/-- The connection still holds the name after the event, and the event neither joins the
channel again nor leaves it. -/
structure Stays (owner : ClientId) (name channel : String) (event : SystemEvent) : Prop where
  held : HoldsName event.after.broker owner name
  unjoined : ¬Joins owner name channel event
  unleft : ∀ client, event.input.input = .wire client (.leave channel) →
    resolveOpIdentity event.input.env event.before.broker client = .ok name →
    .reply client (.leaveOk channel) ∉ event.output

/-- The cursor of a channel that the connection has joined. -/
def subscription (s : BrokerState) (owner : ClientId) (channel : String) : Option Nat :=
  s.clients[owner]?.bind fun state =>
    if channel ∈ state.joined then state.inboxOffsets[MailboxName.channel channel]? else none

theorem subscription_eq_some_iff {cursor : Nat} : subscription s owner channel = some cursor ↔
      InChannel s owner channel ∧ inboxCursor s owner (.channel channel) = some cursor := by
  unfold subscription InChannel inboxCursor
  cases s.clients[owner]? with
  | none => simp
  | some state => by_cases joined : channel ∈ state.joined <;> simp [joined]

theorem Quiet.inChannel_iff (quiet : Quiet s s') {id : ClientId} :
    InChannel s' id channel ↔ InChannel s id channel := by
  have same : ∀ state after : ClientState, after.core = state.core → after.joined = state.joined :=
    fun state after core => congrArg (fun core => core.joined) core
  constructor
  · rintro ⟨after, stored, inside⟩
    obtain ⟨state, stored, core⟩ := quiet.earlier stored
    exact ⟨state, stored, same state after core ▸ inside⟩
  · rintro ⟨state, stored, inside⟩
    obtain ⟨after, stored, core⟩ := quiet.later stored
    exact ⟨after, stored, same state after core ▸ inside⟩

variable {identity other : String} {line stamped : Bytes} {filled : InMemoryMailbox → Prop}
  {t : BrokerState} {holder : ClientId} {role : Option String} {now : Nat} {outs : List Out}
  {part : List StampedEnvelope} {trace : List SystemEvent} {envelope : Value}

theorem identity_of_holder (held : HoldsName s owner name)
    (found : canonicalHolderId s identity = some owner) : identity = name := by
  obtain ⟨state, stored, -, named⟩ := held
  obtain ⟨other, storedOther, -, namedOther⟩ := canonicalHolderId_some found
  rw [stored, Option.some.injEq] at storedOther
  rw [storedOther, namedOther, Option.some.injEq] at named
  exact named

theorem commitJoin_subscription {offset : Nat} (away : holder = owner → channel ≠ other) :
    subscription (commitJoin t channel name holder role offset) owner other =
      subscription t owner other := by
  unfold subscription commitJoin
  rw [lookup_modify]
  split
  · rename_i same
    have differ := away same
    cases t.clients[owner]? with
    | none => rfl
    | some state => simp [joinClient, lookup_insert, differ]
  · rfl

theorem commitLeave_subscription (away : holder = owner → channel ≠ other) :
    subscription (commitLeave t channel name holder) owner other = subscription t owner other := by
  unfold subscription commitLeave
  rw [lookup_modify]
  split
  · rename_i same
    have differ := away same
    cases t.clients[owner]? with
    | none => rfl
    | some state => simp [leaveClient, lookup_erase, differ]
  · rfl

theorem touchActivity_subscription (env : BrokerEnv) (s : BrokerState) (client owner : ClientId)
    (channel : String) :
    subscription (touchActivity env s client) owner channel = subscription s owner channel :=
  (touchActivity_settings env s client).bind_eq owner fun _ _ _ _ => rfl

theorem setInboxOffsets_lookup {canonical : ClientId} (other : canonical ≠ owner) :
    ∀ (advances : List (MailboxName × Nat)) (s : BrokerState),
      (advances.foldl (fun s advance => setInboxOffset s canonical advance) s).clients[owner]? =
        s.clients[owner]?
  | [], _ => rfl
  | advance :: rest, s => by
    rw [List.foldl_cons, setInboxOffsets_lookup other rest, setInboxOffset, getElem?_updateClient,
      if_neg other]

theorem subscription_step {input : BrokerInput} (channel : String) (inv : StateInvariant s)
    (taken : handle K env s input now = some (s', outs)) (held : HoldsName s owner name)
    (held' : HoldsName s' owner name) :
    subscription s' owner channel = subscription s owner channel ∨
      (∃ client role members drained, input = .wire client (.join channel role) ∧
        resolveOpIdentity env s client = .ok name ∧ canonicalHolderId s name = some owner ∧
        .reply client (.joinOk channel members drained) ∈ outs) ∨
      (∃ client, input = .wire client (.leave channel) ∧
        resolveOpIdentity env s client = .ok name ∧ .reply client (.leaveOk channel) ∈ outs) ∨
      ∃ client since includeTerminal envelopes nextOffset,
        input = .wire client (.inbox since includeTerminal) ∧
        resolveOpIdentity env s client = .ok name ∧
        outs = [.reply client (.inboxOk envelopes nextOffset)] := by
  -- The connection is there after the step, so its entry was not removed.
  have stored' : ∃ state, s'.clients[owner]? = some state := by
    obtain ⟨state, stored, -⟩ := held'
    exact ⟨state, stored⟩
  have lookup : s'.clients[owner]? = s.clients[owner]? ∨ s'.clients[owner]? = none →
      subscription s' owner channel = subscription s owner channel := by
    rintro (same | gone)
    · rw [subscription, same, subscription]
    · obtain ⟨state, stored⟩ := stored'
      rw [stored] at gone
      cases gone
  cases handle_handled taken with
  | refused same _ =>
    left
    rcases same with rfl | rfl
    · rfl
    · exact touchActivity_subscription env s _ owner channel
  | report change _ => exact Or.inl (change.bind_eq owner fun _ _ _ _ => rfl)
  | @hello client label bindAs fresh _ =>
    left
    obtain ⟨state, stored, -, named⟩ := held'
    rw [lookup_insert] at stored
    unfold subscription
    rw [lookup_insert]
    split
    · rename_i same
      rw [if_pos same, Option.some.injEq] at stored
      rw [← stored] at named
      cases named
    · rfl
  | @register client => exact Or.inl (bind_updateClient s client owner fun _ => rfl)
  | @send client target envelope identity line stamped t touched resolved own canonical small stamps =>
    subst touched
    obtain ⟨-, -, -, wakes⟩ := handled_send inv taken ⟨resolved, own, canonical, small, stamps⟩
    exact Or.inl (wakes.bind_eq owner fun _ => rfl)
  | @inbox client canonical since includeTerminal identity _ _ _ t touched resolved _ found _ _ =>
    subst touched
    obtain ⟨resolved, found⟩ := holder_untouched inv resolved found
    by_cases same : canonical = owner
    · subst same
      obtain rfl := identity_of_holder held found
      exact Or.inr (Or.inr (Or.inr ⟨client, since, includeTerminal, _, _, rfl, resolved, rfl⟩))
    · left
      rw [subscription, setInboxOffsets_lookup same]
      exact touchActivity_subscription env s client owner channel
  | @await client holder timeoutMs task identity t _ _ touched resolved _ run =>
    subst touched
    left
    rw [← touchActivity_subscription env s client owner channel]
    exact awaitLoop_bind_eq run owner fun _ _ => rfl
  | @park client holder timeoutMs task identity t t' parked touched resolved _ request run =>
    subst touched
    left
    rw [← touchActivity_subscription env s client owner channel]
    exact awaitLoop_bind_eq run owner fun _ _ => rfl
  | @join client holder joined identity role drained t touched resolved found read _ =>
    subst touched
    obtain ⟨resolved, found⟩ := holder_untouched inv resolved found
    by_cases here : holder = owner ∧ joined = channel
    · obtain ⟨rfl, rfl⟩ := here
      obtain rfl := identity_of_holder held found
      exact Or.inr (Or.inl ⟨client, role, _, _, rfl, resolved, found, List.mem_cons_self ..⟩)
    · left
      rw [← touchActivity_subscription env s client owner channel]
      exact commitJoin_subscription fun same channels => here ⟨same, channels⟩
  | @leave client holder left identity t touched resolved found =>
    subst touched
    obtain ⟨resolved, found⟩ := holder_untouched inv resolved found
    by_cases here : holder = owner ∧ left = channel
    · obtain ⟨rfl, rfl⟩ := here
      obtain rfl := identity_of_holder held found
      exact Or.inr (Or.inr (Or.inl ⟨client, rfl, resolved, List.mem_cons_self ..⟩))
    · left
      rw [← touchActivity_subscription env s client owner channel]
      exact commitLeave_subscription fun same channels => here ⟨same, channels⟩
  | @disconnect client => exact Or.inl (lookup (disconnect_lookup s client owner))
  | tick => exact Or.inl (lookup (tick_lookup env s now owner))

theorem subscription_kept (inv : StateInvariant event.before.broker)
    (taken : handle K event.input.env event.before.broker event.input.input event.input.now =
      some (event.after.broker, event.output)) (held : HoldsName event.before.broker owner name)
    (stays : Stays owner name channel event) (unanswered : answersPoll name event = false) :
    subscription event.after.broker owner channel =
      subscription event.before.broker owner channel := by
  rcases subscription_step channel inv taken held stays.held with kept | joins |
    ⟨client, asked, resolved, replied⟩ |
    ⟨client, since, includeTerminal, envelopes, nextOffset, asked, resolved, replied⟩
  · exact kept
  · exact absurd joins stays.unjoined
  · exact absurd replied (stays.unleft client asked resolved)
  · have answered := answersPoll_iff.mpr
      ⟨client, since, includeTerminal, client, envelopes, nextOffset, asked, resolved, replied⟩
    rw [unanswered] at answered
    cases answered

theorem subscription_joins {members : List MemberInfo} {replied : List StampedEnvelope}
    (inv : StateInvariant s)
    (taken : handle K env s (.wire client (.join channel role)) now = some (s', outs))
    (resolved : resolveOpIdentity env s client = .ok name)
    (found : canonicalHolderId s name = some owner)
    (joined : .reply client (.joinOk channel members replied) ∈ outs) :
    HoldsName s' owner name ∧ ∃ drained, env.drainFrom (.channel channel) 0 = .ok drained ∧
      subscription s' owner channel = some drained.nextOffset := by
  cases handle_handled taken with
  | refused _ refusal =>
    obtain ⟨-, rfl⟩ := Out.reply.inj (List.mem_singleton.mp joined)
    cases refusal
  | report _ report =>
    rw [← List.mem_singleton.mp joined] at report
    cases report
  | @join _ holder _ identity _ drained t touched resolved' found' read _ =>
    subst touched
    have quiet := touchActivity_quiet env s client
    rw [quiet.resolveOpIdentity_eq, resolved] at resolved'
    cases resolved'
    obtain ⟨state, stored, -⟩ := canonicalHolderId_some found'
    have held := HoldsName.of_canonicalHolderId found'
    rw [quiet.canonicalHolderId_eq inv, found] at found'
    cases found'
    refine ⟨?_, drained, read, ?_⟩
    · refine (holdsName_modify rfl ?_ owner name).mpr held
      exact fun _ => ⟨rfl, rfl⟩
    · unfold subscription commitJoin
      rw [lookup_modify, if_pos rfl, stored]
      simp [joinClient]

/-! ## What has been drawn since the join -/

/-- `got` is what the lines between `base` and the cursor of the channel hold for the
holder of `name`. -/
def DrawnSince (K : Text) (owner : ClientId) (name channel : String) (base : List Bytes)
    (got : List StampedEnvelope) (s : System) : Prop :=
  HoldsName s.broker owner name ∧ ∃ read rest,
    s.boxes.lines (.channel channel) = base ++ read ++ rest ∧
    subscription s.broker owner channel = some (totalLen (base ++ read)) ∧
    got = handouts K false (some name) read

section Steps
variable {K : Text} {filled : InMemoryMailbox → Prop} {trace : List SystemEvent}
  {owner : ClientId} {name channel : String} {base : List Bytes} {got : List StampedEnvelope}
  {event : SystemEvent} (run : (systemMachine K filled).Run trace event.before)
  (taken : (systemMachine K filled).step event.before event.input event.output event.after)
include run taken

theorem DrawnSince.start (joins : Joins owner name channel event) :
    DrawnSince K owner name channel (event.before.boxes.lines (.channel channel)) []
      event.after := by
  obtain ⟨client, role, members, replied, asked, resolved, found, joined⟩ := joins
  have boxes : event.after.boxes = event.before.boxes :=
    boxes_of_not_send run taken fun _ _ _ sent => by rw [asked] at sent; cases sent
  obtain ⟨reads, handled, -⟩ := taken
  rw [asked] at handled
  obtain ⟨held, drained, read, cursor⟩ :=
    subscription_joins (StateInvariant.of_system run) handled resolved found joined
  rw [reads _ _ _ read, (decodeLines_whole K event.before.boxes (.channel channel)).2] at cursor
  exact ⟨held, [], [], by simp [boxes], by simpa using cursor, rfl⟩

theorem DrawnSince.poll (answered : answersPoll name event = true) (held : HoldsName event.before.broker owner name)
    (lines : event.before.boxes.lines (.channel channel) = base ++ read ++ rest)
    (cursor : subscription event.before.broker owner channel = some (totalLen (base ++ read))) :
    drawn K owner name channel event =
        handouts K false (some name) (rest.take channelDrainCap) ∧
      event.after.boxes = event.before.boxes ∧
      subscription event.after.broker owner channel =
        some (totalLen (base ++ (read ++ rest.take channelDrainCap))) := by
  obtain ⟨client, since, includeTerminal, receiver, envelopes, nextOffset, asked, resolved, replied⟩ :=
    answersPoll_iff.mp answered
  have inv := StateInvariant.of_system run
  obtain ⟨⟨state, stored, joined⟩, cursor⟩ := subscription_eq_some_iff.mp cursor
  have boxes : event.after.boxes = event.before.boxes :=
    boxes_of_not_send run taken fun _ _ _ sent => by rw [asked] at sent; cases sent
  obtain ⟨reads, handled, -⟩ := taken
  rw [asked] at handled
  rcases handle_poll inv handled resolved (held.canonicalHolderId inv) stored with ⟨refused, -⟩ |
    ⟨_, polls⟩
  · exact absurd (replied ▸ List.mem_singleton_self _) (refused receiver envelopes nextOffset)
  obtain ⟨drained, pending⟩ := polls.reads channel joined
  have offset : inboxOffset event.before.broker owner (.channel channel) = totalLen (base ++ read) := by
    rw [inboxOffset_eq, cursor, Option.getD_some]
  have found := polled_of_read K name pending
  rw [reads _ _ _ pending, offset, InMemoryMailbox.drainFrom_pending lines,
    drainChannel_pending] at found
  refine ⟨?_, boxes, subscription_eq_some_iff.mpr ⟨?_, ?_⟩⟩
  · rw [drawn, if_pos answered, found]
  · exact polls.quiet.inChannel_iff.mpr ⟨state, stored, joined⟩
  · rw [polls.moved channel joined, found, cursor, ← List.append_assoc]
    split
    · rename_i nothing
      simp [nothing]
    · rfl

theorem DrawnSince.step (stays : Stays owner name channel event)
    (before : DrawnSince K owner name channel base got event.before) :
    DrawnSince K owner name channel base (got ++ drawn K owner name channel event) event.after := by
  obtain ⟨held, read, rest, lines, cursor, rfl⟩ := before
  cases answered : answersPoll name event with
  | true =>
    obtain ⟨draws, boxes, moved⟩ := DrawnSince.poll run taken answered held lines cursor
    refine ⟨stays.held, read ++ rest.take channelDrainCap, rest.drop channelDrainCap, ?_, moved, ?_⟩
    · rw [boxes, lines]
      simp only [List.append_assoc, List.take_append_drop]
    · rw [draws, handouts_append]
  | false =>
    have kept := subscription_kept (StateInvariant.of_system run) taken.2.1 held stays answered
    have more : ∃ more, event.after.boxes.lines (.channel channel) =
        base ++ read ++ (rest ++ more) := by
      rcases lines_step run taken (.channel channel) with same |
        ⟨_, _, _, _, _, stamped, _, _, _, appended⟩
      · exact ⟨[], by rw [same, lines, List.append_nil]⟩
      · exact ⟨[stamped], by rw [appended, lines, List.append_assoc]⟩
    obtain ⟨more, lines'⟩ := more
    exact ⟨stays.held, read, rest ++ more, lines', kept.trans cursor, by simp [drawn, answered]⟩

end Steps

/-! ## Windows -/

/-- What the answered polls of `window` draw from the channel, which was joined by the
event `joining`. -/
structure PolledOnce (K : Text) (owner : ClientId) (name channel : String) (joining : SystemEvent)
    (window : List SystemEvent) (s : System) : Prop where
  /-- In order, and without a gap or a repetition. -/
  inOrder : window.flatMap (drawn K owner name channel) <+: postsSince K name channel joining s
  /-- A poll that finds no more records than it goes through draws all that is left. -/
  complete : ∀ before poll after, window = before ++ poll :: after → answersPoll name poll = true →
    (pendingRecords owner channel poll.before).length ≤ channelDrainCap →
      (before ++ [poll]).flatMap (drawn K owner name channel) =
        postsSince K name channel joining poll.after
  /-- A reply holds what the agent's mailbox holds, and what is drawn from each channel. -/
  replies : ∀ poll ∈ window, answersPoll name poll = true →
    ∃ client since includeTerminal agentDrained state,
      poll.input.input = .wire client (.inbox since includeTerminal) ∧
      poll.before.broker.clients[owner]? = some state ∧ channel ∈ state.joined ∧
      poll.input.env.drainFrom (.agent name) (since.getD 0) = .ok agentDrained ∧
      poll.output = [.reply client (.inboxOk (decodeLines K (since.getD 0) agentDrained ++
        state.joined.toList.flatMap fun joined => drawn K owner name joined poll)
        agentDrained.nextOffset)]

section Windows
variable {K : Text} {filled : InMemoryMailbox → Prop} {trace earlier window : List SystemEvent}
  {s : System} {joining : SystemEvent} {owner : ClientId} {name channel : String}

theorem postsSince_eq {s : System} (lines : s.boxes.lines (.channel channel) =
      joining.before.boxes.lines (.channel channel) ++ read ++ rest) :
    postsSince K name channel joining s = handouts K false (some name) (read ++ rest) := by
  rw [postsSince, lines, List.append_assoc, List.drop_left]

variable (run : (systemMachine K filled).Run trace s)
  (split : trace = earlier ++ joining :: window) (joins : Joins owner name channel joining)
  (stays : ∀ event ∈ window, Stays owner name channel event)
include run split joins stays

theorem drawnSince_of_window :
    DrawnSince K owner name channel (joining.before.boxes.lines (.channel channel))
      (window.flatMap (drawn K owner name channel)) s := by
  obtain ⟨runBefore, taken⟩ := run.split split
  refine run.history_after (Stays owner name channel)
    (fun since s => DrawnSince K owner name channel (joining.before.boxes.lines (.channel channel))
      (since.flatMap (drawn K owner name channel)) s) ?_ split
    (DrawnSince.start runBefore taken joins) stays
  intro trace since s call outs s' run before stays taken
  rw [List.flatMap_append, List.flatMap_singleton]
  exact DrawnSince.step run taken stays before

theorem drawnSince_of_poll {before after : List SystemEvent} {poll : SystemEvent}
    (place : window = before ++ poll :: after) :
    (∃ trace, (systemMachine K filled).Run trace poll.before) ∧
      (systemMachine K filled).step poll.before poll.input poll.output poll.after ∧
      DrawnSince K owner name channel (joining.before.boxes.lines (.channel channel))
        (before.flatMap (drawn K owner name channel)) poll.before := by
  have there : trace = (earlier ++ joining :: before) ++ poll :: after := by
    rw [split, place, List.append_assoc, List.cons_append]
  obtain ⟨runBefore, taken⟩ := run.split there
  refine ⟨⟨_, runBefore⟩, taken, drawnSince_of_window runBefore rfl joins ?_⟩
  intro event member
  exact stays event (place ▸ List.mem_append_left _ member)

/-- In every run, from a `Join` on and as long as its holder keeps the name and neither
joins the channel again nor leaves it, the answered polls draw every post once. -/
theorem channel_posts_are_polled_once :
    PolledOnce K owner name channel joining window s := by
  refine ⟨?_, ?_, ?_⟩
  · obtain ⟨-, read, rest, lines, -, draws⟩ := drawnSince_of_window run split joins stays
    rw [draws, postsSince_eq lines, handouts_append]
    exact List.prefix_append _ _
  · intro before poll after place answered few
    obtain ⟨⟨_, runBefore⟩, taken, held, read, rest, lines, cursor, draws⟩ :=
      drawnSince_of_poll run split joins stays place
    obtain ⟨drawnHere, boxes, -⟩ := DrawnSince.poll runBefore taken answered held lines cursor
    have pending : (pendingRecords owner channel poll.before).length = rest.length := by
      rw [pendingRecords, inboxOffset_eq, (subscription_eq_some_iff.mp cursor).2, Option.getD_some,
        InMemoryMailbox.drainFrom_pending lines, length_recordsFrom]
    rw [pending] at few
    rw [List.flatMap_append, List.flatMap_singleton, draws, drawnHere, List.take_of_length_le few,
      ← handouts_append]
    exact (postsSince_eq (boxes ▸ lines)).symm
  · intro poll member answered
    obtain ⟨before, after, place⟩ := List.append_of_mem member
    obtain ⟨⟨_, runBefore⟩, taken, held, _, _, _, cursor, _⟩ :=
      drawnSince_of_poll run split joins stays place
    obtain ⟨⟨state, stored, joined⟩, -⟩ := subscription_eq_some_iff.mp cursor
    obtain ⟨client, since, includeTerminal, receiver, envelopes, nextOffset, asked, resolved,
      replied⟩ := answersPoll_iff.mp answered
    have inv := StateInvariant.of_system runBefore
    have handled := taken.2.1
    rw [asked] at handled
    rcases handle_poll inv handled resolved (held.canonicalHolderId inv) stored with
      ⟨refused, -⟩ | ⟨agentDrained, polls⟩
    · exact absurd (replied ▸ List.mem_singleton_self _) (refused receiver envelopes nextOffset)
    · refine ⟨client, since, includeTerminal, agentDrained, state, asked, stored, joined, polls.read,
        ?_⟩
      simp only [drawn, if_pos answered]
      exact polls.outs_eq

end Windows

/-! ## A post that is polled -/

theorem Stays.of_other (held : HoldsName event.after.broker owner name)
    (other : ∀ client, (∀ role, event.input.input ≠ .wire client (.join channel role)) ∧
      event.input.input ≠ .wire client (.leave channel)) : Stays owner name channel event where
  held := held
  unjoined := by
    rintro ⟨client, role, _, _, asked, _⟩
    exact (other client).1 role asked
  unleft client asked := absurd asked (other client).2

theorem stays_of_calls {calls : List Call} {s : System} (held : ∀ event ∈ systemEvents K s calls,
      event.after.broker.clients[owner]?.any (holds name) = true)
    (other : ∀ input ∈ calls.map Call.input, ∀ client,
      (∀ role, input ≠ .wire client (.join channel role)) ∧ input ≠ .wire client (.leave channel)) :
    ∀ event ∈ systemEvents K s calls, Stays owner name channel event := by
  intro event member
  have input : event.input.input ∈ calls.map Call.input := by
    rw [← map_input_systemEvents K calls s]
    exact List.mem_map.mpr ⟨event, member, rfl⟩
  obtain ⟨state, stored, passes⟩ := (Option.any_eq_true _ _).mp (held event member)
  exact Stays.of_other ⟨state, stored, holds_iff.mp passes⟩ (other _ input)

def aliceJoins : SystemEvent :=
  systemEvent Plain.text (systemAfter Plain.text firstSystem (joinedCalls.take 2))
    ⟨emptyEnv, .wire 1 (.join "#a" none), 5⟩

theorem aliceJoins_joins : Joins 1 "alice" "#a" aliceJoins :=
  ⟨1, none, [⟨"alice", none⟩], [], rfl, by decide +kernel, by decide +kernel, List.mem_cons_self ..⟩

/-- Alice has joined the channel, bob has posted to it, and alice polls. -/
theorem posted_is_polled :
    let window := systemEvents Plain.text (systemAfter Plain.text firstSystem joinedCalls)
      (postedCalls.drop 3 ++ [pollCall])
    PolledOnce Plain.text 1 "alice" "#a" aliceJoins window
        (systemAfter Plain.text firstSystem (postedCalls ++ [pollCall])) ∧
      (window.flatMap (drawn Plain.text 1 "alice" "#a")).length = 1 := by
  intro window
  have facts : (∀ event ∈ window, event.after.broker.clients[1]?.any (holds "alice") = true) ∧
      (window.flatMap (drawn Plain.text 1 "alice" "#a")).length = 1 := by
    decide +kernel
  have split := systemEvents_split Plain.text firstSystem (joinedCalls.take 2)
    ⟨emptyEnv, .wire 1 (.join "#a" none), 5⟩ (postedCalls.drop 3 ++ [pollCall])
  refine ⟨channel_posts_are_polled_once (run_firstSystem (postedCalls ++ [pollCall])) split
    aliceJoins_joins (stays_of_calls facts.1 ?_), facts.2⟩
  simp [postedCalls, joinedCalls, pollCall]

/-! ## Posts that are too long for a reply -/

def longPost (size : Nat) : Value :=
  Value.record ["authority", "body", "class", "famp", "from", "id", "scope", "to", "ts"]
    entryKeys_increasing
    [.str "advisory",
      Value.record ["event", "subject"] (by decide)
        [.str "note", .str (String.ofList (List.replicate size 'x'))],
      .str "audit_log", .str fampSpecVersion, .str "agent:example/bob",
      .str "00000000-0000-7000-8000-000000000001", .str "standalone",
      .str "agent:example/channel-a", .str "2026-01-01T00:00:00Z"]

theorem readable_longPost (size : Nat) : Readable Plain.text (longPost size) := by
  rw [Readable, Plain.reread_eq]
  exact ⟨Nat.le_add_left 3 124, rfl⟩

theorem canonicalLen?_longPost (size : Nat) :
    Plain.text.canonicalLen? (longPost size) = some (247 + size) := by
  have subject := Plain.canonicalLen?_replicate size
  have event : Plain.text.canonicalLen? (.str "note") = some 6 := by decide
  have body : Plain.text.canonicalLen? (Value.record ["event", "subject"] (by decide)
      [.str "note", .str (String.ofList (List.replicate size 'x'))]) = some (29 + size) := by
    have keys : (utf8 "event").length = 5 ∧ (utf8 "subject").length = 7 := by decide
    rw [Plain.text.canonicalLen?_record _ _ _ (by decide) rfl]
    simp [Text.canonicalLens?, event, subject, Text.objectLen, Text.commaLen, keys]
    omega
  have texts : Plain.text.canonicalLens? [.str "audit_log", .str fampSpecVersion,
      .str "agent:example/bob", .str "00000000-0000-7000-8000-000000000001", .str "standalone",
      .str "agent:example/channel-a", .str "2026-01-01T00:00:00Z"] =
        some [11, 7, 19, 38, 12, 25, 22] := by decide
  have authority : Plain.text.canonicalLen? (.str "advisory") = some 10 := by decide
  have keys : (["authority", "body", "class", "famp", "from", "id", "scope", "to", "ts"].map
      fun key => (utf8 key).length) = [9, 4, 5, 4, 4, 2, 5, 2, 2] := by decide
  simp only [List.map_cons, List.map_nil, List.cons.injEq] at keys
  rw [longPost, Plain.text.canonicalLen?_record _ _ _ (by decide) rfl, Text.canonicalLens?,
    Text.canonicalLens?, authority, body, texts]
  simp [Text.objectLen, Text.commaLen, keys]
  omega

theorem mul_le_sum_canonicalLens {part items : List Value} {lens : List Nat} (sub : part.Sublist items)
    (known : ∀ item ∈ part, K.canonicalLen? item = some len)
    (all : K.canonicalLens? items = some lens) : part.length * len ≤ lens.sum := by
  induction sub generalizing lens with
  | slnil => simp
  | cons first _ ih =>
    simp only [Text.canonicalLens?] at all
    split at all
    · rename_i firstLen restLens _ restKnown
      cases all
      have bound := ih known restKnown
      rw [List.sum_cons]
      omega
    · cases all
  | cons_cons first _ ih =>
    obtain ⟨here, later⟩ := List.forall_mem_cons.mp known
    simp only [Text.canonicalLens?, here] at all
    split at all
    · rename_i firstLen restLens same restKnown
      cases all
      cases same
      have bound := ih later restKnown
      rw [List.sum_cons, List.length_cons, Nat.succ_mul]
      omega
    · cases all

theorem fits_inboxOk {entries : List StampedEnvelope} {nextOffset : Nat}
    (fits : Fits Plain.text (.inboxOk entries nextOffset)) (sub : part.Sublist entries)
    (known : ∀ entry ∈ part, Plain.text.canonicalLen? entry.toValue = some len) :
    47 + part.length * len ≤ maxFrameBytes := by
  obtain ⟨total, sum, bounded⟩ := (fits_iff Plain.text _).mp fits
  have plain : ∀ key ∈ ["envelopes", "next_offset", "op"], PlainKey key := by decide
  have keys : (utf8 "envelopes").length = 9 ∧ (utf8 "next_offset").length = 11 ∧
      (utf8 "op").length = 2 := by decide
  have kind : Plain.text.canonicalLen? (.str "inbox_ok") = some 10 := by decide
  have record := Plain.text.canonicalLen?_record ["envelopes", "next_offset", "op"] (by decide)
    [stampedValues entries, .int nextOffset, .str "inbox_ok"] plain rfl
  rw [BusReply.toValue, record] at sum
  simp only [Text.canonicalLens?, stampedValues, Text.canonicalLen?_arr, kind] at sum
  cases all : Plain.text.canonicalLens? (entries.map StampedEnvelope.toValue) with
  | none => simp [all] at sum
  | some lens =>
    have bound := mul_le_sum_canonicalLens (sub.map _) (List.forall_mem_map.mpr known) all
    rw [List.length_map] at bound
    cases offset : Plain.text.canonicalLen? (.int nextOffset) with
    | none => simp [all, offset] at sum
    | some offsetLen =>
      simp [all, offset, Text.objectLen, Text.arrayLen, Text.commaLen, keys] at sum
      omega

theorem handouts_longPosts {size : Nat}
    (canonical : Plain.text.canonicalize (longPost size) = .ok line)
    (stamps : stampLine Plain.text line .local = .ok stamped) :
    handouts Plain.text false (some "alice") [stamped, stamped] =
      [⟨.local, longPost size⟩, ⟨.local, longPost size⟩] := by
  have decoded := (decodeLine_stampLine_ok_iff Plain.text canonical stamps).mpr
    (readable_longPost size)
  rw [Plain.reread_eq] at decoded
  have foreign : isSelfAuthored (longPost size) (some "alice") = false := rfl
  simp [handouts, handout?, decoded, foreign]

theorem exists_send {s : System} (target : Target) (now : Nat)
    (run : (systemMachine K filled).Run trace s) (reads : ReadsStore env s.boxes)
    (accepted : SendAccepted K env s.broker client envelope identity line stamped) :
    ∃ event : SystemEvent, (systemMachine K filled).Run (trace ++ [event]) event.after ∧
      event.before = s ∧ event.input.input = .wire client (.send target envelope) ∧
      (∃ id rows, .reply client (.sendOk id rows) ∈ event.output) ∧
      Quiet s.broker event.after.broker ∧
      (∀ owner joined, subscription event.after.broker owner joined =
        subscription s.broker owner joined) ∧
      event.after.boxes.lines target.mailbox = s.boxes.lines target.mailbox ++ [stamped] := by
  have inv := StateInvariant.of_system run
  obtain ⟨s', rows, handled, wakes⟩ := handle_send inv accepted target now
  obtain ⟨outs, handled, replied⟩ : ∃ outs, handle K env s.broker
      (.wire client (.send target envelope)) now = some (s', outs) ∧
        .reply client (.sendOk (taskIdFrom envelope) rows) ∈ outs :=
    ⟨_, handled, List.mem_append_right _ (List.mem_singleton_self _)⟩
  have taken : (systemMachine K filled).step s ⟨env, .wire client (.send target envelope), now⟩ outs
      ⟨s', performAll K s.boxes outs⟩ := ⟨reads, handled, rfl⟩
  obtain ⟨_, _, _, accepted', lines⟩ := lines_of_sendOk run taken rfl replied
  obtain ⟨-, -, rfl⟩ := accepted.unique accepted'
  exact ⟨⟨s, ⟨env, .wire client (.send target envelope), now⟩, outs,
    ⟨s', performAll K s.boxes outs⟩⟩, run.step taken, rfl, rfl, ⟨_, _, replied⟩, wakes.quiet,
    fun owner joined => wakes.bind_eq owner fun _ => rfl, lines⟩

theorem exists_sends (target : Target) (now : Nat) : ∀ (count : Nat)
      {trace : List SystemEvent} {s : System}, (systemMachine K filled).Run trace s →
      SendAccepted K (storeEnv s.boxes emptyEnv) s.broker client envelope identity line stamped →
      ∃ events s', (systemMachine K filled).Run (trace ++ events) s' ∧
        (∀ event ∈ events, event.input.input = .wire client (.send target envelope) ∧
          Quiet s.broker event.after.broker) ∧
        Quiet s.broker s'.broker ∧
        (∀ owner joined, subscription s'.broker owner joined = subscription s.broker owner joined) ∧
        s'.boxes.lines target.mailbox = s.boxes.lines target.mailbox ++ List.replicate count stamped
  | 0, trace, s, run, _ => ⟨[], s, by rwa [List.append_nil], nofun, .refl _, fun _ _ => rfl, by simp⟩
  | count + 1, trace, s, run, accepted => by
    obtain ⟨event, run₁, -, sent, -, quiet, cursors, lines⟩ := exists_send target now run
      (fun _ _ _ read => (Except.ok.inj read).symm) accepted
    have again : SendAccepted K (storeEnv event.after.boxes emptyEnv) event.after.broker client
        envelope identity line stamped := by
      refine { accepted with
        resolved := (quiet.resolveOpIdentity_eq _ client).trans accepted.resolved, stamps := ?_ }
      rw [quiet.clientOrigin_eq (StateInvariant.of_system run)]
      exact accepted.stamps
    obtain ⟨events, s', run', sends, quiet', cursors', lines'⟩ :=
      exists_sends target now count run₁ again
    refine ⟨event :: events, s', ?_, ?_, quiet.trans quiet', fun owner joined =>
      (cursors' owner joined).trans (cursors owner joined), ?_⟩
    · rwa [List.append_assoc] at run'
    · exact List.forall_mem_cons.mpr ⟨⟨sent, quiet⟩, fun later member =>
        (sends later member).imp_right quiet.trans⟩
    · rw [lines', lines, List.append_assoc]
      rfl

theorem unanswered_of_long {since : Option Nat} {includeTerminal : Option Bool}
    (run : (systemMachine Plain.text filled).Run trace event.before)
    (taken : (systemMachine Plain.text filled).step event.before event.input event.output event.after)
    (asked : event.input.input = .wire client (.inbox since includeTerminal))
    (resolved : resolveOpIdentity event.input.env event.before.broker client = .ok name)
    (held : canonicalHolderId event.before.broker name = some owner)
    (cursor : subscription event.before.broker owner channel = some (totalLen read))
    (lines : event.before.boxes.lines (.channel channel) = read ++ rest)
    (sub : part.Sublist (handouts Plain.text false (some name) (rest.take channelDrainCap)))
    (known : ∀ entry ∈ part, Plain.text.canonicalLen? entry.toValue = some len)
    (large : maxFrameBytes < 47 + part.length * len) :
    ∀ receiver envelopes nextOffset,
      .reply receiver (.inboxOk envelopes nextOffset) ∉ event.output := by
  obtain ⟨⟨state, stored, joined⟩, offset⟩ := subscription_eq_some_iff.mp cursor
  obtain ⟨reads, handled, -⟩ := taken
  rw [asked] at handled
  rcases handle_poll (StateInvariant.of_system run) handled resolved held stored with
    ⟨refused, -⟩ | ⟨agentDrained, polls⟩
  · exact refused
  · obtain ⟨drained, pending⟩ := polls.reads channel joined
    have found := polled_of_read Plain.text name pending
    rw [reads _ _ _ pending, inboxOffset_eq, offset, Option.getD_some,
      InMemoryMailbox.drainFrom_pending lines, drainChannel_pending] at found
    have among : part.Sublist (state.joined.toList.flatMap fun channel =>
        (polled Plain.text event.input.env event.before.broker owner name channel).1) := by
      obtain ⟨before, after, split⟩ := List.append_of_mem (ExtTreeSet.mem_toList.mpr joined)
      rw [split, List.flatMap_append, List.flatMap_cons, found]
      exact (sub.trans (List.sublist_append_left ..)).trans (List.sublist_append_right ..)
    have bound := fits_inboxOk polls.fits (among.trans (List.sublist_append_right ..)) known
    omega

def tenMiB : Nat := 10 * 1024 * 1024

/-- Alice cannot poll two long posts of bob, though no other record is pending: each
fits into a reply, and the two together do not. -/
theorem long_posts_are_not_polled :
    ∃ (earlier window : List SystemEvent) (poll : SystemEvent),
      (systemMachine Plain.text (· = ∅)).Run (earlier ++ aliceJoins :: (window ++ [poll]))
        poll.after ∧
      Joins 1 "alice" "#a" aliceJoins ∧
      (∀ event ∈ window ++ [poll], Stays 1 "alice" "#a" event) ∧
      poll.input.input = .wire 1 (.inbox none none) ∧
      (pendingRecords 1 "#a" poll.before).length ≤ channelDrainCap ∧
      postsSince Plain.text "alice" "#a" aliceJoins poll.before =
        [⟨.local, longPost tenMiB⟩, ⟨.local, longPost tenMiB⟩] ∧
      ∀ receiver envelopes nextOffset,
        .reply receiver (.inboxOk envelopes nextOffset) ∉ poll.output := by
  have limit : maxFrameBytes = 16777216 := by decide
  have size : tenMiB = 10485760 := by decide
  have known := canonicalLen?_longPost tenMiB
  obtain ⟨line, canonical, length⟩ := Text.canonicalize_of_len known
  obtain ⟨stamped, stamps, -⟩ := Text.canonicalize_of_len (canonicalLen?_stamped known)
  -- Bob is there, and posts.
  generalize here : systemAfter Plain.text firstSystem (postedCalls.take 5) = s₀
  have run₀ := run_firstSystem (postedCalls.take 5)
  have facts : (∀ event ∈ systemEvents Plain.text (systemAfter Plain.text firstSystem joinedCalls)
        ((postedCalls.drop 3).take 2), event.after.broker.clients[1]?.any (holds "alice") = true) ∧
      s₀.boxes.lines (.channel "#a") = [] ∧ clientOrigin s₀.broker 2 = .local ∧
      resolveOpIdentity (storeEnv s₀.boxes emptyEnv) s₀.broker 2 = .ok "bob" ∧
      resolveOpIdentity (storeEnv s₀.boxes emptyEnv) s₀.broker 1 = .ok "alice" ∧
      canonicalHolderId s₀.broker "alice" = some 1 ∧ subscription s₀.broker 1 "#a" = some 0 := by
    rw [← here]
    decide +kernel
  obtain ⟨kept, empty, origin, bob, alice, held, cursor⟩ := facts
  rw [here] at run₀
  have inv₀ := StateInvariant.of_system run₀
  have accepted : SendAccepted Plain.text (storeEnv s₀.boxes emptyEnv) s₀.broker 2
      (longPost tenMiB) "bob" line stamped := by
    refine ⟨bob, rfl, canonical, by omega, ?_⟩
    rw [stampLine_canonicalize Plain.text _ canonical (readable_longPost _).1.le,
      Plain.reread_eq, origin, stamps]
  obtain ⟨posts, s₁, run₁, sent, quiet, cursors, lines⟩ :=
    exists_sends (.channel "#a") 5 2 run₀ accepted
  -- Alice polls.
  have lines₁ : s₁.boxes.lines (.channel "#a") = [] ++ [stamped, stamped] :=
    lines.trans (congrArg (· ++ [stamped, stamped]) empty)
  have held₀ := HoldsName.of_canonicalHolderId held
  have alice₁ : resolveOpIdentity (storeEnv s₁.boxes emptyEnv) s₁.broker 1 = .ok "alice" :=
    (quiet.resolveOpIdentity_eq _ 1).trans alice
  have cursor₁ : subscription s₁.broker 1 "#a" = some (totalLen []) := (cursors 1 "#a").trans cursor
  have handed := handouts_longPosts canonical (origin ▸ accepted.stamps)
  have few : [stamped, stamped].length ≤ channelDrainCap := by simp [channelDrainCap]
  have run₂ := run_append_systemCalls Plain.text [pollCall] run₁
  have taken : (systemMachine Plain.text (· = ∅)).step s₁
      (systemEvent Plain.text s₁ pollCall).input (systemEvent Plain.text s₁ pollCall).output
      (systemEvent Plain.text s₁ pollCall).after := (run₂.split rfl).2
  have quiet₂ : Quiet s₁.broker (systemEvent Plain.text s₁ pollCall).after.broker := by
    cases handle_transition taken.2.1 with
    | quiet quiet => exact quiet
  refine ⟨systemEvents Plain.text firstSystem (joinedCalls.take 2),
    systemEvents Plain.text (systemAfter Plain.text firstSystem joinedCalls)
      ((postedCalls.drop 3).take 2) ++ posts,
    systemEvent Plain.text s₁ pollCall, ?_, aliceJoins_joins, ?_, rfl, ?_, ?_, ?_⟩
  · have split : systemEvents Plain.text firstSystem (postedCalls.take 5) = _ :=
      systemEvents_split Plain.text firstSystem (joinedCalls.take 2)
        ⟨emptyEnv, .wire 1 (.join "#a" none), 5⟩ ((postedCalls.drop 3).take 2)
    rw [split, List.append_assoc, List.append_assoc, List.cons_append] at run₂
    rw [List.append_assoc]
    exact run₂
  · refine List.forall_mem_append.mpr ⟨List.forall_mem_append.mpr
      ⟨stays_of_calls kept (by simp [postedCalls, joinedCalls]), fun post member => ?_⟩, ?_⟩
    · obtain ⟨asked, kept⟩ := sent post member
      exact Stays.of_other ((kept.holdsName_iff 1 "alice").mpr held₀) (by simp [asked])
    · exact List.forall_mem_singleton.mpr (Stays.of_other
        (((quiet.trans quiet₂).holdsName_iff 1 "alice").mpr held₀) (by simp [systemEvent, pollCall]))
  · show (pendingRecords 1 "#a" s₁).length ≤ channelDrainCap
    rw [pendingRecords, inboxOffset_eq, (subscription_eq_some_iff.mp cursor₁).2, Option.getD_some,
      InMemoryMailbox.drainFrom_pending lines₁, length_recordsFrom]
    exact few
  · have base : aliceJoins.before.boxes.lines (.channel "#a") = [] := by decide +kernel
    show handouts Plain.text false (some "alice") ((s₁.boxes.lines _).drop _) = _
    rw [base, lines₁]
    exact handed
  · have both : ∀ entry ∈ [⟨.local, longPost tenMiB⟩, ⟨.local, longPost tenMiB⟩],
        Plain.text.canonicalLen? (StampedEnvelope.toValue entry) = some (30 + (247 + tenMiB)) := by
      simpa using canonicalLen?_stamped known
    refine unanswered_of_long run₁ taken rfl alice₁
      ((quiet.canonicalHolderId_eq inv₀ "alice").trans held) cursor₁ lines₁ ?_ both ?_
    · rw [List.take_of_length_le few, handed]
    · rw [List.length_cons, List.length_singleton]
      omega

end Famp.Bus
