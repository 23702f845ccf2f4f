import Famp.Bus.Cursors
import Famp.Data.Path

/-!
# Mailbox files

Every mailbox is stored in one file, whose name is the bare name of the agent or of
the channel.  Which mailboxes a run of the broker touches follows from the names in
its frames, and of those only the channel that a `Send` names is checked when the
frame is decoded.
-/

set_option autoImplicit false

namespace Famp.Bus

open Famp.Core Json Data Std

/-! ## Files -/

def mailboxesDir (busDir : Path) : Path := busDir.join "mailboxes".toList

def mailboxPath (busDir : Path) (name : MailboxName) : Path :=
  (mailboxesDir busDir).join (name.display ++ ".jsonl").toList

/-- A name that cannot be the name of a channel and cannot leave its directory. -/
structure IsAgentName (name : String) : Prop where
  unbroken : '/' ∉ name.toList
  unmarked : name.toList.head? ≠ some '#'

def MailboxName.IsWellNamed : MailboxName → Prop
  | .agent name => IsAgentName name
  | .channel name => channelRe name = true

variable {name : String} {outs : List Out} {owner client : ClientId} {offset : Nat}

theorem channelRe_chars (valid : channelRe name = true) :
    name.toList.head? = some '#' ∧ '/' ∉ name.toList := by
  unfold channelRe at valid
  split at valid
  · rename_i first rest chars
    rw [chars]
    simp only [Bool.and_eq_true, List.all_eq_true, Bool.or_eq_true, beq_iff_eq] at valid
    obtain ⟨⟨start, _⟩, more⟩ := valid
    refine ⟨rfl, ?_⟩
    simp only [List.mem_cons, not_or]
    refine ⟨by decide, ?_, ?_⟩
    · rintro rfl
      exact absurd start (by decide)
    · intro member
      have allowed := more '/' member
      revert allowed
      decide
  · cases valid

theorem isFileName_of_unbroken (unbroken : '/' ∉ name.toList) :
    Path.IsFileName (name ++ ".jsonl").toList := by
  have long : 6 ≤ (name ++ ".jsonl").toList.length := by
    simp only [String.toList_append, List.length_append]
    have extension : ".jsonl".toList.length = 6 := by decide
    omega
  refine ⟨?_, ?_, ?_, ?_⟩
  · rw [String.toList_append, List.mem_append, not_or]
    exact ⟨unbroken, by decide⟩
  all_goals
    intro same
    rw [same] at long
    revert long
    decide

variable {s s' : BrokerState} {K : Text} {mailbox : MailboxName} {env : BrokerEnv}
  {input : BrokerInput} {channel : String}

theorem MailboxName.IsWellNamed.unbroken (named : mailbox.IsWellNamed) :
    '/' ∉ mailbox.display.toList := by
  cases mailbox with
  | agent name => exact IsAgentName.unbroken named
  | channel name => exact (channelRe_chars named).2

theorem MailboxName.IsWellNamed.isChild (named : mailbox.IsWellNamed) (busDir : Path) :
    Path.IsChild (mailboxesDir busDir) (mailboxPath busDir mailbox) :=
  (isFileName_of_unbroken named.unbroken).isChild _

theorem MailboxName.IsWellNamed.eq_of_resolve {first second : MailboxName}
    (one : first.IsWellNamed) (two : second.IsWellNamed) {busDir : Path}
    (same : (mailboxPath busDir first).resolve = (mailboxPath busDir second).resolve) :
    first = second := by
  have texts := (isFileName_of_unbroken one.unbroken).resolve_join_inj
    (isFileName_of_unbroken two.unbroken) same
  rw [String.toList_append, String.toList_append, List.append_cancel_right_eq] at texts
  have names : first.display = second.display := String.toList_inj.mp texts
  cases first with
  | agent name =>
    cases second with
    | agent other => exact congrArg MailboxName.agent names
    | channel other =>
      refine absurd ?_ (IsAgentName.unmarked one)
      rw [show name = other from names]
      exact (channelRe_chars two).1
  | channel name =>
    cases second with
    | agent other =>
      refine absurd ?_ (IsAgentName.unmarked two)
      rw [← show name = other from names]
      exact (channelRe_chars one).1
    | channel other => exact congrArg MailboxName.channel names

/-! ## What a step reads -/

/-- The mailboxes that the broker may read to answer an input. -/
def mailboxesRead (env : BrokerEnv) (s : BrokerState) : BrokerInput → List MailboxName
  | .wire _ (.register name ..) => [.agent name]
  | .wire _ (.send target _) => [target.mailbox]
  | .wire _ (.join channel _) => [.channel channel]
  | .wire client (.inbox ..) | .wire client (.await ..) =>
    match resolveAwaitOwner env s client with
    | .error _ => []
    | .ok (identity, owner) => awaitMailboxes s owner identity
  | _ => []

section Reads
variable {K : Text} {drains drains' : MailboxName → Nat → Except MailboxErr DrainResult}
  {isAlive : Nat → Bool} {wallClock : Nat}

theorem drainAwaitBatch_reads (same : drains' mailbox = drains mailbox) (s : BrokerState)
    (owner : ClientId) (filter : AwaitFilter) (trigger : Option Trigger) :
    drainAwaitBatch K ⟨drains', isAlive, wallClock⟩ s owner mailbox filter trigger =
      drainAwaitBatch K ⟨drains, isAlive, wallClock⟩ s owner mailbox filter trigger := by
  simp only [drainAwaitBatch, same]

theorem wakeWaiter_reads (same : drains' mailbox = drains mailbox) (trigger : Trigger) :
    wakeWaiter K ⟨drains', isAlive, wallClock⟩ mailbox trigger =
      wakeWaiter K ⟨drains, isAlive, wallClock⟩ mailbox trigger := by
  funext acc waiting
  unfold wakeWaiter awaitReplyForMailbox
  simp only [drainAwaitBatch_reads same]
  rfl

theorem awaitLoop_reads (client owner : ClientId) (filter : AwaitFilter) :
    ∀ (mailboxes : List MailboxName) (s : BrokerState),
      (∀ mailbox ∈ mailboxes, drains' mailbox = drains mailbox) →
      awaitLoop K ⟨drains', isAlive, wallClock⟩ client owner filter mailboxes s =
        awaitLoop K ⟨drains, isAlive, wallClock⟩ client owner filter mailboxes s
  | [], _, _ => rfl
  | mailbox :: rest, s, same => by
    obtain ⟨here, later⟩ := List.forall_mem_cons.mp same
    simp only [awaitLoop, drainAwaitBatch_reads here,
      fun t => awaitLoop_reads client owner filter rest t later]

theorem drainChannels_reads (s : BrokerState) (owner : ClientId) (name : String) :
    ∀ channels : List String, (∀ channel ∈ channels, drains' (.channel channel) =
        drains (.channel channel)) →
      drainChannels K ⟨drains', isAlive, wallClock⟩ s owner name channels =
        drainChannels K ⟨drains, isAlive, wallClock⟩ s owner name channels
  | [], _ => rfl
  | channel :: rest, same => by
    obtain ⟨here, later⟩ := List.forall_mem_cons.mp same
    simp only [drainChannels, here, drainChannels_reads s owner name rest later]

theorem wakeMember_reads (same : drains' (.channel channel) = drains (.channel channel))
    (trigger : Trigger) :
    wakeMember K ⟨drains', isAlive, wallClock⟩ channel trigger =
      wakeMember K ⟨drains, isAlive, wallClock⟩ channel trigger := by
  funext acc member
  unfold wakeMember
  rw [wakeWaiter_reads same]
  rfl

theorem dispatch_reads (s : BrokerState) (client : ClientId) (now : Nat) (msg : BusMessage)
    (same : ∀ mailbox ∈ mailboxesRead ⟨drains, isAlive, wallClock⟩ s (.wire client msg),
      drains' mailbox = drains mailbox) :
    dispatch K ⟨drains', isAlive, wallClock⟩ s client now msg =
      dispatch K ⟨drains, isAlive, wallClock⟩ s client now msg := by
  cases msg with
  | register name pid cwd listen origin =>
    simp only [dispatch, register, same _ (List.mem_singleton_self _)]
    rfl
  | send target envelope =>
    have here := same target.mailbox (List.mem_singleton_self _)
    simp only [dispatch, send]
    cases target with
    | agent name =>
      simp only [sendAgent, wakeWaiter_reads (show drains' (.agent name) = _ from here)]
      rfl
    | channel name =>
      simp only [sendChannel, wakeMember_reads (show drains' (.channel name) = _ from here)]
      rfl
  | inbox since includeTerminal =>
    have owner : resolveOpIdentity ⟨drains', isAlive, wallClock⟩ s client =
      resolveOpIdentity ⟨drains, isAlive, wallClock⟩ s client := rfl
    simp only [mailboxesRead, resolveAwaitOwner] at same
    simp only [dispatch, inbox, owner]
    cases resolved : resolveOpIdentity ⟨drains, isAlive, wallClock⟩ s client with
    | error kind => rfl
    | ok name =>
      simp only [resolved] at same
      simp only [same _ (List.mem_cons_self ..)]
      cases held : canonicalHolderId s name with
      | none => rfl
      | some canonical =>
        simp only [held, Option.getD_some] at same
        have joined : ∀ channel ∈
            (s.clients[canonical]?.map fun state => state.joined.toList).getD [],
            drains' (.channel channel) = drains (.channel channel) := by
          intro channel member
          refine same _ (List.mem_cons_of_mem _ ?_)
          cases stored : s.clients[canonical]? with
          | none => simp [stored] at member
          | some state =>
            simp only [stored, Option.map_some, Option.getD_some] at member
            exact List.mem_map.mpr ⟨channel, member, rfl⟩
        simp only [drainChannels_reads s canonical name _ joined]
  | await timeoutMs task =>
    have owner : resolveAwaitOwner ⟨drains', isAlive, wallClock⟩ s client =
      resolveAwaitOwner ⟨drains, isAlive, wallClock⟩ s client := rfl
    simp only [mailboxesRead] at same
    simp only [dispatch, awaitEnvelope, owner]
    cases resolved : resolveAwaitOwner ⟨drains, isAlive, wallClock⟩ s client with
    | error kind => rfl
    | ok found =>
      simp only [resolved] at same
      simp only [awaitLoop_reads client found.2 _ _ s same]
  | join channel role =>
    simp only [dispatch, join, same _ (List.mem_singleton_self _)]
    rfl
  | _ => rfl

end Reads

theorem mailboxesRead_touchActivity (inv : StateInvariant s) (env : BrokerEnv) (client : ClientId)
    (msg : BusMessage) :
    mailboxesRead env (touchActivity env s client) (.wire client msg) =
      mailboxesRead env s (.wire client msg) := by
  have quiet := touchActivity_quiet env s client
  have owner : resolveAwaitOwner env (touchActivity env s client) client =
      resolveAwaitOwner env s client := by
    simp only [resolveAwaitOwner, quiet.resolveOpIdentity_eq, quiet.canonicalHolderId_eq inv]
  cases msg <;> simp only [mailboxesRead, owner, quiet.awaitMailboxes_eq]

theorem handle_reads {env' : BrokerEnv} (inv : StateInvariant s)
    (alive : env'.isAlive = env.isAlive) (clock : env'.wallClock = env.wallClock)
    (input : BrokerInput)
    (same : ∀ mailbox ∈ mailboxesRead env s input, env'.drainFrom mailbox = env.drainFrom mailbox)
    (now : Nat) : handle K env' s input now = handle K env s input now := by
  obtain ⟨drains, isAlive, wallClock⟩ := env
  obtain ⟨drains', isAlive', wallClock'⟩ := env'
  dsimp only at alive clock same
  subst alive clock
  cases input with
  | disconnect client => rfl
  | tick => rfl
  | wire client msg =>
    unfold handle handleWire
    dsimp only
    split
    · rfl
    · split
      · rfl
      · refine dispatch_reads _ client now msg ?_
        split
        · exact same
        · have touched := mailboxesRead_touchActivity inv ⟨drains, isAlive', wallClock'⟩ client msg
          rw [← touched] at same
          exact same

/-! ## What a step touches -/

/-- The outcome depends on what is in the mailbox. -/
def Reads (K : Text) (event : BrokerEvent) (mailbox : MailboxName) : Prop :=
  ∃ drains : Nat → Except MailboxErr DrainResult,
    let env := { event.input.env with drainFrom := fun other =>
      if other = mailbox then drains else event.input.env.drainFrom other }
    handle K env event.before event.input.input event.input.now ≠
      handle K event.input.env event.before event.input.input event.input.now

/-- Effects on the file of a mailbox or on the file of its cursor. -/
def Out.written? : Out → Option MailboxName
  | .appendMailbox mailbox _ _ | .advanceCursor mailbox _ => some mailbox
  | _ => none

/-- The mailbox is read, appended to, or a cursor for it is moved or given up. -/
inductive Touches (K : Text) (event : BrokerEvent) (mailbox : MailboxName) : Prop
  | reads : Reads K event mailbox → Touches K event mailbox
  | writes {out : Out} : out ∈ event.output → out.written? = some mailbox →
      Touches K event mailbox
  | awaits {owner : ClientId} {offset : Nat} : awaitCursor event.after owner mailbox = some offset →
      awaitCursor event.before owner mailbox ≠ some offset → Touches K event mailbox
  | polls {owner : ClientId} {offset : Nat} : inboxCursor event.after owner mailbox = some offset →
      inboxCursor event.before owner mailbox ≠ some offset → Touches K event mailbox
  | leaves {client : ClientId} {channel : String} :
      event.input.input = .wire client (.leave channel) → mailbox = .channel channel →
      Touches K event mailbox

theorem written_mem_mailboxesRead {now : Nat} (handled : Handled K env s now input s' outs)
    {out : Out} (staged : out ∈ outs) (written : out.written? = some mailbox) :
    mailbox ∈ mailboxesRead env s input := by
  have unwritten : ∀ out : Out, out.isWake = true ∨ out.isSessionEnd = true ∨ out.isExpiry = true ∨
      (∃ client, out.isReport client = true) → out.written? = none := by
    intro out kind
    cases out <;> simp_all [Out.isWake, Out.isSessionEnd, Out.isExpiry, Out.isReport, Out.written?]
  cases handled with
  | refused _ _ =>
    obtain rfl := List.mem_singleton.mp staged
    cases written
  | report _ report =>
    obtain rfl := List.mem_singleton.mp staged
    rw [unwritten _ (Or.inr (Or.inr (Or.inr ⟨_, report⟩)))] at written
    cases written
  | hello _ _ =>
    obtain rfl := List.mem_singleton.mp staged
    cases written
  | register _ _ _ _ _ _ =>
    rcases List.mem_cons.mp staged with rfl | staged
    · cases written
    · obtain rfl := List.mem_singleton.mp staged
      cases written
      exact List.mem_singleton_self _
  | send touched resolved own canonical small stamps =>
    rcases send_outs resolved own canonical small stamps out staged with rfl | wake | ⟨rows, rfl⟩
    · cases written
      exact List.mem_singleton_self _
    · rw [unwritten _ (Or.inl wake)] at written
      cases written
    · cases written
  | inbox _ _ _ _ _ _ =>
    obtain rfl := List.mem_singleton.mp staged
    cases written
  | await _ _ _ run =>
    rcases awaitLoop_outs run with ⟨_, _, rfl⟩ | ⟨_, _, _, rfl⟩
    · obtain rfl := List.mem_singleton.mp staged
      cases written
    · obtain rfl := List.mem_singleton.mp staged
      cases written
  | park _ _ _ _ _ =>
    obtain rfl := List.mem_singleton.mp staged
    cases written
  | join _ _ _ _ _ =>
    rcases List.mem_cons.mp staged with rfl | staged
    · cases written
    · obtain rfl := List.mem_singleton.mp staged
      cases written
      exact List.mem_singleton_self _
  | leave _ _ _ =>
    obtain rfl := List.mem_singleton.mp staged
    cases written
  | disconnect =>
    rw [unwritten _ (Or.inr (Or.inl (disconnect_outs _ _ _ staged)))] at written
    cases written
  | tick =>
    rcases tick_outs _ _ _ _ staged with ended | expired
    · rw [unwritten _ (Or.inr (Or.inl ended))] at written
      cases written
    · rw [unwritten _ (Or.inr (Or.inr (Or.inl expired)))] at written
      cases written

theorem Advance.mem_mailboxesRead (advance : Advance K env s outs owner input mailbox offset) :
    mailbox ∈ mailboxesRead env s input := by
  cases advance with
  | register _ _ => exact List.mem_singleton_self _
  | join _ _ _ _ => exact List.mem_singleton_self _
  | await resolved held member _ _ _ =>
    simp only [mailboxesRead, resolveAwaitOwner, resolved, held, Option.getD_some]
    exact member
  | wake _ _ _ _ _ => exact List.mem_singleton_self _

theorem InboxAdvance.mem_mailboxesRead (advance : InboxAdvance K env s owner input mailbox offset) :
    mailbox ∈ mailboxesRead env s input := by
  cases advance with
  | join _ _ _ => exact List.mem_singleton_self _
  | poll resolved held stored joined _ =>
    simp only [mailboxesRead, resolveAwaitOwner, resolved, held, Option.getD_some, awaitMailboxes,
      stored]
    exact List.mem_cons_of_mem _ (List.mem_map.mpr ⟨_, ExtTreeSet.mem_toList.mpr joined, rfl⟩)

theorem Touches.mem_mailboxesRead {event : BrokerEvent} (occurs : (brokerMachine K).Occurs event)
    (touches : Touches K event mailbox) :
    mailbox ∈ mailboxesRead event.input.env event.before event.input.input ∨
      ∃ client channel, event.input.input = .wire client (.leave channel) ∧
        mailbox = .channel channel := by
  obtain ⟨earlier, run, taken⟩ := occurs
  have inv := StateInvariant.of_run run
  cases touches with
  | reads depends =>
    obtain ⟨drains, differs⟩ := depends
    refine Or.inl ?_
    by_contra unread
    refine differs (handle_reads inv (by rfl) (by rfl) event.input.input ?_ event.input.now)
    intro other member
    have differ : other ≠ mailbox := by
      rintro rfl
      exact unread member
    simp only [if_neg differ]
  | writes staged written =>
    exact Or.inl (written_mem_mailboxesRead (handle_handled taken) staged written)
  | @awaits owner offset after before =>
    rcases handle_awaitCursor inv taken owner mailbox with same | gone | ⟨_, _, advance⟩
    · exact absurd (same.symm.trans after) before
    · exact absurd (gone.symm.trans after) (by simp)
    · exact Or.inl advance.mem_mailboxesRead
  | @polls owner offset after before =>
    rcases handle_inboxCursor inv taken owner mailbox with same | gone | ⟨_, _, advance⟩
    · exact absurd (same.symm.trans after) before
    · exact absurd (gone.symm.trans after) (by simp)
    · exact Or.inl advance.mem_mailboxesRead
  | leaves input same => exact Or.inr ⟨_, _, input, same⟩

/-! ## Runs -/

/-- The frame was read from the wire. -/
def Decoded (K : Text) : BrokerInput → Prop
  | .wire _ msg => ∃ buf used, tryDecodeFrame K BusMessage.read buf = .ok (some (msg, used))
  | _ => True

/-- The names that decoding leaves unchecked are well formed. -/
def NamesChecked : BrokerInput → Prop
  | .wire _ (.register name ..) => IsAgentName name
  | .wire _ (.send (.agent name) _) => IsAgentName name
  | .wire _ (.join channel _) => channelRe channel = true
  | .wire _ (.leave channel) => channelRe channel = true
  | _ => True

/-- Every name that is held and every channel that is joined is well formed. -/
def NamesKept (s : BrokerState) : Prop :=
  ∀ (id : ClientId) (state : ClientState), s.clients[id]? = some state →
    (∀ name, state.name = some name → IsAgentName name) ∧
      ∀ channel ∈ state.joined, channelRe channel = true

namespace NamesKept

theorem of_quiet (kept : NamesKept s) (quiet : Quiet s s') : NamesKept s' := by
  intro id state stored
  obtain ⟨earlier, stored, core⟩ := quiet.earlier stored
  have joined : state.core.joined = earlier.core.joined := by rw [core]
  change state.joined = earlier.joined at joined
  rw [name_of_core core, joined]
  exact kept id earlier stored

theorem erase (kept : NamesKept s) (clients : s'.clients = s.clients.erase client) :
    NamesKept s' := by
  intro id state stored
  rw [clients, lookup_erase] at stored
  split at stored
  · cases stored
  · exact kept id state stored

theorem reap : ∀ (dead : List ClientId) (acc : BrokerState × List Out), NamesKept acc.1 →
    NamesKept (dead.foldl disconnectStep acc).1
  | [], _, kept => kept
  | client :: rest, acc, kept =>
    reap rest (disconnectStep acc client) (kept.erase (disconnect_clients acc.1 client))

theorem change {holder : ClientId} {change : ClientState → ClientState} (kept : NamesKept s)
    (clients : s'.clients = s.clients.modify holder change)
    (names : ∀ state name, (change state).name = some name →
      state.name = some name ∨ IsAgentName name)
    (joined : ∀ state, ∀ channel ∈ (change state).joined,
      channel ∈ state.joined ∨ channelRe channel = true) : NamesKept s' := by
  intro id state stored
  rw [clients, lookup_modify] at stored
  split at stored
  · rename_i same
    subst same
    obtain ⟨earlier, found, rfl⟩ := Option.map_eq_some_iff.mp stored
    obtain ⟨named, joins⟩ := kept holder earlier found
    refine ⟨?_, ?_⟩
    · intro name held
      exact (names earlier name held).elim (named name) id
    · intro channel member
      exact (joined earlier channel member).elim (joins channel) id
  · exact kept id state stored

theorem step (kept : NamesKept s) (checked : NamesChecked input)
    (taken : Transition K env s input s') : NamesKept s' := by
  cases taken with
  | quiet quiet => exact kept.of_quiet quiet
  | @hello client _ _ bindAs _ _ =>
    intro id state stored
    rw [lookup_insert] at stored
    split at stored
    · cases stored
      refine ⟨fun name named => by simp [freshClient] at named, fun channel member => ?_⟩
      simp [freshClient] at member
    · exact kept id state stored
  | register _ _ _ _ _ _ =>
    refine kept.change rfl ?_ fun _ _ member => Or.inl member
    intro state name named
    cases named
    exact Or.inr checked
  | join quiet _ _ _ _ =>
    refine (kept.of_quiet quiet).change rfl (fun _ _ named => Or.inl named) ?_
    intro state channel member
    rcases (mem_set_insert _ _ _).mp member with rfl | member
    · exact Or.inr checked
    · exact Or.inl member
  | leave quiet _ _ =>
    refine (kept.of_quiet quiet).change rfl (fun _ _ named => Or.inl named) ?_
    intro state channel member
    exact Or.inl ((mem_set_erase _ _ _).mp member).2
  | disconnect => exact kept.erase (disconnect_clients s _)
  | tick quiet => exact (reap _ _ kept).of_quiet quiet

end NamesKept

theorem target_wellNamed {target : Target} {envelope : Value}
    (decoded : Decoded K (.wire client (.send target envelope)))
    (checked : NamesChecked (.wire client (.send target envelope))) :
    target.mailbox.IsWellNamed := by
  cases target with
  | agent name => exact checked
  | channel name =>
    obtain ⟨buf, used, decoded⟩ := decoded
    obtain ⟨tree, read⟩ := tryDecodeFrame_ok decoded
    obtain ⟨part, read⟩ := BusMessage.read_send read
    exact Target.read_channel read

theorem mailboxesRead_wellNamed (kept : NamesKept s) (decoded : Decoded K input)
    (checked : NamesChecked input) :
    ∀ mailbox ∈ mailboxesRead env s input, mailbox.IsWellNamed := by
  -- `Inbox` and `Await` read the mailbox of the name and those of the joined channels
  have own : ∀ client, ∀ mailbox ∈ (match resolveAwaitOwner env s client with
      | .error _ => []
      | .ok (identity, owner) => awaitMailboxes s owner identity), mailbox.IsWellNamed := by
    intro client mailbox member
    cases resolved : resolveAwaitOwner env s client with
    | error kind => simp [resolved] at member
    | ok found =>
      obtain ⟨identity, owner⟩ := found
      simp only [resolved] at member
      obtain ⟨state, stored, -, named⟩ := canonicalHolderId_some (resolveAwaitOwner_ok resolved).2
      obtain ⟨names, joined⟩ := kept owner state stored
      rcases List.mem_cons.mp member with rfl | member
      · exact names identity named
      · simp only [stored, List.mem_map, ExtTreeSet.mem_toList] at member
        obtain ⟨channel, joins, rfl⟩ := member
        exact joined channel joins
  cases input with
  | disconnect client => simp [mailboxesRead]
  | tick => simp [mailboxesRead]
  | wire client msg =>
    cases msg with
    | register name pid cwd listen origin =>
      simp only [mailboxesRead, List.forall_mem_singleton]
      exact checked
    | send target envelope =>
      simp only [mailboxesRead, List.forall_mem_singleton]
      exact target_wellNamed decoded checked
    | join channel role =>
      simp only [mailboxesRead, List.forall_mem_singleton]
      exact checked
    | inbox since includeTerminal => exact own client
    | await timeoutMs task => exact own client
    | _ => simp [mailboxesRead]

/-- The mailboxes that the run touches are stored in files of their own, directly in
the directory of the mailboxes. -/
structure Isolated (K : Text) (busDir : Path) (trace : List BrokerEvent) : Prop where
  inside : ∀ event ∈ trace, ∀ mailbox, Touches K event mailbox →
    Path.IsChild (mailboxesDir busDir) (mailboxPath busDir mailbox)
  apart : ∀ event ∈ trace, ∀ event' ∈ trace, ∀ mailbox mailbox', Touches K event mailbox →
    Touches K event' mailbox' → mailbox ≠ mailbox' →
      (mailboxPath busDir mailbox).resolve ≠ (mailboxPath busDir mailbox').resolve

theorem touched_wellNamed {trace : List BrokerEvent} (run : (brokerMachine K).Run trace s)
    (decoded : ∀ event ∈ trace, Decoded K event.input.input)
    (checked : ∀ event ∈ trace, NamesChecked event.input.input) :
    ∀ event ∈ trace, ∀ mailbox, Touches K event mailbox → mailbox.IsWellNamed := by
  intro event member mailbox touches
  obtain ⟨earlier, later, split⟩ := List.append_of_mem member
  have kept : NamesKept event.before := by
    refine (run.split split).1.invariant_of_allowed (fun event => NamesChecked event.input.input)
      NamesKept ?_ ?_ ?_
    · rintro s ⟨startedAt, rfl⟩ id state stored
      simp [BrokerState.new] at stored
    · exact fun s input output s' kept allowed taken => kept.step allowed (handle_transition taken)
    · exact fun other among => checked other (split ▸ List.mem_append_left _ among)
  rcases touches.mem_mailboxesRead (run.occurs member) with read | ⟨client, channel, input, rfl⟩
  · exact mailboxesRead_wellNamed kept (decoded event member) (checked event member) mailbox read
  · have named := checked event member
    rw [input] at named
    exact named

/-- Where all names in the frames are well formed, the mailboxes of a run do not share
files. -/
theorem mailboxes_isolated {K : Text} {trace : List BrokerEvent} {s : BrokerState}
    (run : (brokerMachine K).Run trace s)
    (decoded : ∀ event ∈ trace, Decoded K event.input.input)
    (checked : ∀ event ∈ trace, NamesChecked event.input.input) (busDir : Path) :
    Isolated K busDir trace := by
  have wellNamed := touched_wellNamed run decoded checked
  refine ⟨?_, ?_⟩
  · exact fun event member mailbox touches => (wellNamed event member mailbox touches).isChild busDir
  · intro event member event' member' mailbox mailbox' touches touches' differ same
    exact differ ((wellNamed event member mailbox touches).eq_of_resolve
      (wellNamed event' member' mailbox' touches') same)

/-! ## A channel with the name of an agent -/

def frameOf (text : String) : Bytes := beBytes (utf8 text).length ++ utf8 text

theorem ok_of_toOption {ε α β : Type} {result : Except ε (Option (α × β))} {found : α}
    (read : result.toOption.join.map Prod.fst = some found) :
    ∃ used, result = .ok (some (found, used)) := by
  cases result with
  | error error => cases read
  | ok pair =>
    cases pair with
    | none => cases read
    | some pair => exact ⟨pair.2, by rw [← Option.some.inj read]⟩

theorem decoded_frameOf (client : ClientId) (msg : BusMessage) (text : String)
    (read : (tryDecodeFrame Plain.text BusMessage.read (frameOf text)).toOption.join.map Prod.fst =
      some msg) : Decoded Plain.text (.wire client msg) :=
  ⟨frameOf text, ok_of_toOption read⟩

/-- Alice and mallory are registered, and mallory joins a channel. -/
def joinCalls (channel : String) : List Call :=
  [.wire 1 (.hello 3 "cli" none), .wire 1 (.register "alice" 11 none false (some .local)),
    .wire 2 (.hello 3 "cli" none), .wire 2 (.register "mallory" 12 none false (some .local)),
    .wire 2 (.join channel none)].map fun input => ⟨emptyEnv, input, 5⟩

theorem joinCalls_inputs (holds : BrokerInput → Prop)
    (hello : ∀ client, holds (.wire client (.hello 3 "cli" none)))
    (alice : holds (.wire 1 (.register "alice" 11 none false (some .local))))
    (mallory : holds (.wire 2 (.register "mallory" 12 none false (some .local))))
    (joins : holds (.wire 2 (.join channel none))) :
    ∀ event ∈ eventsOf Plain.text (BrokerState.new 0) (joinCalls channel), holds event.input.input := by
  intro event member
  have sent := input_mem_of_eventsOf Plain.text member
  simp only [joinCalls, List.map_cons, List.map_nil, List.mem_cons, List.not_mem_nil, or_false] at sent
  rcases sent with same | same | same | same | same
  all_goals rw [same]
  · exact hello 1
  · exact alice
  · exact hello 2
  · exact mallory
  · exact joins

theorem joinCalls_decoded (joins : Decoded Plain.text (.wire 2 (.join channel none))) :
    ∀ event ∈ eventsOf Plain.text (BrokerState.new 0) (joinCalls channel),
      Decoded Plain.text event.input.input :=
  joinCalls_inputs (Decoded Plain.text)
    (fun client => decoded_frameOf client (.hello 3 "cli" none)
      "\x7b\"bus_proto\":3,\"client\":\"cli\",\"op\":\"hello\"\x7d" (by decide +kernel))
    (decoded_frameOf 1 (.register "alice" 11 none false (some .local))
      "\x7b\"name\":\"alice\",\"op\":\"register\",\"origin\":\"local\",\"pid\":11\x7d"
      (by decide +kernel))
    (decoded_frameOf 2 (.register "mallory" 12 none false (some .local))
      "\x7b\"name\":\"mallory\",\"op\":\"register\",\"origin\":\"local\",\"pid\":12\x7d"
      (by decide +kernel))
    joins

theorem joinCalls_isolated :
    Isolated Plain.text (Path.ofText "/home/alice/.famp".toList)
      (eventsOf Plain.text (BrokerState.new 0) (joinCalls "#alice")) := by
  refine mailboxes_isolated (run_calls Plain.text 0 (joinCalls "#alice")) ?_ ?_ _
  · exact joinCalls_decoded (decoded_frameOf 2 (.join "#alice" none)
      "\x7b\"channel\":\"#alice\",\"op\":\"join\"\x7d" (by decide +kernel))
  · exact joinCalls_inputs NamesChecked (fun _ => trivial) ⟨by decide, by decide⟩
      ⟨by decide, by decide⟩ (by decide : channelRe "#alice" = true)

/-- The channel `alice` is stored in the file of the agent `alice`. -/
theorem joinCalls_not_isolated :
    let trace := eventsOf Plain.text (BrokerState.new 0) (joinCalls "alice")
    (brokerMachine Plain.text).Run trace
        (stateAfter Plain.text (BrokerState.new 0) (joinCalls "alice")) ∧
      (∀ event ∈ trace, Decoded Plain.text event.input.input) ∧
      trace.map (fun event => event.output.filterMap Out.written?) =
        [[], [.agent "alice"], [], [.agent "mallory"], [.channel "alice"]] ∧
      ∀ busDir, ¬Isolated Plain.text busDir trace := by
  intro trace
  refine ⟨run_calls Plain.text 0 (joinCalls "alice"), ?_, by decide +kernel, ?_⟩
  · exact joinCalls_decoded (decoded_frameOf 2 (.join "alice" none)
      "\x7b\"channel\":\"alice\",\"op\":\"join\"\x7d" (by decide +kernel))
  · intro busDir isolated
    have registered : ∃ event ∈ trace, Out.advanceCursor (.agent "alice") 0 ∈ event.output := by
      decide +kernel
    have joined : ∃ event ∈ trace, Out.advanceCursor (.channel "alice") 0 ∈ event.output := by
      decide +kernel
    obtain ⟨event, member, staged⟩ := registered
    obtain ⟨event', member', staged'⟩ := joined
    exact isolated.apart event member event' member' _ _ (.writes staged rfl) (.writes staged' rfl)
      (by decide) rfl

end Famp.Bus
