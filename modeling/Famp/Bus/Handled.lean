import Famp.Bus.Handle

/-!
# The outcomes of a step

`Handled` lists the outcomes of one input, each with the checks that lead to it,
the state it leaves and the effects it stages.  Claims about replies and appends
are proved from these cases.
-/

set_option autoImplicit false

namespace Famp.Bus

open Famp.Core Json Data Std

/-- Replies that refuse a request. -/
def BusReply.isRefusal : BusReply → Bool
  | .err .. | .helloErr .. => true
  | _ => false

/-- Effects that report settings, sessions or an inspection. -/
def Out.isReport (client : ClientId) : Out → Bool
  | .reply receiver (.setListenOk _) | .reply receiver (.setWakeAddrOk _)
  | .reply receiver (.sessionsOk _) | .reply receiver (.whoamiOk ..) => receiver == client
  | .inspectRequest requester _ => requester == client
  | _ => false

/-- A change of the settings of one connection. -/
def SettingsChange (s s' : BrokerState) : Prop :=
  s' = s ∨ ∃ (id : ClientId) (change : ClientState → ClientState), s' = s.updateClient id change ∧
    ∀ state, ∃ listenMode wakeAddr lastActivity, change state =
      { state with listenMode := listenMode, wakeAddr := wakeAddr, lastActivity := lastActivity }

/-- The reply can be framed. -/
def Fits (K : Text) (reply : BusReply) : Prop := ∃ frame, encodeFrame K reply.toValue = .ok frame

inductive Handled (K : Text) (env : BrokerEnv) (s : BrokerState) (now : Nat) :
    BrokerInput → BrokerState → List Out → Prop
  | refused {client : ClientId} {msg : BusMessage} {s' : BrokerState} {reply : BusReply} :
      s' = s ∨ s' = touchActivity env s client → reply.isRefusal = true →
      Handled K env s now (.wire client msg) s' [.reply client reply]
  | report {client : ClientId} {msg : BusMessage} {s' : BrokerState} {out : Out} :
      SettingsChange s s' → out.isReport client = true →
      Handled K env s now (.wire client msg) s' [out]
  | hello {client : ClientId} {label : String} {bindAs : Option String} :
      s.clients[client]?.any ClientState.handshaked = false →
      (∀ name, bindAs = some name → proxyHolderAlive env s name = true) →
      Handled K env s now (.wire client (.hello busProtoVersion label bindAs))
        { s with clients := s.clients.insert client (freshClient env bindAs) }
        [.reply client (.helloOk busProtoVersion)]
  | register {client : ClientId} {state : ClientState} {name : String} {pid : Nat}
      {cwd : Option String} {listen : Bool} {origin : Option Origin} {drained : DrainResult} :
      s.clients[client]? = some state → pid ≠ 0 → state.bindAs = none →
      nameTaken s client name = false → env.drainFrom (.agent name) 0 = .ok drained →
      Fits K (.registerOk name (decodeLines K 0 drained) (connectedNames s)) →
      Handled K env s now (.wire client (.register name pid cwd listen origin))
        (s.updateClient client (registerClient env name pid cwd listen origin drained.nextOffset))
        [.reply client (.registerOk name (decodeLines K 0 drained) (connectedNames s)),
          .advanceCursor (.agent name) drained.nextOffset]
  | send {client : ClientId} {target : Target} {envelope : Value} {identity : String}
      {line stamped : Bytes} {t : BrokerState} :
      t = touchActivity env s client → resolveOpIdentity env t client = .ok identity →
      isSelfAuthored envelope (some identity) = true → K.canonicalize envelope = .ok line →
      line.length ≤ maxFrameBytes → stampLine K line (clientOrigin t client) = .ok stamped →
      Handled K env s now (.wire client (.send target envelope))
        (send K env t client target envelope).1 (send K env t client target envelope).2
  | inbox {client canonical : ClientId} {since : Option Nat} {includeTerminal : Option Bool}
      {name : String} {agentDrained : DrainResult} {envelopes : List StampedEnvelope}
      {advances : List (MailboxName × Nat)} {t : BrokerState} :
      t = touchActivity env s client → resolveOpIdentity env t client = .ok name →
      env.drainFrom (.agent name) (since.getD 0) = .ok agentDrained →
      canonicalHolderId t name = some canonical →
      drainChannels K env t canonical name
        ((t.clients[canonical]?.map fun state => state.joined.toList).getD []) =
          .ok (envelopes, advances) →
      Fits K (.inboxOk (decodeLines K (since.getD 0) agentDrained ++ envelopes)
        agentDrained.nextOffset) →
      Handled K env s now (.wire client (.inbox since includeTerminal))
        (advances.foldl (fun s advance => setInboxOffset s canonical advance) t)
        [.reply client (.inboxOk (decodeLines K (since.getD 0) agentDrained ++ envelopes)
          agentDrained.nextOffset)]
  | await {client owner : ClientId} {timeoutMs : Nat} {task : Option Uuid} {identity : String}
      {t s' : BrokerState} {outs : List Out} :
      t = touchActivity env s client → resolveOpIdentity env t client = .ok identity →
      canonicalHolderId t identity = some owner →
      awaitLoop K env client owner ((task.map AwaitFilter.task).getD .any)
        (awaitMailboxes t owner identity) t = (s', some outs) →
      Handled K env s now (.wire client (.await timeoutMs task)) s' outs
  | park {client owner : ClientId} {timeoutMs : Nat} {task : Option Uuid} {identity : String}
      {t t' : BrokerState} {parked : ParkedAwait} :
      t = touchActivity env s client → resolveOpIdentity env t client = .ok identity →
      canonicalHolderId t identity = some owner →
      parked = ⟨(task.map AwaitFilter.task).getD .any, now + min timeoutMs maxAwaitMs⟩ →
      awaitLoop K env client owner parked.filter (awaitMailboxes t owner identity) t = (t', none) →
      Handled K env s now (.wire client (.await timeoutMs task))
        { t' with pendingAwaits := t'.pendingAwaits.insert client parked }
        [.parkAwait client parked.filter parked.deadline]
  | join {client holder : ClientId} {channel name : String} {role : Option String}
      {drained : DrainResult} {t : BrokerState} :
      t = touchActivity env s client → resolveOpIdentity env t client = .ok name →
      canonicalHolderId t name = some holder → env.drainFrom (.channel channel) 0 = .ok drained →
      Fits K (.joinOk channel (prospectiveMembers t channel name role) (decodeLines K 0 drained)) →
      Handled K env s now (.wire client (.join channel role))
        (commitJoin t channel name holder role drained.nextOffset)
        [.reply client (.joinOk channel (prospectiveMembers t channel name role)
          (decodeLines K 0 drained)), .advanceCursor (.channel channel) drained.nextOffset]
  | leave {client holder : ClientId} {channel name : String} {t : BrokerState} :
      t = touchActivity env s client → resolveOpIdentity env t client = .ok name →
      canonicalHolderId t name = some holder →
      Handled K env s now (.wire client (.leave channel)) (commitLeave t channel name holder)
        [.reply client (.leaveOk channel)]
  | disconnect {client : ClientId} :
      Handled K env s now (.disconnect client) (disconnect s client).1 (disconnect s client).2
  | tick : Handled K env s now .tick (tick env s now).1 (tick env s now).2

/-! ## One lemma per handler -/

theorem touchActivity_settings (env : BrokerEnv) (s : BrokerState) (client : ClientId) :
    SettingsChange s (touchActivity env s client) := by
  unfold touchActivity
  dsimp only
  split
  · exact Or.inl rfl
  · rename_i target _
    exact Or.inr ⟨target, _, rfl, fun state => ⟨state.listenMode, state.wakeAddr, _, rfl⟩⟩

variable {K : Text} {env : BrokerEnv} {s s' : BrokerState} {client : ClientId} {outs : List Out}
  {envelope : Value} {identity : String} {line : Bytes}

section Handlers
variable (K : Text) (env : BrokerEnv) (s : BrokerState) (now : Nat) (client : ClientId)

omit K env now in
theorem slotOwner_error {op : String} {out : Out} (refused : slotOwner s client op = .error out) :
    ∃ message, out = .reply client (.err .notRegistered message) := by
  unfold slotOwner at refused
  split at refused
  · cases refused
    exact ⟨_, rfl⟩
  · split at refused
    · cases refused
      exact ⟨_, rfl⟩
    · split at refused
      · cases refused
        exact ⟨_, rfl⟩
      · split at refused
        · cases refused
          exact ⟨_, rfl⟩
        · cases refused

theorem setListen_handled (listen : Bool) :
    Handled K env s now (.wire client (.setListen listen)) (setListen env s client listen).1
      (setListen env s client listen).2 := by
  unfold setListen
  split
  · rename_i out refused
    obtain ⟨message, rfl⟩ := slotOwner_error s client refused
    exact .refused (Or.inl rfl) rfl
  · exact .report (Or.inr ⟨client, _, rfl, fun state => ⟨_, state.wakeAddr, _, rfl⟩⟩)
      (by simp [Out.isReport])

theorem setWakeAddr_handled (wakeAddr : Option String) :
    Handled K env s now (.wire client (.setWakeAddr wakeAddr))
      (setWakeAddr env s client wakeAddr).1 (setWakeAddr env s client wakeAddr).2 := by
  unfold setWakeAddr
  split
  · rename_i out refused
    obtain ⟨message, rfl⟩ := slotOwner_error s client refused
    exact .refused (Or.inl rfl) rfl
  · exact .report (Or.inr ⟨client, _, rfl, fun state => ⟨state.listenMode, _, _, rfl⟩⟩)
      (by simp [Out.isReport])

theorem hello_handled (busProto : Nat) (label : String) (bindAs : Option String)
    (fresh : s.clients[client]?.any ClientState.handshaked = false) :
    Handled K env s now (.wire client (.hello busProto label bindAs))
      (hello env s client busProto bindAs).1 (hello env s client busProto bindAs).2 := by
  unfold hello
  split
  · exact .refused (Or.inl rfl) rfl
  · rename_i version
    obtain rfl : busProto = busProtoVersion := not_not.mp version
    split
    · rename_i name
      split
      · rename_i alive
        refine .hello fresh ?_
        rintro _ ⟨⟩
        exact alive
      · exact .refused (Or.inl rfl) rfl
    · exact .hello fresh fun _ bound => by cases bound

theorem register_handled (name : String) (pid : Nat) (cwd : Option String) (listen : Bool)
    (origin : Option Origin) :
    Handled K env s now (.wire client (.register name pid cwd listen origin))
      (register K env s client name pid cwd listen origin).1
      (register K env s client name pid cwd listen origin).2 := by
  unfold register
  dsimp only
  split
  · exact .refused (Or.inl rfl) rfl
  · rename_i positive
    split
    · exact .refused (Or.inl rfl) rfl
    · rename_i unbound
      split
      · exact .refused (Or.inl rfl) rfl
      · rename_i free
        split
        · exact .refused (Or.inl rfl) rfl
        · rename_i drained read
          split
          · exact .refused (Or.inl rfl) rfl
          · rename_i frame encoded
            split
            · exact .refused (Or.inl rfl) rfl
            · rename_i state stored
              rw [stored, Option.any_some, Bool.not_eq_true, Option.isSome_eq_false_iff,
                Option.isNone_iff_eq_none] at unbound
              exact .register stored positive unbound (Bool.eq_false_iff.mpr free) read
                ⟨frame, encoded⟩

theorem send_handled (target : Target) (envelope : Value) :
    Handled K env s now (.wire client (.send target envelope))
      (send K env (touchActivity env s client) client target envelope).1
      (send K env (touchActivity env s client) client target envelope).2 := by
  generalize touched : touchActivity env s client = t
  cases resolved : resolveOpIdentity env t client with
  | error kind =>
    simp only [send, resolved]
    exact .refused (Or.inr touched.symm) rfl
  | ok identity =>
    by_cases own : isSelfAuthored envelope (some identity) = true
    · cases canonical : K.canonicalize envelope with
      | error error =>
        simp only [send, resolved, own, encodeEnvelope, canonical]
        exact .refused (Or.inr touched.symm) rfl
      | ok line =>
        by_cases large : maxFrameBytes < line.length
        · simp only [send, resolved, own, encodeEnvelope, canonical, large]
          exact .refused (Or.inr touched.symm) rfl
        · cases stamped : stampLine K line (clientOrigin t client) with
          | ok record =>
            exact .send touched.symm resolved own canonical (Nat.le_of_not_lt large) stamped
          | error error =>
            have encoded : encodeEnvelope K envelope client = .ok line := by
              simp only [encodeEnvelope, canonical, if_neg large]
            cases target with
            | agent name =>
              simp only [send, resolved, own, encoded, sendAgent, stamped]
              exact .refused (Or.inr touched.symm) rfl
            | channel name =>
              simp only [send, resolved, own, encoded, sendChannel, stamped]
              exact .refused (Or.inr touched.symm) rfl
    · simp only [send, resolved, own]
      exact .refused (Or.inr touched.symm) rfl

theorem inbox_handled (since : Option Nat) (includeTerminal : Option Bool)
    (handled : inbox K env (touchActivity env s client) client since = some (s', outs)) :
    Handled K env s now (.wire client (.inbox since includeTerminal)) s' outs := by
  unfold inbox at handled
  dsimp only at handled
  split at handled
  · cases handled
    exact .refused (Or.inr rfl) rfl
  · rename_i name resolved
    split at handled
    · cases handled
      exact .refused (Or.inr rfl) rfl
    · rename_i agentDrained read
      split at handled
      · cases handled
      · rename_i canonical holder
        split at handled
        · cases handled
          exact .refused (Or.inr rfl) rfl
        · rename_i envelopes advances drained
          split at handled
          · cases handled
            exact .refused (Or.inr rfl) rfl
          · rename_i frame encoded
            cases handled
            exact .inbox rfl resolved read holder drained ⟨frame, encoded⟩

theorem await_handled (timeoutMs : Nat) (task : Option Uuid) :
    Handled K env s now (.wire client (.await timeoutMs task))
      (awaitEnvelope K env (touchActivity env s client) client timeoutMs task now).1
      (awaitEnvelope K env (touchActivity env s client) client timeoutMs task now).2 := by
  unfold awaitEnvelope
  cases resolved : resolveOpIdentity env (touchActivity env s client) client with
  | error kind =>
    simp only [resolveAwaitOwner, resolved]
    exact .refused (Or.inr rfl) rfl
  | ok identity =>
    obtain ⟨owner, holds⟩ := exists_holder_of_resolveOpIdentity resolved
    simp only [resolveAwaitOwner, resolved, holds, Option.getD_some]
    split
    · rename_i drained
      exact .await rfl resolved holds drained
    · rename_i drained
      exact .park rfl resolved holds rfl drained

theorem join_handled (channel : String) (role : Option String) :
    Handled K env s now (.wire client (.join channel role))
      (join K env (touchActivity env s client) client channel role).1
      (join K env (touchActivity env s client) client channel role).2 := by
  unfold join
  dsimp only
  split
  · exact .refused (Or.inr rfl) rfl
  · rename_i name resolved
    split
    · exact .refused (Or.inr rfl) rfl
    · rename_i drained read
      split
      · exact .refused (Or.inr rfl) rfl
      · rename_i frame encoded
        obtain ⟨holder, holds⟩ := exists_holder_of_resolveOpIdentity resolved
        rw [holds]
        exact .join rfl resolved holds read ⟨frame, encoded⟩

theorem leave_handled (channel : String) :
    Handled K env s now (.wire client (.leave channel))
      (leave env (touchActivity env s client) client channel).1
      (leave env (touchActivity env s client) client channel).2 := by
  unfold leave
  split
  · exact .refused (Or.inr rfl) rfl
  · rename_i name resolved
    obtain ⟨holder, holds⟩ := exists_holder_of_resolveOpIdentity resolved
    rw [holds]
    exact .leave rfl resolved holds

theorem dispatch_handled (msg : BusMessage)
    (fresh : msg.isHello = true → s.clients[client]?.any ClientState.handshaked = false)
    (handled : dispatch K env (if msg.defersActivity then s else touchActivity env s client) client
      now msg = some (s', outs)) : Handled K env s now (.wire client msg) s' outs := by
  have touched := touchActivity_settings env s client
  -- every handler but `inbox` returns its result as such
  have pair : ∀ {result : BrokerState × List Out}, some result = some (s', outs) →
      Handled K env s now (.wire client msg) result.1 result.2 →
        Handled K env s now (.wire client msg) s' outs := by
    intro result same outcome
    cases Option.some.inj same
    exact outcome
  cases msg with
  | hello busProto label bindAs =>
    exact pair handled (hello_handled K env s now client busProto label bindAs (fresh rfl))
  | register name pid cwd listen origin =>
    exact pair handled (register_handled K env s now client name pid cwd listen origin)
  | send target envelope => exact pair handled (send_handled K env s now client target envelope)
  | inbox since includeTerminal =>
    exact inbox_handled K env s now client since includeTerminal handled
  | await timeoutMs task => exact pair handled (await_handled K env s now client timeoutMs task)
  | join channel role => exact pair handled (join_handled K env s now client channel role)
  | leave channel => exact pair handled (leave_handled K env s now client channel)
  | sessions => exact pair handled (.report touched (by simp [Out.isReport]))
  | whoami => exact pair handled (.report touched (by simp [Out.isReport]))
  | inspect kind => exact pair handled (.report touched (by simp [Out.isReport]))
  | setListen listen => exact pair handled (setListen_handled K env s now client listen)
  | setWakeAddr wakeAddr => exact pair handled (setWakeAddr_handled K env s now client wakeAddr)

end Handlers

/-- Everything that an input can do. -/
theorem handle_handled {input : BrokerInput} {now : Nat}
    (handled : handle K env s input now = some (s', outs)) : Handled K env s now input s' outs := by
  cases input with
  | disconnect client =>
    have result := Option.some.inj handled
    obtain rfl : _ = s' := congrArg Prod.fst result
    obtain rfl : _ = outs := congrArg Prod.snd result
    exact .disconnect
  | tick =>
    have result := Option.some.inj handled
    obtain rfl : _ = s' := congrArg Prod.fst result
    obtain rfl : _ = outs := congrArg Prod.snd result
    exact .tick
  | wire client msg =>
    simp only [handle, handleWire] at handled
    split at handled
    · cases handled
      exact .refused (Or.inl rfl) rfl
    · split at handled
      · cases handled
        exact .refused (Or.inl rfl) rfl
      · rename_i opened
        refine dispatch_handled K env s now client msg ?_ handled
        intro isHello
        simpa [isHello] using opened

/-! ## What a send stages -/

def Target.mailbox : Target → MailboxName
  | .agent name => .agent name
  | .channel name => .channel name

/-- The waiters that a send wakes are answered and released. -/
def Out.isWake : Out → Bool
  | .reply _ (.awaitOk ..) | .reply _ .awaitTimeout | .reply _ (.err ..) | .unparkAwait _ => true
  | _ => false

theorem mem_foldl_outs {α : Type} {turn : BrokerState × List Out → α → BrokerState × List Out}
    {added : Out → Prop}
    (grows : ∀ acc item, ∀ out ∈ (turn acc item).2, out ∈ acc.2 ∨ added out) :
    ∀ (items : List α) (acc : BrokerState × List Out),
      ∀ out ∈ (items.foldl turn acc).2, out ∈ acc.2 ∨ added out
  | [], _, _, staged => Or.inl staged
  | item :: rest, acc, out, staged => by
    rcases mem_foldl_outs grows rest (turn acc item) out staged with earlier | new
    · exact grows acc item out earlier
    · exact Or.inr new

theorem awaitReplyForMailbox_isWake (K : Text) (env : BrokerEnv) (s : BrokerState)
    (client : ClientId) (mailbox : MailboxName) (filter : AwaitFilter) (trigger : Option Trigger) :
    (Out.reply client
      (awaitReplyForMailbox K env s client mailbox filter trigger).2).isWake = true := by
  unfold awaitReplyForMailbox
  split
  · rfl
  · split
    · rfl
    · dsimp only
      split
      · rfl
      · split <;> rfl

theorem wakeWaiter_outs (K : Text) (env : BrokerEnv) (mailbox : MailboxName) (trigger : Trigger)
    (acc : BrokerState × List Out) (waiting : ClientId) :
    ∀ out ∈ (wakeWaiter K env mailbox trigger acc waiting).2,
      out ∈ acc.2 ∨ out.isWake = true := by
  intro out staged
  unfold wakeWaiter at staged
  split at staged
  · exact Or.inl staged
  · rcases List.mem_append.mp staged with earlier | new
    · exact Or.inl earlier
    · refine Or.inr ?_
      rcases List.mem_cons.mp new with rfl | new
      · exact awaitReplyForMailbox_isWake ..
      · rw [List.mem_singleton.mp new]
        rfl

theorem wakeMember_outs (K : Text) (env : BrokerEnv) (channel : String) (trigger : Trigger)
    (acc : BrokerState × List Out) (member : String) :
    ∀ out ∈ (wakeMember K env channel trigger acc member).2, out ∈ acc.2 ∨ out.isWake = true := by
  unfold wakeMember
  split
  · exact fun _ staged => Or.inl staged
  · exact mem_foldl_outs (wakeWaiter_outs K env (.channel channel) trigger) _ acc

variable {target : Target} {stamped : Bytes} {owner : ClientId} {filter : AwaitFilter}

section Accepted
variable (resolved : resolveOpIdentity env s client = .ok identity)
  (own : isSelfAuthored envelope (some identity) = true)
  (canonical : K.canonicalize envelope = .ok line) (small : line.length ≤ maxFrameBytes)
include resolved own canonical small

theorem send_eq :
    send K env s client target envelope =
      match target with
      | .agent name => sendAgent K env s client name envelope line
      | .channel name => sendChannel K env s client name envelope line := by
  have fits : ¬maxFrameBytes < line.length := Nat.not_lt.mpr small
  cases target <;> simp only [send, resolved, own, encodeEnvelope, canonical, if_neg fits,
    Bool.not_true, Bool.false_eq_true, if_false]

theorem send_outs (stamps : stampLine K line (clientOrigin s client) = .ok stamped) :
    ∀ out ∈ (send K env s client target envelope).2,
      out = .appendMailbox target.mailbox line (clientOrigin s client) ∨ out.isWake = true ∨
        ∃ rows, out = .reply client (.sendOk (taskIdFrom envelope) rows) := by
  intro out staged
  rw [send_eq resolved own canonical small] at staged
  cases target with
  | agent name =>
    simp only [sendAgent, stamps] at staged
    rcases List.mem_append.mp staged with woken | answer
    · rcases mem_foldl_outs (wakeWaiter_outs K env (.agent name) _) _ _ out woken with first | wake
      · exact Or.inl (List.mem_singleton.mp first)
      · exact Or.inr (Or.inl wake)
    · exact Or.inr (Or.inr ⟨_, List.mem_singleton.mp answer⟩)
  | channel name =>
    simp only [sendChannel, stamps] at staged
    rcases List.mem_append.mp staged with woken | answer
    · rcases mem_foldl_outs (wakeMember_outs K env name _) _ _ out woken with first | wake
      · exact Or.inl (List.mem_singleton.mp first)
      · exact Or.inr (Or.inl wake)
    · exact Or.inr (Or.inr ⟨_, List.mem_singleton.mp answer⟩)

theorem sendOk_mem_send (stamps : stampLine K line (clientOrigin s client) = .ok stamped)
    (target : Target) : ∃ rows, Out.reply client (.sendOk (taskIdFrom envelope) rows) ∈
      (send K env s client target envelope).2 := by
  rw [send_eq resolved own canonical small]
  cases target with
  | agent name =>
    simp only [sendAgent, stamps]
    exact ⟨_, List.mem_append_right _ (List.mem_singleton_self _)⟩
  | channel name =>
    simp only [sendChannel, stamps]
    exact ⟨_, List.mem_append_right _ (List.mem_singleton_self _)⟩

end Accepted

/-! ## What the other inputs stage -/

theorem awaitLoop_keeps (holds : BrokerState → Prop) (K : Text) (env : BrokerEnv)
    (client owner : ClientId) (filter : AwaitFilter)
    (moves : ∀ t mailbox offset, holds t → holds (setAwaitOffset t owner mailbox offset)) :
    ∀ (mailboxes : List MailboxName) (s : BrokerState), holds s →
      holds (awaitLoop K env client owner filter mailboxes s).1
  | [], _, here => here
  | mailbox :: rest, s, here => by
    unfold awaitLoop
    split
    · exact here
    · rename_i batch _
      have moved : holds (if batch.nextOffset ≠ awaitOffset s owner mailbox then
          setAwaitOffset s owner mailbox batch.nextOffset else s) := by
        split
        · exact moves s mailbox _ here
        · exact here
      dsimp only
      split
      · exact awaitLoop_keeps holds K env client owner filter moves rest _ moved
      · exact moved

theorem awaitLoop_answer :
    ∀ {mailboxes : List MailboxName} {s s' : BrokerState} {outs : List Out},
      awaitLoop K env client owner filter mailboxes s = (s', some outs) → ∃ t mailbox,
        (∃ error, drainAwaitBatch K env t owner mailbox filter none = .error error ∧
          outs = [err client error.1 error.2]) ∨
        ∃ batch, drainAwaitBatch K env t owner mailbox filter none = .ok batch ∧
          outs = [.reply client (.awaitOk batch.envelopes batch.mailbox batch.nextOffset)]
  | [], _, _, _, run => by simp [awaitLoop] at run
  | mailbox :: rest, s, s', outs, run => by
    unfold awaitLoop at run
    split at run
    · rename_i failed
      cases run
      exact ⟨s, mailbox, Or.inl ⟨_, failed, rfl⟩⟩
    · rename_i batch drained
      dsimp only at run
      split at run
      · exact awaitLoop_answer run
      · cases run
        exact ⟨s, mailbox, Or.inr ⟨batch, drained, rfl⟩⟩

/-- An `Await` that is not parked is answered with a batch or refused. -/
theorem awaitLoop_outs {mailboxes : List MailboxName}
    (run : awaitLoop K env client owner filter mailboxes s = (s', some outs)) :
    (∃ kind message, outs = [.reply client (.err kind message)]) ∨
      ∃ envelopes mailbox nextOffset,
        outs = [.reply client (.awaitOk envelopes mailbox nextOffset)] := by
  obtain ⟨_, _, ⟨error, _, rfl⟩ | ⟨batch, _, rfl⟩⟩ := awaitLoop_answer run
  · exact Or.inl ⟨_, _, rfl⟩
  · exact Or.inr ⟨_, _, _, rfl⟩

/-- The end of a session is reported and its connection released. -/
def Out.isSessionEnd : Out → Bool
  | .sessionEnded .. | .releaseClient _ => true
  | _ => false

theorem disconnect_outs (s : BrokerState) (client : ClientId) :
    ∀ out ∈ (disconnect s client).2, out.isSessionEnd = true := by
  intro out staged
  unfold disconnect at staged
  split at staged
  · rcases List.mem_cons.mp staged with rfl | staged
    · rfl
    · rw [List.mem_singleton.mp staged]
      rfl
  · rw [List.mem_singleton.mp staged]
    rfl

theorem reap_outs (dead : List ClientId) (s : BrokerState) :
    ∀ out ∈ (dead.foldl disconnectStep (s, [])).2, out.isSessionEnd = true := by
  intro out staged
  have reaps : ∀ acc client, ∀ out ∈ (disconnectStep acc client).2,
      out ∈ acc.2 ∨ out.isSessionEnd = true := by
    intro acc client out staged
    rcases List.mem_append.mp staged with earlier | new
    · exact Or.inl earlier
    · exact Or.inr (disconnect_outs acc.1 client out new)
  rcases mem_foldl_outs reaps dead (s, []) out staged with none | ended
  · cases none
  · exact ended

/-- A request that has waited too long is told so and released. -/
def Out.isExpiry : Out → Bool
  | .reply _ .awaitTimeout | .unparkAwait _ => true
  | _ => false

theorem tick_outs (env : BrokerEnv) (s : BrokerState) (now : Nat) :
    ∀ out ∈ (tick env s now).2, out.isSessionEnd = true ∨ out.isExpiry = true := by
  intro out staged
  have expires : ∀ acc client, ∀ out ∈ (expireStep acc client).2,
      out ∈ acc.2 ∨ out.isExpiry = true := by
    intro acc client out staged
    rcases List.mem_append.mp staged with earlier | new
    · exact Or.inl earlier
    · rcases List.mem_cons.mp new with rfl | new
      · exact Or.inr rfl
      · rw [List.mem_singleton.mp new]
        exact Or.inr rfl
  rcases mem_foldl_outs expires _ _ out staged with reaped | expired
  · exact Or.inl (reap_outs _ s out reaped)
  · exact Or.inr expired

end Famp.Bus
