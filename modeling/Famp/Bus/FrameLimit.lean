import Famp.Bus.Membership
import Famp.Bus.Wake

/-!
# Replies and the frame limit

A reply that reports a bound name, a joined channel or delivered records has to
fit in one frame.  `register`, `join` and `inbox` encode their reply before they
change anything.  The two paths that answer an `Await` move the cursor without
encoding the reply: its length is the sum of the records that are delivered, and
the conditions here say when that sum fits.
-/

set_option autoImplicit false

namespace Famp.Bus

open Famp.Core Json Data Std

def BusReply.commits : BusReply → Bool
  | .registerOk .. | .joinOk .. | .inboxOk .. | .awaitOk .. => true
  | _ => false

/-- If the effect is such a reply, it can be framed. -/
def OutFits (K : Text) : Out → Prop
  | .reply _ reply => reply.commits = true → Fits K reply
  | _ => True

def RepliesFit (K : Text) (outs : List Out) : Prop := ∀ out ∈ outs, OutFits K out

theorem repliesFit_cons (K : Text) (out : Out) (outs : List Out) :
    RepliesFit K (out :: outs) ↔ OutFits K out ∧ RepliesFit K outs :=
  List.forall_mem_cons

theorem outFits_of_not_commits (K : Text) (client : ClientId) {reply : BusReply}
    (other : reply.commits = false) : OutFits K (.reply client reply) := by
  intro commits
  rw [other] at commits
  cases commits

/-! ## Lengths -/

theorem fits_iff (K : Text) (reply : BusReply) :
    Fits K reply ↔ ∃ len, K.canonicalLen? reply.toValue = some len ∧ len ≤ maxFrameBytes := by
  rw [Fits, encodeFrame_ok_iff, Text.canonicalLen?]
  cases K.canonicalize reply.toValue <;> simp

/-- Bytes of an `AwaitOk`: the entries with a comma between each two, the mailbox
and the offset, and 48 bytes of keys and punctuation around them. -/
def awaitOkLen? (K : Text) (entries : List StampedEnvelope) (mailbox : MailboxName)
    (nextOffset : Nat) : Option Nat :=
  match K.canonicalLens? (entries.map StampedEnvelope.toValue), K.canonicalLen? mailbox.toValue,
      K.canonicalLen? (.int nextOffset), K.canonicalLen? (.str "await_ok") with
  | some lens, some mailboxLen, some offsetLen, some opLen =>
    some (48 + lens.sum + (lens.length - 1) + mailboxLen + offsetLen + opLen)
  | _, _, _, _ => none

def AwaitOkFits (K : Text) (entries : List StampedEnvelope) (mailbox : MailboxName)
    (nextOffset : Nat) : Prop :=
  ∃ len, awaitOkLen? K entries mailbox nextOffset = some len ∧ len ≤ maxFrameBytes

theorem canonicalLen?_awaitOk (K : Text) (entries : List StampedEnvelope) (mailbox : MailboxName)
    (nextOffset : Nat) :
    K.canonicalLen? (BusReply.awaitOk entries mailbox nextOffset).toValue =
      awaitOkLen? K entries mailbox nextOffset := by
  have plain : ∀ key ∈ ["envelopes", "mailbox", "next_offset", "op"], PlainKey key := by decide
  have record := K.canonicalLen?_record ["envelopes", "mailbox", "next_offset", "op"] (by decide)
    [stampedValues entries, mailbox.toValue, .int nextOffset, .str "await_ok"] plain rfl
  rw [BusReply.toValue, record]
  simp only [Text.canonicalLens?, stampedValues, Text.canonicalLen?_arr, awaitOkLen?]
  cases K.canonicalLens? (entries.map StampedEnvelope.toValue) with
  | none => rfl
  | some lens =>
    cases K.canonicalLen? mailbox.toValue with
    | none => rfl
    | some mailboxLen =>
      cases K.canonicalLen? (.int nextOffset) with
      | none => rfl
      | some offsetLen =>
        cases K.canonicalLen? (.str "await_ok") with
        | none => rfl
        | some opLen =>
          have keys : (utf8 "envelopes").length = 9 ∧ (utf8 "mailbox").length = 7 ∧
              (utf8 "next_offset").length = 11 ∧ (utf8 "op").length = 2 := by decide
          simp [Text.objectLen, Text.arrayLen, Text.commaLen, keys]
          omega

theorem fits_awaitOk_iff (K : Text) (entries : List StampedEnvelope) (mailbox : MailboxName)
    (nextOffset : Nat) :
    Fits K (.awaitOk entries mailbox nextOffset) ↔ AwaitOkFits K entries mailbox nextOffset := by
  rw [fits_iff, canonicalLen?_awaitOk, AwaitOkFits]

/-! ## Unparked requests -/

/-- The first of the mailboxes with something to deliver has a batch that fits.  A
read that fails ends the request. -/
def FirstBatchFits (K : Text) (env : BrokerEnv) (s : BrokerState) (owner : ClientId)
    (filter : AwaitFilter) : List MailboxName → Prop
  | [] => True
  | mailbox :: rest =>
    match env.drainFrom mailbox (awaitOffset s owner mailbox) with
    | .error _ => True
    | .ok drained =>
      let batch := readBatch K mailbox filter (awaiterIdentity s owner mailbox)
        (awaitOffset s owner mailbox) drained
      if batch.envelopes.isEmpty then FirstBatchFits K env s owner filter rest
      else AwaitOkFits K batch.envelopes batch.mailbox batch.nextOffset

variable {s s' : BrokerState} {K : Text} {env : BrokerEnv} {outs : List Out} {now len : Nat}
  {envelope : Value} {client : ClientId}

/-- The outcome of the mailbox loop, if it did not leave the request parked. -/
def LoopFits (K : Text) : Option (List Out) → Prop
  | none => True
  | some outs => RepliesFit K outs

theorem firstAnswer_fits_iff (K : Text) (env : BrokerEnv) (s : BrokerState)
    (client owner : ClientId) (filter : AwaitFilter) : ∀ mailboxes : List MailboxName,
      (LoopFits K (firstAnswer K env s client owner filter mailboxes) ↔
        FirstBatchFits K env s owner filter mailboxes)
  | [] => Iff.rfl
  | mailbox :: rest => by
    have later := firstAnswer_fits_iff K env s client owner filter rest
    rw [firstAnswer] at later ⊢
    rw [List.findSome?_cons, drainAwaitBatch_eq, FirstBatchFits]
    cases env.drainFrom mailbox (awaitOffset s owner mailbox) with
    | error error => simp [batchAnswer, LoopFits, RepliesFit, err, OutFits, BusReply.commits]
    | ok drained =>
      generalize found : readBatch K mailbox filter (awaiterIdentity s owner mailbox)
        (awaitOffset s owner mailbox) drained = batch
      by_cases empty : batch.envelopes.isEmpty = true
      · simp only [batchAnswer.eq_2, withTrigger, found, empty, if_true]
        exact later
      · simp only [batchAnswer.eq_2, withTrigger, found, if_neg empty]
        simp [LoopFits, RepliesFit, OutFits, BusReply.commits, fits_awaitOk_iff]

/-! ## Woken requests -/

section Turns
variable (K : Text) (env : BrokerEnv) (mailbox : MailboxName) (reader : Option String)
  (trigger : Trigger)

/-- The batches of the woken requests of one holder fit, each read from where the
one before it ended. -/
def TurnsFit : Option Nat → List AwaitFilter → Prop
  | _, [] => True
  | cursor, filter :: rest =>
    match env.drainFrom mailbox (cursor.getD 0) with
    | .error _ => TurnsFit cursor rest
    | .ok drained =>
      let batch := withTrigger filter reader
        (readBatch K mailbox filter reader (cursor.getD 0) drained) (some trigger)
      (batch.envelopes ≠ [] → AwaitOkFits K batch.envelopes batch.mailbox batch.nextOffset) ∧
        TurnsFit (some batch.nextOffset) rest

theorem outFits_wakeReply_iff (waiting : ClientId) (batch : AwaitBatch) :
    OutFits K (.reply waiting (wakeReply batch)) ↔
      (batch.envelopes ≠ [] → AwaitOkFits K batch.envelopes batch.mailbox batch.nextOffset) := by
  unfold wakeReply
  by_cases empty : batch.envelopes = []
  · rw [if_neg (by simp [empty])]
    split <;> simp [OutFits, BusReply.commits, empty]
  · rw [if_pos (by simp [empty])]
    simp [OutFits, BusReply.commits, empty, fits_awaitOk_iff]

theorem repliesFit_turns_iff : ∀ (waits : List (ClientId × AwaitFilter)) (cursor : Option Nat),
    RepliesFit K (turns K env mailbox reader trigger cursor waits).2 ↔
      TurnsFit K env mailbox reader trigger cursor (waits.map Prod.snd) := by
  intro waits
  induction waits with
  | nil =>
    intro cursor
    simp [turns, TurnsFit, RepliesFit]
  | cons wait rest ih =>
    intro cursor
    obtain ⟨waiting, filter⟩ := wait
    simp only [turns, turn, repliesFit_cons, List.map_cons, TurnsFit, ih]
    have unparks : OutFits K (.unparkAwait waiting) := trivial
    cases env.drainFrom mailbox (cursor.getD 0) with
    | error error =>
      have refusal := outFits_of_not_commits K waiting
        (show (BusReply.err .internal error.toText).commits = false from rfl)
      simp only [refusal, unparks, true_and]
    | ok drained => simp only [outFits_wakeReply_iff, unparks, true_and]

end Turns

/-! ## When every reply fits -/

/-- Whatever the request of `client` reads in its mailboxes fits in one reply. -/
def AwaitFits (K : Text) (env : BrokerEnv) (s : BrokerState) (client : ClientId)
    (filter : AwaitFilter) : Prop :=
  ∀ identity owner, resolveOpIdentity env s client = .ok identity →
    canonicalHolderId s identity = some owner →
      FirstBatchFits K env s owner filter (awaitMailboxes s owner identity)

theorem awaitFits_iff {owner : ClientId} {identity : String}
    (resolved : resolveOpIdentity env s client = .ok identity)
    (holder : canonicalHolderId s identity = some owner) (filter : AwaitFilter) :
    AwaitFits K env s client filter ↔
      FirstBatchFits K env s owner filter (awaitMailboxes s owner identity) := by
  constructor
  · intro fits
    exact fits identity owner resolved holder
  · intro fits other found resolved' holder'
    rw [resolved, Except.ok.injEq] at resolved'
    subst resolved'
    rw [holder, Option.some.injEq] at holder'
    subst holder'
    exact fits

/-- Whatever the requests that the send wakes read in its mailbox, together with
the envelope that is sent, fits in one reply each. -/
def SendFits (K : Text) (env : BrokerEnv) (s : BrokerState) (client : ClientId) (target : Target)
    (envelope : Value) : Prop :=
  ∀ identity line stamped, SendAccepted K env s client envelope identity line stamped →
    ∀ name ∈ recipients s envelope target,
      TurnsFit K env target.mailbox (channelReader target.mailbox name)
        ⟨clientOrigin s client, envelope, stamped.length⟩ (holderCursor s name target.mailbox)
        ((selectedWaits env s name envelope (clientOrigin s client)).map Prod.snd)

def AnswersFit (K : Text) (env : BrokerEnv) (s : BrokerState) : BrokerInput → Prop
  | .wire client (.await _ task) => AwaitFits K env s client ((task.map AwaitFilter.task).getD .any)
  | .wire client (.send target envelope) => SendFits K env s client target envelope
  | _ => True

theorem repliesFit_of_encoded {input : BrokerInput} (handled : Handled K env s now input s' outs)
    (noAwait : ∀ client timeoutMs task, input = .wire client (.await timeoutMs task) →
      ∀ identity, resolveOpIdentity env s client ≠ .ok identity)
    (noSend : ∀ client target envelope, input = .wire client (.send target envelope) →
      ∀ identity line stamped,
        ¬SendAccepted K env (touchActivity env s client) client envelope identity line stamped) :
    RepliesFit K outs := by
  cases handled with
  | @refused client _ _ reply _ refusal =>
    refine (repliesFit_cons ..).mpr ⟨outFits_of_not_commits K client ?_, by simp [RepliesFit]⟩
    cases reply <;> simp [BusReply.isRefusal, BusReply.commits] at refusal ⊢
  | @report client _ _ out _ report =>
    refine (repliesFit_cons ..).mpr ⟨?_, by simp [RepliesFit]⟩
    cases out with
    | reply receiver reply =>
      refine outFits_of_not_commits K receiver ?_
      cases reply <;> simp [Out.isReport, BusReply.commits] at report ⊢
    | _ => trivial
  | hello _ _ => simp [RepliesFit, OutFits, BusReply.commits]
  | register _ _ _ _ _ fits =>
    exact (repliesFit_cons ..).mpr ⟨fun _ => fits, by simp [RepliesFit, OutFits]⟩
  | @send client target envelope identity line stamped _ touched resolved own canonical small stamps =>
    subst touched
    exact absurd ⟨resolved, own, canonical, small, stamps⟩
      (noSend client target envelope rfl identity line stamped)
  | inbox _ _ _ _ _ fits =>
    exact (repliesFit_cons ..).mpr ⟨fun _ => fits, by simp [RepliesFit]⟩
  | @await client _ timeoutMs task identity _ _ _ touched resolved _ _ =>
    subst touched
    rw [(touchActivity_quiet env s client).resolveOpIdentity_eq] at resolved
    exact absurd resolved (noAwait client timeoutMs task rfl identity)
  | park _ _ _ _ _ => simp [RepliesFit, OutFits]
  | join _ _ _ _ fits =>
    exact (repliesFit_cons ..).mpr ⟨fun _ => fits, by simp [RepliesFit, OutFits]⟩
  | leave _ _ _ => simp [RepliesFit, OutFits, BusReply.commits]
  | disconnect =>
    intro out staged
    have ends := disconnect_outs s _ out staged
    cases out <;> simp [Out.isSessionEnd, OutFits] at ends ⊢
  | tick =>
    intro out staged
    rcases tick_outs env s now out staged with ends | expires
    · cases out <;> simp [Out.isSessionEnd, OutFits] at ends ⊢
    · cases out with
      | reply receiver reply =>
        refine outFits_of_not_commits K receiver ?_
        cases reply <;> simp [Out.isExpiry, BusReply.commits] at expires ⊢
      | _ => trivial

theorem repliesFit_await_iff {timeoutMs : Nat} {task : Option Uuid} (inv : StateInvariant s)
    (taken : handle K env s (.wire client (.await timeoutMs task)) now = some (s', outs)) :
    RepliesFit K outs ↔ AwaitFits K env s client ((task.map AwaitFilter.task).getD .any) := by
  have quiet := touchActivity_quiet env s client
  cases resolved : resolveOpIdentity env s client with
  | error kind =>
    refine ⟨fun _ => by simp [AwaitFits, resolved], fun _ => ?_⟩
    refine repliesFit_of_encoded (handle_handled taken) ?_ (by simp)
    rintro _ _ _ ⟨⟩ identity
    simp [resolved]
  | ok identity =>
    obtain ⟨owner, holder⟩ := exists_holder_of_resolveOpIdentity resolved
    have resolved' := (quiet.resolveOpIdentity_eq env client).trans resolved
    have holder' := (quiet.canonicalHolderId_eq inv identity).trans holder
    rw [awaitFits_iff resolved holder, ← firstAnswer_fits_iff K env s client,
      ← awaitLoop_touched holder']
    rw [handle_await inv resolved, Option.some.injEq] at taken
    obtain rfl : _ = outs := congrArg Prod.snd taken
    simp only [awaitEnvelope, resolveAwaitOwner, resolved', holder', Option.getD_some]
    cases awaitLoop K env client owner ((task.map AwaitFilter.task).getD .any)
        (awaitMailboxes (touchActivity env s client) owner identity)
        (touchActivity env s client) with
    | mk after result =>
      cases result with
      | none => simp [LoopFits, RepliesFit, OutFits]
      | some outs => exact Iff.rfl

theorem repliesFit_send_iff {target : Target} (inv : StateInvariant s)
    (taken : handle K env s (.wire client (.send target envelope)) now = some (s', outs)) :
    RepliesFit K outs ↔ SendFits K env s client target envelope := by
  by_cases accepts : ∃ identity line stamped,
      SendAccepted K env s client envelope identity line stamped
  · obtain ⟨identity, line, stamped, accepted⟩ := accepts
    obtain ⟨after, rows, handled, _⟩ := handle_send inv accepted target now
    rw [handled, Option.some.injEq] at taken
    obtain rfl : _ = outs := congrArg Prod.snd taken
    constructor
    · intro fits identity' line' stamped' accepted' name member
      obtain ⟨_, _, rfl⟩ := accepted.unique accepted'
      rw [← repliesFit_turns_iff]
      intro out staged
      exact fits out (List.mem_append_left _ (List.mem_cons_of_mem _
        (List.mem_flatMap.mpr ⟨name, member, staged⟩)))
    · intro fits out staged
      rcases List.mem_append.mp staged with staged | answer
      · rcases List.mem_cons.mp staged with rfl | woken
        · trivial
        · obtain ⟨name, member, staged⟩ := List.mem_flatMap.mp woken
          exact (repliesFit_turns_iff K env target.mailbox (channelReader target.mailbox name) _ _ _).mpr
            (fits identity line stamped accepted name member) out staged
      · obtain rfl := List.mem_singleton.mp answer
        exact outFits_of_not_commits K client rfl
  · refine ⟨fun _ identity line stamped accepted => absurd ⟨_, _, _, accepted⟩ accepts, fun _ => ?_⟩
    refine repliesFit_of_encoded (handle_handled taken) (by simp) ?_
    rintro _ _ _ ⟨⟩ identity line stamped accepted
    exact accepts ⟨identity, line, stamped,
      (sendAccepted_touchActivity_iff inv client envelope identity line stamped).mp accepted⟩

theorem repliesFit_iff {call : Call} (inv : StateInvariant s)
    (taken : handle K call.env s call.input call.now = some (s', outs)) :
    RepliesFit K outs ↔ AnswersFit K call.env s call.input := by
  obtain ⟨env, input, now⟩ := call
  have encoded : (∀ client timeoutMs task, input ≠ .wire client (.await timeoutMs task)) →
      (∀ client target envelope, input ≠ .wire client (.send target envelope)) →
        RepliesFit K outs := by
    intro noAwait noSend
    refine repliesFit_of_encoded (handle_handled taken) ?_ ?_
    · intro client timeoutMs task asked
      exact absurd asked (noAwait client timeoutMs task)
    · intro client target envelope asked
      exact absurd asked (noSend client target envelope)
  cases input with
  | disconnect client => exact iff_of_true (encoded (by simp) (by simp)) trivial
  | tick => exact iff_of_true (encoded (by simp) (by simp)) trivial
  | wire client msg =>
    cases msg with
    | await timeoutMs task => exact repliesFit_await_iff inv taken
    | send target envelope => exact repliesFit_send_iff inv taken
    | _ => exact iff_of_true (encoded (by simp) (by simp)) trivial

/-! ## Changes and the replies that report them -/

def InChannel (s : BrokerState) (id : ClientId) (channel : String) : Prop :=
  ∃ state, s.clients[id]? = some state ∧ channel ∈ state.joined

/-- A name that is bound and a membership that is added come with their reply. -/
structure Accompanied (s s' : BrokerState) (outs : List Out) : Prop where
  named : ∀ id name, HoldsName s' id name → ¬HoldsName s id name →
    ∃ drained peers, Out.reply id (.registerOk name drained peers) ∈ outs
  joined : ∀ id channel, InChannel s' id channel → ¬InChannel s id channel →
    ∃ client members drained, Out.reply client (.joinOk channel members drained) ∈ outs
  listed : ∀ channel name, Listed s' channel name → ¬Listed s channel name →
    ∃ client members drained, Out.reply client (.joinOk channel members drained) ∈ outs

/-- Names and memberships can only have ended. -/
structure Shrinks (s s' : BrokerState) : Prop where
  named : ∀ id name, HoldsName s' id name → HoldsName s id name
  joined : ∀ id channel, InChannel s' id channel → InChannel s id channel
  listed : ∀ channel name, Listed s' channel name → Listed s channel name

theorem Shrinks.accompanied (shrinks : Shrinks s s') (outs : List Out) : Accompanied s s' outs :=
  ⟨fun id name held fresh => absurd (shrinks.named id name held) fresh,
    fun id channel inside fresh => absurd (shrinks.joined id channel inside) fresh,
    fun channel name listed fresh => absurd (shrinks.listed channel name listed) fresh⟩

theorem Shrinks.trans {t u : BrokerState} (first : Shrinks s t) (second : Shrinks t u) :
    Shrinks s u :=
  ⟨fun id name held => first.named id name (second.named id name held),
    fun id channel inside => first.joined id channel (second.joined id channel inside),
    fun channel name listed => first.listed channel name (second.listed channel name listed)⟩

theorem Quiet.shrinks (quiet : Quiet s s') : Shrinks s s' := by
  refine ⟨fun id name held => (quiet.holdsName_iff id name).mp held, ?_,
    fun channel name listed => (listed_of_quiet quiet channel name).mp listed⟩
  rintro id channel ⟨state, stored, inside⟩
  obtain ⟨before, stored, core⟩ := quiet.earlier stored
  have joined : state.core.joined = before.core.joined := by rw [core]
  change state.joined = before.joined at joined
  exact ⟨before, stored, joined ▸ inside⟩

theorem disconnect_shrinks (inv : StateInvariant s) (client : ClientId) :
    Shrinks s (disconnect s client).1 := by
  have kept : ∀ (id : ClientId) (state : ClientState),
      (disconnect s client).1.clients[id]? = some state → s.clients[id]? = some state := by
    intro id state stored
    rw [disconnect_clients, lookup_erase] at stored
    split at stored
    · cases stored
    · exact stored
  refine ⟨?_, ?_, fun channel name listed => ((listed_disconnect inv client channel name).mp listed).1⟩
  · rintro id name ⟨state, stored, held⟩
    exact ⟨state, kept id state stored, held⟩
  · rintro id channel ⟨state, stored, inside⟩
    exact ⟨state, kept id state stored, inside⟩

theorem reap_shrinks : ∀ (dead : List ClientId) (acc : BrokerState × List Out),
    StateInvariant acc.1 → Shrinks acc.1 (dead.foldl disconnectStep acc).1
  | [], acc, _ => (Quiet.refl acc.1).shrinks
  | client :: rest, acc, inv =>
    (disconnect_shrinks inv client).trans
      (reap_shrinks rest (disconnectStep acc client) (inv.disconnect client))

theorem Handled.accompanied {input : BrokerInput} (inv : StateInvariant s)
    (handled : Handled K env s now input s' outs) : Accompanied s s' outs := by
  cases handled with
  | refused same _ => exact (refused_quiet same).shrinks.accompanied _
  | report change _ => exact change.quiet.shrinks.accompanied _
  | @send client target envelope _ _ _ _ touched _ _ _ _ _ =>
    subst touched
    exact ((touchActivity_quiet env s client).trans
      (send_quiet K env _ client target envelope)).shrinks.accompanied _
  | @inbox _ _ _ _ _ _ _ advances _ touched _ _ holder _ _ =>
    subst touched
    exact (inbox_quiet advances holder).shrinks.accompanied _
  | await touched _ holder drained =>
    subst touched
    exact (await_quiet holder drained).shrinks.accompanied _
  | @park _ _ _ _ _ _ _ parked touched resolved holder _ drained =>
    subst touched
    exact (park_quiet parked resolved holder drained).shrinks.accompanied _
  | @hello client _ bindAs fresh _ =>
    refine Shrinks.accompanied ⟨?_, ?_, ?_⟩ _
    · rintro id name ⟨state, stored, connected, named⟩
      simp only [lookup_insert] at stored
      split at stored
      · cases stored
        cases named
      · exact ⟨state, stored, connected, named⟩
    · rintro id channel ⟨state, stored, inside⟩
      simp only [lookup_insert] at stored
      split at stored
      · cases stored
        simp [freshClient] at inside
      · exact ⟨state, stored, inside⟩
    · exact fun _ _ listed => listed
  | @register client state name pid cwd listen origin drained stored _ _ _ _ _ =>
    refine ⟨?_, ?_, fun _ _ listed fresh => absurd listed fresh⟩
    · rintro id other ⟨found, storedId, connected, named⟩ fresh
      rw [getElem?_updateClient] at storedId
      split at storedId
      · rename_i same
        subst same
        obtain ⟨_, _, rfl⟩ := Option.map_eq_some_iff.mp storedId
        cases named
        exact ⟨_, _, List.mem_cons_self ..⟩
      · exact absurd ⟨found, storedId, connected, named⟩ fresh
    · rintro id channel ⟨found, storedId, inside⟩ fresh
      refine absurd ?_ fresh
      rw [getElem?_updateClient] at storedId
      split at storedId
      · obtain ⟨before, earlier, rfl⟩ := Option.map_eq_some_iff.mp storedId
        exact ⟨before, earlier, inside⟩
      · exact ⟨found, storedId, inside⟩
  | @join client holder channel name role drained t touched resolved holds _ _ =>
    have quiet : Quiet s t := touched ▸ touchActivity_quiet env s client
    have shrinks := quiet.shrinks
    refine ⟨?_, ?_, ?_⟩
    · intro id other held fresh
      refine absurd (shrinks.named id other ?_) fresh
      refine (holdsName_modify rfl ?_ id other).mp held
      exact fun _ => ⟨rfl, rfl⟩
    · rintro id other ⟨found, stored, inside⟩ fresh
      simp only [commitJoin, lookup_modify] at stored
      split at stored
      · obtain ⟨before, earlier, rfl⟩ := Option.map_eq_some_iff.mp stored
        rcases (mem_set_insert _ _ _).mp inside with rfl | inside
        · exact ⟨_, _, _, List.mem_cons_self ..⟩
        · exact absurd (shrinks.joined id other ⟨before, earlier, inside⟩) fresh
      · exact absurd (shrinks.joined id other ⟨found, stored, inside⟩) fresh
    · intro other member listed fresh
      rcases (listed_commitJoin ..).mp listed with listed | ⟨rfl, _⟩
      · exact absurd (shrinks.listed other member listed) fresh
      · exact ⟨_, _, _, List.mem_cons_self ..⟩
  | @leave client holder channel name t touched resolved holds =>
    have quiet : Quiet s t := touched ▸ touchActivity_quiet env s client
    refine (quiet.shrinks.trans ⟨?_, ?_, ?_⟩).accompanied _
    · intro id other held
      refine (holdsName_modify rfl ?_ id other).mp held
      exact fun _ => ⟨rfl, rfl⟩
    · rintro id other ⟨found, stored, inside⟩
      simp only [commitLeave, lookup_modify] at stored
      split at stored
      · obtain ⟨before, earlier, rfl⟩ := Option.map_eq_some_iff.mp stored
        exact ⟨before, earlier, ((mem_set_erase _ _ _).mp inside).2⟩
      · exact ⟨found, stored, inside⟩
    · intro other member listed
      exact ((listed_commitLeave ..).mp listed).1
  | disconnect => exact (disconnect_shrinks inv _).accompanied _
  | tick =>
    exact ((reap_shrinks (deadClients env s) (s, []) inv).trans
      (tick_quiet env s now).shrinks).accompanied _

/-- In every state of every run, an input leaves no reply about a bound name, a
joined channel or delivered records that cannot be framed, exactly when what it
delivers to an `Await` fits. -/
theorem committed_replies_fit_iff {K : Text} {trace : List (Event BrokerState Call (List Out))}
    {s : BrokerState} (run : (brokerMachine K).Run trace s) (call : Call) :
    ∃ s' outs, handle K call.env s call.input call.now = some (s', outs) ∧ Accompanied s s' outs ∧
      (RepliesFit K outs ↔ AnswersFit K call.env s call.input) := by
  have inv := StateInvariant.of_run run
  have taken := handle_eq_respond K s call
  exact ⟨_, _, taken, (handle_handled taken).accompanied inv, repliesFit_iff inv taken⟩

/-- Bob's message wakes the parked request: the cursor passes the record, and the
reply with it can be framed. -/
theorem waitingCalls_woken_reply_fits :
    ∃ s' outs, handle Plain.text emptyEnv (stateAfter Plain.text (BrokerState.new 0) waitingCalls)
        (.wire 2 (.send (.agent "alice") fromBob)) 6 = some (s', outs) ∧
      Out.reply 1 (.awaitOk [⟨.local, fromBob⟩] (.agent "alice") (recordLen fromBobRecord)) ∈ outs ∧
      awaitCursor s' 1 (.agent "alice") = some (recordLen fromBobRecord) ∧
      RepliesFit Plain.text outs := by
  obtain ⟨s', outs, handled, _, fits⟩ := committed_replies_fit_iff
    (run_calls Plain.text 0 waitingCalls) ⟨emptyEnv, .wire 2 (.send (.agent "alice") fromBob), 6⟩
  have computed := handle_eq_respond Plain.text
    (stateAfter Plain.text (BrokerState.new 0) waitingCalls)
    ⟨emptyEnv, .wire 2 (.send (.agent "alice") fromBob), 6⟩
  rw [handled, Option.some.injEq, Prod.mk.injEq] at computed
  refine ⟨s', outs, handled, ?_, ?_, fits.mpr ?_⟩
  · rw [computed.2]
    decide +kernel
  · rw [computed.1]
    decide +kernel
  · have sent : SendAccepted Plain.text emptyEnv
        (stateAfter Plain.text (BrokerState.new 0) waitingCalls) 2 fromBob "bob" fromBobLine
        fromBobRecord := by
      constructor <;> decide +kernel
    intro identity line stamped accepted name member
    obtain ⟨rfl, rfl, rfl⟩ := sent.unique accepted
    obtain rfl : name = "alice" := List.mem_singleton.mp member
    exact ⟨fun _ => ⟨149, by decide +kernel, by decide⟩, trivial⟩

/-! ## A reply that does not fit -/

/-- An envelope of bob with a text of the given length. -/
def bulky (size : Nat) : Value :=
  Value.record ["from", "pad"] (by decide)
    [.str "agent:example/bob", .str (String.ofList (List.replicate size 'x'))]

theorem depth_bulky_le (size : Nat) : (bulky size).depth ≤ maxNesting :=
  Nat.le_add_left 1 126

def sendValue (target : Target) (envelope : Value) : Value :=
  Value.record ["envelope", "op", "to"] (by decide) [envelope, .str "send", target.toValue]

theorem read_sendValue (name : String) (envelope : Value) :
    BusMessage.read (sendValue (.agent name) envelope).val = some (.send (.agent name) envelope) := by
  have content : Value.ofTree envelope.val = envelope := Value.ofTree_val envelope
  have read : BusMessage.read (sendValue (.agent name) envelope).val =
      some (.send (.agent name) (Value.ofTree envelope.val)) := rfl
  rw [read, content]

theorem canonicalLen?_bulky (size : Nat) :
    Plain.text.canonicalLen? (bulky size) = some (37 + size) := by
  have pad := Plain.canonicalLen?_replicate size
  have author := Plain.canonicalLen?_str "agent:example/bob" (by decide)
  have keys : (utf8 "from").length = 4 ∧ (utf8 "pad").length = 3 ∧
      "agent:example/bob".toList.length = 17 := by decide
  rw [bulky, Plain.text.canonicalLen?_record _ _ _ (by decide) rfl]
  simp [Text.canonicalLens?, author, pad, Text.objectLen, Text.commaLen, keys]
  omega

theorem canonicalLen?_sendValue (known : Plain.text.canonicalLen? envelope = some len) :
    Plain.text.canonicalLen? (sendValue (.agent "alice") envelope) = some (62 + len) := by
  have op := Plain.canonicalLen?_str "send" (by decide)
  have target : Plain.text.canonicalLen? (Target.agent "alice").toValue = some 31 := by decide
  have keys : (utf8 "envelope").length = 8 ∧ (utf8 "op").length = 2 ∧ (utf8 "to").length = 2 ∧
      "send".toList.length = 4 := by decide
  rw [sendValue, Plain.text.canonicalLen?_record _ _ _ (by decide) rfl]
  simp [Text.canonicalLens?, known, op, target, Text.objectLen, Text.commaLen, keys]
  omega

theorem canonicalLen?_stampedEnvelope {K : Text} (lengths : K.ExactLengths)
    (known : K.canonicalLen? envelope = some len) (origin : Origin) :
    K.canonicalLen? (StampedEnvelope.toValue ⟨origin, envelope⟩) =
      some (25 + origin.name.toList.length + len) := by
  have named : K.canonicalLen? (.str origin.name) = some (origin.name.toList.length + 2) :=
    lengths.str origin.name (by cases origin <;> decide)
  have keys : (utf8 "envelope").length = 8 ∧ (utf8 "origin").length = 6 := by decide
  rw [StampedEnvelope.toValue, K.canonicalLen?_record _ _ _ (by decide) rfl]
  simp [Text.canonicalLens?, known, named, Text.objectLen, Text.commaLen, keys]
  omega

theorem canonicalLen?_stamped (known : Plain.text.canonicalLen? envelope = some len) :
    Plain.text.canonicalLen? (StampedEnvelope.toValue ⟨.local, envelope⟩) = some (30 + len) :=
  canonicalLen?_stampedEnvelope Plain.exactLengths known .local

theorem not_awaitOkFits (mailbox : MailboxName) (nextOffset : Nat)
    (known : Plain.text.canonicalLen? envelope = some len) (large : maxFrameBytes < 78 + len) :
    ¬AwaitOkFits Plain.text [⟨.local, envelope⟩] mailbox nextOffset := by
  rintro ⟨total, sum, fits⟩
  simp only [awaitOkLen?, List.map_cons, List.map_nil, Text.canonicalLens?,
    canonicalLen?_stamped known] at sum
  split at sum
  · rename_i lens _ _ _ first _ _ _
    cases first
    rw [Option.some.injEq] at sum
    simp only [List.sum_cons, List.sum_nil, List.length_cons, List.length_nil] at sum
    omega
  · cases sum

def padding : Nat := maxFrameBytes - 100

/-- A frame within the limit carries a send that wakes a parked request: the cursor
of its holder passes the record, and the reply with the record exceeds the limit. -/
theorem woken_reply_exceeds_frame :
    let s := stateAfter Plain.text (BrokerState.new 0) waitingCalls
    (∃ trace, (brokerMachine Plain.text).Run trace s) ∧
      (∃ frame, encodeFrame Plain.text (sendValue (.agent "alice") (bulky padding)) = .ok frame ∧
        tryDecodeFrame Plain.text BusMessage.read frame =
          .ok (some (.send (.agent "alice") (bulky padding), frame.length))) ∧
      ∃ s' outs stamped,
        handle Plain.text emptyEnv s (.wire 2 (.send (.agent "alice") (bulky padding))) 6 =
          some (s', outs) ∧
        Out.reply 1 (.awaitOk [⟨.local, bulky padding⟩] (.agent "alice") (recordLen stamped)) ∈ outs ∧
        awaitCursor s' 1 (.agent "alice") = some (recordLen stamped) ∧
        ¬Fits Plain.text
          (.awaitOk [⟨.local, bulky padding⟩] (.agent "alice") (recordLen stamped)) := by
  have run := run_calls Plain.text 0 waitingCalls
  have inv := StateInvariant.of_run run
  have limit : maxFrameBytes = 16777216 := by decide
  have pads : padding = 16777116 := by decide
  have known := canonicalLen?_bulky padding
  refine ⟨⟨_, run⟩, ?_, ?_⟩
  · obtain ⟨body, canonical, length⟩ := Text.canonicalize_of_len (canonicalLen?_sendValue known)
    refine tryDecodeFrame_encodeFrame Plain.text BusMessage.read canonical ?_ (by omega)
      (Plain.parse_canonicalize canonical (Nat.le_add_left 2 125)) ?_ (read_sendValue "alice" (bulky padding))
    · rintro rfl
      simp only [List.length_nil] at length
      omega
    · exact Tree.hasDuplicateKey_of_isOrdered _ (sendValue (.agent "alice") (bulky padding)).property
  · obtain ⟨line, canonical, length⟩ := Text.canonicalize_of_len known
    obtain ⟨stamped, stamps, _⟩ := Text.canonicalize_of_len (canonicalLen?_stamped known)
    have origin : clientOrigin (stateAfter Plain.text (BrokerState.new 0) waitingCalls) 2 =
        .local := by decide +kernel
    have accepted : SendAccepted Plain.text emptyEnv
        (stateAfter Plain.text (BrokerState.new 0) waitingCalls) 2 (bulky padding) "bob" line
        stamped := by
      refine ⟨by decide +kernel, rfl, canonical, by omega, ?_⟩
      rw [stampLine_canonicalize Plain.text _ canonical (depth_bulky_le _), Plain.reread_eq,
        origin, stamps]
    obtain ⟨s', rows, handled, wakes⟩ := handle_send inv accepted (.agent "alice") 6
    have cursor : holderCursor (stateAfter Plain.text (BrokerState.new 0) waitingCalls) "alice"
        (.agent "alice") = some 0 := by decide +kernel
    have woken : wakeTurns Plain.text emptyEnv
        (stateAfter Plain.text (BrokerState.new 0) waitingCalls) (.agent "alice")
        ⟨.local, bulky padding, stamped.length⟩ "alice" =
        (some (recordLen stamped),
          [.reply 1 (.awaitOk [⟨.local, bulky padding⟩] (.agent "alice") (recordLen stamped)),
            .unparkAwait 1]) := by
      rw [wakeTurns, cursor, selectedWaits_waitingCalls]
      simp [turns, turn, emptyEnv, channelReader, MailboxName.isChannel, readBatch, walked,
        awaitBatchCap, drainsAll, deliverable, withTrigger, foldTrigger, isSelfAuthored,
        filterMatches, cursorAfter, wakeReply, stamp, recordLen]
    rw [origin] at handled wakes
    refine ⟨s', _, stamped, handled, ?_, ?_, ?_⟩
    · simp [recipients, Target.mailbox, woken]
    · have moved := wakes.moved "alice" (List.mem_singleton_self _) 1 (by decide +kernel)
      rw [Target.mailbox, woken] at moved
      exact moved
    · rw [fits_awaitOk_iff]
      exact not_awaitOkFits _ _ known (by omega)

end Famp.Bus
