import Famp.Bus.Wake

/-!
# Parked requests in a step

What an input does to the parked requests.  A request is parked by the `Await`
frame of its connection, and its place is given up when it is completed, which
is a reply and the release of the place in one, or when its connection is
released.
-/

set_option autoImplicit false

namespace Famp.Bus

open Famp.Core Json Data Std

/-! ## Completions -/

/-- Replies that complete a parked request. -/
def BusReply.isCompletion : BusReply → Bool
  | .awaitOk .. | .awaitTimeout | .err .. => true
  | _ => false

/-- Replies that nothing but an `Await` gets. -/
def BusReply.answersAwait : BusReply → Bool
  | .awaitOk .. | .awaitTimeout => true
  | _ => false

/-- The connection is answered and its parked request released. -/
def completion (answer : ClientId × BusReply) : List Out :=
  [.reply answer.1 answer.2, .unparkAwait answer.1]

/-- An effect that is no part of a completion. -/
def Out.IsAside (input : BrokerInput) : Out → Prop
  | .unparkAwait _ => False
  | .reply client answer =>
    answer.answersAwait = true → ∃ timeoutMs task, input = .wire client (.await timeoutMs task)
  | _ => True

/-- The parked requests that a step completes, one completion each. -/
structure Completions (s s' : BrokerState) (input : BrokerInput) (outs : List Out)
    (answers : List (ClientId × BusReply)) : Prop where
  staged : ∃ front back, outs = front ++ answers.flatMap completion ++ back ∧
    ∀ out ∈ front ++ back, out.IsAside input
  distinct : (answers.map Prod.fst).Nodup
  completes : ∀ answer ∈ answers, answer.2.isCompletion = true
  before : ∀ answer ∈ answers, answer.1 ∈ s.pendingAwaits
  after : ∀ answer ∈ answers, answer.1 ∉ s'.pendingAwaits

variable {client : ClientId} {s s' : BrokerState} {input : BrokerInput} {outs : List Out} {K : Text}
  {env : BrokerEnv}

theorem mem_completions_iff {answers : List (ClientId × BusReply)} :
    Out.unparkAwait client ∈ answers.flatMap completion ↔ client ∈ answers.map Prod.fst := by
  simp only [List.mem_flatMap, completion, List.mem_cons, reduceCtorEq, false_or, List.not_mem_nil,
    or_false, Out.unparkAwait.injEq, List.mem_map]
  exact exists_congr fun answer => and_congr_right fun _ => eq_comm

theorem Completions.mem_iff {answers : List (ClientId × BusReply)}
    (completions : Completions s s' input outs answers) (client : ClientId) :
    Out.unparkAwait client ∈ outs ↔ client ∈ answers.map Prod.fst := by
  obtain ⟨front, back, rfl, asides⟩ := completions.staged
  rw [← mem_completions_iff]
  constructor
  · intro staged
    rcases List.mem_append.mp staged with staged | staged
    · rcases List.mem_append.mp staged with staged | staged
      · exact absurd (asides _ (List.mem_append_left _ staged)) id
      · exact staged
    · exact absurd (asides _ (List.mem_append_right _ staged)) id
  · exact fun staged => List.mem_append_left _ (List.mem_append_right _ staged)

/-! ## What a step does to the parked requests -/

structure Attended (s s' : BrokerState) (input : BrokerInput) (now : Nat) (outs : List Out) :
    Prop where
  completions : ∃ answers, Completions s s' input outs answers
  parks : ∀ client filter deadline, Out.parkAwait client filter deadline ∈ outs →
    s'.pendingAwaits[client]? = some ⟨filter, deadline⟩ ∧
      ∃ timeoutMs task, input = .wire client (.await timeoutMs task)
  releases : ∀ client, Out.releaseClient client ∈ outs → s'.pendingAwaits[client]? = none
  keeps : ∀ client : ClientId, (∀ filter deadline, Out.parkAwait client filter deadline ∉ outs) →
    Out.unparkAwait client ∉ outs → Out.releaseClient client ∉ outs →
      s'.pendingAwaits[client]? = s.pendingAwaits[client]?
  expires : input = .tick → ∀ (client : ClientId) (parked : ParkedAwait),
    s.pendingAwaits[client]? = some parked → parked.deadline ≤ now →
      Out.unparkAwait client ∈ outs ∨ Out.releaseClient client ∈ outs

/-- An effect that does not touch the parked requests. -/
structure Out.IsUnrelated (input : BrokerInput) (out : Out) : Prop where
  aside : out.IsAside input
  parks : ∀ client filter deadline, out ≠ .parkAwait client filter deadline
  releases : ∀ client, out ≠ .releaseClient client

theorem unrelated_reply {reply : BusReply} (awaits : reply.answersAwait = true →
      ∃ timeoutMs task, input = .wire client (.await timeoutMs task)) :
    (Out.reply client reply).IsUnrelated input :=
  ⟨awaits, by simp, by simp⟩

theorem Attended.unrelated (now : Nat) (same : s'.pendingAwaits = s.pendingAwaits)
    (wire : input ≠ .tick) (unrelated : ∀ out ∈ outs, out.IsUnrelated input) :
    Attended s s' input now outs where
  completions := by
    refine ⟨[], ⟨outs, [], by simp, ?_⟩, List.nodup_nil, by simp, by simp, by simp⟩
    intro out staged
    exact (unrelated out (by simpa using staged)).aside
  parks client filter deadline staged := absurd rfl ((unrelated _ staged).parks client filter deadline)
  releases client staged := absurd rfl ((unrelated _ staged).releases client)
  keeps _ _ _ _ := by rw [same]
  expires isTick := absurd isTick wire

theorem Attended.reply {msg : BusMessage} (now : Nat) (same : s'.pendingAwaits = s.pendingAwaits)
    {reply : BusReply} (more : List Out)
    (awaits : reply.answersAwait = true → ∃ timeoutMs task, msg = .await timeoutMs task)
    (unrelated : ∀ out ∈ more, out.IsUnrelated (.wire client msg)) :
    Attended s s' (.wire client msg) now (.reply client reply :: more) := by
  refine .unrelated now same (by simp) ?_
  intro out staged
  rcases List.mem_cons.mp staged with rfl | staged
  · refine unrelated_reply fun answers => ?_
    obtain ⟨timeoutMs, task, rfl⟩ := awaits answers
    exact ⟨timeoutMs, task, rfl⟩
  · exact unrelated out staged

theorem not_answersAwait_of_isRefusal {reply : BusReply} (refusal : reply.isRefusal = true) :
    reply.answersAwait = false := by
  cases reply <;> first | rfl | cases refusal

/-! ## Frames that leave the parked requests alone -/

theorem SettingsChange.pending (change : SettingsChange s s') :
    s'.pendingAwaits = s.pendingAwaits := by
  rcases change with rfl | ⟨_, _, rfl, _⟩
  · rfl
  · rfl

theorem setInboxOffsets_pending (owner : ClientId) : ∀ (advances : List (MailboxName × Nat))
    (s : BrokerState),
      (advances.foldl (fun s advance => setInboxOffset s owner advance) s).pendingAwaits =
        s.pendingAwaits
  | [], _ => rfl
  | advance :: rest, s => setInboxOffsets_pending owner rest (setInboxOffset s owner advance)

theorem awaitLoop_pending {owner : ClientId} {filter : AwaitFilter} {mailboxes : List MailboxName}
    {result : Option (List Out)}
    (run : awaitLoop K env client owner filter mailboxes s = (s', result)) :
    s'.pendingAwaits = s.pendingAwaits := by
  have pending := awaitLoop_keeps (fun t => t.pendingAwaits = s.pendingAwaits) K env client
    owner filter (fun _ _ _ same => same) mailboxes s rfl
  rwa [run] at pending

theorem report_unrelated {out : Out} (report : out.isReport client = true) :
    out.IsUnrelated input := by
  cases out with
  | reply receiver reply =>
    refine unrelated_reply fun answers => ?_
    cases reply <;> first | cases report | cases answers
  | inspectRequest requester kind => exact ⟨trivial, by simp, by simp⟩
  | _ => cases report

/-! ## Send -/

section Turns
variable (K : Text) (env : BrokerEnv) (mailbox : MailboxName) (trigger : Trigger)

theorem turns_completions (reader : Option String) :
    ∀ (waits : List (ClientId × AwaitFilter)) (cursor : Option Nat),
      ∃ answers : List (ClientId × BusReply),
        (turns K env mailbox reader trigger cursor waits).2 = answers.flatMap completion ∧
          answers.map Prod.fst = waits.map Prod.fst ∧
          ∀ answer ∈ answers, ∃ cursor filter, (answer.1, filter) ∈ waits ∧
            answer.2 = (turn K env mailbox reader trigger cursor filter).2
  | [], _ => ⟨[], rfl, rfl, by simp⟩
  | (waiting, filter) :: rest, cursor => by
    obtain ⟨answers, staged, clients, replies⟩ := turns_completions reader rest
      (turn K env mailbox reader trigger cursor filter).1
    refine ⟨(waiting, (turn K env mailbox reader trigger cursor filter).2) :: answers, ?_, ?_, ?_⟩
    · simp only [turns, staged, List.flatMap_cons, completion, List.cons_append, List.nil_append]
    · simp only [List.map_cons, clients]
    · intro answer member
      rcases List.mem_cons.mp member with rfl | member
      · exact ⟨cursor, filter, List.mem_cons_self .., rfl⟩
      · obtain ⟨cursor', filter', waits, reply⟩ := replies answer member
        exact ⟨cursor', filter', List.mem_cons_of_mem _ waits, reply⟩

/-- The completions of a send: one for each parked request that it answers, and each
reply is that of a turn. -/
theorem wakes_completions (s : BrokerState) :
    ∀ names : List String, ∃ answers : List (ClientId × BusReply),
      (names.flatMap fun name => (wakeTurns K env s mailbox trigger name).2) =
          answers.flatMap completion ∧
        answers.map Prod.fst = names.flatMap (answered env s trigger) ∧
        ∀ answer ∈ answers, ∃ name ∈ names, ∃ cursor filter,
          Waits env s name trigger.envelope trigger.origin answer.1 filter ∧
            answer.2 = (turn K env mailbox (channelReader mailbox name) trigger cursor filter).2
  | [] => ⟨[], rfl, rfl, by simp⟩
  | name :: rest => by
    obtain ⟨first, stagedFirst, clientsFirst, repliesFirst⟩ := turns_completions K env mailbox
      trigger (channelReader mailbox name)
      (selectedWaits env s name trigger.envelope trigger.origin) (holderCursor s name mailbox)
    obtain ⟨later, stagedLater, clientsLater, repliesLater⟩ := wakes_completions s rest
    refine ⟨first ++ later, ?_, ?_, ?_⟩
    · rw [List.flatMap_cons, List.flatMap_append, ← stagedLater, ← stagedFirst]
      rfl
    · rw [List.map_append, clientsFirst, clientsLater, List.flatMap_cons]
    · intro answer member
      rcases List.mem_append.mp member with member | member
      · obtain ⟨cursor, filter, waits, reply⟩ := repliesFirst answer member
        exact ⟨name, List.mem_cons_self .., cursor, filter, mem_selectedWaits_iff.mp waits, reply⟩
      · obtain ⟨other, among, rest⟩ := repliesLater answer member
        exact ⟨other, List.mem_cons_of_mem _ among, rest⟩

end Turns

theorem turn_isCompletion (K : Text) (env : BrokerEnv) (mailbox : MailboxName)
    (reader : Option String) (trigger : Trigger) (cursor : Option Nat) (filter : AwaitFilter) :
    (turn K env mailbox reader trigger cursor filter).2.isCompletion = true := by
  unfold turn
  split
  · rfl
  · dsimp only [wakeReply]
    split
    · rfl
    · split <;> rfl

theorem recipients_nodup (s : BrokerState) (envelope : Value) (target : Target) :
    (recipients s envelope target).Nodup := by
  cases target with
  | agent name => exact List.nodup_singleton name
  | channel name =>
    have distinct : (s.channels[name]?.getD ∅).toList.Nodup :=
      ExtTreeSet.distinct_toList.imp fun differ same => differ (Std.compare_eq_iff_eq.mpr same)
    exact distinct.filter _

theorem answered_nodup (env : BrokerEnv) (s : BrokerState) (trigger : Trigger) :
    ∀ {names : List String}, names.Nodup → (names.flatMap (answered env s trigger)).Nodup
  | [], _ => List.nodup_nil
  | name :: rest, distinct => by
    obtain ⟨fresh, distinct⟩ := List.nodup_cons.mp distinct
    rw [List.flatMap_cons]
    refine List.Nodup.append (selectedWaits_nodup env s name trigger.envelope trigger.origin)
      (answered_nodup env s trigger distinct) ?_
    intro client first later
    obtain ⟨other, among, later⟩ := List.mem_flatMap.mp later
    obtain ⟨⟨_, filter⟩, here, rfl⟩ := List.mem_map.mp first
    obtain ⟨⟨_, filter'⟩, there, rfl⟩ := List.mem_map.mp later
    obtain rfl := (mem_selectedWaits_iff.mp here).name_unique (mem_selectedWaits_iff.mp there)
    exact fresh among

theorem send_attended {t : BrokerState} (target : Target) {envelope : Value} {identity : String}
    {line stamped : Bytes} (now : Nat) (inv : StateInvariant t)
    (touched : t.pendingAwaits = s.pendingAwaits)
    (resolved : resolveOpIdentity env t client = .ok identity)
    (own : isSelfAuthored envelope (some identity) = true)
    (canonical : K.canonicalize envelope = .ok line) (small : line.length ≤ maxFrameBytes)
    (stamps : stampLine K line (clientOrigin t client) = .ok stamped) :
    Attended s (send K env t client target envelope).1 (.wire client (.send target envelope)) now
      (send K env t client target envelope).2 := by
  obtain ⟨wakes, rows, outs⟩ := send_wakes target inv resolved own canonical small stamps
  obtain ⟨answers, staged, clients, replies⟩ := wakes_completions K env target.mailbox
    ⟨clientOrigin t client, envelope, stamped.length⟩ t (recipients t envelope target)
  rw [staged] at outs
  have completions : Completions s (send K env t client target envelope).1
      (.wire client (.send target envelope)) (send K env t client target envelope).2 answers := by
    refine ⟨⟨[.appendMailbox target.mailbox line (clientOrigin t client)],
      [.reply client (.sendOk (taskIdFrom envelope) rows)], outs, ?_⟩, ?_, ?_, ?_, ?_⟩
    · intro out aside
      simp only [List.singleton_append, List.mem_cons, List.not_mem_nil, or_false] at aside
      rcases aside with rfl | rfl
      · trivial
      · exact fun answers => nomatch answers
    · rw [clients]
      exact answered_nodup env t _ (recipients_nodup t envelope target)
    · intro answer member
      obtain ⟨name, -, cursor, filter, -, reply⟩ := replies answer member
      rw [reply]
      exact turn_isCompletion ..
    · intro answer member
      obtain ⟨name, -, cursor, filter, waits, -⟩ := replies answer member
      obtain ⟨request, parked, -⟩ := waits.parked
      rw [touched] at parked
      exact (mem_iff_lookup _ _).mpr ⟨request, parked⟩
    · intro answer member
      have gone : answer.1 ∈ answers.map Prod.fst := List.mem_map_of_mem member
      rw [clients] at gone
      rw [mem_iff_lookup, wakes.pending, if_pos gone]
      simp
  refine ⟨⟨answers, completions⟩, ?_, ?_, ?_, by simp⟩
  · intro other filter deadline parks
    rw [outs] at parks
    simp [completion] at parks
  · intro other releases
    rw [outs] at releases
    simp [completion] at releases
  · intro other _ unparks _
    rw [completions.mem_iff, clients] at unparks
    rw [wakes.pending, if_neg unparks, touched]

/-! ## Disconnect and Tick -/

theorem releaseClient_mem_disconnect (s : BrokerState) (client other : ClientId) :
    Out.releaseClient other ∈ (disconnect s client).2 ↔ other = client := by
  unfold disconnect
  split <;> simp

theorem aside_of_isSessionEnd {out : Out} (ended : out.isSessionEnd = true) :
    out.IsAside input := by
  cases out <;> trivial

theorem not_park_of_isSessionEnd {filter : AwaitFilter} {deadline : Nat}
    (ended : ∀ out ∈ outs, out.isSessionEnd = true) : Out.parkAwait client filter deadline ∉ outs :=
  fun parks => nomatch ended _ parks

theorem disconnect_attended (s : BrokerState) (client : ClientId) (now : Nat) :
    Attended s (disconnect s client).1 (.disconnect client) now (disconnect s client).2 where
  completions :=
    ⟨[], ⟨(disconnect s client).2, [], by simp, fun out staged =>
      aside_of_isSessionEnd (disconnect_outs s client out (by simpa using staged))⟩,
      List.nodup_nil, by simp, by simp, by simp⟩
  parks other filter deadline staged :=
    absurd staged (not_park_of_isSessionEnd (disconnect_outs s client))
  releases other staged := by
    obtain rfl := (releaseClient_mem_disconnect s client other).mp staged
    rw [disconnect_pendingAwaits, lookup_erase, if_pos rfl]
  keeps other _ _ unreleased := by
    rw [releaseClient_mem_disconnect] at unreleased
    rw [disconnect_pendingAwaits, lookup_erase, if_neg (Ne.symm unreleased)]
  expires isTick := by cases isTick

theorem reap_pending (dead : List ClientId) : ∀ (acc : BrokerState × List Out) (client : ClientId),
    (dead.foldl disconnectStep acc).1.pendingAwaits[client]? =
      if client ∈ dead then none else acc.1.pendingAwaits[client]? := by
  induction dead with
  | nil => simp
  | cons first rest ih =>
    intro acc client
    rw [List.foldl_cons, ih]
    have next : (disconnectStep acc first).1.pendingAwaits[client]? =
        if first = client then none else acc.1.pendingAwaits[client]? := by
      rw [disconnectStep, disconnect_pendingAwaits, lookup_erase]
    rw [next]
    by_cases later : client ∈ rest
    · simp [later]
    · by_cases same : first = client
      · simp [same]
      · simp [later, same, Ne.symm same]

theorem releaseClient_mem_reap (dead : List ClientId) :
    ∀ (acc : BrokerState × List Out) (client : ClientId),
      Out.releaseClient client ∈ (dead.foldl disconnectStep acc).2 ↔
        Out.releaseClient client ∈ acc.2 ∨ client ∈ dead := by
  induction dead with
  | nil => simp
  | cons first rest ih =>
    intro acc client
    rw [List.foldl_cons, ih, disconnectStep, List.mem_append, releaseClient_mem_disconnect,
      List.mem_cons, or_assoc]

theorem expire_foldl (expired : List ClientId) : ∀ acc : BrokerState × List Out,
    (∀ client : ClientId, (expired.foldl expireStep acc).1.pendingAwaits[client]? =
      if client ∈ expired then none else acc.1.pendingAwaits[client]?) ∧
    (expired.foldl expireStep acc).2 =
      acc.2 ++ (expired.map fun client => (client, BusReply.awaitTimeout)).flatMap completion := by
  induction expired with
  | nil => simp
  | cons first rest ih =>
    intro acc
    obtain ⟨pending, outs⟩ := ih (expireStep acc first)
    refine ⟨?_, ?_⟩
    · intro client
      rw [List.foldl_cons, pending, expireStep, lookup_erase]
      by_cases later : client ∈ rest
      · simp [later]
      · by_cases same : first = client
        · simp [same]
        · simp [later, same, Ne.symm same]
    · rw [List.foldl_cons, outs, expireStep, List.map_cons, List.flatMap_cons, List.append_assoc]
      rfl

/-- The connections of the requests whose deadline has passed. -/
def expiredAwaits (pending : ExtTreeMap ClientId ParkedAwait) (now : Nat) : List ClientId :=
  pending.toList.filterMap fun entry => if entry.2.deadline ≤ now then some entry.1 else none

theorem mem_expiredAwaits_iff {pending : ExtTreeMap ClientId ParkedAwait} {now : Nat} :
    client ∈ expiredAwaits pending now ↔
      ∃ parked : ParkedAwait, pending[client]? = some parked ∧ parked.deadline ≤ now := by
  simp only [expiredAwaits, List.mem_filterMap, Prod.exists, mem_toList_iff,
    Option.ite_none_right_eq_some, Option.some.injEq]
  constructor
  · rintro ⟨_, parked, stored, passed, rfl⟩
    exact ⟨parked, stored, passed⟩
  · rintro ⟨parked, stored, passed⟩
    exact ⟨client, parked, stored, passed, rfl⟩

theorem expiredAwaits_nodup (pending : ExtTreeMap ClientId ParkedAwait) (now : Nat) :
    (expiredAwaits pending now).Nodup := by
  refine List.pairwise_filterMap.mpr (ExtTreeMap.distinct_keys_toList.imp ?_)
  intro a b differ x foundA y foundB same
  simp only [Option.ite_none_right_eq_some, Option.some.injEq] at foundA foundB
  exact differ (Std.compare_eq_iff_eq.mpr (foundA.2.trans (same.trans foundB.2.symm)))

theorem tick_attended (env : BrokerEnv) (s : BrokerState) (now : Nat) :
    Attended s (tick env s now).1 .tick now (tick env s now).2 := by
  have reaped := reap_pending (deadClients env s) (s, [])
  have released := releaseClient_mem_reap (deadClients env s) (s, [])
  have ended := reap_outs (deadClients env s) s
  have taken : tick env s now = (expiredAwaits
      ((deadClients env s).foldl disconnectStep (s, [])).1.pendingAwaits now).foldl expireStep
        ((deadClients env s).foldl disconnectStep (s, [])) := rfl
  generalize (deadClients env s).foldl disconnectStep (s, []) = acc at reaped released ended taken
  obtain ⟨pending, outs⟩ := expire_foldl (expiredAwaits acc.1.pendingAwaits now) acc
  rw [← taken] at pending outs
  have waits : ∀ client ∈ expiredAwaits acc.1.pendingAwaits now, client ∈ s.pendingAwaits := by
    intro client expired
    obtain ⟨parked, stored, -⟩ := mem_expiredAwaits_iff.mp expired
    rw [reaped, Option.ite_none_left_eq_some] at stored
    exact (mem_iff_lookup _ _).mpr ⟨parked, stored.2⟩
  have completions : Completions s (tick env s now).1 .tick (tick env s now).2
      ((expiredAwaits acc.1.pendingAwaits now).map fun client => (client, .awaitTimeout)) := by
    refine ⟨⟨acc.2, [], by rw [outs, List.append_nil], ?_⟩, ?_, ?_, ?_, ?_⟩
    · intro out staged
      exact aside_of_isSessionEnd (ended out (by simpa using staged))
    · rw [List.map_map]
      exact (List.map_id _).symm ▸ expiredAwaits_nodup _ now
    · simp [BusReply.isCompletion]
    · simpa using waits
    · simp only [List.forall_mem_map]
      intro client expired
      rw [mem_iff_lookup, pending, if_pos expired]
      simp
  have unparked : ∀ client, Out.unparkAwait client ∈ (tick env s now).2 ↔
      client ∈ expiredAwaits acc.1.pendingAwaits now := by
    intro client
    rw [completions.mem_iff, List.map_map]
    simp
  refine ⟨⟨_, completions⟩, ?_, ?_, ?_, ?_⟩
  · intro client filter deadline parks
    rw [outs] at parks
    rcases List.mem_append.mp parks with parks | parks
    · exact absurd parks (not_park_of_isSessionEnd ended)
    · simp [completion] at parks
  · intro client staged
    rw [outs] at staged
    rcases List.mem_append.mp staged with staged | staged
    · have gone := (released client).mp staged
      simp only [List.not_mem_nil, false_or] at gone
      rw [pending, reaped, if_pos gone]
      simp
    · simp [completion] at staged
  · intro client _ unexpired unreleased
    rw [unparked] at unexpired
    have alive : client ∉ deadClients env s := by
      intro dead
      refine unreleased ?_
      rw [outs]
      exact List.mem_append_left _ ((released client).mpr (Or.inr dead))
    rw [pending, if_neg unexpired, reaped, if_neg alive]
  · intro _ client parked stored passed
    by_cases dead : client ∈ deadClients env s
    · refine Or.inr ?_
      rw [outs]
      exact List.mem_append_left _ ((released client).mpr (Or.inr dead))
    · refine Or.inl ((unparked client).mpr (mem_expiredAwaits_iff.mpr ⟨parked, ?_, passed⟩))
      rw [reaped, if_neg dead, stored]

/-! ## Every input -/

theorem park_attended {t : BrokerState} {timeoutMs : Nat} {task : Option Uuid} (now : Nat)
    (parked : ParkedAwait) (touched : t.pendingAwaits = s.pendingAwaits) :
    Attended s { t with pendingAwaits := t.pendingAwaits.insert client parked }
      (.wire client (.await timeoutMs task)) now
      [.parkAwait client parked.filter parked.deadline] where
  completions := by
    refine ⟨[], ⟨[.parkAwait client parked.filter parked.deadline], [], rfl, ?_⟩, List.nodup_nil,
      by simp, by simp, by simp⟩
    intro out staged
    obtain rfl := List.mem_singleton.mp staged
    trivial
  parks other filter deadline staged := by
    simp only [List.mem_singleton, Out.parkAwait.injEq] at staged
    obtain ⟨rfl, rfl, rfl⟩ := staged
    exact ⟨by rw [lookup_insert, if_pos rfl], timeoutMs, task, rfl⟩
  releases other staged := by simp at staged
  keeps other unparked _ _ := by
    have differ : client ≠ other := by
      rintro rfl
      exact unparked _ _ (List.mem_singleton_self _)
    rw [lookup_insert, if_neg differ, touched]
  expires isTick := by cases isTick

/-- What an input does to the parked requests of a good state. -/
theorem Handled.attended {now : Nat} (inv : StateInvariant s)
    (handled : Handled K env s now input s' outs) : Attended s s' input now outs := by
  have touched : ∀ client, (touchActivity env s client).pendingAwaits = s.pendingAwaits :=
    touchActivity_pending env s
  have other : ∀ {client : ClientId} {name : MailboxName} {offset : Nat} {msg : BusMessage},
      ∀ out ∈ [Out.advanceCursor name offset], out.IsUnrelated (.wire client msg) := by
    intro client name offset msg out staged
    obtain rfl := List.mem_singleton.mp staged
    exact ⟨trivial, by simp, by simp⟩
  cases handled with
  | @refused client _ _ _ same refusal =>
    refine .reply now ?_ [] ?_ (by simp)
    · rcases same with rfl | rfl
      · rfl
      · exact touched client
    · intro answers
      rw [not_answersAwait_of_isRefusal refusal] at answers
      cases answers
  | report change isReport =>
    refine .unrelated now change.pending (by simp) ?_
    intro out staged
    obtain rfl := List.mem_singleton.mp staged
    exact report_unrelated isReport
  | hello fresh alive => exact .reply now (by rfl) [] (fun answers => by cases answers) (by simp)
  | register stored positive unbound free read fits =>
    exact .reply now (by rfl) _ (fun answers => by cases answers) other
  | @send client target envelope _ _ _ _ same resolved own canonical small stamps =>
    subst same
    exact send_attended target now (inv.of_quiet (touchActivity_quiet env s client))
      (touched client) resolved own canonical small stamps
  | @inbox client _ _ _ _ _ _ advances _ same _ _ _ _ _ =>
    subst same
    refine .reply now ?_ [] (fun answers => by cases answers) (by simp)
    rw [setInboxOffsets_pending, touched]
  | @await client _ timeoutMs task _ _ _ _ same _ _ run =>
    subst same
    have pending := (awaitLoop_pending run).trans (touched client)
    rcases awaitLoop_outs run with ⟨kind, message, rfl⟩ | ⟨envelopes, mailbox, nextOffset, rfl⟩
    · exact .reply now pending [] (fun answers => by cases answers) (by simp)
    · exact .reply now pending [] (fun _ => ⟨timeoutMs, task, rfl⟩) (by simp)
  | @park client _ _ _ _ _ _ parked same _ _ _ run =>
    subst same
    exact park_attended now parked ((awaitLoop_pending run).trans (touched client))
  | @join client _ _ _ _ _ _ same _ _ _ _ =>
    subst same
    exact .reply now (by exact touched client) _ (fun answers => by cases answers) other
  | @leave client _ _ _ _ same _ _ =>
    subst same
    exact .reply now (by exact touched client) [] (fun answers => by cases answers) (by simp)
  | disconnect => exact disconnect_attended s _ now
  | tick => exact tick_attended env s now

end Famp.Bus
