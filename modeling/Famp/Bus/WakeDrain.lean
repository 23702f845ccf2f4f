import Famp.Bus.Wake

/-!
# The wake path and the drain path

A send hands its envelope to a parked request before the record is in the mailbox.
An `Await` that is issued after the append reads the same envelope from the
record.  The two agree where the backlog ends the batch before the new record, and
otherwise exactly where the record reads back as the envelope that was sent and the
cursor is on the end of the last record.  A backlog that ends the batch keeps the
envelope from the waiter, also where its record can be read.
-/

set_option autoImplicit false

namespace Famp.Bus

open Famp.Core Json Data Std

/-! ## The two batches -/

section Batches
variable {K : Text} {boxes : InMemoryMailbox} {mailbox : MailboxName} {entries : List Bytes}
  {filter : AwaitFilter} {reader : Option String} {since : Nat} {envelope : Value}
  {line stamped : Bytes}

def wakeBatch (K : Text) (boxes : InMemoryMailbox) (mailbox : MailboxName) (filter : AwaitFilter)
    (reader : Option String) (since : Nat) (envelope : Value) (stamped : Bytes) : AwaitBatch :=
  withTrigger filter reader
    (readBatch K mailbox filter reader since (boxes.drainFrom mailbox since))
    (some ⟨.local, envelope, stamped.length⟩)

/-- The batch of a request that is issued after the append. -/
def drainBatch (K : Text) (boxes : InMemoryMailbox) (mailbox : MailboxName) (filter : AwaitFilter)
    (reader : Option String) (since : Nat) (stamped : Bytes) : AwaitBatch :=
  readBatch K mailbox filter reader since ((boxes.append mailbox stamped).drainFrom mailbox since)

/-- What has to hold of the envelope and of the cursor where the backlog does not end
the batch.  Where it does, the envelope is one that no drain reads, or the batch holds
the same envelope from an earlier record. -/
def WakeFaithful (K : Text) (boxes : InMemoryMailbox) (mailbox : MailboxName)
    (filter : AwaitFilter) (reader : Option String) (since : Nat) (envelope : Value)
    (entries : List Bytes) : Prop :=
  let policy := awaitPolicy filter reader
  let records := (boxes.drainFrom mailbox since).records
  if drainsAll K policy awaitBatchCap records then
    Readable K envelope ∧ K.reread envelope = envelope ∧ (records ≠ [] ∨ since = totalLen entries)
  else
    Readable K envelope →
      ⟨.local, envelope⟩ ∈ stamp (deliverable K policy (walked K policy awaitBatchCap records))

theorem WakeFaithful.of_drainsAll (all : drainsAll K (awaitPolicy filter reader) awaitBatchCap
      (boxes.drainFrom mailbox since).records = true) (readable : Readable K envelope)
    (fixed : K.reread envelope = envelope)
    (cursor : (boxes.drainFrom mailbox since).records ≠ [] ∨ since = totalLen entries) :
    WakeFaithful K boxes mailbox filter reader since envelope entries := by
  simp only [WakeFaithful, all, if_true]
  exact ⟨readable, fixed, cursor⟩

theorem since_le_of_records (present : boxes[mailbox]? = some entries)
    (pending : (boxes.drainFrom mailbox since).records ≠ []) : since ≤ totalLen entries := by
  obtain ⟨record, member⟩ := List.exists_mem_of_ne_nil _ pending
  rw [InMemoryMailbox.drainFrom_present present, List.mem_filter] at member
  have bounds := mem_recordsFrom member.1
  have reached := of_decide_eq_true member.2
  omega

theorem cursorAfter_pending (present : boxes[mailbox]? = some entries)
    (pending : (boxes.drainFrom mailbox since).records ≠ []) (cursor : Nat) :
    cursorAfter cursor (boxes.drainFrom mailbox since).records = totalLen entries := by
  rw [InMemoryMailbox.drainFrom_present present] at pending ⊢
  dsimp only at pending ⊢
  rcases List.eq_nil_or_concat entries with rfl | ⟨before, last, rfl⟩
  · exact absurd rfl pending
  · rw [List.concat_eq_append, recordsFrom_append, List.filter_append] at pending ⊢
    simp only [recordsFrom, Nat.zero_add] at pending ⊢
    by_cases reached : since ≤ totalLen before
    · rw [List.filter_cons_of_pos (by simpa using reached), List.filter_nil, cursorAfter,
        List.getLast?_concat, totalLen_append]
      simp [totalLen]
    · refine absurd ?_ pending
      rw [List.filter_cons_of_neg (by simpa using reached), List.filter_nil, List.append_nil,
        filter_recordsFrom_of_ge (by omega)]

theorem wakeBatch_of_drainsAll (stamped : Bytes) (all : drainsAll K (awaitPolicy filter reader) awaitBatchCap
      (boxes.drainFrom mailbox since).records = true)
    (foreign : isSelfAuthored envelope reader = false)
    (wanted : filterMatches filter envelope = true) :
    let records := (boxes.drainFrom mailbox since).records
    let batch := wakeBatch K boxes mailbox filter reader since envelope stamped
    batch.envelopes =
        stamp (deliverable K (awaitPolicy filter reader) records) ++ [⟨.local, envelope⟩] ∧
      batch.nextOffset = cursorAfter (min since (boxes.drainFrom mailbox since).nextOffset) records +
        recordLen stamped := by
  simp [wakeBatch, withTrigger, readBatch, all, foldTrigger, foreign, wanted,
    walked_eq_of_drainsAll all, recordLen, Nat.add_assoc]

theorem verdict_appended (canonical : K.canonicalize envelope = .ok line)
    (stamps : stampLine K line .local = .ok stamped)
    (foreign : isSelfAuthored envelope reader = false)
    (wanted : filterMatches filter envelope = true) (start stop : Nat) :
    verdict K (awaitPolicy filter reader) ⟨stamped, start, stop⟩ =
      if Readable K envelope then .deliver (.local, K.reread envelope) else .skip := by
  rw [verdict_stampLine canonical stamps]
  simp [awaitPolicy, foreign, wanted]

theorem drainBatch_of_drainsAll (present : boxes[mailbox]? = some entries)
    (canonical : K.canonicalize envelope = .ok line)
    (stamps : stampLine K line .local = .ok stamped)
    (all : drainsAll K (awaitPolicy filter reader) awaitBatchCap
      (boxes.drainFrom mailbox since).records = true)
    (foreign : isSelfAuthored envelope reader = false)
    (wanted : filterMatches filter envelope = true) (reached : since ≤ totalLen entries) :
    let batch := drainBatch K boxes mailbox filter reader since stamped
    batch.envelopes = stamp (deliverable K (awaitPolicy filter reader)
        (boxes.drainFrom mailbox since).records) ++
        (if Readable K envelope then [⟨.local, K.reread envelope⟩] else []) ∧
      batch.nextOffset = totalLen entries + recordLen stamped := by
  have decided := verdict_appended canonical stamps foreign wanted (totalLen entries)
    (totalLen entries + recordLen stamped)
  generalize appended :
    DrainedRecord.mk stamped (totalLen entries) (totalLen entries + recordLen stamped) = record
    at decided
  have goes : verdict K (awaitPolicy filter reader) record ≠ .stop := by
    rw [decided]
    split <;> simp
  have whole : walked K (awaitPolicy filter reader) awaitBatchCap
      ((boxes.drainFrom mailbox since).records ++ [record]) =
        (boxes.drainFrom mailbox since).records ++ [record] := by
    rw [walked_append_of_drainsAll _ all]
    obtain ⟨left, room⟩ := Nat.exists_eq_add_of_lt (of_decide_eq_true all).2
    have more : awaitBatchCap - (deliverable K (awaitPolicy filter reader)
        (boxes.drainFrom mailbox since).records).length = left + 1 := by omega
    rw [more, walked_singleton goes]
  simp only [drainBatch, readBatch, InMemoryMailbox.drainFrom_append present, if_pos reached,
    appended, whole, cursorAfter_concat, deliverable_append]
  refine ⟨?_, by rw [← appended]⟩
  rw [stamp, stamp, List.map_append]
  congr 1
  by_cases readable : Readable K envelope
  · simp [deliverable, decided, readable, Verdict.handed?]
  · simp [deliverable, decided, readable, Verdict.handed?]

theorem drainBatch_beyond (K : Text) (filter : AwaitFilter) (reader : Option String)
    (stamped : Bytes) (present : boxes[mailbox]? = some entries)
    (beyond : ¬since ≤ totalLen entries) :
    (boxes.drainFrom mailbox since).records = [] ∧
      (drainBatch K boxes mailbox filter reader since stamped).envelopes = [] := by
  have nothing : (boxes.drainFrom mailbox since).records = [] := by
    by_contra pending
    exact beyond (since_le_of_records present pending)
  refine ⟨nothing, ?_⟩
  simp [drainBatch, readBatch, InMemoryMailbox.drainFrom_append present, nothing, beyond,
    awaitBatchCap, walked, deliverable, stamp]

theorem batches_of_stops (present : boxes[mailbox]? = some entries)
    (stops : drainsAll K (awaitPolicy filter reader) awaitBatchCap
      (boxes.drainFrom mailbox since).records = false) :
    let wake := wakeBatch K boxes mailbox filter reader since envelope stamped
    let drain := drainBatch K boxes mailbox filter reader since stamped
    wake.envelopes = drain.envelopes ∧ wake.nextOffset = drain.nextOffset := by
  have pending : (boxes.drainFrom mailbox since).records ≠ [] := by
    intro nothing
    rw [nothing] at stops
    simp [drainsAll, walked, awaitBatchCap, deliverable] at stops
  have reached := since_le_of_records present pending
  have ends : (boxes.drainFrom mailbox since).nextOffset = totalLen entries := by
    rw [InMemoryMailbox.drainFrom_present present]
  have first : min since (totalLen entries) = since := Nat.min_eq_left reached
  have second : min since (totalLen entries + recordLen stamped) = since :=
    Nat.min_eq_left (Nat.le_trans reached (Nat.le_add_right _ _))
  simp [wakeBatch, withTrigger, readBatch, stops, drainBatch, InMemoryMailbox.drainFrom_append
    present, walked_append_of_stops _ stops, ends, first, second]

theorem readable_of_mem_stamp {policy : DrainPolicy} {records : List DrainedRecord}
    (handed : ⟨.local, envelope⟩ ∈ stamp (deliverable K policy records)) : Readable K envelope := by
  obtain ⟨⟨origin, value⟩, member, same⟩ := List.mem_map.mp handed
  cases same
  obtain ⟨record, -, delivers⟩ := List.mem_filterMap.mp member
  cases decided : verdict K policy record with
  | deliver entry =>
    rw [decided] at delivers
    cases delivers
    exact readable_of_decodeLine (verdict_deliver decided).1
  | _ =>
    rw [decided] at delivers
    cases delivers

theorem batches_agree_iff (since : Nat) (present : boxes[mailbox]? = some entries)
    (canonical : K.canonicalize envelope = .ok line)
    (stamps : stampLine K line .local = .ok stamped)
    (foreign : isSelfAuthored envelope reader = false)
    (wanted : filterMatches filter envelope = true) :
    let wake := wakeBatch K boxes mailbox filter reader since envelope stamped
    let drain := drainBatch K boxes mailbox filter reader since stamped
    ((wake.envelopes = drain.envelopes ∧ wake.nextOffset = drain.nextOffset) ∧
        (⟨.local, envelope⟩ ∈ wake.envelopes ↔ Readable K envelope)) ↔
      WakeFaithful K boxes mailbox filter reader since envelope entries := by
  intro wake drain
  cases all : drainsAll K (awaitPolicy filter reader) awaitBatchCap
      (boxes.drainFrom mailbox since).records with
  | false =>
    have backlog : wake.envelopes = stamp (deliverable K (awaitPolicy filter reader)
        (walked K (awaitPolicy filter reader) awaitBatchCap
          (boxes.drainFrom mailbox since).records)) := by
      simp [wake, wakeBatch, withTrigger, readBatch, all]
    simp only [WakeFaithful, all, Bool.false_eq_true, if_false, ← backlog]
    exact ⟨fun agrees => agrees.2.mpr, fun copy =>
      ⟨batches_of_stops present all, ⟨fun handed => readable_of_mem_stamp (backlog ▸ handed), copy⟩⟩⟩
  | true =>
    simp only [WakeFaithful, all, if_true]
    obtain ⟨woken, wokenEnd⟩ := wakeBatch_of_drainsAll stamped all foreign wanted
    have handed : ⟨.local, envelope⟩ ∈ wake.envelopes := by
      rw [woken]
      exact List.mem_append_right _ (List.mem_singleton_self _)
    rw [iff_true_left handed]
    by_cases reached : since ≤ totalLen entries
    · obtain ⟨drained, drainedEnd⟩ :=
        drainBatch_of_drainsAll present canonical stamps all foreign wanted reached
      have ends : (boxes.drainFrom mailbox since).nextOffset = totalLen entries := by
        rw [InMemoryMailbox.drainFrom_present present]
      have start : min since (totalLen entries) = since := Nat.min_eq_left reached
      have cursors : wake.nextOffset = drain.nextOffset ↔
          ((boxes.drainFrom mailbox since).records ≠ [] ∨ since = totalLen entries) := by
        rw [wokenEnd, drainedEnd, ends, start, Nat.add_right_cancel_iff]
        by_cases pending : (boxes.drainFrom mailbox since).records = []
        · simp [pending, cursorAfter]
        · simp [pending, cursorAfter_pending present pending]
      have envelopes : wake.envelopes = drain.envelopes ↔
          (Readable K envelope ∧ K.reread envelope = envelope) := by
        rw [woken, drained, List.append_cancel_left_eq]
        by_cases readable : Readable K envelope
        · simp [readable, eq_comm]
        · simp [readable]
      rw [cursors, envelopes]
      constructor
      · rintro ⟨⟨⟨readable, fixed⟩, cursor⟩, -⟩
        exact ⟨readable, fixed, cursor⟩
      · rintro ⟨readable, fixed, cursor⟩
        exact ⟨⟨⟨readable, fixed⟩, cursor⟩, readable⟩
    · obtain ⟨nothing, empty⟩ := drainBatch_beyond K filter reader stamped present reached
      refine iff_of_false ?_ ?_
      · rintro ⟨⟨same, _⟩, _⟩
        rw [woken, empty] at same
        simp at same
      · rintro ⟨_, _, pending | atEnd⟩
        · exact pending nothing
        · exact reached (Nat.le_of_eq atEnd)

end Batches

/-! ## The replies -/

variable {s : BrokerState} {name : String} {env : BrokerEnv} {mailbox : MailboxName}
  {owner waiting : ClientId} {K : Text} {trigger : Trigger} {filter : AwaitFilter}

theorem awaitLoop_singleton (K : Text) (boxes : InMemoryMailbox) (env : BrokerEnv)
    (client : ClientId) (mailbox : MailboxName) (filter : AwaitFilter) (stamped : Bytes)
    (holder : canonicalHolderId s name = some owner) :
    let batch := drainBatch K boxes mailbox filter (channelReader mailbox name)
      (awaitOffset s owner mailbox) stamped
    let result := awaitLoop K (storeEnv (boxes.append mailbox stamped) env) client owner filter
      [mailbox] s
    awaitOffset result.1 owner mailbox = batch.nextOffset ∧
      result.2 = if batch.envelopes.isEmpty then none
        else some [.reply client (.awaitOk batch.envelopes mailbox batch.nextOffset)] := by
  obtain ⟨state, stored, _⟩ := canonicalHolderId_some holder
  intro batch
  have drains : drainAwaitBatch K (storeEnv (boxes.append mailbox stamped) env) s owner mailbox
      filter none = .ok batch := by
    rw [drainAwaitBatch_eq, awaiterIdentity_holder holder]
    rfl
  have moved : awaitOffset (if batch.nextOffset ≠ awaitOffset s owner mailbox then
      setAwaitOffset s owner mailbox batch.nextOffset else s) owner mailbox = batch.nextOffset := by
    split
    · rw [awaitOffset_eq, awaitCursor_setAwaitOffset stored, if_pos rfl, Option.getD_some]
    · rename_i same
      exact (not_not.mp same).symm
  simp only [awaitLoop, drains]
  split
  · exact ⟨moved, rfl⟩
  · exact ⟨moved, rfl⟩

theorem mem_turns_reply {reader : Option String} {id : ClientId} {reply : BusReply} :
    ∀ {waits : List (ClientId × AwaitFilter)} {cursor : Option Nat},
      Out.reply id reply ∈ (turns K env mailbox reader trigger cursor waits).2 →
        id ∈ waits.map Prod.fst
  | [], _, staged => by cases staged
  | (waiting, filter) :: rest, cursor, staged => by
    simp only [turns, List.mem_cons, Out.reply.injEq, reduceCtorEq, false_or] at staged
    rcases staged with ⟨rfl, _⟩ | later
    · exact List.mem_cons_self ..
    · exact List.mem_cons_of_mem _ (mem_turns_reply later)

/-- The send stages an `AwaitOk` for `waiting` exactly as an `Await` with the same filter
on the mailbox after the append is answered with it, with the same stored cursor; and
the envelope is in it exactly where the appended record can be decoded. -/
@[mk_iff] structure WakeAgrees (K : Text) (env : BrokerEnv) (s s' : BrokerState) (outs : List Out)
    (waiting owner : ClientId) (mailbox : MailboxName) (filter : AwaitFilter) (envelope : Value)
    (stamped : Bytes) : Prop where
  replies : ∀ entries box nextOffset, Out.reply waiting (.awaitOk entries box nextOffset) ∈ outs ↔
    (awaitLoop K env waiting owner filter [mailbox] s).2 =
      some [.reply waiting (.awaitOk entries box nextOffset)]
  cursor : awaitOffset s' owner mailbox =
    awaitOffset (awaitLoop K env waiting owner filter [mailbox] s).1 owner mailbox
  handed : (∃ entries box nextOffset, Out.reply waiting (.awaitOk entries box nextOffset) ∈ outs ∧
      ⟨.local, envelope⟩ ∈ entries) ↔
    ∃ found, decodeLine K stamped = .ok found

theorem wakeTurns_single (K : Text) {boxes : InMemoryMailbox} (mailbox : MailboxName)
    {envelope : Value} (stamped : Bytes) (holder : canonicalHolderId s name = some owner)
    (only : selectedWaits (storeEnv boxes env) s name envelope .local = [(waiting, filter)]) :
    let batch := wakeBatch K boxes mailbox filter (channelReader mailbox name)
      (awaitOffset s owner mailbox) envelope stamped
    wakeTurns K (storeEnv boxes env) s mailbox ⟨.local, envelope, stamped.length⟩ name =
      (some batch.nextOffset, [.reply waiting (wakeReply batch), .unparkAwait waiting]) := by
  have cursor : (holderCursor s name mailbox).getD 0 = awaitOffset s owner mailbox := by
    rw [holderCursor, holder, Option.bind_some, awaitOffset_eq]
  unfold wakeTurns
  rw [only]
  simp only [turns, turn, cursor]
  rfl

theorem wakeBatch_mailbox (K : Text) (boxes : InMemoryMailbox) (mailbox : MailboxName)
    (filter : AwaitFilter) (reader : Option String) (since : Nat) (envelope : Value)
    (stamped : Bytes) :
    (wakeBatch K boxes mailbox filter reader since envelope stamped).mailbox = mailbox :=
  withTrigger_mailbox ..

theorem mem_wakes_iff {names : List String} {cursor : Option Nat} {told : BusReply}
    (listed : name ∈ names)
    (waits : Waits env s name trigger.envelope trigger.origin waiting filter)
    (turned : wakeTurns K env s mailbox trigger name =
      (cursor, [.reply waiting told, .unparkAwait waiting])) (reply : BusReply) :
    Out.reply waiting reply ∈
        names.flatMap (fun other => (wakeTurns K env s mailbox trigger other).2) ↔
      told = reply := by
  have own : Out.reply waiting reply ∈ (wakeTurns K env s mailbox trigger name).2 ↔
      told = reply := by
    rw [turned]
    simp [eq_comm]
  rw [List.mem_flatMap, ← own]
  constructor
  · rintro ⟨other, _, staged⟩
    obtain ⟨⟨id, wanted⟩, selected, same⟩ := List.mem_map.mp (mem_turns_reply staged)
    dsimp only at same
    subst same
    obtain rfl := (mem_selectedWaits_iff.mp selected).name_unique waits
    exact staged
  · intro staged
    exact ⟨name, listed, staged⟩

theorem exists_mem_wakeReply {batch : AwaitBatch} {entry : StampedEnvelope} :
    (∃ entries box nextOffset, wakeReply batch = .awaitOk entries box nextOffset ∧ entry ∈ entries) ↔
      entry ∈ batch.envelopes := by
  simp only [wakeReply_awaitOk_iff]
  constructor
  · rintro ⟨entries, box, nextOffset, ⟨-, rfl, -⟩, member⟩
    exact member
  · intro member
    exact ⟨_, _, _, ⟨List.ne_nil_of_mem member, rfl, rfl, rfl⟩, member⟩

theorem replies_agree_iff {wake drain : AwaitBatch} (waiting : ClientId)
    (box : wake.mailbox = mailbox) :
    (∀ entries other nextOffset, wakeReply wake = .awaitOk entries other nextOffset ↔
        (if drain.envelopes.isEmpty then none
          else some [Out.reply waiting (.awaitOk drain.envelopes mailbox drain.nextOffset)]) =
            some [.reply waiting (.awaitOk entries other nextOffset)]) ∧
        wake.nextOffset = drain.nextOffset ↔
      wake.envelopes = drain.envelopes ∧ wake.nextOffset = drain.nextOffset := by
  refine and_congr_left fun cursors => ?_
  subst box
  have answered : ∀ entries other nextOffset,
      (if drain.envelopes.isEmpty then none
        else some [Out.reply waiting (.awaitOk drain.envelopes wake.mailbox drain.nextOffset)]) =
          some [.reply waiting (.awaitOk entries other nextOffset)] ↔
        drain.envelopes ≠ [] ∧ drain.envelopes = entries ∧ wake.mailbox = other ∧
          drain.nextOffset = nextOffset := by
    intro entries other nextOffset
    by_cases empty : drain.envelopes = [] <;> simp [empty]
  simp only [answered, wakeReply_awaitOk_iff, cursors]
  constructor
  · intro same
    by_cases empty : wake.envelopes = []
    · by_contra differ
      exact ((same _ _ _).mpr ⟨fun none => differ (empty.trans none.symm), rfl, rfl, rfl⟩).1 empty
    · exact ((same _ _ _).mp ⟨empty, rfl, rfl, rfl⟩).2.1.symm
  · intro same entries other nextOffset
    rw [same]

/-- A send that selects one waiter of a holder answers it as an `Await` after the append
would be answered, with the envelope exactly where its record can be decoded, if and
only if the envelope and the cursor are as `WakeFaithful` says. -/
theorem wake_agrees_with_drain_iff {K : Text} {trace : List (Event BrokerState Call (List Out))}
    {s : BrokerState} (run : (brokerMachine K).Run trace s) (env : BrokerEnv)
    (boxes : InMemoryMailbox) {client : ClientId} {envelope : Value} {identity : String}
    {line stamped : Bytes}
    (accepted : SendAccepted K (storeEnv boxes env) s client envelope identity line stamped)
    (target : Target) (now : Nat) {entries : List Bytes}
    (present : boxes[target.mailbox]? = some entries) {name : String}
    (recipient : name ∈ recipients s envelope target) {waiting : ClientId} {filter : AwaitFilter}
    (only : selectedWaits (storeEnv boxes env) s name envelope (clientOrigin s client) =
      [(waiting, filter)]) :
    ∃ owner s' outs, canonicalHolderId s name = some owner ∧
      handle K (storeEnv boxes env) s (.wire client (.send target envelope)) now = some (s', outs) ∧
      (WakeAgrees K (storeEnv (boxes.append target.mailbox stamped) env) s s' outs waiting owner
          target.mailbox filter envelope stamped ↔
        WakeFaithful K boxes target.mailbox filter (channelReader target.mailbox name)
          (awaitOffset s owner target.mailbox) envelope entries) := by
  have inv := StateInvariant.of_run run
  have waits := mem_selectedWaits_iff.mp (only ▸ List.mem_singleton_self (waiting, filter))
  obtain ⟨owner, holder⟩ := exists_holder_of_resolveOpIdentity waits.resolves
  obtain ⟨s', rows, handled, wakes⟩ := handle_send inv accepted target now
  have trusted := waits.trusted
  have stamps := accepted.stamps
  rw [trusted] at handled wakes only stamps waits
  refine ⟨owner, s', _, holder, handled, ?_⟩
  have turned := wakeTurns_single K target.mailbox stamped holder only
  have staged := mem_wakes_iff recipient waits turned
  have foreign := foreign_of_recipient recipient
  obtain ⟨drainedEnd, drained⟩ :=
    awaitLoop_singleton K boxes env waiting target.mailbox filter stamped holder
  have moved : awaitOffset s' owner target.mailbox =
      (wakeBatch K boxes target.mailbox filter (channelReader target.mailbox name)
        (awaitOffset s owner target.mailbox) envelope stamped).nextOffset := by
    rw [awaitOffset_eq, wakes.moved name recipient owner holder, turned, Option.getD_some]
  have decodes : (∃ found, decodeLine K stamped = .ok found) ↔ Readable K envelope := by
    constructor
    · rintro ⟨found, read⟩
      by_contra unreadable
      obtain ⟨error, refused⟩ := decodeLine_stampLine_error K accepted.canonical stamps unreadable
      cases refused.symm.trans read
    · exact fun readable =>
        ⟨_, (decodeLine_stampLine_ok_iff K accepted.canonical stamps).mpr readable⟩
  simp only [wakeAgrees_iff, List.cons_append, List.mem_cons, List.mem_append, staged,
    Out.reply.injEq, reduceCtorEq, List.not_mem_nil, or_false, false_or, and_false, drained,
    drainedEnd, moved, exists_mem_wakeReply, decodes]
  refine Iff.trans ?_ (batches_agree_iff (awaitOffset s owner target.mailbox) present
    accepted.canonical stamps foreign waits.wanted)
  rw [← replies_agree_iff waiting (wakeBatch_mailbox ..), and_assoc]

/-- The mailbox of alice exists and is empty. -/
def aliceBox : InMemoryMailbox := (∅ : InMemoryMailbox).insert (.agent "alice") []

theorem waitingCalls_wake_agrees :
    let s := stateAfter Plain.text (BrokerState.new 0) waitingCalls
    let entry := auditEntry "agent:example/bob" "agent:example/alice"
    ∃ stamped s' outs,
      handle Plain.text (storeEnv aliceBox emptyEnv) s (.wire 2 (.send (.agent "alice") entry)) 6 =
        some (s', outs) ∧
      WakeAgrees Plain.text (storeEnv (aliceBox.append (.agent "alice") stamped) emptyEnv) s s' outs
        1 1 (.agent "alice") .any entry stamped := by
  intro s entry
  obtain ⟨line, canonical, length⟩ := Text.canonicalize_of_len
    (show Plain.text.canonicalLen? entry = some 230 by decide +kernel)
  obtain ⟨stamped, stamps, _⟩ := Text.canonicalize_of_len
    (show Plain.text.canonicalLen? (StampedEnvelope.toValue ⟨.local, entry⟩) = some 260 by
      decide +kernel)
  have origin : clientOrigin s 2 = .local := by decide +kernel
  have accepted : SendAccepted Plain.text (storeEnv aliceBox emptyEnv) s 2 entry "bob" line
      stamped := by
    refine ⟨by decide +kernel, by decide +kernel, canonical, ?_, ?_⟩
    · rw [length]
      decide
    · rw [stampLine_canonicalize Plain.text _ canonical (by decide +kernel), Plain.reread_eq,
        origin, stamps]
  obtain ⟨owner, s', outs, holder, handled, agrees⟩ := wake_agrees_with_drain_iff
    (run_calls Plain.text 0 waitingCalls) emptyEnv aliceBox accepted (.agent "alice") 6
    (show aliceBox[MailboxName.agent "alice"]? = some [] by decide +kernel)
    (List.mem_singleton_self "alice") (show selectedWaits (storeEnv aliceBox emptyEnv) s "alice" entry
      (clientOrigin s 2) = [(1, .any)] by rw [origin]; exact selectedWaits_waitingCalls _)
  have alice : canonicalHolderId s "alice" = some 1 := by decide +kernel
  obtain rfl : owner = 1 := Option.some.inj (holder.symm.trans alice)
  refine ⟨stamped, s', outs, handled, agrees.mpr (.of_drainsAll ?_ ?_ (Plain.reread_eq entry) ?_)⟩
  · decide +kernel
  · decide +kernel
  · exact Or.inr (by decide +kernel)

/-- A send hands an envelope to a parked request that an `Await` after the append
does not find in the mailbox: its record cannot be decoded. -/
theorem wake_hands_over_undecodable :
    let s := stateAfter Plain.text (BrokerState.new 0) waitingCalls
    let result := respond Plain.text s
      ⟨storeEnv aliceBox emptyEnv, .wire 2 (.send (.agent "alice") fromBob), 6⟩
    let drained := awaitLoop Plain.text
      (storeEnv (aliceBox.append (.agent "alice") fromBobRecord) emptyEnv) 1 1 .any
      [.agent "alice"] s
    (∃ trace, (brokerMachine Plain.text).Run trace s) ∧
      Out.appendMailbox (.agent "alice") fromBobLine .local ∈ result.2 ∧
      stampLine Plain.text fromBobLine .local = .ok fromBobRecord ∧
      decodeLine Plain.text fromBobRecord = .error (.envelope (.missingField "class")) ∧
      Out.reply 1 (.awaitOk [⟨.local, fromBob⟩] (.agent "alice") 59) ∈ result.2 ∧
      drained.2 = none := by
  refine ⟨⟨_, run_calls Plain.text 0 waitingCalls⟩, ?_, ?_, ?_, ?_, ?_⟩ <;> decide +kernel

end Famp.Bus
