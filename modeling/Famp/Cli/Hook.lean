import Famp.Bus.Wake
import Famp.Cli.Render
import Famp.Data.Instant
import Famp.Inbox.Agreement

/-!
# The stop hook

After an await, the hook asks the broker how many records of the mailbox are
unread, and writes a block decision unless there are none.  The count is taken from
the mailbox file by the readers of JSON lines, while the await took its records
from the same file with the reader of raw lines.
-/

set_option autoImplicit false

namespace Famp.Cli

open Bus Famp.Core Data Data.Lines Envelope Inbox Json

/-! ## The metadata of a mailbox file -/

structure MailboxMeta where
  unread : Nat
  total : Nat
  lastSender : Option String
  lastReceivedAtUnixSeconds : Option Nat
  deriving DecidableEq, Repr

def MailboxMeta.default : MailboxMeta := ⟨0, 0, none, none⟩

/-- `parse::<u64>`: digits, after a plus sign or not. -/
def parseU64 (text : String) : Option Nat :=
  let digits := match text.toList with
    | '+' :: rest => rest
    | chars => chars
  if digits.isEmpty || !digits.all Char.isDigit then none
  else
    let value := digits.foldl (fun value digit => 10 * value + (digit.toNat - '0'.toNat)) 0
    if value < 2 ^ 64 then some value else none

/-- The cursor file as text; without one that can be read and parsed, everything is
unread. -/
def cursorOffset (cursorFile : Option String) : Nat :=
  (cursorFile.bind fun text =>
    parseU64 (String.ofList (text.toList.rdropWhile (· == '\n')))).getD 0

def unixSeconds (instant : Int) : Option Nat :=
  let seconds := instant / second
  if 0 ≤ seconds then some seconds.toNat else none

def readMailboxMetaFor (K : Text) (clock : Clock) (cursorFile : Option String) (file : FileRead) :
    MailboxMeta :=
  match readAll K.fromSlice file with
  | .error _ => .default
  | .ok entries =>
    let unread := match readFrom K.fromSlice file (cursorOffset cursorFile) with
      | .ok entries => entries.length
      | .error _ => 0
    let lastEntry := entries.getLast?.map fun line => (splitStamped line).2
    { unread
      total := entries.length
      lastSender := lastEntry.bind fun value => (value.get? "from").bind Value.asStr?
      lastReceivedAtUnixSeconds :=
        ((lastEntry.bind fun value => (value.get? "ts").bind Value.asStr?).bind clock.parse).bind
          unixSeconds }

/-! ## The decision -/

structure AwaitOutcome where
  envelopes : List Value
  mailbox : Option MailboxName
  timedOut : Bool
  aborted : Bool

def AwaitOutcome.ofAwaitOk (print : Value → String) (fresh : Nat → Uuid)
    (envelopes : List StampedEnvelope) (mailbox : MailboxName) : AwaitOutcome :=
  ⟨renderStampedEnvelopes print fresh envelopes, some mailbox, false, false⟩

structure OutcomeMeta where
  count : Nat
  sender : String
  mailboxKind : String
  mailboxName : String
  deriving DecidableEq, Repr

/-- One turn of the loop of `meta_from_outcome`. -/
def OutcomeMeta.take (found : OutcomeMeta) (item : Value) : OutcomeMeta :=
  if item.get? "timeout" = some (.bool true) then found
  else
    { found with
      count := found.count + 1
      sender := (((item.get? "from").or (item.get? "sender")).bind Value.asStr?).getD found.sender }

def metaFromOutcome (outcome : AwaitOutcome) : OutcomeMeta :=
  let (mailboxKind, mailboxName) := match outcome.mailbox with
    | some (.channel name) => ("channel", name)
    | some (.agent name) => ("agent", name)
    | none => ("agent", "")
  outcome.envelopes.foldl OutcomeMeta.take ⟨0, "unknown", mailboxKind, mailboxName⟩

def buildReason (count : Nat) (sender mailboxKind mailboxName : String) : String :=
  if mailboxKind = "channel" then
    let chan := if mailboxName.toList.head? = some '#' then mailboxName else "#" ++ mailboxName
    if 1 < count then
      "[FAMP listen mode] " ++ toString count ++ " new FAMP messages in channel " ++ chan ++
        ", latest from " ++ sender ++ ". Call famp_channel_log(\x7bchannel: '" ++ chan ++
        "'\x7d) to read them."
    else
      "[FAMP listen mode] New FAMP message in channel " ++ chan ++ " from " ++ sender ++
        ". Call famp_channel_log(\x7bchannel: '" ++ chan ++ "'\x7d) to read it."
  else if 1 < count then
    "[FAMP listen mode] " ++ toString count ++ " new FAMP messages, latest from " ++ sender ++
      ". Call famp_inbox to read them."
  else
    "[FAMP listen mode] New FAMP message from " ++ sender ++ ". Call famp_inbox to read it."

def validateSender (sender : String) : Bool :=
  decide (0 < (utf8 sender).length ∧ (utf8 sender).length ≤ 128) &&
    sender.toList.all fun c => c.isAlphanum || "@._:/-".toList.contains c

/-- What `actionable_unread_at` takes from the row of an identity. -/
def actionableUnread (found : MailboxMeta) : Nat × String :=
  let sender := found.lastSender.getD "(none)"
  (found.unread, if sender = "(none)" then "unknown" else sender)

/-- `emit_block_decision_at`: the decision that is written, if one is.  `inspected` is
what the broker answers about the identity, if it answers. -/
def emitBlockDecisionAt (inspected : Option (Nat × String)) (outcome : AwaitOutcome) : Option Value :=
  if outcome.aborted || outcome.timedOut || outcome.envelopes.isEmpty then none
  else
    let found := metaFromOutcome outcome
    if found.count < 1 then none
    else
      let counted : Option (Nat × String) :=
        if found.mailboxKind ≠ "channel" then
          match inspected with
          | some (unread, lastSender) =>
            if unread = 0 then none
            else some (unread, if lastSender.isEmpty then found.sender else lastSender)
          | none => some (found.count, found.sender)
        else some (found.count, found.sender)
      match counted with
      | none => none
      | some (count, sender) =>
        let sender := if validateSender sender then sender else "unknown"
        some (Value.record ["decision", "reason"] (by decide)
          [.str "block", .str (buildReason count sender found.mailboxKind found.mailboxName)])

/-! ## What the await handed out -/

/-- Records of the mailbox file, each with what its line decodes to. -/
structure Batch (K : Text) (content : Bytes) (batch : List (DrainedRecord × StampedEnvelope)) :
    Prop where
  held : ∀ entry ∈ batch, entry.1 ∈ recordsFrom 0 (complete newline content)
  decoded : ∀ entry ∈ batch, decodeLine K entry.1.bytes = .ok (entry.2.origin, entry.2.envelope)

variable {K : Text} {content : Bytes}

theorem walk_delivered (K : Text) (since : Nat) (drained : DrainResult) (policy : DrainPolicy) :
    ∃ taken, (∀ record ∈ taken, record ∈ drained.records) ∧
      (walk K since drained policy).delivered = deliverable K policy taken := by
  have part : ∀ (cap : Option Nat) (whole : Bool) (records : List DrainedRecord) (cursor : Nat),
      ∃ taken, (∀ record ∈ taken, record ∈ records) ∧
        (walkRecords K policy cap whole records [] cursor).delivered = deliverable K policy taken := by
    intro cap whole records cursor
    obtain ⟨taken, rest, spec⟩ := walkRecords_spec K policy cap whole records [] cursor
    refine ⟨taken, fun record member => ?_, spec.delivers⟩
    rw [spec.split]
    exact List.mem_append_left rest member
  simp only [walk]
  split
  · obtain ⟨taken, sub, delivers⟩ := part _ _ _ _
    exact ⟨taken, fun record member => List.mem_of_mem_take (sub record member), delivers⟩
  · exact part _ _ _ _
  · exact part _ _ _ _

theorem Batch.of_walk {shown : String} {since offset : Nat} {drained : DrainResult}
    (read : readRawFrom shown (.ok content) offset = .ok drained) (policy : DrainPolicy) :
    ∃ batch, Batch K content batch ∧
      batch.map Prod.snd = stamp (walk K since drained policy).delivered := by
  obtain ⟨next, raw, -⟩ := readRawFrom_eq shown content offset
  obtain rfl := Except.ok.inj (read.symm.trans raw)
  obtain ⟨taken, sub, delivers⟩ := walk_delivered K since ⟨pending content offset, next⟩ policy
  refine ⟨taken.filterMap fun record =>
    (verdict K policy record).handed?.map fun entry => (record, ⟨entry.1, entry.2⟩), ⟨?_, ?_⟩, ?_⟩
  · intro entry member
    obtain ⟨record, among, handed⟩ := List.mem_filterMap.mp member
    obtain ⟨delivered, -, rfl⟩ := Option.map_eq_some_iff.mp handed
    exact List.mem_of_mem_filter (sub record among)
  · intro entry member
    obtain ⟨record, -, handed⟩ := List.mem_filterMap.mp member
    obtain ⟨delivered, same, rfl⟩ := Option.map_eq_some_iff.mp handed
    cases decided : verdict K policy record with
    | skip => simp [decided, Verdict.handed?] at same
    | stop => simp [decided, Verdict.handed?] at same
    | deliver found =>
      rw [decided] at same
      cases same
      exact (verdict_deliver decided).1
  · rw [delivers, stamp, deliverable, List.map_filterMap, List.map_filterMap]
    simp only [Option.map_map, Function.comp_def]

/-! ## A batch is counted -/

theorem foldl_take {items : List Value} (found : OutcomeMeta)
    (real : ∀ item ∈ items, item.get? "timeout" = none) :
    (items.foldl OutcomeMeta.take found).count = found.count + items.length ∧
      (items.foldl OutcomeMeta.take found).mailboxKind = found.mailboxKind := by
  induction items generalizing found with
  | nil => exact ⟨rfl, rfl⟩
  | cons item items ih =>
    have taken : (found.take item).count = found.count + 1 ∧
        (found.take item).mailboxKind = found.mailboxKind := by
      rw [OutcomeMeta.take, real item (List.mem_cons_self ..), if_neg (by simp)]
      exact ⟨rfl, rfl⟩
    obtain ⟨count, kind⟩ := ih (found.take item) fun other member =>
      real other (List.mem_cons_of_mem _ member)
    rw [List.foldl_cons, count, kind, taken.1, taken.2, List.length_cons]
    exact ⟨by omega, rfl⟩

theorem timeout_absent {record : Bytes} {origin : Origin} {envelope : Value}
    (decoded : decodeLine K record = .ok (origin, envelope)) (print : Value → String) (fresh : Uuid) :
    (renderStampedEnvelope print fresh ⟨origin, envelope⟩).get? "timeout" = none := by
  obtain ⟨raw, -, -, typed, accepted⟩ := decodeLine_ok decoded
  obtain ⟨isObject, -, header⟩ := AnyBusEnvelope.isObject_of_decodeTree accepted
  have isObject : envelope.IsObject := Value.isObject_of_mapNumbers isObject
  have absent : envelope.get? "timeout" = none := by
    by_contra present
    have known := header "timeout"
    rw [← Value.get?_map_val, K.get?_reread] at known
    exact absurd (known (by simpa [Option.isSome_iff_ne_none] using present)) (by decide)
  simp only [renderStampedEnvelope, renderedEnvelope]
  cases envelope.get? "body" with
  | none => rw [Value.lookup_insert isObject, if_neg (by decide), absent]
  | some body =>
    rw [Value.lookup_insert (isObject.insert _ _), if_neg (by decide),
      Value.lookup_insert isObject, if_neg (by decide), absent]

theorem emitBlockDecisionAt_isSome_iff {batch : List (DrainedRecord × StampedEnvelope)}
    (handed : Batch K content batch) (present : batch ≠ []) (print : Value → String)
    (fresh : Nat → Uuid) (name : String) (inspected : Nat × String) :
    (emitBlockDecisionAt (some inspected)
      (.ofAwaitOk print fresh (batch.map Prod.snd) (.agent name))).isSome = true ↔
        1 ≤ inspected.1 := by
  obtain ⟨unread, lastSender⟩ := inspected
  have real : ∀ item ∈ renderStampedEnvelopes print fresh (batch.map Prod.snd),
      item.get? "timeout" = none := by
    intro item member
    obtain ⟨index, bound, rfl⟩ := List.mem_mapIdx.mp member
    have decoded := handed.decoded _ (List.getElem_mem (by simpa using bound))
    rw [List.getElem_map]
    exact timeout_absent decoded print (fresh index)
  have length : (renderStampedEnvelopes print fresh (batch.map Prod.snd)).length = batch.length := by
    simp [renderStampedEnvelopes]
  have nonempty : (renderStampedEnvelopes print fresh (batch.map Prod.snd)).isEmpty = false := by
    rw [List.isEmpty_eq_false_iff, ← List.length_pos_iff, length, List.length_pos_iff]
    exact present
  obtain ⟨count, kind⟩ := foldl_take ⟨0, "unknown", "agent", name⟩ real
  have counted : ¬batch.length < 1 := by
    have positive := List.length_pos_iff.mpr present
    omega
  simp only [emitBlockDecisionAt, AwaitOutcome.ofAwaitOk, nonempty, metaFromOutcome, count, kind,
    length, Nat.zero_add, if_neg counted, Bool.or_self, Bool.false_eq_true, if_false]
  rcases Nat.eq_zero_or_pos unread with rfl | positive
  · simp
  · simp [Nat.ne_of_gt positive, Nat.succ_le_of_lt positive]

/-! ## The count of the unread records -/

theorem unread_pos_iff (clock : Clock) (cursorFile : Option String) {record : DrainedRecord}
    (held : record ∈ recordsFrom 0 (complete newline content))
    (after : cursorOffset cursorFile ≤ record.start) :
    1 ≤ (readMailboxMetaFor K clock cursorFile (.ok content)).unread ↔
      ∀ line ∈ complete newline content, ∃ value, K.fromSlice line = .ok value := by
  have pendingRecord : record ∈ pending content (cursorOffset cursorFile) :=
    List.mem_filter.mpr ⟨held, decide_eq_true after⟩
  simp only [readMailboxMetaFor, readAll_eq, readFrom_eq]
  rcases @parseRecords_cases K.fromSlice 0 (recordsFrom 0 (complete newline content)) with
    ⟨entries, parsed, all⟩ | ⟨lineNo, source, failed, bad, member, not⟩
  · -- All lines are JSON, so those past the cursor are, and the record is one of them.
    rcases @parseRecords_cases K.fromSlice 0 (pending content (cursorOffset cursorFile)) with
      ⟨unread, parsed', -⟩ | ⟨-, -, -, bad, member, not⟩
    · have length := (parseRecords_ok parsed').length_eq
      have positive := List.length_pos_of_mem pendingRecord
      simp only [parsed, parsed', Except.map]
      refine iff_of_true (by omega) fun line member => ?_
      rw [← map_bytes_recordsFrom 0 (complete newline content)] at member
      obtain ⟨record, held, rfl⟩ := List.mem_map.mp member
      exact all record held
    · obtain ⟨value, isJson⟩ := all bad (List.mem_of_mem_filter member)
      exact absurd isJson (not value)
  · simp only [failed, Except.map]
    refine iff_of_false (by simp [MailboxMeta.default]) fun all => ?_
    obtain ⟨value, isJson⟩ := all bad.bytes (bytes_mem_of_recordsFrom member)
    exact not value isJson

theorem wake_is_announced_iff (K : Text) (clock : Clock) (print : Value → String) (fresh : Nat → Uuid)
    (name : String) (cursorFile : Option String) {content : Bytes}
    {batch : List (DrainedRecord × StampedEnvelope)} (handed : Batch K content batch)
    (new : ∃ entry ∈ batch, cursorOffset cursorFile ≤ entry.1.start) :
    (1 ≤ (readMailboxMetaFor K clock cursorFile (.ok content)).unread ∧
      (emitBlockDecisionAt (some (actionableUnread (readMailboxMetaFor K clock cursorFile (.ok content))))
        (.ofAwaitOk print fresh (batch.map Prod.snd) (.agent name))).isSome = true) ↔
      ∀ line ∈ complete newline content, ∃ value, K.fromSlice line = .ok value := by
  obtain ⟨entry, member, after⟩ := new
  rw [emitBlockDecisionAt_isSome_iff handed (List.ne_nil_of_mem member), actionableUnread, and_self]
  exact unread_pos_iff clock cursorFile (handed.held entry member) after

/-! ## A corrupt line in front of a message -/

def wakeNote : Value := auditEntry "agent:example/bob" "agent:example/alice"

theorem decodeLine_wakeNote :
    decodeLine Plain.text (stampedLine .local wakeNote) = .ok (.local, wakeNote) :=
  decodeLine_stampedLine (by decide +kernel)

theorem fromSlice_of_decodeLine {line : Bytes} {entry : Origin × Value}
    (decoded : decodeLine K line = .ok entry) : ∃ value, K.fromSlice line = .ok value := by
  obtain ⟨raw, parsed, -⟩ := decodeLine_ok decoded
  exact ⟨raw, Text.fromSlice_of_strict parsed⟩

theorem newline_notMem_stampedLine (origin : Origin) (envelope : Value) :
    newline ∉ stampedLine origin envelope := by
  unfold stampedLine
  split
  next => exact List.not_mem_nil
  next line canonical => exact Plain.text.canonicalize_noLineBreak _ line canonical

/-- A mailbox file of the given lines. -/
def fileOf (lines : List Bytes) : Bytes := terminated newline lines

theorem parts_fileOf {lines : List Bytes} (whole : ∀ line ∈ lines, newline ∉ line) :
    Parts newline (fileOf lines) lines [] :=
  ⟨(List.append_nil _).symm, whole, List.not_mem_nil⟩

theorem wake_is_announced_on_sound_file :
    1 ≤ (readMailboxMetaFor Plain.text rfc3339 (some "0\n")
        (.ok (fileOf [stampedLine .local wakeNote]))).unread ∧
      (emitBlockDecisionAt (some (actionableUnread (readMailboxMetaFor Plain.text rfc3339
        (some "0\n") (.ok (fileOf [stampedLine .local wakeNote])))))
        (.ofAwaitOk (fun _ => "") (fun _ => Uuid.nil) [⟨.local, wakeNote⟩] (.agent "alice"))).isSome =
          true := by
  have parts : Parts newline (fileOf [stampedLine .local wakeNote]) [stampedLine .local wakeNote] [] :=
    parts_fileOf (by simpa using newline_notMem_stampedLine _ _)
  have handed : Batch Plain.text (fileOf [stampedLine .local wakeNote])
      [(⟨stampedLine .local wakeNote, 0, recordLen (stampedLine .local wakeNote)⟩,
        ⟨.local, wakeNote⟩)] := by
    constructor
    · rw [parts.complete_eq]
      simp [recordsFrom]
    · simpa using decodeLine_wakeNote
  refine (wake_is_announced_iff Plain.text rfc3339 (fun _ => "") (fun _ => Uuid.nil) "alice"
    (some "0\n") handed ?_).mpr ?_
  · exact ⟨_, List.mem_singleton.mpr rfl, by decide +kernel⟩
  · rw [parts.complete_eq]
    intro line member
    rw [List.mem_singleton.mp member]
    exact fromSlice_of_decodeLine decodeLine_wakeNote

/-- The await hands out the message behind a corrupt line, and the hook says nothing. -/
theorem wake_behind_corrupt_line_is_swallowed :
    ∃ drained, readRawFrom "alice.jsonl" (.ok (fileOf [utf8 "?", stampedLine .local wakeNote])) 0 =
        .ok drained ∧
      (walk Plain.text 0 drained (awaitPolicy .any none)).delivered = [(.local, wakeNote)] ∧
      (readMailboxMetaFor Plain.text rfc3339 (some "0\n")
        (.ok (fileOf [utf8 "?", stampedLine .local wakeNote]))).unread = 0 ∧
      ∀ print fresh, emitBlockDecisionAt (some (actionableUnread (readMailboxMetaFor Plain.text
        rfc3339 (some "0\n") (.ok (fileOf [utf8 "?", stampedLine .local wakeNote])))))
        (.ofAwaitOk print fresh [⟨.local, wakeNote⟩] (.agent "alice")) = none := by
  have parts : Parts newline (fileOf [utf8 "?", stampedLine .local wakeNote])
      [utf8 "?", stampedLine .local wakeNote] [] :=
    parts_fileOf (List.forall_mem_cons.mpr
      ⟨by decide +kernel, by simpa using newline_notMem_stampedLine _ _⟩)
  have corrupt : (Plain.text.fromSlice (utf8 "?")).isOk = false := by decide +kernel
  have unread : readMailboxMetaFor Plain.text rfc3339 (some "0\n")
      (.ok (fileOf [utf8 "?", stampedLine .local wakeNote])) = .default := by
    simp only [readMailboxMetaFor, readAll_eq, parts.complete_eq, recordsFrom, parseRecords]
    cases read : Plain.text.fromSlice (utf8 "?") with
    | ok value => rw [read] at corrupt; cases corrupt
    | error source => rfl
  have handed : Batch Plain.text (fileOf [utf8 "?", stampedLine .local wakeNote])
      [(⟨stampedLine .local wakeNote, 2, 2 + recordLen (stampedLine .local wakeNote)⟩,
        ⟨.local, wakeNote⟩)] := by
    have first : recordLen (utf8 "?") = 2 := by decide +kernel
    constructor
    · rw [parts.complete_eq]
      simp [recordsFrom, first]
    · simpa using decodeLine_wakeNote
  obtain ⟨next, read, -⟩ := readRawFrom_eq "alice.jsonl"
    (fileOf [utf8 "?", stampedLine .local wakeNote]) 0
  refine ⟨_, read, ?_, by rw [unread]; rfl, fun print fresh => ?_⟩
  · have skipped : verdict Plain.text (awaitPolicy .any none)
        ⟨utf8 "?", 0, 0 + recordLen (utf8 "?")⟩ = .skip := by decide +kernel
    have delivered (start stop : Nat) : verdict Plain.text (awaitPolicy .any none)
        ⟨stampedLine .local wakeNote, start, stop⟩ = .deliver (.local, wakeNote) := by
      simp only [verdict, decodeLine_wakeNote]
      rfl
    simp only [walk, awaitPolicy] at skipped delivered ⊢
    simp only [pending_zero, parts.complete_eq, recordsFrom, walkRecords_cons, skipped, delivered]
    rfl
  · have announced := emitBlockDecisionAt_isSome_iff handed (List.cons_ne_nil _ _) print fresh "alice"
      (actionableUnread .default)
    rw [unread]
    rw [← Option.not_isSome_iff_eq_none]
    exact fun shown => absurd (announced.mp shown) (by decide)

end Famp.Cli
