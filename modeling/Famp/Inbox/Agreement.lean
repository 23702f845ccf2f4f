import Famp.Inbox.File
import Famp.Json.Plain

/-!
# Agreement of the readers

The reader of JSON lines past an offset and the reader of raw lines past it see the
same lines, and on a file of whole lines the raw reader returns what the in-memory
mailbox returns.  The part after the last line break is where the writer and the
reader of all lines part from them.
-/

set_option autoImplicit false

namespace Famp.Inbox

open Bus Data Data.Lines Json

variable {content line after : Bytes}

/-! ## Appending after what is there -/

theorem pending_zero (content : Bytes) :
    pending content 0 = recordsFrom 0 (complete newline content) :=
  List.filter_eq_self.mpr fun _ _ => decide_eq_true (Nat.zero_le _)

/-- The read of `after` shows what the read of `content` shows, and then `line`. -/
def ReadsBack (shown : String) (content line after : Bytes) : Prop :=
  ∃ earlier later start stop, readRawFrom shown (.ok content) 0 = .ok earlier ∧
    readRawFrom shown (.ok after) 0 = .ok later ∧
    later.records = earlier.records ++ [⟨line, start, stop⟩]

theorem recordsFrom_append_singleton (lines : List Bytes) (last : Bytes) :
    recordsFrom 0 (lines ++ [last]) =
      recordsFrom 0 lines ++ [⟨last, totalLen lines, totalLen lines + recordLen last⟩] := by
  rw [recordsFrom_append, Nat.zero_add]
  rfl

theorem append_readsBack_iff (shown : String) {fault : Option AppendFault}
    (appended : append fault content line = (.ok (), after)) :
    ReadsBack shown content line after ↔ content = [] ∨ content.getLast? = some newline := by
  obtain ⟨free, rfl⟩ := append_ok appended
  have parts := parts_of newline content
  obtain ⟨_, readBefore, -⟩ := readRawFrom_eq shown content 0
  obtain ⟨_, readAfter, -⟩ := readRawFrom_eq shown (content ++ line ++ [newline]) 0
  rw [pending_zero] at readBefore
  rw [pending_zero, (parts.ended free).complete_eq, recordsFrom_append_singleton] at readAfter
  rw [← unfinished_eq_nil_iff]
  constructor
  · rintro ⟨earlier, later, start, stop, before, now, same⟩
    rw [readBefore] at before
    rw [readAfter] at now
    cases before
    cases now
    -- The last record is the unfinished part with the line glued to it.
    have last := List.head_eq_of_cons_eq (List.append_cancel_left same)
    have glued := congrArg DrainedRecord.bytes last
    exact List.append_left_eq_self.mp glued
  · intro finished
    rw [finished, List.nil_append] at readAfter
    exact ⟨_, _, _, _, readBefore, readAfter, rfl⟩

theorem append_readsBack_after_line :
    ReadsBack "inbox.jsonl" (utf8 "\x7b\"a\":1\x7d\n") (utf8 "\x7b\"b\":2\x7d")
      (utf8 "\x7b\"a\":1\x7d\n\x7b\"b\":2\x7d\n") :=
  (@append_readsBack_iff _ _ _ "inbox.jsonl" none (by decide +kernel)).mpr
    (.inr (by decide +kernel))

/-- A write that fails in the middle of a line leaves its start in the file.  The next
append succeeds, and its line is read as the end of the broken one. -/
theorem append_after_torn_write_is_glued :
    ∃ torn after, append (some (.line 5)) [] (utf8 "\x7b\"a\":1\x7d") = (.error .io, torn) ∧
      append none torn (utf8 "\x7b\"b\":2\x7d") = (.ok (), after) ∧
      readRawFrom "inbox.jsonl" (.ok after) 0 = .ok ⟨[⟨utf8 "\x7b\"a\":\x7b\"b\":2\x7d", 0, 13⟩], 13⟩ ∧
      ¬ReadsBack "inbox.jsonl" torn (utf8 "\x7b\"b\":2\x7d") after := by
  refine ⟨utf8 "\x7b\"a\":", utf8 "\x7b\"a\":\x7b\"b\":2\x7d\n", by decide +kernel, by decide +kernel,
    by decide +kernel, ?_⟩
  have before : readRawFrom "inbox.jsonl" (.ok (utf8 "\x7b\"a\":")) 0 = .ok ⟨[], 0⟩ := by
    decide +kernel
  have now : readRawFrom "inbox.jsonl" (.ok (utf8 "\x7b\"a\":\x7b\"b\":2\x7d\n")) 0 =
      .ok ⟨[⟨utf8 "\x7b\"a\":\x7b\"b\":2\x7d", 0, 13⟩], 13⟩ := by decide +kernel
  rintro ⟨earlier, later, start, stop, readBefore, readNow, same⟩
  rw [before] at readBefore
  rw [now] at readNow
  cases readBefore
  cases readNow
  have glued : utf8 "\x7b\"a\":\x7b\"b\":2\x7d" = utf8 "\x7b\"b\":2\x7d" :=
    congrArg DrainedRecord.bytes (List.head_eq_of_cons_eq same)
  exact absurd glued (by decide +kernel)

/-! ## The two readers past an offset -/

section Parsing
variable {parse : Bytes → Except String Value}

theorem parseRecords_ok {idx : Nat} {records : List DrainedRecord} {entries : List (Value × Nat)}
    (parsed : parseRecords parse idx records = .ok entries) :
    List.Forall₂ (fun entry record => parse record.bytes = .ok entry.1 ∧ entry.2 = record.stop)
      entries records := by
  induction records generalizing idx entries with
  | nil =>
    cases parsed
    exact .nil
  | cons record rest ih =>
    rw [parseRecords] at parsed
    cases value : parse record.bytes with
    | error source =>
      rw [value] at parsed
      cases parsed
    | ok tree =>
      rw [value] at parsed
      cases others : parseRecords parse (idx + 1) rest with
      | error fault =>
        rw [others] at parsed
        cases parsed
      | ok entries' =>
        rw [others] at parsed
        cases parsed
        exact .cons ⟨value, rfl⟩ (ih others)

theorem parseRecords_cases (idx : Nat) (records : List DrainedRecord) :
    (∃ entries, parseRecords parse idx records = .ok entries ∧
      ∀ record ∈ records, ∃ value, parse record.bytes = .ok value) ∨
    (∃ lineNo source, parseRecords parse idx records = .error (.corruptLine lineNo source) ∧
      ∃ record ∈ records, ∀ value, parse record.bytes ≠ .ok value) := by
  induction records generalizing idx with
  | nil => exact .inl ⟨[], rfl, by simp⟩
  | cons record rest ih =>
    rw [parseRecords]
    cases value : parse record.bytes with
    | error source =>
      refine .inr ⟨idx + 1, source, rfl, record, List.mem_cons_self .., fun tree parsed => ?_⟩
      rw [value] at parsed
      cases parsed
    | ok tree =>
      rcases ih (idx + 1) with ⟨entries, parsed, all⟩ | ⟨lineNo, source, failed, bad, member, not⟩
      · refine .inl ⟨(tree, record.stop) :: entries, by rw [parsed]; rfl, ?_⟩
        exact List.forall_mem_cons.mpr ⟨⟨tree, value⟩, all⟩
      · exact .inr ⟨lineNo, source, by rw [failed]; rfl, bad, List.mem_cons_of_mem _ member, not⟩

end Parsing

theorem readers_agree (parse : Bytes → Except String Value) (shown : String) :
    (∀ (file : FileRead) (offset : Nat) (entries : List (Value × Nat)),
      readFrom parse file offset = .ok entries →
      ∃ drained, readRawFrom shown file offset = .ok drained ∧
        List.Forall₂ (fun entry record => parse record.bytes = .ok entry.1 ∧ entry.2 = record.stop)
          entries drained.records) ∧
    (∀ (boxes : InMemoryMailbox) (name : MailboxName) (lines : List Bytes) (offset : Nat),
      boxes[name]? = some lines → (∀ line ∈ lines, newline ∉ line) →
      readRawFrom shown (.ok (terminated newline lines)) offset =
        .ok (boxes.drainFrom name offset)) := by
  refine ⟨fun file offset entries read => ?_, fun boxes name lines offset present whole => ?_⟩
  · cases file with
    | error fault =>
      cases fault with
      | notFound =>
        cases read
        exact ⟨_, rfl, .nil⟩
      | other message => cases read
    | ok content =>
      obtain ⟨next, raw, -⟩ := readRawFrom_eq shown content offset
      rw [readFrom_eq] at read
      exact ⟨_, raw, parseRecords_ok read⟩
  · have parts : Parts newline (terminated newline lines) lines [] :=
      ⟨(List.append_nil _).symm, whole, List.not_mem_nil⟩
    obtain ⟨next, raw, stops⟩ := readRawFrom_eq shown (terminated newline lines) offset
    rw [← totalLen_eq, parts.complete_eq, or_self] at stops
    rw [raw, stops, pending, parts.complete_eq, InMemoryMailbox.drainFrom_present present]

def twoLineBox : InMemoryMailbox :=
  (InMemoryMailbox.append ∅ (.agent "bob") (utf8 "1")).append (.agent "bob") (utf8 "[2]")

theorem twoLineBox_readers_agree :
    readRawFrom "inbox.jsonl" (.ok (terminated newline [utf8 "1", utf8 "[2]"])) 2 =
        .ok (twoLineBox.drainFrom (.agent "bob") 2) ∧
      ∃ drained, readRawFrom "inbox.jsonl" (.ok (utf8 "1\n[2]\n")) 2 = .ok drained ∧
        List.Forall₂ (fun entry record => Plain.text.fromSlice record.bytes = .ok entry.1 ∧
          entry.2 = record.stop) [(Value.arr [Value.int 2], 6)] drained.records :=
  have agree := readers_agree Plain.text.fromSlice "inbox.jsonl"
  ⟨agree.2 twoLineBox (.agent "bob") _ 2 (by decide +kernel) (by decide +kernel),
    agree.1 (.ok (utf8 "1\n[2]\n")) 2 _ (by decide +kernel)⟩

/-! ## Reading all lines -/

section All
variable {parse : Bytes → Except String Value}

/-- The values that `read_all` takes from the part after the last line break. -/
def tailValues (parse : Bytes → Except String Value) (rest : Bytes) : List Value :=
  if rest = [] then [] else ((parse rest).toOption).toList

theorem readAll_eq (content : Bytes) :
    readAll parse (.ok content) =
      (parseRecords parse 0 (recordsFrom 0 (complete newline content))).map fun entries =>
        entries.map Prod.fst ++ tailValues parse (unfinished newline content) := by
  have parts := parts_of newline content
  simp only [readAll]
  split
  next empty =>
    rw [List.isEmpty_iff.mp empty]
    rfl
  next present =>
    rw [parts.splitOn, readAllChunks_eq _ _ _ 0 0 []]
    cases parseRecords parse 0 (recordsFrom 0 (complete newline content)) with
    | error fault => rfl
    | ok entries =>
      have finished_iff : (content.getLast? == some newline) = true ↔
          unfinished newline content = [] := by
        rw [unfinished_eq_nil_iff, beq_iff_eq]
        exact ⟨.inr, fun ends => ends.resolve_left (by simpa using present)⟩
      simp only [Except.bind, Except.map, readAllChunks, finished_iff, tailValues, List.nil_append,
        List.isEmpty_iff]
      split
      · rw [List.append_nil]
      · cases parse (unfinished newline content) with
        | error source => simp [Except.toOption]
        | ok value => simp [Except.toOption]

theorem tailValues_eq_nil_iff {rest : Bytes} :
    tailValues parse rest = [] ↔ rest = [] ∨ ∀ value, parse rest ≠ .ok value := by
  unfold tailValues
  split
  next empty => exact iff_of_true rfl (.inl empty)
  next present =>
    cases parse rest with
    | error source => simp [Except.toOption]
    | ok value => simp [Except.toOption, present]

def SameReading : Except InboxError (List Value) → Except InboxError (List (Value × Nat)) → Prop
  | .ok values, .ok entries => values = entries.map Prod.fst
  | .error (.corruptLine lineNo _), .error (.corruptLine other _) => lineNo = other
  | _, _ => False

theorem readAll_matches_readFrom_iff (parse : Bytes → Except String Value) (content : Bytes) :
    SameReading (readAll parse (.ok content)) (readFrom parse (.ok content) 0) ↔
      (∃ line ∈ complete newline content, ∀ value, parse line ≠ .ok value) ∨
        unfinished newline content = [] ∨ ∀ value, parse (unfinished newline content) ≠ .ok value := by
  rw [readAll_eq, readFrom_eq, pending_zero]
  rcases @parseRecords_cases parse 0 (recordsFrom 0 (complete newline content)) with
    ⟨entries, parsed, all⟩ | ⟨lineNo, source, failed, record, member, not⟩
  · rw [parsed]
    have json : ¬∃ line ∈ complete newline content, ∀ value, parse line ≠ .ok value := by
      rintro ⟨line, member, not⟩
      rw [← map_bytes_recordsFrom 0 (complete newline content)] at member
      obtain ⟨record, held, rfl⟩ := List.mem_map.mp member
      obtain ⟨value, isJson⟩ := all record held
      exact not value isJson
    simp only [Except.map, SameReading, List.append_right_eq_self, json, false_or]
    exact tailValues_eq_nil_iff
  · rw [failed]
    exact iff_of_true rfl (.inl ⟨record.bytes, bytes_mem_of_recordsFrom member, not⟩)

/-- A last line that lost only its line break is a value for one reader and not for the
other. -/
theorem unended_line_is_read_once :
    (readAll Plain.text.fromSlice (.ok (utf8 "\x7b\"a\":1\x7d"))).map List.length = .ok 1 ∧
      readFrom Plain.text.fromSlice (.ok (utf8 "\x7b\"a\":1\x7d")) 0 = .ok [] ∧
      ¬SameReading (readAll Plain.text.fromSlice (.ok (utf8 "\x7b\"a\":1\x7d")))
        (readFrom Plain.text.fromSlice (.ok (utf8 "\x7b\"a\":1\x7d")) 0) := by
  have all : (readAll Plain.text.fromSlice (.ok (utf8 "\x7b\"a\":1\x7d"))).map List.length =
      .ok 1 := by decide +kernel
  have past : readFrom Plain.text.fromSlice (.ok (utf8 "\x7b\"a\":1\x7d")) 0 = .ok [] := by
    decide +kernel
  refine ⟨all, past, ?_⟩
  rw [past]
  generalize readAll Plain.text.fromSlice (.ok (utf8 "\x7b\"a\":1\x7d")) = read at all ⊢
  cases read with
  | error fault => cases all
  | ok values =>
    rintro rfl
    exact absurd all (by decide)

end All

end Famp.Inbox
