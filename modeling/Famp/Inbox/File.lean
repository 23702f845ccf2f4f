import Famp.Bus.Mailbox
import Famp.Data.Lines

/-!
# The inbox file

One writer appends lines to a file, and three readers take lines from it: all of
it as JSON, the lines past an offset as JSON, and the lines past an offset as
bytes.  What each of them returns is said in terms of the complete lines of the
file and of the part after the last line break.
-/

set_option autoImplicit false

namespace Famp.Inbox

open Bus Data Data.Lines Json

def newline : UInt8 := 10

inductive InboxError where
  | io
  | corruptLine (lineNo : Nat) (source : String)
  | embeddedNewline
  deriving DecidableEq, Repr

/-- Why `std::fs::read` returns no bytes. -/
inductive ReadFault where
  | notFound
  | other (message : String)
  deriving DecidableEq, Repr

abbrev FileRead := Except ReadFault Bytes

/-! ## Appending -/

/-- Which of the three calls of an append fails, if one does; a write that fails may
have written the start of its bytes. -/
inductive AppendFault where
  | line (written : Nat)
  | terminator
  | sync
  deriving DecidableEq, Repr

/-- `Inbox::append`, with the bytes of the file before and after it. -/
def append (fault : Option AppendFault) (content envelopeBytes : Bytes) :
    Except InboxError Unit × Bytes :=
  if envelopeBytes.contains newline then (.error .embeddedNewline, content)
  else
    match fault with
    | some (.line written) => (.error .io, content ++ envelopeBytes.take written)
    | some .terminator => (.error .io, content ++ envelopeBytes)
    | some .sync => (.error .io, content ++ envelopeBytes ++ [newline])
    | none => (.ok (), content ++ envelopeBytes ++ [newline])

theorem append_ok {fault : Option AppendFault} {content line after : Bytes}
    (appended : append fault content line = (.ok (), after)) :
    newline ∉ line ∧ after = content ++ line ++ [newline] := by
  unfold append at appended
  split at appended
  next => cases appended
  next free =>
    split at appended <;> cases appended
    exact ⟨by simpa using free, rfl⟩

/-! ## The readers -/

section Readers
variable (parse : Bytes → Except String Value)

/-- The loop of `read_all` over the chunks between line breaks. -/
def readAllChunks (fileEndsWithNewline : Bool) :
    Nat → List Bytes → List Value → Except InboxError (List Value)
  | _, [], out => .ok out
  | _, [chunk], out =>
    if fileEndsWithNewline then .ok out
    else if chunk.isEmpty then .ok out
    else
      match parse chunk with
      | .ok value => .ok (out ++ [value])
      | .error _ => .ok out
  | idx, chunk :: next :: rest, out =>
    match parse chunk with
    | .ok value => readAllChunks fileEndsWithNewline (idx + 1) (next :: rest) (out ++ [value])
    | .error source => .error (.corruptLine (idx + 1) source)

def readAll (file : FileRead) : Except InboxError (List Value) :=
  match file with
  | .error _ => .error .io
  | .ok bytes =>
    if bytes.isEmpty then .ok []
    else readAllChunks parse (bytes.getLast? == some newline) 0 (bytes.splitOn newline) []

/-- The loop of `read_from`: the last chunk is dropped, and each line comes with the
offset of its end. -/
def readFromChunks : Nat → List Bytes → Nat → List (Value × Nat) →
    Except InboxError (List (Value × Nat))
  | _, [], _, out => .ok out
  | _, [_], _, out => .ok out
  | idx, chunk :: next :: rest, running, out =>
    match parse chunk with
    | .ok value =>
      readFromChunks (idx + 1) (next :: rest) (running + (chunk.length + 1))
        (out ++ [(value, running + (chunk.length + 1))])
    | .error source => .error (.corruptLine (idx + 1) source)

def readFrom (file : FileRead) (startOffset : Nat) : Except InboxError (List (Value × Nat)) :=
  match file with
  | .error .notFound => .ok []
  | .error (.other _) => .error .io
  | .ok bytes =>
    if bytes.length ≤ startOffset then .ok []
    else
      match snap newline bytes startOffset with
      | none => .ok []
      | some snapped =>
        if bytes.length ≤ snapped then .ok []
        else readFromChunks parse 0 ((bytes.drop snapped).splitOn newline) snapped []

end Readers

/-- The loop of `read_raw_from`, from the bytes at the cursor on.  Every turn but the
last takes a line break from them, so that their number is fuel enough. -/
def readRawLines : Nat → Bytes → Nat → List DrainedRecord → DrainResult
  | 0, _, running, records => ⟨records, running⟩
  | fuel + 1, bytes, running, records =>
    match bytes.findIdx? (· == newline) with
    | none => ⟨records, running⟩
    | some rel =>
      let stop := running + (rel + jsonlRecordTerminatorLen)
      readRawLines fuel (bytes.drop (rel + 1)) stop (records ++ [⟨bytes.take rel, running, stop⟩])

/-- `read_raw_from`; `shown` is the path as the error text shows it. -/
def readRawFrom (shown : String) (file : FileRead) (sinceBytes : Nat) :
    Except MailboxErr DrainResult :=
  match file with
  | .error .notFound => .ok ⟨[], sinceBytes⟩
  | .error (.other message) => .error (.internal ("read " ++ shown ++ ": " ++ message))
  | .ok bytes =>
    if bytes.length ≤ sinceBytes then .ok ⟨[], bytes.length⟩
    else
      match snap newline bytes sinceBytes with
      | none => .ok ⟨[], bytes.length⟩
      | some snapped =>
        if bytes.length ≤ snapped then .ok ⟨[], bytes.length⟩
        else .ok (readRawLines bytes.length (bytes.drop snapped) snapped [])

/-! ## What the readers return -/

theorem totalLen_eq (lines : List Bytes) : totalLen lines = (terminated newline lines).length := by
  simp only [totalLen, terminated, List.length_flatMap, List.length_append, List.length_singleton]
  rfl

variable {content : Bytes} {lines : List Bytes} {rest : Bytes}

theorem length_content (parts : Parts newline content lines rest) :
    content.length = totalLen lines + rest.length := by
  rw [parts.joined, List.length_append, totalLen_eq]

theorem readRawLines_eq (parts : Parts newline content lines rest) :
    ∀ (fuel running : Nat) (records : List DrainedRecord), lines.length ≤ fuel →
      readRawLines fuel content running records =
        ⟨records ++ recordsFrom running lines, running + totalLen lines⟩ := by
  induction lines generalizing content with
  | nil =>
    intro fuel running records enough
    rw [parts.joined, terminated_nil, List.nil_append, recordsFrom, List.append_nil]
    cases fuel with
    | zero => rfl
    | succ fuel =>
      rw [readRawLines, findIdx?_unended parts.unended]
      rfl
  | cons line lines ih =>
    intro fuel running records enough
    obtain ⟨fuel, rfl⟩ := Nat.exists_eq_add_of_le' (Nat.le_trans (Nat.succ_pos _) enough)
    obtain ⟨free, split, parts'⟩ := parts.cons_inv
    have next : (line ++ newline :: (terminated newline lines ++ rest)).drop (line.length + 1) =
        terminated newline lines ++ rest := by
      rw [List.drop_append]
      simp
    rw [split, readRawLines, findIdx?_line free]
    simp only [next, List.take_left]
    rw [ih parts' fuel _ _ (by simpa using enough), totalLen_cons, recordsFrom, List.append_assoc,
      List.singleton_append, Nat.add_assoc]
    rfl

/-- The records of a read: the lines of the file that start at or after the offset. -/
def pending (content : Bytes) (since : Nat) : List DrainedRecord :=
  (recordsFrom 0 (complete newline content)).filter fun record => decide (since ≤ record.start)

theorem pending_eq_nil {since : Nat} (past : totalLen (complete newline content) ≤ since) :
    pending content since = [] := by
  rw [pending, List.filter_eq_nil_iff]
  intro record member
  have bounds := mem_recordsFrom member
  simp only [decide_eq_true_eq]
  omega

theorem filter_recordsFrom_within {read : List Bytes} (after : List Bytes) {since : Nat}
    (reached : since ≤ totalLen read)
    (before : ∀ init last, read = init ++ [last] → totalLen init < since) :
    (recordsFrom 0 (read ++ after)).filter (fun record => decide (since ≤ record.start)) =
      recordsFrom (totalLen read) after := by
  rw [← filter_recordsFrom read after]
  refine List.filter_congr fun record member => decide_eq_decide.mpr ⟨fun start => ?_, fun start =>
    Nat.le_trans reached start⟩
  rw [recordsFrom_append, Nat.zero_add, List.mem_append] at member
  rcases member with early | late
  · -- A record of a line that is read starts no later than the last of them.
    rcases List.eq_nil_or_concat read with rfl | ⟨init, last, rfl⟩
    · cases early
    · rw [List.concat_eq_append] at early before
      rw [recordsFrom_append, List.mem_append] at early
      have cut := before init last rfl
      rcases early with earlier | last
      · have bounds := mem_recordsFrom earlier
        omega
      · obtain rfl := List.mem_singleton.mp last
        simp only [Nat.zero_add] at start
        omega
  · exact (mem_recordsFrom late).1

theorem pending_of_snap (parts : Parts newline content lines rest) (since : Nat) :
    match snap newline content since with
    | none => pending content since = []
    | some snapped => ∃ after, Parts newline (content.drop snapped) after rest ∧
        pending content since = recordsFrom snapped after ∧
        snapped + totalLen after = totalLen lines := by
  have place := parts.snapped since
  cases found : snap newline content since with
  | none =>
    rw [found] at place
    refine pending_eq_nil ?_
    rw [parts.complete_eq, totalLen_eq]
    exact Nat.le_of_lt place
  | some snapped =>
    rw [found] at place
    obtain ⟨reached, read, after, rfl, rfl, before⟩ := place
    refine ⟨after, ⟨?_, ?_, parts.unended⟩, ?_, ?_⟩
    · rw [parts.joined, terminated_append, List.append_assoc, List.drop_left]
    · exact fun line member => parts.whole line (List.mem_append_right _ member)
    · rw [pending, parts.complete_eq, ← totalLen_eq]
      refine filter_recordsFrom_within after (by rwa [totalLen_eq]) fun init last all => ?_
      rw [totalLen_eq]
      exact before init last all
    · rw [totalLen_append, totalLen_eq read]

theorem length_le_totalLen (lines : List Bytes) : lines.length ≤ totalLen lines := by
  induction lines with
  | nil => exact Nat.le_refl 0
  | cons line rest ih =>
    have positive := recordLen_pos line
    rw [totalLen_cons, List.length_cons]
    omega

theorem readRawFrom_eq (shown : String) (content : Bytes) (since : Nat) :
    ∃ next, readRawFrom shown (.ok content) since = .ok ⟨pending content since, next⟩ ∧
      (next = totalLen (complete newline content) ∨ next = content.length) := by
  have parts := parts_of newline content
  have length := length_content parts
  have left := pending_of_snap parts since
  simp only [readRawFrom]
  split
  next past => exact ⟨_, by rw [pending_eq_nil (by omega)], .inr rfl⟩
  next =>
    generalize snap newline content since = found at left ⊢
    cases found with
    | none => exact ⟨_, by rw [left], .inr rfl⟩
    | some snapped =>
      obtain ⟨after, parts', records, stops⟩ := left
      dsimp only
      split
      next past =>
        have few := length_le_totalLen after
        have none : after = [] := List.eq_nil_of_length_eq_zero (by omega)
        exact ⟨_, by rw [records, none, recordsFrom], .inr rfl⟩
      next inside =>
        have enough := length_le_totalLen after
        rw [readRawLines_eq parts' _ _ _ (by omega), List.nil_append, ← records]
        exact ⟨_, rfl, .inl stops⟩

section Parsing
variable (parse : Bytes → Except String Value)

def parseRecords : Nat → List DrainedRecord → Except InboxError (List (Value × Nat))
  | _, [] => .ok []
  | idx, record :: rest =>
    match parse record.bytes with
    | .error source => .error (.corruptLine (idx + 1) source)
    | .ok value => (parseRecords (idx + 1) rest).map ((value, record.stop) :: ·)

variable {parse}

theorem readFromChunks_eq (lines : List Bytes) (rest : Bytes) :
    ∀ (idx running : Nat) (out : List (Value × Nat)),
      readFromChunks parse idx (lines ++ [rest]) running out =
        (parseRecords parse idx (recordsFrom running lines)).map (out ++ ·) := by
  induction lines with
  | nil =>
    intro idx running out
    simp [readFromChunks, recordsFrom, parseRecords, Except.map]
  | cons line lines ih =>
    intro idx running out
    obtain ⟨next, others, split⟩ := List.exists_cons_of_ne_nil
      (List.append_ne_nil_of_right_ne_nil lines (List.cons_ne_nil rest []))
    rw [List.cons_append, split, readFromChunks, ← split, recordsFrom, parseRecords]
    cases parse line with
    | error source => rfl
    | ok value =>
      dsimp only
      rw [ih]
      simp only [recordLen, jsonlRecordTerminatorLen]
      cases parseRecords parse (idx + 1) (recordsFrom (running + (line.length + 1)) lines) with
      | error => rfl
      | ok values => simp [Except.map]

theorem readAllChunks_eq (endsWithNewline : Bool) (lines : List Bytes) (rest : Bytes) :
    ∀ (idx running : Nat) (out : List Value),
      readAllChunks parse endsWithNewline idx (lines ++ [rest]) out =
        (parseRecords parse idx (recordsFrom running lines)).bind fun values =>
          readAllChunks parse endsWithNewline (idx + lines.length) [rest]
            (out ++ values.map Prod.fst) := by
  induction lines with
  | nil =>
    intro idx running out
    simp [recordsFrom, parseRecords, Except.bind]
  | cons line lines ih =>
    intro idx running out
    obtain ⟨next, others, split⟩ := List.exists_cons_of_ne_nil
      (List.append_ne_nil_of_right_ne_nil lines (List.cons_ne_nil rest []))
    rw [List.cons_append, split, readAllChunks, ← split, recordsFrom, parseRecords]
    cases parse line with
    | error source => rfl
    | ok value =>
      dsimp only
      rw [ih (idx + 1) (running + recordLen line)]
      cases parseRecords parse (idx + 1) (recordsFrom (running + recordLen line) lines) with
      | error => rfl
      | ok values =>
        simp only [Except.map, Except.bind, List.map_cons, List.append_assoc,
          List.singleton_append, List.length_cons]
        congr 1
        omega

theorem readFrom_eq (content : Bytes) (since : Nat) :
    readFrom parse (.ok content) since = parseRecords parse 0 (pending content since) := by
  have parts := parts_of newline content
  have length := length_content parts
  have left := pending_of_snap parts since
  simp only [readFrom]
  split
  next past => rw [pending_eq_nil (by omega), parseRecords]
  next =>
    generalize snap newline content since = found at left ⊢
    cases found with
    | none => rw [left, parseRecords]
    | some snapped =>
      obtain ⟨after, parts', records, stops⟩ := left
      dsimp only
      rw [records]
      split
      next past =>
        have few := length_le_totalLen after
        have none : after = [] := List.eq_nil_of_length_eq_zero (by omega)
        rw [none, recordsFrom, parseRecords]
      next inside =>
        rw [parts'.splitOn, readFromChunks_eq]
        exact congrFun Except.map_id _

end Parsing

end Famp.Inbox
