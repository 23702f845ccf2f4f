import Famp.Data.OrdMap
import Famp.Json.Text

/-!
# Mailboxes

A mailbox is an append-only list of records.  A record is one line, and a cursor
into a mailbox is a byte offset in which every line counts its line break.  A
read hands out the records that start at or after a cursor, each with its own
offsets, and the offset of the end of the mailbox.
-/

set_option autoImplicit false

namespace Famp.Bus

open Json Data Std

/-- Bytes of a record beyond its line: the line break. -/
def jsonlRecordTerminatorLen : Nat := 1

inductive MailboxName where
  | agent (name : String)
  | channel (name : String)
  deriving DecidableEq, Repr

namespace MailboxName

/-- Agents before channels, then by name. -/
def key : MailboxName → Nat × String
  | .agent name => (0, name)
  | .channel name => (1, name)

theorem key_injective : Function.Injective key := by
  intro a b same
  cases a <;> cases b <;> simp_all [key]

instance : Ord MailboxName := ⟨compareOn key⟩

instance : TransOrd MailboxName := inferInstanceAs (TransCmp (compareOn key))

instance : LawfulEqOrd MailboxName := compareOn_lawfulEq key_injective

def isChannel : MailboxName → Bool
  | .agent _ => false
  | .channel _ => true

/-- `Display` for `MailboxName`: the bare name. -/
def display : MailboxName → String
  | .agent name => name
  | .channel name => name

theorem kindName_increasing : ["kind", "name"].Pairwise (· < ·) := by decide

def toValue : MailboxName → Value
  | .agent name => Value.record ["kind", "name"] kindName_increasing [.str "agent", .str name]
  | .channel name => Value.record ["kind", "name"] kindName_increasing [.str "channel", .str name]

end MailboxName

structure DrainedRecord where
  bytes : Bytes
  start : Nat
  stop : Nat
  deriving DecidableEq, Repr

structure DrainResult where
  records : List DrainedRecord
  nextOffset : Nat
  deriving DecidableEq, Repr

inductive MailboxErr where
  | notFound (name : MailboxName)
  | internal (message : String)
  deriving DecidableEq, Repr

def MailboxErr.toText : MailboxErr → String
  | .notFound name => "mailbox " ++ name.display ++ " does not exist"
  | .internal message => "internal mailbox error: " ++ message

/-! ## The in-memory mailbox -/

/-- A mailbox that was never appended to is absent, which is not the same as
empty. -/
abbrev InMemoryMailbox := ExtTreeMap MailboxName (List Bytes)

def recordLen (line : Bytes) : Nat := line.length + jsonlRecordTerminatorLen

/-- The records of `lines`, the first of which starts at `cursor`. -/
def recordsFrom (cursor : Nat) : List Bytes → List DrainedRecord
  | [] => []
  | line :: rest =>
    { bytes := line, start := cursor, stop := cursor + recordLen line } ::
      recordsFrom (cursor + recordLen line) rest

def totalLen (lines : List Bytes) : Nat := (lines.map recordLen).sum

theorem totalLen_append (first second : List Bytes) :
    totalLen (first ++ second) = totalLen first + totalLen second := by
  simp [totalLen]

theorem totalLen_cons (line : Bytes) (rest : List Bytes) :
    totalLen (line :: rest) = recordLen line + totalLen rest := by
  simp [totalLen]

theorem recordLen_pos (line : Bytes) : 0 < recordLen line := Nat.succ_pos _

theorem recordsFrom_append (cursor : Nat) (first second : List Bytes) :
    recordsFrom cursor (first ++ second) =
      recordsFrom cursor first ++ recordsFrom (cursor + totalLen first) second := by
  induction first generalizing cursor with
  | nil => simp [recordsFrom, totalLen]
  | cons line rest ih =>
    simp only [List.cons_append, recordsFrom, ih, totalLen_cons, Nat.add_assoc]

variable {boxes : InMemoryMailbox} {name : MailboxName} {record : DrainedRecord}

/-- Records lie one after the other between the first offset and the last. -/
theorem mem_recordsFrom {cursor : Nat} {lines : List Bytes}
    (member : record ∈ recordsFrom cursor lines) :
    cursor ≤ record.start ∧ record.start < record.stop ∧ record.stop ≤ cursor + totalLen lines := by
  induction lines generalizing cursor with
  | nil => cases member
  | cons line rest ih =>
    have positive := recordLen_pos line
    rw [totalLen_cons]
    rcases List.mem_cons.mp member with rfl | later
    · refine ⟨Nat.le_refl _, ?_, ?_⟩
      · show cursor < cursor + recordLen line
        omega
      · show cursor + recordLen line ≤ cursor + (recordLen line + totalLen rest)
        omega
    · have bounds := ih later
      omega

theorem bytes_mem_of_recordsFrom {cursor : Nat} {lines : List Bytes}
    (member : record ∈ recordsFrom cursor lines) : record.bytes ∈ lines := by
  induction lines generalizing cursor with
  | nil => cases member
  | cons line rest ih =>
    rcases List.mem_cons.mp member with rfl | later
    · exact List.mem_cons_self ..
    · exact List.mem_cons_of_mem _ (ih later)

theorem map_bytes_recordsFrom (cursor : Nat) (lines : List Bytes) :
    (recordsFrom cursor lines).map DrainedRecord.bytes = lines := by
  induction lines generalizing cursor with
  | nil => rfl
  | cons line rest ih => rw [recordsFrom, List.map_cons, ih]

theorem filter_recordsFrom_of_ge {cursor start : Nat} {lines : List Bytes}
    (passed : start + totalLen lines ≤ cursor) :
    (recordsFrom start lines).filter (fun record => decide (cursor ≤ record.start)) = [] := by
  rw [List.filter_eq_nil_iff]
  intro record member
  have bounds := mem_recordsFrom member
  simp only [decide_eq_true_eq]
  omega

theorem filter_recordsFrom (read rest : List Bytes) :
    (recordsFrom 0 (read ++ rest)).filter (fun record => decide (totalLen read ≤ record.start)) =
      recordsFrom (totalLen read) rest := by
  rw [recordsFrom_append, List.filter_append, Nat.zero_add]
  have after : (recordsFrom (totalLen read) rest).filter
      (fun record => decide (totalLen read ≤ record.start)) = recordsFrom (totalLen read) rest := by
    rw [List.filter_eq_self]
    intro record member
    exact decide_eq_true (mem_recordsFrom member).1
  rw [filter_recordsFrom_of_ge (Nat.zero_add _).le, after, List.nil_append]

namespace InMemoryMailbox

def append (boxes : InMemoryMailbox) (name : MailboxName) (line : Bytes) : InMemoryMailbox :=
  boxes.insert name ((boxes[name]?.getD []) ++ [line])

def drainFrom (boxes : InMemoryMailbox) (name : MailboxName) (sinceBytes : Nat) : DrainResult :=
  match boxes[name]? with
  | none => { records := [], nextOffset := sinceBytes }
  | some entries =>
    if totalLen entries ≤ sinceBytes then { records := [], nextOffset := totalLen entries }
    else
      { records := (recordsFrom 0 entries).filter fun record => decide (sinceBytes ≤ record.start)
        nextOffset := totalLen entries }

/-- What is in the mailbox; an absent mailbox holds nothing. -/
def lines (boxes : InMemoryMailbox) (name : MailboxName) : List Bytes := boxes[name]?.getD []

theorem lines_append (boxes : InMemoryMailbox) (name other : MailboxName) (line : Bytes) :
    (boxes.append name line).lines other =
      if name = other then boxes.lines other ++ [line] else boxes.lines other := by
  unfold lines append
  rw [lookup_insert]
  split
  · rename_i same
    rw [same, Option.getD_some]
  · rfl

theorem drainFrom_absent (absent : boxes[name]? = none) (since : Nat) :
    boxes.drainFrom name since = ⟨[], since⟩ := by
  simp only [drainFrom, absent]

theorem drainFrom_present {entries : List Bytes} (present : boxes[name]? = some entries)
    (since : Nat) :
    boxes.drainFrom name since =
      ⟨(recordsFrom 0 entries).filter fun record => decide (since ≤ record.start),
        totalLen entries⟩ := by
  simp only [drainFrom, present]
  split
  · rename_i beyond
    congr 1
    rw [filter_recordsFrom_of_ge (by omega)]
  · rfl

theorem bytes_mem_lines {since : Nat} (member : record ∈ (boxes.drainFrom name since).records) :
    record.bytes ∈ boxes.lines name := by
  cases present : boxes[name]? with
  | none =>
    rw [drainFrom_absent present] at member
    cases member
  | some entries =>
    rw [drainFrom_present present] at member
    rw [lines, present, Option.getD_some]
    exact bytes_mem_of_recordsFrom (List.mem_filter.mp member).1

theorem drainFrom_boundary {read rest : List Bytes} (present : boxes[name]? = some (read ++ rest)) :
    boxes.drainFrom name (totalLen read) =
      ⟨recordsFrom (totalLen read) rest, totalLen (read ++ rest)⟩ := by
  rw [drainFrom_present present, filter_recordsFrom]

/-- A read after an append: the new record is there unless the cursor was past the
end. -/
theorem drainFrom_append {entries : List Bytes} (present : boxes[name]? = some entries)
    (line : Bytes) (since : Nat) :
    (boxes.append name line).drainFrom name since =
      ⟨(boxes.drainFrom name since).records ++
          (if since ≤ totalLen entries then
            [⟨line, totalLen entries, totalLen entries + recordLen line⟩] else []),
        totalLen entries + recordLen line⟩ := by
  have after : (boxes.append name line)[name]? = some (entries ++ [line]) := by
    rw [append, lookup_insert, if_pos rfl, present, Option.getD_some]
  rw [drainFrom_present after, drainFrom_present present, recordsFrom_append, List.filter_append,
    totalLen_append]
  congr 1
  congr 1
  simp only [recordsFrom, Nat.zero_add]
  split
  · rename_i reached
    rw [List.filter_cons_of_pos (by simpa using reached), List.filter_nil]
  · rename_i beyond
    rw [List.filter_cons_of_neg (by simpa using beyond), List.filter_nil]

end InMemoryMailbox

end Famp.Bus
