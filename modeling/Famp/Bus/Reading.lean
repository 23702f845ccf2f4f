import Famp.Bus.System

/-!
# Reading a mailbox from a cursor

A cursor that lies between two records splits the lines of its mailbox into those
that have been read and those that are pending.  From such a cursor every read goes
through lines at the front of the pending ones, hands out what they hold for the
reader, and ends between two records again.
-/

set_option autoImplicit false

namespace Famp.Bus

open Famp.Core Json Data Std

/-! ## What lines hold for a reader -/

/-- What the line holds for the reader: nothing if it does not decode, if it comes from
elsewhere and only local mail counts, or if the reader wrote it. -/
def handout? (K : Text) (localOnly : Bool) (reader : Option String) (line : Bytes) :
    Option StampedEnvelope :=
  match decodeLine K line with
  | .error _ => none
  | .ok (origin, value) =>
    if localOnly && origin != .local then none
    else if isSelfAuthored value reader then none
    else some ⟨origin, value⟩

def handouts (K : Text) (localOnly : Bool) (reader : Option String) (lines : List Bytes) :
    List StampedEnvelope :=
  lines.filterMap (handout? K localOnly reader)

section Handouts
variable (K : Text) (localOnly : Bool) (reader : Option String)

theorem handouts_cons (line : Bytes) (rest : List Bytes) :
    handouts K localOnly reader (line :: rest) =
      (handout? K localOnly reader line).toList ++ handouts K localOnly reader rest := by
  cases found : handout? K localOnly reader line <;> simp [handouts, found]

theorem handouts_append (first second : List Bytes) :
    handouts K localOnly reader (first ++ second) =
      handouts K localOnly reader first ++ handouts K localOnly reader second :=
  List.filterMap_append

/-- A reader of local mail who skips its own posts gets no more than one who takes
everything. -/
theorem handouts_sublist (lines : List Bytes) :
    (handouts K localOnly reader lines).Sublist (handouts K false none lines) := by
  induction lines with
  | nil => exact List.Sublist.refl _
  | cons line rest ih =>
    have here : (handout? K localOnly reader line).toList.Sublist
        (handout? K false none line).toList := by
      unfold handout?
      cases decodeLine K line with
      | error error => exact List.Sublist.refl _
      | ok decoded =>
        dsimp only
        split
        · exact List.nil_sublist _
        · split
          · exact List.nil_sublist _
          · exact List.Sublist.refl _
    rw [handouts_cons, handouts_cons]
    exact here.append ih

end Handouts

variable {cursor start : Nat} {K : Text} {policy : DrainPolicy} {lines : List Bytes}
  {boxes : InMemoryMailbox} {name : MailboxName}

/-- A walk that is not stopped by a record takes from it what it holds for the reader. -/
theorem handed_of_not_stop {record : DrainedRecord} (goes : verdict K policy record ≠ .stop) :
    (verdict K policy record).handed?.map (fun entry => StampedEnvelope.mk entry.1 entry.2) =
      handout? K policy.requireLocalOrigin policy.skipSelfAuthored record.bytes := by
  unfold verdict at goes ⊢
  unfold handout?
  cases decoded : decodeLine K record.bytes with
  | error error => rfl
  | ok entry =>
    simp only [decoded] at goes ⊢
    split
    · rfl
    · rename_i trusted
      split
      · rfl
      · rename_i foreign
        simp only [if_neg trusted, if_neg foreign] at goes
        split
        · rfl
        · rename_i unwanted
          exact absurd (if_neg unwanted) goes

theorem verdict_any (K : Text) (reader : Option String) (localOnly : Bool) (cap : Option DrainCap)
    (record : DrainedRecord) : verdict K ⟨.any, reader, localOnly, cap⟩ record ≠ .stop := by
  unfold verdict
  split
  · simp
  · split
    · simp
    · split
      · simp
      · simp [filterMatches]

theorem walkRecords_passes {records : List DrainedRecord}
    (passed : ∀ record ∈ records, verdict K policy record ≠ .stop) (whole : Bool)
    (delivered : List (Origin × Value)) (cursor : Nat) :
    let outcome := walkRecords K policy none whole records delivered cursor
    outcome.delivered = delivered ++ deliverable K policy records ∧
      outcome.nextOffset = cursorAfter cursor records := by
  obtain ⟨taken, rest, spec⟩ := walkRecords_spec K policy none whole records delivered cursor
  have all : rest = [] := by
    cases drained : (walkRecords K policy none whole records delivered cursor).fullyDrained with
    | true => exact (spec.drained drained).1
    | false =>
      rcases spec.stopped drained with ⟨all, -⟩ | ⟨record, more, split, stops⟩ | capped
      · exact all
      · refine absurd stops (passed record ?_)
        rw [spec.split, split]
        exact List.mem_append_right _ (List.mem_cons_self ..)
      · cases capped
  have same : records = taken := by rw [spec.split, all, List.append_nil]
  rw [same]
  exact ⟨same ▸ spec.delivers, same ▸ spec.ends⟩

theorem stamp_deliverable : ∀ {records : List DrainedRecord},
    (∀ record ∈ records, verdict K policy record ≠ .stop) →
      stamp (deliverable K policy records) =
        handouts K policy.requireLocalOrigin policy.skipSelfAuthored
          (records.map DrainedRecord.bytes)
  | [], _ => rfl
  | record :: rest, passed => by
    obtain ⟨goes, later⟩ := List.forall_mem_cons.mp passed
    have here := congrArg Option.toList (handed_of_not_stop goes)
    rw [Option.toList_map] at here
    rw [deliverable_cons, stamp, List.map_append, here, List.map_cons, handouts_cons,
      ← stamp_deliverable later]
    rfl

/-! ## Cursors between records -/

theorem cursorAfter_recordsFrom (lines : List Bytes) : ∀ cursor : Nat,
    cursorAfter cursor (recordsFrom cursor lines) = cursor + totalLen lines := by
  induction lines with
  | nil => exact fun _ => rfl
  | cons line rest ih =>
    intro cursor
    rw [recordsFrom, cursorAfter_cons, ih, totalLen_cons, Nat.add_assoc]

theorem length_recordsFrom (cursor : Nat) (lines : List Bytes) :
    (recordsFrom cursor lines).length = lines.length := by
  rw [← List.length_map DrainedRecord.bytes, map_bytes_recordsFrom]

theorem take_recordsFrom (limit : Nat) : ∀ (cursor : Nat) (lines : List Bytes),
    (recordsFrom cursor lines).take limit = recordsFrom cursor (lines.take limit) := by
  induction limit with
  | zero => exact fun _ _ => rfl
  | succ limit ih =>
    intro cursor lines
    cases lines with
    | nil => rfl
    | cons line rest => simp only [recordsFrom, List.take_succ_cons, ih]

theorem recordsFrom_of_prefix {taken : List DrainedRecord}
    (starts : taken <+: recordsFrom cursor lines) :
    ∃ first second, lines = first ++ second ∧ taken = recordsFrom cursor first := by
  refine ⟨lines.take taken.length, lines.drop taken.length, (List.take_append_drop ..).symm, ?_⟩
  rw [← take_recordsFrom]
  exact List.prefix_iff_eq_take.mp starts

theorem InMemoryMailbox.drainFrom_pending {read rest : List Bytes}
    (split : boxes.lines name = read ++ rest) :
    boxes.drainFrom name (totalLen read) =
      ⟨recordsFrom (totalLen read) rest, totalLen (read ++ rest)⟩ := by
  cases present : boxes[name]? with
  | some entries =>
    have same : entries = read ++ rest := by rw [← split, lines, present, Option.getD_some]
    exact drainFrom_boundary (present.trans (congrArg some same))
  | none =>
    have nothing : read ++ rest = [] := by rw [← split, lines, present, Option.getD_none]
    obtain ⟨rfl, rfl⟩ := List.append_eq_nil_iff.mp nothing
    exact drainFrom_absent present _

/-- Past the last line of a mailbox that exists there is nothing to read. -/
theorem InMemoryMailbox.drainFrom_beyond {entries : List Bytes}
    (present : boxes[name]? = some entries) {since : Nat} (beyond : totalLen entries ≤ since) :
    boxes.drainFrom name since = ⟨[], totalLen entries⟩ := by
  simp only [drainFrom, present, if_pos beyond]

/-- The lines that lie before the cursor, where the first one is at `start`. -/
def linesBelow (cursor start : Nat) (lines : List Bytes) : List Bytes :=
  ((recordsFrom start lines).filter fun record => decide (record.start < cursor)).map
    DrainedRecord.bytes

/-- The lines that do not. -/
def linesFrom (cursor start : Nat) (lines : List Bytes) : List Bytes :=
  ((recordsFrom start lines).filter fun record => decide (cursor ≤ record.start)).map
    DrainedRecord.bytes

theorem linesFrom_of_le (reached : cursor ≤ start) (lines : List Bytes) :
    linesFrom cursor start lines = lines := by
  have all : (recordsFrom start lines).filter (fun record => decide (cursor ≤ record.start)) =
      recordsFrom start lines := by
    rw [List.filter_eq_self]
    intro record member
    exact decide_eq_true (reached.trans (mem_recordsFrom member).1)
  rw [linesFrom, all, map_bytes_recordsFrom]

theorem linesBelow_of_le (reached : cursor ≤ start) (lines : List Bytes) :
    linesBelow cursor start lines = [] := by
  rw [linesBelow, List.map_eq_nil_iff, List.filter_eq_nil_iff]
  intro record member
  have bounds := mem_recordsFrom member
  simp only [decide_eq_true_eq]
  omega

theorem linesFrom_of_ge (passed : start + totalLen lines ≤ cursor) :
    linesFrom cursor start lines = [] := by
  rw [linesFrom, filter_recordsFrom_of_ge passed, List.map_nil]

theorem linesFrom_max (cursor start : Nat) (lines : List Bytes) :
    linesFrom (max cursor start) start lines = linesFrom cursor start lines := by
  rw [linesFrom, linesFrom]
  congr 1
  refine List.filter_congr fun record member => ?_
  have bounds := mem_recordsFrom member
  simp only [decide_eq_decide]
  omega

theorem linesFrom_append (cursor start : Nat) (first second : List Bytes) :
    linesFrom cursor start (first ++ second) =
      linesFrom cursor start first ++ linesFrom cursor (start + totalLen first) second := by
  rw [linesFrom, recordsFrom_append, List.filter_append, List.map_append]
  rfl

theorem linesBelow_append_linesFrom (cursor : Nat) : ∀ (start : Nat) (lines : List Bytes),
    linesBelow cursor start lines ++ linesFrom cursor start lines = lines
  | _, [] => rfl
  | start, line :: rest => by
    by_cases reached : cursor ≤ start
    · rw [linesBelow_of_le reached, linesFrom_of_le reached, List.nil_append]
    · have below : start < cursor := Nat.lt_of_not_le reached
      have later := linesBelow_append_linesFrom cursor (start + recordLen line) rest
      simp only [linesBelow, linesFrom, recordsFrom, List.filter_cons, decide_eq_true below,
        decide_eq_false reached, if_true, Bool.false_eq_true, if_false, List.map_cons,
        List.cons_append, List.cons.injEq, true_and] at later ⊢
      exact later

theorem linesBelow_boundary (read rest : List Bytes) :
    linesBelow (totalLen read) 0 (read ++ rest) = read := by
  have split := linesBelow_append_linesFrom (totalLen read) 0 (read ++ rest)
  have rest' : linesFrom (totalLen read) 0 (read ++ rest) = rest := by
    rw [linesFrom, filter_recordsFrom, map_bytes_recordsFrom]
  rw [rest'] at split
  exact List.append_cancel_right split

/-! ## Reads without a limit -/

theorem decodeLines_eq (K : Text) (since : Nat) (drained : DrainResult) :
    decodeLines K since drained =
      handouts K false none (drained.records.map DrainedRecord.bytes) := by
  have passed : ∀ record ∈ drained.records, verdict K ⟨.any, none, false, none⟩ record ≠ .stop :=
    fun record _ => verdict_any K none false none record
  have delivers := (walkRecords_passes passed true [] (min since drained.nextOffset)).1
  rw [List.nil_append] at delivers
  exact (congrArg stamp delivers).trans (stamp_deliverable passed)

theorem decodeLines_drainFrom (K : Text) (boxes : InMemoryMailbox) (name : MailboxName)
    (cursor : Nat) :
    decodeLines K cursor (boxes.drainFrom name cursor) =
      handouts K false none (linesFrom cursor 0 (boxes.lines name)) := by
  rw [decodeLines_eq, InMemoryMailbox.lines]
  cases present : boxes[name]? with
  | none => rw [InMemoryMailbox.drainFrom_absent present]; rfl
  | some entries => rw [InMemoryMailbox.drainFrom_present present]; rfl

theorem max_nextOffset_drainFrom (boxes : InMemoryMailbox) (name : MailboxName) (cursor : Nat) :
    max cursor (boxes.drainFrom name cursor).nextOffset =
      max cursor (totalLen (boxes.lines name)) := by
  rw [InMemoryMailbox.lines]
  cases present : boxes[name]? with
  | none => simp [InMemoryMailbox.drainFrom_absent present, totalLen]
  | some entries => rw [InMemoryMailbox.drainFrom_present present, Option.getD_some]

theorem decodeLines_whole (K : Text) (boxes : InMemoryMailbox) (name : MailboxName) :
    decodeLines K 0 (boxes.drainFrom name 0) = handouts K false none (boxes.lines name) ∧
      (boxes.drainFrom name 0).nextOffset = totalLen (boxes.lines name) := by
  have whole : boxes.drainFrom name 0 =
      ⟨recordsFrom 0 (boxes.lines name), totalLen (boxes.lines name)⟩ :=
    InMemoryMailbox.drainFrom_pending (List.nil_append (boxes.lines name)).symm
  rw [decodeLines_eq, whole]
  exact ⟨by rw [map_bytes_recordsFrom], rfl⟩

/-! ## Reads of an `Await` -/

theorem readBatch_pending (K : Text) (mailbox : MailboxName) (filter : AwaitFilter)
    (reader : Option String) (read rest : List Bytes) :
    let batch := readBatch K mailbox filter reader (totalLen read)
      ⟨recordsFrom (totalLen read) rest, totalLen (read ++ rest)⟩
    ∃ first second, rest = first ++ second ∧ batch.envelopes = handouts K true reader first ∧
      batch.nextOffset = totalLen (read ++ first) ∧ (batch.fullyDrained = true → second = []) := by
  intro batch
  obtain ⟨first, second, split, taken⟩ := recordsFrom_of_prefix
    (walked_isPrefix K (awaitPolicy filter reader) awaitBatchCap (recordsFrom (totalLen read) rest))
  have passed : ∀ record ∈ recordsFrom (totalLen read) first,
      verdict K (awaitPolicy filter reader) record ≠ .stop := by
    rw [← taken]
    exact walked_passes K (awaitPolicy filter reader) awaitBatchCap _
  have start : min (totalLen read) (totalLen (read ++ rest)) = totalLen read := by
    rw [totalLen_append]
    omega
  refine ⟨first, second, split, ?_, ?_, ?_⟩
  · show stamp (deliverable K (awaitPolicy filter reader) (walked ..)) = _
    rw [taken, stamp_deliverable passed, map_bytes_recordsFrom]
    rfl
  · show cursorAfter (min (totalLen read) (totalLen (read ++ rest))) (walked ..) = _
    rw [taken, start, cursorAfter_recordsFrom, totalLen_append]
  · intro all
    have same := walked_eq_of_drainsAll all
    rw [taken] at same
    have lines := congrArg (List.map DrainedRecord.bytes) same
    rw [map_bytes_recordsFrom, map_bytes_recordsFrom, split] at lines
    exact List.self_eq_append_right.mp lines

/-! ## Reads of a poll -/

theorem drainChannel_pending (K : Text) (name : String) (read rest : List Bytes) :
    drainChannel K name (totalLen read)
        ⟨recordsFrom (totalLen read) rest, totalLen (read ++ rest)⟩ =
      (handouts K false (some name) (rest.take channelDrainCap),
        if rest = [] then none else some (totalLen (read ++ rest.take channelDrainCap))) := by
  by_cases pending : rest = []
  · subst pending
    simp [drainChannel, recordsFrom, handouts]
  · have records : (recordsFrom (totalLen read) rest).isEmpty = false := by
      cases rest with
      | nil => exact absurd rfl pending
      | cons line more => rfl
    have start : min (totalLen read) (totalLen (read ++ rest)) = totalLen read := by
      rw [totalLen_append]
      omega
    have passed : ∀ record ∈ recordsFrom (totalLen read) (rest.take channelDrainCap),
        verdict K ⟨.any, some name, false, some (.scanned channelDrainCap)⟩ record ≠ .stop :=
      fun record _ => verdict_any K (some name) false (some (.scanned channelDrainCap)) record
    obtain ⟨delivers, ends⟩ := walkRecords_passes passed
      (decide (rest.length ≤ channelDrainCap)) [] (totalLen read)
    rw [List.nil_append] at delivers
    rw [cursorAfter_recordsFrom, ← totalLen_append] at ends
    rw [drainChannel, records, if_neg pending]
    simp only [Bool.false_eq_true, if_false, walk, start, take_recordsFrom, delivers, ends,
      stamp_deliverable passed, map_bytes_recordsFrom, length_recordsFrom, Prod.mk.injEq, Option.some.injEq, true_and]
    split
    · rfl
    · rename_i few
      rw [List.take_of_length_le (Nat.le_of_not_lt few)]

end Famp.Bus
