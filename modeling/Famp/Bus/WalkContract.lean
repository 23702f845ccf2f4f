import Famp.Bus.DrainWalk
import Famp.Json.Plain
import Mathlib.Data.List.Chain

/-!
# The cursor contract of the drain walk

A walk consumes a prefix of what a read returned.  What it hands out is what the
policy takes from that prefix, the cursor stands behind the prefix, and nothing in
the prefix is lost to a later walk under another filter.
-/

set_option autoImplicit false

namespace Famp.Bus

open Famp.Core Json

/-! ## Reads -/

/-- The records of a read lie one after the other and reach to its end. -/
structure DrainResult.IsRead (drained : DrainResult) : Prop where
  proper : ∀ record ∈ drained.records, record.start < record.stop
  contiguous : drained.records.IsChain fun first second => first.stop = second.start
  ends : ∀ last, drained.records.getLast? = some last → drained.nextOffset = last.stop

theorem recordsFrom_isChain (cursor : Nat) (lines : List Bytes) :
    (recordsFrom cursor lines).IsChain fun first second => first.stop = second.start := by
  induction lines generalizing cursor with
  | nil => exact .nil
  | cons line rest ih =>
    rw [recordsFrom, List.isChain_cons]
    refine ⟨?_, ih _⟩
    intro next first
    cases rest with
    | nil => cases first
    | cons second rest =>
      cases first
      rfl

theorem recordsFrom_getLast? {cursor : Nat} {lines : List Bytes} {last : DrainedRecord}
    (found : (recordsFrom cursor lines).getLast? = some last) :
    last.stop = cursor + totalLen lines := by
  induction lines generalizing cursor with
  | nil => cases found
  | cons line rest ih =>
    rw [totalLen_cons]
    cases rest with
    | nil =>
      cases found
      rfl
    | cons second rest =>
      rw [recordsFrom, recordsFrom, List.getLast?_cons_cons] at found
      rw [ih found, Nat.add_assoc]

theorem filter_recordsFrom_suffix (since : Nat) : ∀ (cursor : Nat) (lines : List Bytes),
    (recordsFrom cursor lines).filter (fun record => decide (since ≤ record.start)) <:+
      recordsFrom cursor lines
  | _, [] => List.suffix_rfl
  | cursor, line :: rest => by
    rw [recordsFrom, List.filter_cons]
    split
    · rename_i reached
      have all : (recordsFrom (cursor + recordLen line) rest).filter
          (fun record => decide (since ≤ record.start)) =
            recordsFrom (cursor + recordLen line) rest := by
        rw [List.filter_eq_self]
        intro record member
        have bounds := mem_recordsFrom member
        have first : since ≤ cursor := of_decide_eq_true reached
        exact decide_eq_true (by omega)
      exact ⟨[], congrArg (List.cons _) all⟩
    · exact (filter_recordsFrom_suffix since _ rest).trans (List.suffix_cons _ _)

theorem InMemoryMailbox.drainFrom_isRead (boxes : InMemoryMailbox) (name : MailboxName)
    (since : Nat) : (boxes.drainFrom name since).IsRead := by
  cases present : boxes[name]? with
  | none =>
    rw [drainFrom_absent present]
    exact ⟨by simp, .nil, by simp⟩
  | some entries =>
    rw [drainFrom_present present]
    obtain ⟨before, split⟩ := filter_recordsFrom_suffix since 0 entries
    have chain := recordsFrom_isChain 0 entries
    refine ⟨?_, ?_, ?_⟩
    · intro record member
      exact (mem_recordsFrom (List.mem_filter.mp member).1).2.1
    · rw [← split] at chain
      exact (List.isChain_append.mp chain).2.1
    · intro last found
      have whole : (recordsFrom 0 entries).getLast? = some last := by
        rw [← split, List.getLast?_append, found]
        rfl
      rw [recordsFrom_getLast? whole, Nat.zero_add]

/-! ## What a policy takes -/

/-- What the policy takes from a record: an envelope that decodes, passes the origin
gate, is not the reader's own and matches the filter. -/
def eligible (K : Text) (policy : DrainPolicy) (record : DrainedRecord) : Option (Origin × Value) :=
  match decodeLine K record.bytes with
  | .error _ => none
  | .ok (origin, value) =>
    if (policy.requireLocalOrigin = true → origin = .local) ∧
        isSelfAuthored value policy.skipSelfAuthored = false ∧
        filterMatches policy.filter value = true then
      some (origin, value)
    else none

/-- No filter takes the record. -/
def Ineligible (K : Text) (policy : DrainPolicy) (record : DrainedRecord) : Prop :=
  ∀ filter, eligible K { policy with filter := filter } record = none

theorem handed?_verdict (K : Text) (policy : DrainPolicy) (record : DrainedRecord) :
    (verdict K policy record).handed? = eligible K policy record := by
  unfold verdict eligible
  cases decodeLine K record.bytes with
  | error error => rfl
  | ok decoded =>
    obtain ⟨origin, value⟩ := decoded
    dsimp only
    by_cases gate : policy.requireLocalOrigin = true → origin = .local
    · have passes : (policy.requireLocalOrigin && origin != .local) = false := by
        cases required : policy.requireLocalOrigin
        · rfl
        · simp [gate required]
      rw [passes, if_congr (and_iff_right gate) rfl rfl]
      cases isSelfAuthored value policy.skipSelfAuthored <;>
        cases filterMatches policy.filter value <;> rfl
    · have held : (policy.requireLocalOrigin && origin != .local) = true := by
        simpa using gate
      simp [held, gate, Verdict.handed?]

variable {K : Text} {policy : DrainPolicy} {drained : DrainResult} {record : DrainedRecord}
  {since : Nat}

theorem ineligible_of_skip (skipped : verdict K policy record = .skip) :
    Ineligible K policy record := by
  intro filter
  rw [← handed?_verdict]
  unfold verdict at skipped ⊢
  cases decoded : decodeLine K record.bytes with
  | error error => rfl
  | ok entry =>
    obtain ⟨origin, value⟩ := entry
    simp only [decoded] at skipped ⊢
    split at skipped
    · rename_i held
      rw [if_pos held]
      rfl
    · rename_i passes
      rw [if_neg passes]
      split at skipped
      · rename_i own
        rw [if_pos own]
        rfl
      · split at skipped <;> cases skipped

theorem deliverable_eq (K : Text) (policy : DrainPolicy) (records : List DrainedRecord) :
    deliverable K policy records = records.filterMap (eligible K policy) := by
  simp only [deliverable, handed?_verdict]

/-! ## Caps -/

theorem walkRecords_some_zero (K : Text) (policy : DrainPolicy) (whole : Bool) :
    ∀ (records : List DrainedRecord) (delivered : List (Origin × Value)) (cursor : Nat),
      walkRecords K policy (some 0) whole records delivered cursor =
        walkRecords K policy none whole records delivered cursor := by
  intro records
  induction records with
  | nil =>
    intro delivered cursor
    rfl
  | cons record rest ih =>
    intro delivered cursor
    rw [walkRecords_cons, walkRecords_cons]
    cases verdict K policy record <;> simp [ih]

theorem walked_length_le (K : Text) (policy : DrainPolicy) (limit : Nat)
    (records : List DrainedRecord) :
    (deliverable K policy (walked K policy limit records)).length ≤ limit := by
  fun_induction walked K policy limit records with
  | case1 => simp [deliverable]
  | case2 => simp [deliverable]
  | case3 limit record rest skips ih =>
    rw [deliverable_cons, skips]
    exact ih
  | case4 limit record rest entry delivers ih =>
    rw [deliverable_cons, delivers]
    exact Nat.succ_le_succ ih
  | case5 => simp [deliverable]

theorem walked_last (limit : Nat) (records : List DrainedRecord) {last : DrainedRecord} :
    (deliverable K policy (walked K policy limit records)).length = limit →
      (walked K policy limit records).getLast? = some last →
      (eligible K policy last).isSome = true := by
  fun_induction walked K policy limit records with
  | case1 => simp
  | case2 => simp
  | case3 limit record rest skips ih =>
    intro full found
    rw [deliverable_cons, skips] at full
    cases tail : walked K policy (limit + 1) rest with
    | nil => simp [tail, deliverable, Verdict.handed?] at full
    | cons next more =>
      rw [tail, List.getLast?_cons_cons, ← tail] at found
      exact ih full found
  | case4 limit record rest entry delivers ih =>
    intro full found
    rw [deliverable_cons, delivers] at full
    cases tail : walked K policy limit rest with
    | nil =>
      rw [tail] at found
      obtain rfl : record = last := Option.some.inj found
      rw [← handed?_verdict, delivers]
      rfl
    | cons next more =>
      rw [tail, List.getLast?_cons_cons, ← tail] at found
      exact ih (Nat.succ.inj full) found
  | case5 => simp

/-! ## The contract -/

/-- The cap on delivered envelopes is reached on the last record of the read. -/
def CapReachedLast (K : Text) (policy : DrainPolicy) (drained : DrainResult) (outcome : WalkOutcome) :
    Prop :=
  ∃ last, drained.records.getLast? = some last ∧ (eligible K policy last).isSome = true ∧
    policy.cap = some (.delivered outcome.delivered.length)

structure CursorContract (K : Text) (since : Nat) (drained : DrainResult) (policy : DrainPolicy)
    (outcome : WalkOutcome) (consumed rest : List DrainedRecord) : Prop where
  split : drained.records = consumed ++ rest
  delivered : outcome.delivered = consumed.filterMap (eligible K policy)
  cursor : outcome.nextOffset = cursorAfter (min since drained.nextOffset) consumed
  behind : ∀ record ∈ consumed, record.stop ≤ outcome.nextOffset
  beyond : consumed ≠ [] → ∀ record ∈ rest, outcome.nextOffset ≤ record.start
  accounted : ∀ record ∈ consumed,
    (eligible K policy record).isSome = true ∨ Ineligible K policy record
  whole : outcome.fullyDrained = true ↔ rest = [] ∧ ¬CapReachedLast K policy drained outcome
  delivers : ∀ limit, policy.cap = some (.delivered limit) → 0 < limit →
    outcome.delivered.length ≤ limit
  scans : ∀ limit, policy.cap = some (.scanned limit) → consumed.length ≤ limit

theorem DrainResult.IsRead.pairwise (read : drained.IsRead) :
    drained.records.Pairwise fun first second => first.stop ≤ second.start := by
  obtain ⟨proper, contiguous, -⟩ := read
  generalize drained.records = records at proper contiguous
  induction records with
  | nil => exact .nil
  | cons record rest ih =>
    obtain ⟨here, later⟩ := List.forall_mem_cons.mp proper
    obtain ⟨next, chain⟩ := List.isChain_cons.mp contiguous
    have tail := ih later chain
    refine List.pairwise_cons.mpr ⟨?_, tail⟩
    intro other member
    cases rest with
    | nil => cases member
    | cons second rest =>
      have touching : record.stop = second.start := next second rfl
      have grows := later second (List.mem_cons_self ..)
      rcases List.mem_cons.mp member with rfl | further
      · omega
      · have far := (List.pairwise_cons.mp tail).1 other further
        omega

theorem accounted_of_passed (passed : verdict K policy record ≠ .stop) :
    (eligible K policy record).isSome = true ∨ Ineligible K policy record := by
  cases decided : verdict K policy record with
  | skip => exact Or.inr (ineligible_of_skip decided)
  | stop => exact absurd decided passed
  | deliver entry =>
    rw [← handed?_verdict, decided]
    exact Or.inl rfl

theorem DrainResult.IsRead.cursor_between (read : drained.IsRead)
    {consumed rest : List DrainedRecord} (split : drained.records = consumed ++ rest)
    (start : Nat) : (∀ record ∈ consumed, record.stop ≤ cursorAfter start consumed) ∧
      (consumed ≠ [] → ∀ record ∈ rest, cursorAfter start consumed ≤ record.start) := by
  have ordered := read.pairwise
  have proper := read.proper
  rw [split] at ordered proper
  rcases List.eq_nil_or_concat consumed with rfl | ⟨before, last, rfl⟩
  · exact ⟨by simp, by simp⟩
  · rw [List.concat_eq_append] at ordered proper ⊢
    rw [cursorAfter_concat]
    obtain ⟨first, -, across⟩ := List.pairwise_append.mp ordered
    obtain ⟨-, -, ahead⟩ := List.pairwise_append.mp first
    refine ⟨?_, ?_⟩
    · intro record member
      rcases List.mem_append.mp member with earlier | same
      · have below := ahead record earlier last (List.mem_singleton_self last)
        have grows := proper last (by simp)
        omega
      · rw [List.mem_singleton.mp same]
    · intro _ record member
      exact across last (by simp) record member

theorem CursorContract.of_consumed {outcome : WalkOutcome} {consumed rest : List DrainedRecord}
    (read : drained.IsRead) (split : drained.records = consumed ++ rest)
    (passed : ∀ record ∈ consumed, verdict K policy record ≠ .stop)
    (delivered : outcome.delivered = deliverable K policy consumed)
    (cursor : outcome.nextOffset = cursorAfter (min since drained.nextOffset) consumed)
    (whole : outcome.fullyDrained = true ↔ rest = [] ∧ ¬CapReachedLast K policy drained outcome)
    (delivers : ∀ limit, policy.cap = some (.delivered limit) → 0 < limit →
      outcome.delivered.length ≤ limit)
    (scans : ∀ limit, policy.cap = some (.scanned limit) → consumed.length ≤ limit) :
    CursorContract K since drained policy outcome consumed rest := by
  obtain ⟨behind, beyond⟩ := read.cursor_between split (min since drained.nextOffset)
  rw [← cursor] at behind beyond
  rw [deliverable_eq] at delivered
  exact ⟨split, delivered, cursor, behind, beyond,
    fun record member => accounted_of_passed (passed record member), whole, delivers, scans⟩

theorem capReachedLast_delivered {outcome : WalkOutcome}
    (reached : CapReachedLast K policy drained outcome)
    (delivered : outcome.delivered = deliverable K policy drained.records) :
    policy.cap ≠ some (.delivered 0) := by
  intro zero
  obtain ⟨last, found, taken, cap⟩ := reached
  have nothing : outcome.delivered = [] := by
    rw [zero] at cap
    cases hd : outcome.delivered with
    | nil => rfl
    | cons entry more => simp [hd] at cap
  rw [nothing, deliverable_eq, eq_comm, List.filterMap_eq_nil_iff] at delivered
  rw [delivered last (List.mem_of_getLast? found)] at taken
  cases taken

theorem contract_uncapped (read : drained.IsRead)
    (plain : ∀ limit, policy.cap = some (.delivered limit) → limit = 0)
    {records more : List DrainedRecord} {whole : Bool} (split : drained.records = records ++ more)
    (complete : whole = true ↔ more = [])
    (scans : ∀ limit, policy.cap = some (.scanned limit) → records.length ≤ limit) :
    ∃ consumed rest, CursorContract K since drained policy
      (walkRecords K policy none whole records [] (min since drained.nextOffset)) consumed rest := by
  obtain ⟨taken, rest, spec⟩ :=
    walkRecords_spec K policy none whole records [] (min since drained.nextOffset)
  have delivered := spec.delivers
  rw [List.nil_append] at delivered
  refine ⟨taken, rest ++ more, .of_consumed read ?_ spec.passed delivered spec.ends ?_ ?_ ?_⟩
  · rw [split, spec.split, List.append_assoc]
  · constructor
    · intro full
      obtain ⟨rfl, all⟩ := spec.drained full
      obtain rfl := complete.mp all
      refine ⟨rfl, fun reached => ?_⟩
      have everything : drained.records = taken := by
        rw [split, spec.split, List.append_nil, List.append_nil]
      rw [← everything] at delivered
      have positive := capReachedLast_delivered reached delivered
      obtain ⟨last, -, -, cap⟩ := reached
      rw [plain _ cap] at cap
      exact positive cap
    · rintro ⟨ended, -⟩
      obtain ⟨rfl, rfl⟩ := List.append_eq_nil_iff.mp ended
      rw [← Bool.not_eq_false]
      intro stopped
      rcases spec.stopped stopped with ⟨-, partly⟩ | ⟨record, others, nonempty, -⟩ | capped
      · rw [complete.mpr rfl] at partly
        cases partly
      · cases nonempty
      · cases capped
  · intro limit cap positive
    have zero := plain limit cap
    omega
  · intro limit cap
    have bound := scans limit cap
    rw [spec.split, List.length_append] at bound
    omega

theorem contract_capped {limit : Nat} (read : drained.IsRead)
    (cap : policy.cap = some (.delivered (limit + 1))) :
    ∃ consumed rest, CursorContract K since drained policy
      (walkRecords K policy (some (limit + 1)) true drained.records []
        (min since drained.nextOffset)) consumed rest := by
  have computed := walkRecords_eq K policy drained.records limit [] (min since drained.nextOffset)
  rw [List.length_nil, Nat.zero_add, List.nil_append] at computed
  rw [computed]
  obtain ⟨rest, split⟩ := walked_isPrefix K policy (limit + 1) drained.records
  have room := walked_length_le K policy (limit + 1) drained.records
  refine ⟨_, rest, .of_consumed read split.symm (walked_passes K policy _ _) rfl rfl ?_ ?_ ?_⟩
  · rw [drainsAll, decide_eq_true_iff]
    constructor
    · rintro ⟨all, under⟩
      rw [all] at split
      refine ⟨List.append_right_eq_self.mp split, ?_⟩
      rintro ⟨last, -, -, full⟩
      rw [cap, all] at full
      simp only [Option.some.injEq, DrainCap.delivered.injEq] at full
      omega
    · rintro ⟨rfl, notLast⟩
      rw [List.append_nil] at split
      refine ⟨split, ?_⟩
      rw [split] at room
      rcases Nat.lt_or_ge (deliverable K policy drained.records).length (limit + 1) with under | full
      · exact under
      · have full : (deliverable K policy drained.records).length = limit + 1 := by omega
        exfalso
        apply notLast
        cases found : drained.records.getLast? with
        | none =>
          rw [List.getLast?_eq_none_iff.mp found] at full
          simp [deliverable] at full
        | some last =>
          have ends := @walked_last K policy (limit + 1) drained.records last
          rw [split] at ends
          exact ⟨last, found, ends full found, by rw [cap, split, full]⟩
  · intro other same positive
    obtain rfl := DrainCap.delivered.inj (Option.some.inj (cap.symm.trans same))
    exact room
  · intro other same
    rw [cap] at same
    cases same

/-- Every walk over a read meets the contract of its cursor. -/
theorem walk_meets_cursor_contract (K : Text) (since : Nat) {drained : DrainResult}
    (read : drained.IsRead) (policy : DrainPolicy) :
    ∃ consumed rest,
      CursorContract K since drained policy (walk K since drained policy) consumed rest := by
  unfold walk
  cases cap : policy.cap with
  | none =>
    exact contract_uncapped read (by simp [cap]) (List.append_nil _).symm (by simp) (by simp [cap])
  | some kind =>
    cases kind with
    | scanned limit =>
      refine contract_uncapped read (by simp [cap]) (List.take_append_drop limit _).symm ?_ ?_
      · rw [decide_eq_true_iff, List.drop_eq_nil_iff]
      · intro other same
        obtain rfl := DrainCap.scanned.inj (Option.some.inj (cap.symm.trans same))
        exact List.length_take_le ..
    | delivered limit =>
      cases limit with
      | zero =>
        dsimp only
        rw [walkRecords_some_zero]
        refine contract_uncapped read ?_ (List.append_nil _).symm (by simp) (by simp [cap])
        intro other same
        exact (DrainCap.delivered.inj (Option.some.inj (cap.symm.trans same))).symm
      | succ limit => exact contract_capped read cap

/-- A mailbox with a line that is no record and an entry of the audit log. -/
def noisyBox : InMemoryMailbox :=
  let entry := StampedEnvelope.toValue
    ⟨.local, auditEntry "agent:example/bob" "agent:example/alice"⟩
  (InMemoryMailbox.append ∅ (.agent "alice") (utf8 "?")).append (.agent "alice")
    ((Plain.text.canonicalize entry).toOption.getD [])

/-- The walk of an `Await` that may take one envelope. -/
theorem noisyBox_cursor_contract :
    let drained := noisyBox.drainFrom (.agent "alice") 0
    let policy : DrainPolicy := ⟨.any, none, true, some (.delivered 1)⟩
    let outcome := walk Plain.text 0 drained policy
    (∃ consumed rest, CursorContract Plain.text 0 drained policy outcome consumed rest) ∧
      drained.records.length = 2 ∧ outcome.delivered.length = 1 ∧ outcome.fullyDrained = false := by
  refine ⟨?_, ?_, ?_, ?_⟩
  · exact walk_meets_cursor_contract Plain.text 0
      (noisyBox.drainFrom_isRead (.agent "alice") 0) ⟨.any, none, true, some (.delivered 1)⟩
  all_goals decide +kernel

end Famp.Bus
