import Famp.Bus.Origin
import Famp.Bus.State

/-!
# The drain walk

One loop decides for every record of a drain whether it is delivered, skipped or
stops the walk, and moves the cursor past each record that it accounts for.
-/

set_option autoImplicit false

namespace Famp.Bus

open Famp.Core Json

inductive DrainCap where
  /-- Stop after so many delivered envelopes. -/
  | delivered (limit : Nat)
  /-- Look at so many records, delivered or not. -/
  | scanned (limit : Nat)
  deriving DecidableEq, Repr

structure DrainPolicy where
  filter : AwaitFilter
  skipSelfAuthored : Option String
  requireLocalOrigin : Bool
  cap : Option DrainCap

structure WalkOutcome where
  delivered : List (Origin × Value)
  nextOffset : Nat
  fullyDrained : Bool

/-- `rsplit('/').next()`: what follows the last slash. -/
def lastSegment (text : String) : List Char :=
  (text.toList.reverse.takeWhile (· ≠ '/')).reverse

/-- The name that the envelope's `from` ends in. -/
def senderLeaf (envelope : Value) : Option (List Char) :=
  ((envelope.get? "from").bind Value.asStr?).map lastSegment

def isSelfAuthored (envelope : Value) : Option String → Bool
  | none => false
  | some reader => senderLeaf envelope == some reader.toList

/-- The id of the task that the envelope belongs to, as text: its own id for a
request, the id it refers to for any other class. -/
def rawTaskId (envelope : Value) : Option String :=
  if (envelope.get? "class").bind Value.asStr? = some "request" then
    (envelope.get? "id").bind Value.asStr?
  else ((envelope.get? "causality").bind (Value.get? · "ref")).bind Value.asStr?

def filterMatches (filter : AwaitFilter) (envelope : Value) : Bool :=
  match filter with
  | .any => true
  | .task id => (rawTaskId envelope).bind Uuid.parseStr == some id

/-- The loop of `walk`, with what it has delivered and its cursor so far.
`whole` is whether the records are all that the drain holds. -/
def walkRecords (K : Text) (policy : DrainPolicy) (deliveredCap : Option Nat) (whole : Bool) :
    List DrainedRecord → List (Origin × Value) → Nat → WalkOutcome
  | [], delivered, nextOffset => ⟨delivered, nextOffset, whole⟩
  | record :: rest, delivered, nextOffset =>
    match decodeLine K record.bytes with
    | .error _ => walkRecords K policy deliveredCap whole rest delivered record.stop
    | .ok (origin, value) =>
      if policy.requireLocalOrigin && origin != .local then
        walkRecords K policy deliveredCap whole rest delivered record.stop
      else if isSelfAuthored value policy.skipSelfAuthored then
        walkRecords K policy deliveredCap whole rest delivered record.stop
      else if filterMatches policy.filter value then
        if deliveredCap = some (delivered.length + 1) then
          ⟨delivered ++ [(origin, value)], record.stop, false⟩
        else
          walkRecords K policy deliveredCap whole rest (delivered ++ [(origin, value)])
            record.stop
      else ⟨delivered, nextOffset, false⟩

def walk (K : Text) (since : Nat) (drained : DrainResult) (policy : DrainPolicy) : WalkOutcome :=
  let start := min since drained.nextOffset
  match policy.cap with
  | some (.scanned limit) =>
    walkRecords K policy none (decide (drained.records.length ≤ limit))
      (drained.records.take limit) [] start
  | some (.delivered limit) => walkRecords K policy (some limit) true drained.records [] start
  | none => walkRecords K policy none true drained.records [] start

def stamp (delivered : List (Origin × Value)) : List StampedEnvelope :=
  delivered.map fun entry => ⟨entry.1, entry.2⟩

/-- `decode_lines`: everything that decodes, whoever wrote it. -/
def decodeLines (K : Text) (startOffset : Nat) (drained : DrainResult) : List StampedEnvelope :=
  stamp (walk K startOffset drained
    { filter := .any, skipSelfAuthored := none, requireLocalOrigin := false, cap := none }).delivered

/-! ## What a walk does -/

/-- What the walk decides about one record. -/
inductive Verdict where
  | skip
  | deliver (entry : Origin × Value)
  | stop
  deriving DecidableEq

def verdict (K : Text) (policy : DrainPolicy) (record : DrainedRecord) : Verdict :=
  match decodeLine K record.bytes with
  | .error _ => .skip
  | .ok (origin, value) =>
    if policy.requireLocalOrigin && origin != .local then .skip
    else if isSelfAuthored value policy.skipSelfAuthored then .skip
    else if filterMatches policy.filter value then .deliver (origin, value)
    else .stop

def Verdict.handed? : Verdict → Option (Origin × Value)
  | .deliver entry => some entry
  | _ => none

variable {K : Text} {policy : DrainPolicy}

variable {record : DrainedRecord} {entry : Origin × Value} {records : List DrainedRecord}

theorem verdict_deliver (delivers : verdict K policy record = .deliver entry) :
    decodeLine K record.bytes = .ok entry ∧
      (policy.requireLocalOrigin = true → entry.1 = .local) := by
  unfold verdict at delivers
  split at delivers
  · cases delivers
  · rename_i origin value decoded
    split at delivers
    · cases delivers
    · rename_i trusted
      split at delivers
      · cases delivers
      · split at delivers
        · cases delivers
          refine ⟨decoded, fun required => ?_⟩
          simpa [required] using trusted
        · cases delivers

/-- What a walk that goes through all of `records` delivers. -/
def deliverable (K : Text) (policy : DrainPolicy) (records : List DrainedRecord) :
    List (Origin × Value) :=
  records.filterMap fun record => (verdict K policy record).handed?

def cursorAfter (cursor : Nat) (records : List DrainedRecord) : Nat :=
  (records.getLast?.map DrainedRecord.stop).getD cursor

theorem cursorAfter_cons (cursor : Nat) (record : DrainedRecord) (records : List DrainedRecord) :
    cursorAfter cursor (record :: records) = cursorAfter record.stop records := by
  cases records with
  | nil => rfl
  | cons next rest =>
    have last : (next :: rest).getLast? = some ((next :: rest).getLast (by simp)) :=
      List.getLast?_eq_some_getLast (by simp)
    simp [cursorAfter, List.getLast?_cons_cons, last]

theorem walkRecords_cons (K : Text) (policy : DrainPolicy) (cap : Option Nat) (whole : Bool)
    (record : DrainedRecord) (rest : List DrainedRecord) (delivered : List (Origin × Value))
    (cursor : Nat) :
    walkRecords K policy cap whole (record :: rest) delivered cursor =
      match verdict K policy record with
      | .skip => walkRecords K policy cap whole rest delivered record.stop
      | .deliver entry =>
        if cap = some (delivered.length + 1) then ⟨delivered ++ [entry], record.stop, false⟩
        else walkRecords K policy cap whole rest (delivered ++ [entry]) record.stop
      | .stop => ⟨delivered, cursor, false⟩ := by
  unfold verdict
  rw [walkRecords]
  cases decodeLine K record.bytes with
  | error error => rfl
  | ok decoded =>
    obtain ⟨origin, value⟩ := decoded
    dsimp only
    split
    · rfl
    · split
      · rfl
      · split <;> rfl

/-- How a walk over `records` ends: what it went through, and what stopped it. -/
structure WalkSpec (K : Text) (policy : DrainPolicy) (cap : Option Nat) (whole : Bool)
    (records : List DrainedRecord) (delivered : List (Origin × Value)) (cursor : Nat)
    (outcome : WalkOutcome) (taken rest : List DrainedRecord) : Prop where
  split : records = taken ++ rest
  passed : ∀ record ∈ taken, verdict K policy record ≠ .stop
  delivers : outcome.delivered = delivered ++ deliverable K policy taken
  ends : outcome.nextOffset = cursorAfter cursor taken
  drained : outcome.fullyDrained = true → rest = [] ∧ whole = true
  stopped : outcome.fullyDrained = false →
    (rest = [] ∧ whole = false) ∨ (∃ record more, rest = record :: more ∧
      verdict K policy record = .stop) ∨ cap = some outcome.delivered.length

theorem WalkSpec.cons {K : Text} {policy : DrainPolicy} {cap : Option Nat} {whole : Bool}
    {record : DrainedRecord} {records taken rest : List DrainedRecord}
    {delivered : List (Origin × Value)} {cursor : Nat} {outcome : WalkOutcome}
    (passed : verdict K policy record ≠ .stop)
    (spec : WalkSpec K policy cap whole records (delivered ++ (verdict K policy record).handed?.toList)
      record.stop outcome taken rest) :
    WalkSpec K policy cap whole (record :: records) delivered cursor outcome (record :: taken) rest where
  split := by rw [spec.split]; rfl
  passed := List.forall_mem_cons.mpr ⟨passed, spec.passed⟩
  delivers := by
    rw [spec.delivers]
    cases handed : (verdict K policy record).handed? <;> simp [deliverable, handed]
  ends := by rw [spec.ends, cursorAfter_cons]
  drained := spec.drained
  stopped := spec.stopped

theorem walkRecords_spec (K : Text) (policy : DrainPolicy) (cap : Option Nat) (whole : Bool) :
    ∀ (records : List DrainedRecord) (delivered : List (Origin × Value)) (cursor : Nat),
      ∃ taken rest, WalkSpec K policy cap whole records delivered cursor
        (walkRecords K policy cap whole records delivered cursor) taken rest := by
  intro records
  induction records with
  | nil =>
    intro delivered cursor
    refine ⟨[], [], rfl, by simp, by simp [walkRecords, deliverable], rfl, ?_, ?_⟩
    · intro drained
      exact ⟨rfl, drained⟩
    · intro stopped
      exact Or.inl ⟨rfl, stopped⟩
  | cons record records ih =>
    intro delivered cursor
    rw [walkRecords_cons]
    cases decided : verdict K policy record with
    | skip =>
      obtain ⟨taken, rest, spec⟩ := ih delivered record.stop
      exact ⟨_, rest, .cons (by simp [decided]) (by simpa [decided, Verdict.handed?] using spec)⟩
    | deliver entry =>
      dsimp only
      split
      · rename_i full
        refine ⟨[record], records, rfl, by simp [decided], ?_, rfl, by simp, ?_⟩
        · simp [deliverable, decided, Verdict.handed?]
        · intro _
          exact Or.inr (Or.inr (by simp [full]))
      · obtain ⟨taken, rest, spec⟩ := ih (delivered ++ [entry]) record.stop
        exact ⟨_, rest, .cons (by simp [decided]) (by simpa [decided, Verdict.handed?] using spec)⟩
    | stop =>
      refine ⟨[], record :: records, rfl, by simp, by simp [deliverable], rfl, by simp, ?_⟩
      intro _
      exact Or.inr (Or.inl ⟨record, records, rfl, decided⟩)

/-! ## Walks that deliver a bounded number of envelopes -/

/-- The records that a walk goes through while it may deliver `limit` envelopes. -/
def walked (K : Text) (policy : DrainPolicy) : Nat → List DrainedRecord → List DrainedRecord
  | 0, _ => []
  | _ + 1, [] => []
  | limit + 1, record :: rest =>
    match verdict K policy record with
    | .skip => record :: walked K policy (limit + 1) rest
    | .deliver _ => record :: walked K policy limit rest
    | .stop => []

theorem walked_isPrefix (K : Text) (policy : DrainPolicy) :
    ∀ (limit : Nat) (records : List DrainedRecord), walked K policy limit records <+: records := by
  intro limit records
  fun_induction walked K policy limit records with
  | case1 => exact List.nil_prefix
  | case2 => exact List.nil_prefix
  | case3 limit record rest _ ih => exact List.cons_prefix_cons.mpr ⟨rfl, ih⟩
  | case4 limit record rest _ _ ih => exact List.cons_prefix_cons.mpr ⟨rfl, ih⟩
  | case5 => exact List.nil_prefix

theorem walked_passes (K : Text) (policy : DrainPolicy) (limit : Nat) (records : List DrainedRecord) :
    ∀ record ∈ walked K policy limit records, verdict K policy record ≠ .stop := by
  fun_induction walked K policy limit records with
  | case1 => simp
  | case2 => simp
  | case3 limit record rest skips ih => exact List.forall_mem_cons.mpr ⟨by simp [skips], ih⟩
  | case4 limit record rest _ delivers ih => exact List.forall_mem_cons.mpr ⟨by simp [delivers], ih⟩
  | case5 => simp

/-- A walk that accounts for the last record before its limit is reached. -/
def drainsAll (K : Text) (policy : DrainPolicy) (limit : Nat) (records : List DrainedRecord) : Bool :=
  decide (walked K policy limit records = records ∧ (deliverable K policy records).length < limit)

theorem deliverable_cons (K : Text) (policy : DrainPolicy) (record : DrainedRecord)
    (rest : List DrainedRecord) :
    deliverable K policy (record :: rest) =
      (verdict K policy record).handed?.toList ++ deliverable K policy rest := by
  cases decided : (verdict K policy record).handed? <;>
    simp [deliverable, decided]

theorem mem_deliverable (member : entry ∈ deliverable K policy records) :
    ∃ record ∈ records, verdict K policy record = .deliver entry := by
  obtain ⟨record, among, handed⟩ := List.mem_filterMap.mp member
  refine ⟨record, among, ?_⟩
  cases decided : verdict K policy record with
  | deliver found => simpa [decided, Verdict.handed?] using handed
  | skip => simp [decided, Verdict.handed?] at handed
  | stop => simp [decided, Verdict.handed?] at handed

theorem deliverable_append (K : Text) (policy : DrainPolicy) (first second : List DrainedRecord) :
    deliverable K policy (first ++ second) =
      deliverable K policy first ++ deliverable K policy second :=
  List.filterMap_append

theorem cursorAfter_concat (cursor : Nat) (records : List DrainedRecord) (last : DrainedRecord) :
    cursorAfter cursor (records ++ [last]) = last.stop := by
  rw [cursorAfter, List.getLast?_concat]
  rfl

theorem walkRecords_eq (K : Text) (policy : DrainPolicy) :
    ∀ (records : List DrainedRecord) (limit : Nat) (delivered : List (Origin × Value)) (cursor : Nat),
      walkRecords K policy (some (delivered.length + (limit + 1))) true records delivered cursor =
        ⟨delivered ++ deliverable K policy (walked K policy (limit + 1) records),
          cursorAfter cursor (walked K policy (limit + 1) records),
          drainsAll K policy (limit + 1) records⟩ := by
  intro records
  induction records with
  | nil =>
    intro limit delivered cursor
    simp [walkRecords, walked, deliverable, cursorAfter, drainsAll]
  | cons record rest ih =>
    intro limit delivered cursor
    rw [walkRecords_cons]
    cases decided : verdict K policy record with
    | skip =>
      simp only [ih, walked, decided, deliverable_cons, cursorAfter_cons, drainsAll,
        Verdict.handed?, Option.toList_none, List.nil_append, List.cons.injEq, true_and]
    | stop =>
      simp [walked, decided, deliverable, cursorAfter, drainsAll]
    | deliver entry =>
      cases limit with
      | zero =>
        simp [walked, decided, Verdict.handed?, deliverable, cursorAfter, drainsAll]
      | succ limit =>
        have room : ¬some (delivered.length + (limit + 1 + 1)) =
            some (delivered.length + 1) := by simp
        have more := ih limit (delivered ++ [entry]) record.stop
        rw [List.length_append, List.length_singleton, Nat.add_assoc,
          Nat.add_comm 1] at more
        simp only [if_neg room, more, walked, decided, deliverable_cons, cursorAfter_cons,
          drainsAll, Verdict.handed?, Option.toList_some, List.append_assoc,
          List.cons_append, List.nil_append, List.cons.injEq, true_and, List.length_cons,
          Nat.succ_lt_succ_iff]

theorem walked_eq_of_drainsAll {limit : Nat} (all : drainsAll K policy limit records = true) :
    walked K policy limit records = records :=
  (of_decide_eq_true all).1

theorem walked_append_of_drainsAll (more : List DrainedRecord) :
    ∀ {records : List DrainedRecord} {limit : Nat}, drainsAll K policy limit records = true →
      walked K policy limit (records ++ more) =
        records ++ walked K policy (limit - (deliverable K policy records).length) more := by
  intro records
  induction records with
  | nil =>
    intro limit _
    simp [deliverable]
  | cons record rest ih =>
    intro limit all
    obtain ⟨whole, room⟩ := of_decide_eq_true all
    cases limit with
    | zero => simp [walked] at whole
    | succ limit =>
      cases decided : verdict K policy record with
      | skip =>
        simp only [walked, decided, List.cons.injEq, true_and] at whole
        have same : deliverable K policy (record :: rest) = deliverable K policy rest := by
          simp [deliverable_cons, decided, Verdict.handed?]
        rw [same] at room ⊢
        simp only [List.cons_append, walked, decided]
        rw [ih (decide_eq_true ⟨whole, room⟩)]
      | stop => simp [walked, decided] at whole
      | deliver entry =>
        simp only [walked, decided, List.cons.injEq, true_and] at whole
        have length : (deliverable K policy (record :: rest)).length =
            (deliverable K policy rest).length + 1 := by
          simp [deliverable_cons, decided, Verdict.handed?]
        rw [length] at room ⊢
        have later := ih (decide_eq_true ⟨whole, Nat.succ_lt_succ_iff.mp room⟩)
        simp only [List.cons_append, walked, decided, later, Nat.add_sub_add_right]

theorem walked_singleton (goes : verdict K policy record ≠ .stop) (limit : Nat) :
    walked K policy (limit + 1) [record] = [record] := by
  have nothing : ∀ limit, walked K policy limit [] = [] := by
    intro limit
    cases limit <;> rfl
  cases decided : verdict K policy record with
  | skip => simp only [walked, decided]
  | deliver entry => simp only [walked, decided, nothing]
  | stop => exact absurd decided goes

theorem walked_append_of_stops (more : List DrainedRecord) :
    ∀ {records : List DrainedRecord} {limit : Nat}, drainsAll K policy limit records = false →
      walked K policy limit (records ++ more) = walked K policy limit records := by
  intro records
  induction records with
  | nil =>
    intro limit stops
    cases limit with
    | zero => simp [walked]
    | succ limit => simp [drainsAll, walked, deliverable] at stops
  | cons record rest ih =>
    intro limit stops
    cases limit with
    | zero => simp [walked]
    | succ limit =>
      cases decided : verdict K policy record with
      | skip =>
        have later : drainsAll K policy (limit + 1) rest = false := by
          simpa [drainsAll, walked, decided, deliverable_cons, Verdict.handed?] using stops
        simp only [List.cons_append, walked, decided, ih later]
      | stop => simp only [List.cons_append, walked, decided]
      | deliver entry =>
        have later : drainsAll K policy limit rest = false := by
          simpa [drainsAll, walked, decided, deliverable_cons, Verdict.handed?] using stops
        simp only [List.cons_append, walked, decided, ih later]

/-! ## Records that the broker wrote -/

theorem isSelfAuthored_reread (K : Text) (envelope : Value) (reader : Option String) :
    isSelfAuthored (K.reread envelope) reader = isSelfAuthored envelope reader := by
  have leaf : senderLeaf (K.reread envelope) = senderLeaf envelope := by
    unfold senderLeaf
    rw [K.get?_reread]
    cases envelope.get? "from" with
    | none => rfl
    | some author => simp only [Option.map_some, Option.bind_some, K.asStr?_reread]
  cases reader <;> simp only [isSelfAuthored, leaf]

theorem filterMatches_reread (K : Text) (filter : AwaitFilter) (envelope : Value) :
    filterMatches filter (K.reread envelope) = filterMatches filter envelope := by
  have text : ∀ key, ((K.reread envelope).get? key).bind Value.asStr? =
      (envelope.get? key).bind Value.asStr? := by
    intro key
    rw [K.get?_reread]
    cases envelope.get? key with
    | none => rfl
    | some value => simp only [Option.map_some, Option.bind_some, K.asStr?_reread]
  have cause : ((((K.reread envelope).get? "causality").bind (Value.get? · "ref")).bind
      Value.asStr?) = ((envelope.get? "causality").bind (Value.get? · "ref")).bind Value.asStr? := by
    rw [K.get?_reread]
    cases envelope.get? "causality" with
    | none => rfl
    | some cause =>
      simp only [Option.map_some, Option.bind_some, K.get?_reread]
      cases cause.get? "ref" with
      | none => rfl
      | some ref => simp only [Option.map_some, Option.bind_some, K.asStr?_reread]
  cases filter with
  | any => rfl
  | task id => simp only [filterMatches, rawTaskId, text, cause]

theorem verdict_stampLine {envelope : Value} {line stamped : Bytes} {origin : Origin}
    (canonical : K.canonicalize envelope = .ok line)
    (stamps : stampLine K line origin = .ok stamped) (policy : DrainPolicy) (start stop : Nat) :
    verdict K policy ⟨stamped, start, stop⟩ =
      if Readable K envelope then
        if policy.requireLocalOrigin && origin != .local then .skip
        else if isSelfAuthored envelope policy.skipSelfAuthored then .skip
        else if filterMatches policy.filter envelope then .deliver (origin, K.reread envelope)
        else .stop
      else .skip := by
  unfold verdict
  by_cases readable : Readable K envelope
  · rw [(decodeLine_stampLine_ok_iff K canonical stamps).mpr readable, if_pos readable]
    simp only [isSelfAuthored_reread, filterMatches_reread]
  · obtain ⟨error, refused⟩ := decodeLine_stampLine_error K canonical stamps readable
    rw [refused, if_neg readable]

end Famp.Bus
