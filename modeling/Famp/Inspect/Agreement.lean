import Famp.Inspect.Tasks
import Famp.Json.Plain

/-!
# Rows and histories agree

The list and the detail gather, order and fold the envelopes of a task on their own.
The count, the state and the last time of a row are those of the history; that a task
is at its end, and when it was opened, the row does not take from it.
-/

set_option autoImplicit false

namespace Famp.Inspect

open Famp.Core Data Envelope Fsm Json
open Std (ExtTreeMap)

/-! ## Labels -/

def lastLabel (labels : List String) : String :=
  (labels.filter (· != "UNKNOWN")).getLast?.getD "UNKNOWN"

def terminalLabels : List String := ["COMPLETED", "FAILED", "CANCELLED"]

theorem stateLabel_ne_unknown (state : TaskState) : stateLabel state ≠ "UNKNOWN" := by
  cases state <;> decide

theorem stateLabel_mem_terminalLabels (state : TaskState) :
    stateLabel state ∈ terminalLabels ↔ state.terminal = true := by
  cases state <;> decide

variable {fold : FsmFold} {records : List TaskSnapshotRow} {envs : List Value}

namespace FsmFold

theorem apply_label (fold : FsmFold) (env : Value) :
    (fold.apply env).2.finalLabel =
      if (fold.apply env).1 = "UNKNOWN" then fold.finalLabel else (fold.apply env).1 := by
  have known := stateLabel_ne_unknown
  unfold apply
  split <;> simp [finalLabel, known]

theorem applyAll_label (fold : FsmFold) (envs : List Value) :
    (fold.applyAll envs).finalLabel =
      (((summaries fold envs).map TaskEnvelopeSummary.fsmTransition).filter
        (· != "UNKNOWN")).getLast?.getD fold.finalLabel := by
  induction envs generalizing fold with
  | nil => rfl
  | cons env rest ih =>
    rw [applyAll, List.foldl_cons, ← applyAll, ih, apply_label, summaries, List.map_cons]
    by_cases unknown : (fold.apply env).1 = "UNKNOWN"
    · simp [unknown]
    · simp [unknown, List.getLast?_cons]

/-- What the engine is given of the envelopes. -/
def inputs (envs : List Value) : List TaskTransitionInput :=
  envs.filterMap fun env =>
    (parseClass env).map fun messageClass => ⟨messageClass, parseTerminalStatus env⟩

theorem apply_fsm (fold : FsmFold) (env : Value) :
    (fold.apply env).2.fsm = after fold.fsm (inputs [env]) := by
  cases found : parseClass env with
  | none => simp [apply, inputs, found, after]
  | some messageClass =>
    cases messageClass <;>
      simp [apply, inputs, found, after, absorb_request, absorb_ack, absorb_auditLog]

theorem applyAll_fsm (fold : FsmFold) (envs : List Value) :
    (fold.applyAll envs).fsm = after fold.fsm (inputs envs) := by
  induction envs generalizing fold with
  | nil => rfl
  | cons env rest ih =>
    have split : inputs ([env] ++ rest) = inputs [env] ++ inputs rest := List.filterMap_append
    rw [applyAll, List.foldl_cons, ← applyAll, ih, apply_fsm]
    exact (List.foldl_append.symm).trans (congrArg (after fold.fsm) split.symm)

/-- A task that no message has been seen of is still requested. -/
def Sound (fold : FsmFold) : Prop := fold.sawFsmClass = false → fold.fsm = .requested

theorem Sound.apply (sound : fold.Sound) (env : Value) : (fold.apply env).2.Sound := by
  unfold FsmFold.apply
  split <;> first | exact sound | exact fun unseen => nomatch unseen

theorem Sound.applyAll (sound : fold.Sound) (envs : List Value) : (fold.applyAll envs).Sound := by
  induction envs generalizing fold with
  | nil => exact sound
  | cons env rest ih => exact ih (sound.apply env)

theorem finalLabel_mem_terminalLabels (sound : fold.Sound) :
    fold.finalLabel ∈ terminalLabels ↔ fold.fsm.terminal = true := by
  unfold finalLabel
  split
  · exact stateLabel_mem_terminalLabels fold.fsm
  · next unseen =>
    rw [sound (by simpa using unseen)]
    decide

theorem terminal_label_iff (envs : List Value) :
    (new.applyAll envs).finalLabel ∈ terminalLabels ↔ Closed (inputs envs) := by
  have sound : new.Sound := fun _ => rfl
  rw [finalLabel_mem_terminalLabels (sound.applyAll envs), applyAll_fsm]
  exact terminal_after_iff (inputs envs)

end FsmFold

/-! ## Groups -/

theorem ofTask_append (taskId : String) (envs more : List Value) :
    ofTask taskId (envs ++ more) = ofTask taskId envs ++ ofTask taskId more :=
  List.filter_append envs more

theorem byTask_concat (envs : List Value) (env : Value) :
    byTask (envs ++ [env]) = match View.taskId env with
      | some taskId => (byTask envs).insert taskId ((byTask envs).getD taskId [] ++ [env])
      | none => byTask envs := by
  rw [byTask, List.foldl_append]
  rfl

theorem lookup_byTask (taskId : String) (envs : List Value) :
    (byTask envs)[taskId]? =
      if ofTask taskId envs = [] then none else some (ofTask taskId envs) := by
  induction envs using List.reverseRecOn with
  | nil => simp [byTask, ofTask]
  | append_singleton envs env ih =>
    rw [byTask_concat, ofTask_append]
    cases named : View.taskId env with
    | none =>
      have other : ofTask taskId [env] = [] := by simp [ofTask, named]
      rw [other, List.append_nil]
      exact ih
    | some task =>
      dsimp only
      rw [lookup_insert]
      by_cases same : task = taskId
      · subst same
        have own : ofTask task [env] = [env] := by simp [ofTask, named]
        have before : (byTask envs).getD task [] = ofTask task envs := by
          rw [ExtTreeMap.getD_eq_getD_getElem?, ih]
          split
          · next empty => exact empty.symm
          · rfl
        rw [if_pos rfl, own, before, if_neg (by simp)]
      · have other : ofTask taskId [env] = [] := by simp [ofTask, named, same]
        rw [if_neg same, other, List.append_nil]
        exact ih

theorem lookup_unrecorded (records : List TaskSnapshotRow) (envs : List Value) (taskId : String) :
    (unrecorded records envs)[taskId]? =
      if taskId ∈ records.map TaskSnapshotRow.taskId then none else (byTask envs)[taskId]? := by
  unfold unrecorded
  generalize byTask envs = groups
  induction records generalizing groups with
  | nil => rfl
  | cons record rest ih =>
    rw [List.foldl_cons, ih, lookup_erase]
    by_cases same : record.taskId = taskId
    · simp [same]
    · simp [same, Ne.symm same]

theorem mem_unrecorded_iff {taskId : String} {group : List Value} :
    (taskId, group) ∈ (unrecorded records envs).toList ↔
      taskId ∉ records.map TaskSnapshotRow.taskId ∧ ofTask taskId envs ≠ [] ∧
        group = ofTask taskId envs := by
  rw [mem_toList_iff, lookup_unrecorded, lookup_byTask]
  split
  · next recorded => simp [recorded]
  · next free =>
    split
    · next empty => simp [empty]
    · next occurs => simp [free, occurs, eq_comm]

/-! ## Times -/

theorem min_eq_max_iff (times : List Nat) :
    times.min?.getD 0 = times.max?.getD 0 ↔ ∀ a ∈ times, ∀ b ∈ times, a = b := by
  cases latest : times.max? with
  | none =>
    obtain rfl := List.max?_eq_none_iff.mp latest
    simp
  | some last =>
    obtain ⟨lastMember, upper⟩ := List.max?_eq_some_iff.mp latest
    cases earliest : times.min? with
    | none =>
      rw [List.min?_eq_none_iff.mp earliest] at lastMember
      cases lastMember
    | some first =>
      obtain ⟨firstMember, lower⟩ := List.min?_eq_some_iff.mp earliest
      constructor
      · intro same a aMember b bMember
        have one : first = last := same
        have := lower a aMember
        have := upper a aMember
        have := lower b bMember
        have := upper b bMember
        omega
      · exact fun all => all first firstMember last lastMember

theorem max?_of_perm {times others : List Nat} (perm : times.Perm others) :
    times.max? = others.max? := by
  cases latest : others.max? with
  | none =>
    rw [List.max?_eq_none_iff] at latest ⊢
    exact (latest ▸ perm).eq_nil
  | some last =>
    obtain ⟨member, upper⟩ := List.max?_eq_some_iff.mp latest
    exact List.max?_eq_some_iff.mpr ⟨perm.mem_iff.mpr member,
      fun time found => upper time (perm.mem_iff.mp found)⟩

/-! ## Rows -/

section Rows
variable (parse : String → Option Nat) (K : Text) (now : Nat)

theorem mem_listTasks_iff {row : TaskRow} :
    row ∈ listTasks parse now records envs ↔
      (∃ record ∈ records, recordRow parse now (byTask envs) record = row) ∨
        ∃ taskId, taskId ∉ records.map TaskSnapshotRow.taskId ∧ ofTask taskId envs ≠ [] ∧
          taskRow parse now taskId (ofTask taskId envs) = row := by
  rw [listTasks, List.mem_insertionSort, List.mem_append, List.mem_map, List.mem_map]
  refine or_congr Iff.rfl ⟨?_, ?_⟩
  · rintro ⟨⟨taskId, group⟩, member, rfl⟩
    obtain ⟨free, occurs, rfl⟩ := mem_unrecorded_iff.mp member
    exact ⟨taskId, free, occurs, rfl⟩
  · rintro ⟨taskId, free, occurs, rfl⟩
    exact ⟨(taskId, ofTask taskId envs), mem_unrecorded_iff.mpr ⟨free, occurs, rfl⟩, rfl⟩

theorem nodup_listTasks_iff (records : List TaskSnapshotRow) (envs : List Value) :
    ((listTasks parse now records envs).map TaskRow.taskId).Nodup ↔
      (records.map TaskSnapshotRow.taskId).Nodup := by
  have ids : ((listTasks parse now records envs).map TaskRow.taskId).Perm
      (records.map TaskSnapshotRow.taskId ++ (unrecorded records envs).keys) := by
    refine ((List.perm_insertionSort _ _).map _).trans (List.Perm.of_eq ?_)
    rw [List.map_append, List.map_map, List.map_map, ← ExtTreeMap.map_fst_toList_eq_keys]
    rfl
  rw [ids.nodup_iff, List.nodup_append']
  refine ⟨fun split => split.1, fun nodup => ⟨nodup, ExtTreeMap.nodup_keys, ?_⟩⟩
  intro taskId recorded stored
  obtain ⟨group, found⟩ := (mem_iff_lookup _ _).mp (ExtTreeMap.mem_keys.mp stored)
  rw [lookup_unrecorded, if_pos recorded] at found
  cases found

/-- The times of the envelopes of a task that can be parsed. -/
def timesOf (taskId : String) (envs : List Value) : List Nat :=
  (ofTask taskId envs).filterMap (epoch parse)

/-- The envelopes of a task in the order of their times. -/
def historyOf (taskId : String) (envs : List Value) : List Value :=
  sortByTime parse (ofTask taskId envs)

theorem taskRow_times (taskId : String) (envs : List Value) :
    (taskRow parse now taskId (ofTask taskId envs)).openedAtUnixSeconds =
        (timesOf parse taskId envs).max?.getD 0 ∧
      (taskRow parse now taskId (ofTask taskId envs)).lastRecvAtUnixSeconds =
        some ((timesOf parse taskId envs).max?.getD 0) := by
  have perm : ((sortByTime parse (ofTask taskId envs)).filterMap (epoch parse)).Perm
      (timesOf parse taskId envs) := (List.perm_insertionSort _ _).filterMap _
  rw [← max?_of_perm perm]
  exact ⟨rfl, rfl⟩

/-- The labels of a detail reply. -/
def transitions : InspectTasksReply → List String
  | .detail _ envelopes => envelopes.map TaskEnvelopeSummary.fsmTransition
  | _ => []

def rows : InspectTasksReply → List TaskRow
  | .list rows => rows
  | _ => []

/-- A row agrees with the envelopes of its task and with the labels of its detail. -/
structure RowAgrees (envs : List Value) (labels : List String) (row : TaskRow) : Prop where
  count : row.envelopeCount = (ofTask row.taskId envs).length
  state : row.state = lastLabel labels
  terminal : row.terminal = true ↔ row.state ∈ terminalLabels
  opened : row.openedAtUnixSeconds = (timesOf parse row.taskId envs).min?.getD 0
  received : row.lastRecvAtUnixSeconds = some ((timesOf parse row.taskId envs).max?.getD 0)

theorem state_taskRow (envs : List Value) (id : Uuid) :
    (taskRow parse now id.hyphenated (ofTask id.hyphenated envs)).state =
      lastLabel (transitions (inspectTasksById parse K envs id.hyphenated false)) :=
  FsmFold.applyAll_label .new (sortByTime parse (ofTask id.hyphenated envs))

theorem taskRow_agrees_iff (envs : List Value) (id : Uuid) :
    RowAgrees parse envs (transitions (inspectTasksById parse K envs id.hyphenated false))
        (taskRow parse now id.hyphenated (ofTask id.hyphenated envs)) ↔
      ¬ Closed (FsmFold.inputs (historyOf parse id.hyphenated envs)) ∧
        ∀ a ∈ timesOf parse id.hyphenated envs, ∀ b ∈ timesOf parse id.hyphenated envs, a = b := by
  obtain ⟨opened, received⟩ := taskRow_times parse now id.hyphenated envs
  rw [← min_eq_max_iff, ← FsmFold.terminal_label_iff]
  constructor
  · intro agrees
    refine ⟨fun closed => ?_, agrees.opened.symm.trans opened⟩
    have shown := agrees.terminal.mpr closed
    cases shown
  · rintro ⟨unfinished, same⟩
    refine ⟨List.length_insertionSort _ _, state_taskRow parse K now envs id, ?_, ?_, received⟩
    · exact ⟨fun shown => (nomatch shown), fun closed => absurd closed unfinished⟩
    · exact opened.trans same.symm

/-! ## The inspector -/

def recorded (ctx : BrokerCtx) : List String :=
  (ctx.taskData.getD []).map TaskSnapshotRow.taskId

/-- The task occurs in the snapshot of the mailboxes, and has no record. -/
def Unrecorded (ctx : BrokerCtx) (taskId : String) : Prop :=
  ofTask taskId (allEnvs ctx) ≠ [] ∧ taskId ∉ recorded ctx

/-- Every task without a record has a row that agrees with its detail, and no task has
two rows. -/
def ListAgrees (ctx : BrokerCtx) (full : Bool) : Prop :=
  (∀ id : Uuid, Unrecorded ctx id.hyphenated →
    ∃ row ∈ rows (inspectTasks parse K now ctx ⟨none, full⟩), row.taskId = id.hyphenated ∧
      RowAgrees parse (allEnvs ctx)
        (transitions (inspectTasks parse K now ctx ⟨some id, false⟩)) row) ∧
    ((rows (inspectTasks parse K now ctx ⟨none, full⟩)).map TaskRow.taskId).Nodup

/-- The list agrees with the details if and only if the task directory could be read,
no task without a record is at its end or has two different times, and no two records
are of one task. -/
theorem task_list_agrees_iff (ctx : BrokerCtx) (full : Bool) :
    ListAgrees parse K now ctx full ↔
      (∀ id : Uuid, Unrecorded ctx id.hyphenated → ctx.taskData.isSome = true ∧
        ¬ Closed (FsmFold.inputs (historyOf parse id.hyphenated (allEnvs ctx))) ∧
        ∀ a ∈ timesOf parse id.hyphenated (allEnvs ctx),
          ∀ b ∈ timesOf parse id.hyphenated (allEnvs ctx), a = b) ∧
      (recorded ctx).Nodup := by
  obtain ⟨taskData, messageData⟩ := ctx
  cases taskData with
  | none => simp [ListAgrees, inspectTasks, rows, recorded]
  | some records =>
    refine and_congr (forall_congr' fun id => ?_) (nodup_listTasks_iff parse now records _)
    refine forall_congr' fun free => ?_
    simp only [Option.isSome_some, true_and]
    rw [← taskRow_agrees_iff parse K now]
    constructor
    · rintro ⟨row, listed, named, agrees⟩
      rcases (mem_listTasks_iff parse now).mp listed with
        ⟨record, member, rfl⟩ | ⟨taskId, -, -, rfl⟩
      · exact absurd (List.mem_map.mpr ⟨record, member, named⟩) free.2
      · obtain rfl : taskId = id.hyphenated := named
        exact agrees
    · intro agrees
      exact ⟨_, (mem_listTasks_iff parse now).mpr (.inr ⟨_, free.2, free.1, rfl⟩), rfl, agrees⟩

end Rows

/-! ## A task that was finished -/

def withinMinute (ts : String) : Option Nat :=
  match ts.toList.take 17, ts.toList.drop 17 with
  | minute, [tens, ones, 'Z'] =>
    if minute = "2026-05-10T18:00:".toList then
      some (1778436000 + Nat.ofDigitChars 10 [tens, ones] 0)
    else none
  | _, _ => none

/-- The messages of a task whose request has the nil id. -/
def finishedTask : List Value :=
  let causality := Value.record ["ref"] (by decide) [.str Uuid.nil.hyphenated]
  [Value.record ["class", "id", "ts"] (by decide)
      [.str "request", .str Uuid.nil.hyphenated, .str "2026-05-10T18:00:01Z"],
    Value.record ["causality", "class", "ts"] (by decide)
      [causality, .str "commit", .str "2026-05-10T18:00:02Z"],
    Value.record ["causality", "class", "terminal_status", "ts"] (by decide)
      [causality, .str "deliver", .str "completed", .str "2026-05-10T18:00:03Z"]]

def finishedCtx : BrokerCtx :=
  ⟨some [], some ((∅ : ExtTreeMap String (List Value)).insert "bob" finishedTask)⟩

def finishedRow : TaskRow where
  taskId := Uuid.nil.hyphenated
  state := "COMPLETED"
  peer := ""
  openedAtUnixSeconds := 1778436003
  lastSendAtUnixSeconds := none
  lastRecvAtUnixSeconds := some 1778436003
  terminal := false
  envelopeCount := 3
  lastTransitionAgeSeconds := 7
  orphan := true

/-- The state of the row is `COMPLETED`, but it is not shown as terminal, and it is shown
as opened when its last message came. -/
theorem finished_task_row : Unrecorded finishedCtx Uuid.nil.hyphenated ∧
    transitions (inspectTasks withinMinute Plain.text 1778436010 finishedCtx ⟨some Uuid.nil, false⟩) =
      ["REQUESTED", "COMMITTED", "COMPLETED"] ∧
    timesOf withinMinute Uuid.nil.hyphenated (allEnvs finishedCtx) =
      [1778436001, 1778436002, 1778436003] ∧
    rows (inspectTasks withinMinute Plain.text 1778436010 finishedCtx ⟨none, false⟩) =
      [finishedRow] ∧
    ¬ ListAgrees withinMinute Plain.text 1778436010 finishedCtx false := by
  have occurs : Unrecorded finishedCtx Uuid.nil.hyphenated := by
    constructor <;> decide +kernel
  have listed : rows (inspectTasks withinMinute Plain.text 1778436010 finishedCtx ⟨none, false⟩) =
      [finishedRow] := by decide +kernel
  refine ⟨occurs, by decide +kernel, by decide +kernel, listed, fun agrees => ?_⟩
  obtain ⟨row, member, -, agrees⟩ := agrees.1 Uuid.nil occurs
  rw [listed] at member
  obtain rfl := List.mem_singleton.mp member
  have shown := agrees.terminal.mpr (by decide)
  cases shown

end Famp.Inspect
