import Mathlib.Data.List.Sort
import Mathlib.Data.List.MinMax
import Famp.Core.Ids
import Famp.Data.OrdMap
import Famp.Envelope.View
import Famp.Fsm.Task
import Famp.Json.Text

/-!
# The list of tasks and the history of a task

The inspector answers from a snapshot of all mailboxes.  The list has a row for each
record of the task directory and one for each task that occurs in the mailboxes
without a record; the detail of a task goes through its envelopes in the order of
their timestamps.  Parsing of timestamps is a parameter.
-/

set_option autoImplicit false

namespace Famp.Inspect

open Famp.Core Data Envelope Fsm Json Json.Serde
open Std (ExtTreeMap)

/-! ## The fold over the envelopes of a task -/

def parseClass (env : Value) : Option MessageClass :=
  (env.get? "class").bind fun value => (variantName value.val).bind MessageClass.ofName

def parseTerminalStatus (env : Value) : Option TerminalStatus :=
  (env.get? "terminal_status").bind fun value =>
    (variantName value.val).bind TerminalStatus.ofName

def stateLabel : TaskState → String
  | .requested => "REQUESTED"
  | .committed => "COMMITTED"
  | .completed => "COMPLETED"
  | .failed => "FAILED"
  | .cancelled => "CANCELLED"

structure FsmFold where
  fsm : TaskState
  sawFsmClass : Bool
  deriving DecidableEq, Repr

namespace FsmFold

def new : FsmFold := ⟨.requested, false⟩

/-- The label of the state, once a message of the task has been seen. -/
def finalLabel (fold : FsmFold) : String :=
  if fold.sawFsmClass then stateLabel fold.fsm else "UNKNOWN"

/-- The label after the envelope, and the fold. -/
def apply (fold : FsmFold) (env : Value) : String × FsmFold :=
  match parseClass env with
  | none | some .auditLog => ("UNKNOWN", fold)
  | some .request => (stateLabel fold.fsm, { fold with sawFsmClass := true })
  | some .ack => (if fold.sawFsmClass then stateLabel fold.fsm else "UNKNOWN", fold)
  | some messageClass =>
    let next := fold.fsm.absorb ⟨messageClass, parseTerminalStatus env⟩
    (stateLabel next, ⟨next, true⟩)

def applyAll (fold : FsmFold) (envs : List Value) : FsmFold :=
  envs.foldl (fun fold env => (fold.apply env).2) fold

end FsmFold

/-! ## Requests, rows and replies -/

structure TaskSnapshotRow where
  taskId : String
  state : String
  peer : String
  openedAt : String
  lastSendAt : Option String
  lastRecvAt : Option String
  terminal : Bool
  deriving DecidableEq, Repr

structure BrokerCtx where
  taskData : Option (List TaskSnapshotRow)
  messageData : Option (ExtTreeMap String (List Value))

structure InspectTasksRequest where
  id : Option Uuid
  full : Bool

structure TaskRow where
  taskId : String
  state : String
  peer : String
  openedAtUnixSeconds : Nat
  lastSendAtUnixSeconds : Option Nat
  lastRecvAtUnixSeconds : Option Nat
  terminal : Bool
  envelopeCount : Nat
  lastTransitionAgeSeconds : Nat
  orphan : Bool
  deriving DecidableEq, Repr

structure TaskEnvelopeSummary where
  envelopeId : String
  sender : String
  recipient : String
  fsmTransition : String
  timestamp : String
  sigVerified : Bool
  deriving DecidableEq, Repr

structure TaskEnvelopeFull where
  envelopeId : String
  bytes : Option Bytes
  reason : Option String
  deriving DecidableEq

inductive InspectTasksReply where
  | list (rows : List TaskRow)
  | detail (taskId : String) (envelopes : List TaskEnvelopeSummary)
  | detailFull (taskId : String) (envelopes : List TaskEnvelopeFull)

section Inspector

-- `parse_rfc3339_to_epoch`, the canonical form, and the clock.
variable (parse : String → Option Nat) (K : Text) (now : Nat)

def epoch (env : Value) : Option Nat := (View.textOf env "ts").bind parse

/-- Stable, and an envelope without a time comes first. -/
def sortByTime (envs : List Value) : List Value :=
  envs.insertionSort fun a b => (epoch parse a).getD 0 ≤ (epoch parse b).getD 0

def isOrphanTaskId (taskId : String) : Bool :=
  taskId.isEmpty || (Uuid.parseStr taskId).all (· == Uuid.nil)

/-! ## The detail of a task -/

def ofTask (taskId : String) (envs : List Value) : List Value :=
  envs.filter fun env => View.taskId env == some taskId

def summaries : FsmFold → List Value → List TaskEnvelopeSummary
  | _, [] => []
  | fold, env :: rest =>
    ⟨(View.textOf env "id").getD "", (View.fromStr env).getD "", (View.toStr env).getD "",
        (fold.apply env).1, (View.textOf env "ts").getD "", true⟩ ::
      summaries (fold.apply env).2 rest

def inspectTasksById (envs : List Value) (taskId : String) (full : Bool) : InspectTasksReply :=
  let envelopesForTask := sortByTime parse (ofTask taskId envs)
  if full then
    .detailFull taskId (envelopesForTask.map fun env =>
      ⟨(View.textOf env "id").getD "", (K.canonicalize env).toOption, none⟩)
  else .detail taskId (summaries .new envelopesForTask)

/-! ## The list of tasks -/

def byTask (envs : List Value) : ExtTreeMap String (List Value) :=
  envs.foldl (fun groups env =>
    match View.taskId env with
    | some taskId => groups.insert taskId (groups.getD taskId [] ++ [env])
    | none => groups) ∅

def recordRow (groups : ExtTreeMap String (List Value)) (record : TaskSnapshotRow) : TaskRow :=
  let openedAt := (parse record.openedAt).getD 0
  let lastSendAt := record.lastSendAt.bind parse
  let lastRecvAt := record.lastRecvAt.bind parse
  let lastTransition := ([some openedAt, lastSendAt, lastRecvAt].filterMap id).max?.getD 0
  { taskId := record.taskId
    state := record.state
    peer := record.peer
    openedAtUnixSeconds := openedAt
    lastSendAtUnixSeconds := lastSendAt
    lastRecvAtUnixSeconds := lastRecvAt
    terminal := record.terminal
    envelopeCount := (groups.getD record.taskId []).length
    lastTransitionAgeSeconds := now - lastTransition
    orphan := isOrphanTaskId record.taskId }

/-- The row of a task without a record. -/
def taskRow (taskId : String) (envs : List Value) : TaskRow :=
  let envelopes := sortByTime parse envs
  let lastTransition := (envelopes.filterMap (epoch parse)).max?.getD 0
  { taskId := taskId
    state := (FsmFold.new.applyAll envelopes).finalLabel
    peer := (envelopes.head?.bind fun first =>
      ((first.get? "to").or (first.get? "from")).bind Value.asStr?).getD ""
    openedAtUnixSeconds := lastTransition
    lastSendAtUnixSeconds := none
    lastRecvAtUnixSeconds := some lastTransition
    terminal := false
    envelopeCount := envelopes.length
    lastTransitionAgeSeconds := now - lastTransition
    orphan := isOrphanTaskId taskId }

/-- Orphans first, then the ones that changed last. -/
def Precedes (a b : TaskRow) : Prop :=
  (a.orphan = true ∧ b.orphan = false) ∨
    (a.orphan = b.orphan ∧ a.lastTransitionAgeSeconds ≤ b.lastTransitionAgeSeconds)

instance : DecidableRel Precedes := fun _ _ => inferInstanceAs (Decidable (_ ∨ _))

def unrecorded (records : List TaskSnapshotRow) (envs : List Value) :
    ExtTreeMap String (List Value) :=
  records.foldl (fun groups record => groups.erase record.taskId) (byTask envs)

def listTasks (records : List TaskSnapshotRow) (envs : List Value) : List TaskRow :=
  (records.map (recordRow parse now (byTask envs)) ++
    (unrecorded records envs).toList.map fun group => taskRow parse now group.1 group.2).insertionSort
      Precedes

def allEnvs (ctx : BrokerCtx) : List Value :=
  (ctx.messageData.map fun byRecipient => byRecipient.toList.flatMap Prod.snd).getD []

def inspectTasks (ctx : BrokerCtx) (req : InspectTasksRequest) : InspectTasksReply :=
  match ctx.taskData with
  | none => .list []
  | some records =>
    match req.id with
    | some id => inspectTasksById parse K (allEnvs ctx) id.hyphenated req.full
    | none => .list (listTasks parse now records (allEnvs ctx))

end Inspector

end Famp.Inspect
