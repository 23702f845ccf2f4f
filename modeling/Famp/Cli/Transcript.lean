import Famp.Data.Lines
import Famp.Data.OrdMap
import Famp.Json.Text
import Mathlib.Data.List.Infix

/-!
# The listen state of a transcript

The stop hook reads the end of the transcript of its session, in the format of Claude or
of Codex, for calls of `famp_register` and `famp_set_listen` and for their results, and
replays the calls that succeeded.
-/

set_option autoImplicit false

namespace Famp.Cli.Transcript

open Data Data.Lines Json Std

/-! ## Reading the file -/

/-- What the standard library and the JSON parser do with text. -/
structure Reader where
  lossy : Bytes → List Char
  parse : List Char → Option Tree
  toLowercase : List Char → List Char

def maxBytes : Nat := 2000000

def stripCr (line : List Char) : List Char :=
  if line.getLast? = some '\r' then line.dropLast else line

/-- The lines of a text; the last one may lack its line break. -/
def textLines (text : List Char) : List (List Char) :=
  (complete '\n' text).map stripCr ++
    if unfinished '\n' text = [] then [] else [unfinished '\n' text]

/-- The text from the last `maxBytes` bytes, without the line that they begin in. -/
def tailText (R : Reader) (content : Bytes) : List Char :=
  let offset := content.length - maxBytes
  let tail := R.lossy (content.drop offset)
  if 0 < offset ∧ '\n' ∈ tail then (tail.dropWhile (· ≠ '\n')).drop 1 else tail

/-- The lines as events; a line that is not JSON is none. -/
def events (R : Reader) (content : Bytes) : List (Option Tree) :=
  (textLines (tailText R content)).map R.parse

/-! ## Calls and results -/

inductive ActionKind where
  | register
  | setListen
  deriving DecidableEq

/-- A call that controls listening; without a flag it turns it on. -/
structure Action where
  toolUseId : String
  kind : ActionKind
  identity : String
  listen : Option Bool
  deriving DecidableEq

inductive ListenState where
  | active (name : String)
  | explicitlyOff
  | unresolved
  deriving DecidableEq

structure Scan where
  actions : List Action
  results : ExtTreeMap String Bool

/-- What a part of an event adds to the scan. -/
inductive Note where
  | action (action : Action)
  | result (uid : String) (ok : Bool)
  | firstResult (uid : String) (ok : Bool)
  deriving DecidableEq

def Scan.note (scan : Scan) : Note → Scan
  | .action action => { scan with actions := scan.actions ++ [action] }
  | .result uid ok => { scan with results := scan.results.insert uid ok }
  | .firstResult uid ok =>
    if uid ∈ scan.results then scan else { scan with results := scan.results.insert uid ok }

def textAt? (tree : Tree) (key : String) : Option String := (tree.get? key).bind Tree.asStr?

def textAt (tree : Tree) (key : String) : String := (textAt? tree key).getD ""

def objectAt (tree : Tree) (key : String) : Tree :=
  match tree.get? key with
  | some (.obj members) => .obj members
  | _ => .obj []

def flagSet (tree : Tree) (key : String) : Bool :=
  match tree.get? key with
  | some (.bool true) => true
  | _ => false

def endsWith (text ending : String) : Bool := ending.toList.isSuffixOf text.toList

def parseArgs (R : Reader) : Option Tree → Tree
  | some (.obj members) => .obj members
  | some (.str text) => (R.parse text.toList).getD (.obj [])
  | _ => .obj []

def listenFlag (args : Tree) : Option Bool :=
  match args.get? "listen" with
  | some (.bool flag) => some flag
  | _ => none

def identityFromArgs (args : Tree) : Option String :=
  (((args.get? "identity").or (args.get? "name")).bind Tree.asStr?).filter (· ≠ "")

def functionOutputSuccess (R : Reader) (payload : Tree) : Bool :=
  let lowered := (R.toLowercase (textAt payload "output").toList).filter (· ≠ ' ')
  !decide ("\"iserror\":true".toList <:+: lowered) &&
    !decide ("\"is_error\":true".toList <:+: lowered)

/-- The call of the named tool, if it is one that controls listening. -/
def controlAction (tool uid : String) (args : Tree) : Option Action :=
  if endsWith tool "famp_register" then
    (identityFromArgs args).map fun identity => ⟨uid, .register, identity, listenFlag args⟩
  else if endsWith tool "famp_set_listen" then some ⟨uid, .setListen, "", listenFlag args⟩
  else none

/-! ## Claude -/

def claudeNotes (R : Reader) (block : Tree) : List Note :=
  let kind := textAt block "type"
  if kind = "tool_use" then
    let uid := textAt block "id"
    if uid = "" then []
    else
      ((controlAction (textAt block "name") uid (parseArgs R (block.get? "input"))).map
        Note.action).toList
  else if kind = "tool_result" then
    match textAt? block "tool_use_id" with
    | some uid => [.result uid !(flagSet block "is_error")]
    | none => []
  else []

def codexNotes (R : Reader) (pos : Nat) (payload : Tree) : List Note :=
  let kind := textAt payload "type"
  if kind = "function_call" then
    let space := textAt payload "namespace"
    let tool := if space ≠ "" ∧ space ≠ "mcp__famp" then "" else textAt payload "name"
    let uid := (textAt? payload "call_id").getD ("codex-fc:" ++ toString pos)
    ((controlAction tool uid (parseArgs R (payload.get? "arguments"))).map Note.action).toList
  else if kind = "function_call_output" then
    match textAt? payload "call_id" with
    | some uid => [.firstResult uid (functionOutputSuccess R payload)]
    | none => []
  else if kind = "mcp_tool_call_end" then
    let invocation := objectAt payload "invocation"
    let server := textAt invocation "server"
    let tool := if server ≠ "" ∧ server ≠ "famp" then "" else textAt invocation "tool"
    let ok := match (objectAt payload "result").get? "Ok" with
      | some (.obj members) => !(flagSet (.obj members) "isError")
      | _ => false
    let uid := (textAt? payload "call_id").getD ("codex:" ++ toString pos)
    match controlAction tool uid (parseArgs R (invocation.get? "arguments")) with
    | some action => [.action action, .result uid ok]
    | none => []
  else []

structure Replay where
  active : String
  lastIdentity : String
  explicitOff : Bool

def Replay.step (replay : Replay) (action : Action) : Replay :=
  match action.kind with
  | .register =>
    let lastIdentity := if action.identity ≠ "" then action.identity else replay.lastIdentity
    if action.listen = some false then ⟨"", lastIdentity, true⟩
    else ⟨action.identity, lastIdentity, false⟩
  | .setListen =>
    if action.listen = some false then { replay with active := "", explicitOff := true }
    else if replay.lastIdentity ≠ "" then
      { replay with active := replay.lastIdentity, explicitOff := false }
    -- Turned on without an identity in sight: the flag stays as it is.
    else replay

def Replay.state (replay : Replay) : ListenState :=
  if replay.active ≠ "" then .active replay.active
  else if replay.explicitOff then .explicitlyOff
  else .unresolved

def replayActions (actions : List Action) (results : ExtTreeMap String Bool) : ListenState :=
  let replay := actions.foldl (fun (replay : Replay) (action : Action) =>
    if results[action.toolUseId]?.getD false then replay.step action else replay) ⟨"", "", false⟩
  replay.state

def succeeded (actions : List Action) (results : ExtTreeMap String Bool) : List Action :=
  actions.filter fun action => results[action.toolUseId]?.getD false

def Action.isRegister (action : Action) : Bool := action.kind = .register

def Action.turnsOff (action : Action) : Bool := action.listen = some false

/-- Every call of `famp_register` names an identity. -/
def Named (actions : List Action) : Prop :=
  ∀ action ∈ actions, action.kind = .register → action.identity ≠ ""

/-- The identity of the last call of `famp_register`. -/
def lastRegister (actions : List Action) : Option String :=
  (actions.filter Action.isRegister).getLast?.map Action.identity

/-- The last call turns listening off, or one does and none registers. -/
def turnedOff (actions : List Action) : Bool :=
  actions.getLast?.any Action.turnsOff ||
    (!actions.any Action.isRegister && actions.any Action.turnsOff)

theorem lastRegister_concat (actions : List Action) (action : Action) :
    lastRegister (actions ++ [action]) =
      if action.isRegister then some action.identity else lastRegister actions := by
  cases registers : action.isRegister <;>
    simp [lastRegister, List.filter_append, registers]

theorem lastRegister_eq_none_iff (actions : List Action) :
    lastRegister actions = none ↔ actions.any Action.isRegister = false := by
  simp [lastRegister]

theorem turnedOff_concat (actions : List Action) (action : Action) :
    turnedOff (actions ++ [action]) = (action.turnsOff ||
      (!(actions.any Action.isRegister || action.isRegister) && actions.any Action.turnsOff)) := by
  cases off : action.turnsOff <;> simp [turnedOff, off]

theorem turnedOff_of_unregistered {actions : List Action}
    (unregistered : actions.any Action.isRegister = false) :
    turnedOff actions = actions.any Action.turnsOff := by
  rw [turnedOff, unregistered, Bool.not_false, Bool.true_and, Bool.or_eq_right_iff_imp]
  intro last
  obtain ⟨action, found, off⟩ := (Option.any_eq_true ..).mp last
  exact List.any_eq_true.mpr ⟨action, List.mem_of_getLast? found, off⟩

theorem lastRegister_named {actions : List Action} (named : Named actions) {identity : String}
    (found : lastRegister actions = some identity) : identity ≠ "" := by
  obtain ⟨action, last, rfl⟩ := Option.map_eq_some_iff.mp found
  obtain ⟨member, registers⟩ := List.mem_filter.mp (List.mem_of_getLast? last)
  exact named action member (of_decide_eq_true registers)

theorem replay_eq (actions : List Action) (named : Named actions) :
    let replay := actions.foldl Replay.step ⟨"", "", false⟩
    replay.lastIdentity = (lastRegister actions).getD "" ∧
      replay.active = (if turnedOff actions then "" else (lastRegister actions).getD "") ∧
      replay.explicitOff = turnedOff actions := by
  induction actions using List.reverseRecOn with
  | nil => exact ⟨rfl, rfl, rfl⟩
  | append_singleton actions action ih =>
    have earlier : Named actions := fun action member =>
      named action (List.mem_append_left _ member)
    obtain ⟨lastIdentity, active, explicitOff⟩ := ih earlier
    rw [List.foldl_append, List.foldl_cons, List.foldl_nil, lastRegister_concat, turnedOff_concat]
    generalize actions.foldl Replay.step ⟨"", "", false⟩ = replay at lastIdentity active explicitOff
    cases kind : action.kind with
    | register =>
      have identity := named action (List.mem_append_right _ (List.mem_singleton_self _)) kind
      have registers : action.isRegister = true := decide_eq_true kind
      by_cases off : action.listen = some false <;>
        simp [Replay.step, kind, identity, registers, off, Action.turnsOff]
    | setListen =>
      have registers : action.isRegister = false := by simp [Action.isRegister, kind]
      by_cases off : action.listen = some false
      · simp [Replay.step, kind, registers, off, Action.turnsOff, lastIdentity]
      · cases found : lastRegister actions with
        | none =>
          have unregistered := (lastRegister_eq_none_iff actions).mp found
          rw [found, Option.getD_none] at lastIdentity
          rw [turnedOff_of_unregistered unregistered] at active explicitOff
          simp [Replay.step, kind, registers, off, Action.turnsOff, lastIdentity, active,
            explicitOff, found, unregistered]
        | some identity =>
          have nonempty := lastRegister_named earlier found
          have registered : actions.any Action.isRegister = true := by
            by_contra none
            rw [Bool.not_eq_true, ← lastRegister_eq_none_iff, found] at none
            cases none
          rw [found, Option.getD_some] at lastIdentity
          simp [Replay.step, kind, registers, off, Action.turnsOff, lastIdentity, nonempty,
            registered]

/-- The state that the replay of successful calls ends in. -/
def settled (actions : List Action) : ListenState :=
  if turnedOff actions then .explicitlyOff
  else (lastRegister actions).elim .unresolved .active

theorem replayActions_eq {actions : List Action} (results : ExtTreeMap String Bool)
    (named : Named actions) : replayActions actions results = settled (succeeded actions results) := by
  have kept : Named (succeeded actions results) := fun action member =>
    named action (List.mem_of_mem_filter member)
  obtain ⟨-, active, explicitOff⟩ := replay_eq _ kept
  rw [replayActions, ← List.foldl_filter]
  change Replay.state ((succeeded actions results).foldl Replay.step ⟨"", "", false⟩) = _
  rw [Replay.state, active, explicitOff, settled]
  cases off : turnedOff (succeeded actions results) with
  | true => simp
  | false =>
    cases found : lastRegister (succeeded actions results) with
    | none => simp
    | some identity => simp [lastRegister_named kept found]

/-- The last call that succeeded decides, with the identity of the last one that
registered. -/
def decided (actions : List Action) : ListenState :=
  match actions.getLast? with
  | none => .unresolved
  | some last =>
    if last.turnsOff then .explicitlyOff
    else (lastRegister actions).elim .unresolved .active

/-- The replay follows the last successful call exactly if it is not one that turns
listening on after another turned it off, with no registration in sight. -/
theorem replayActions_decided_iff {actions : List Action} (results : ExtTreeMap String Bool)
    (named : Named actions) :
    replayActions actions results = decided (succeeded actions results) ↔
      ¬(((succeeded actions results).getLast?.any fun last => !last.turnsOff) = true ∧
        (∃ action ∈ succeeded actions results, action.turnsOff = true) ∧
        ∀ action ∈ succeeded actions results, action.kind ≠ .register) := by
  rw [replayActions_eq results named, settled]
  generalize succeeded actions results = calls
  have quiet : (∀ action ∈ calls, action.kind ≠ .register) ↔
      calls.any Action.isRegister = false := by
    simp [Action.isRegister]
  rw [quiet, ← List.any_eq_true, decided]
  cases last : calls.getLast? with
  | none =>
    obtain rfl := List.getLast?_eq_none_iff.mp last
    simp [turnedOff, lastRegister]
  | some action =>
    cases off : action.turnsOff with
    | true => simp [turnedOff, last, off]
    | false =>
      cases registered : calls.any Action.isRegister with
      | true => simp [turnedOff, last, off, registered]
      | false =>
        have unnamed := (lastRegister_eq_none_iff calls).mpr registered
        cases offs : calls.any Action.turnsOff <;>
          simp [turnedOff, last, off, registered, offs, unnamed]

def turnOn : Action := ⟨"on", .setListen, "", some true⟩

def turnOff : Action := ⟨"off", .setListen, "", some false⟩

def bothSucceed : ExtTreeMap String Bool := (∅ : ExtTreeMap String Bool).insert "on" true |>.insert "off" true

theorem turned_off_is_decided :
    replayActions [turnOn, turnOff] bothSucceed = decided [turnOn, turnOff] := by
  have calls : succeeded [turnOn, turnOff] bothSucceed = [turnOn, turnOff] := by decide +kernel
  have named : Named [turnOn, turnOff] := by unfold Named; decide
  have agrees := (replayActions_decided_iff bothSucceed named).mpr
  rw [calls] at agrees
  exact agrees (by decide)

/-- Listening is turned off and on again, and the registration is out of sight. -/
theorem turned_on_is_not_decided :
    succeeded [turnOff, turnOn] bothSucceed = [turnOff, turnOn] ∧
      replayActions [turnOff, turnOn] bothSucceed = .explicitlyOff ∧
      decided [turnOff, turnOn] = .unresolved := by
  refine ⟨?_, ?_, ?_⟩ <;> decide +kernel

end Famp.Cli.Transcript
