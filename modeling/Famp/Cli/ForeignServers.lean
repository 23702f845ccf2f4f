import Famp.Cli.Transcript
import Famp.Json.Plain

/-!
# Calls of other servers

A transcript also holds calls of the tools of other servers.  A Codex event that names
another server adds nothing to the scan.  A Claude block is taken by the end of its name
alone, so a tool of another server can register an identity or turn listening off.
-/

set_option autoImplicit false

namespace Famp.Cli.Transcript

open Data Json Std

/-! ## The parts of a transcript -/

/-- A content block, or the payload of the event on a line. -/
inductive Part where
  | block (content : Tree)
  | payload (pos : Nat) (content : Tree)
  deriving DecidableEq

namespace Part

def notes (R : Reader) : Part → List Note
  | .block content => claudeNotes R content
  | .payload pos content => codexNotes R pos content

/-- The server of a tool that is named `mcp__<server>__<tool>`. -/
def serverOf (name : String) : Option String :=
  let rec upToSeparator : List Char → Option (List Char)
    | '_' :: '_' :: _ => some []
    | c :: rest => (upToSeparator rest).map (c :: ·)
    | [] => none
  if "mcp__".toList.isPrefixOf name.toList then
    (upToSeparator (name.toList.drop 5)).map String.ofList
  else none

/-- A tool call that names a server other than `famp`. -/
def foreign : Part → Bool
  | .block content =>
    textAt content "type" = "tool_use" && (serverOf (textAt content "name")).any (· ≠ "famp")
  | .payload _ content =>
    let space := textAt content "namespace"
    let server := textAt (objectAt content "invocation") "server"
    (textAt content "type" = "function_call" && space ≠ "" && space ≠ "mcp__famp") ||
      (textAt content "type" = "mcp_tool_call_end" && server ≠ "" && server ≠ "famp")

/-- The same block, or the same payload, on another line only if it holds a call id. -/
def Same : Part → Part → Prop
  | .block content, .block other => content = other
  | .payload pos content, .payload place other =>
    content = other ∧ (pos = place ∨ textAt? content "call_id" ≠ none)
  | _, _ => False

end Part

def Note.action? : Note → Option Action
  | .action taken => some taken
  | _ => none

def Note.lookup (uid : String) (found : Option Bool) : Note → Option Bool
  | .action _ => found
  | .result id ok => if id = uid then some ok else found
  | .firstResult id ok => if id = uid then found.or (some ok) else found

theorem lookup_note (scan : Scan) (note : Note) (uid : String) :
    (scan.note note).results[uid]? = note.lookup uid scan.results[uid]? := by
  cases note with
  | action action => rfl
  | result id ok => exact lookup_insert ..
  | firstResult id ok =>
    by_cases same : id = uid
    · subst same
      by_cases known : id ∈ scan.results <;> simp [Scan.note, Note.lookup, known]
    · simp only [Scan.note, Note.lookup, same, if_false]
      split
      · rfl
      · rw [lookup_insert, if_neg same]

variable {part : Part} {uid : String} {R : Reader} {parts : List Part} {action : Action}
  {tool id : String} {args : Tree} {content : Bytes}

namespace Part

theorem Same.refl (part : Part) : Same part part := by
  cases part with
  | block content => exact rfl
  | payload pos content => exact ⟨rfl, Or.inl rfl⟩

end Part

/-! ## A transcript without the calls of other servers -/

def noted (R : Reader) (parts : List Part) : List Note := parts.flatMap (Part.notes R)

def calls (R : Reader) (parts : List Part) : List Action :=
  (noted R parts).filterMap Note.action?

section Deletion
variable {R : Reader} {ids : List String}

end Deletion

end Famp.Cli.Transcript
