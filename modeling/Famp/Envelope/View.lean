import Famp.Json.Object

/-!
# Looking at an envelope

What the readers take from the JSON of an envelope without decoding it.
-/

set_option autoImplicit false

namespace Famp.Envelope.View

open Json

def newTaskEvent : String := "famp.send.new_task"

def textOf (value : Value) (key : String) : Option String := (value.get? key).bind Value.asStr?

def fromStr (value : Value) : Option String := textOf value "from"

def toStr (value : Value) : Option String := textOf value "to"

def messageClass (value : Value) : Option String := textOf value "class"

def body (value : Value) : Option Value := value.get? "body"

/-- The text of `causality.ref`. -/
def reference (value : Value) : Option String := (value.get? "causality").bind (textOf · "ref")

/-- The text of `body.details.task`. -/
def detailsTask (value : Value) : Option String :=
  ((value.get? "body").bind (·.get? "details")).bind (textOf · "task")

def bodyEvent (value : Value) : Option String := (value.get? "body").bind (textOf · "event")

def taskId (value : Value) : Option String :=
  match reference value with
  | some task => some task
  | none =>
    match detailsTask value with
    | some task => some task
    | none =>
      if bodyEvent value = some newTaskEvent then textOf value "id"
      -- a request is the root of its task
      else if messageClass value = some "request" then textOf value "id"
      else none

end Famp.Envelope.View
