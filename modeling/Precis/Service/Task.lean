import Precis.Json.Decoder

/-!
Contract: tasks in a todo application.

This module owns the task that is sent to the todo service, the answer that
names the task that was made, and both as JSON.
-/

namespace Precis.Service

open Json

inductive TodoApp where
  | todoist
deriving DecidableEq, Repr

namespace TodoApp

def all : List TodoApp := [.todoist]

def name : TodoApp → String
  | .todoist => "todoist"

def decode : Decoder TodoApp :=
  decodeName (selectName all name)

def toValue (app : TodoApp) : Value :=
  .string app.name

end TodoApp

structure Task where
  app : TodoApp
  subject : String
  body : String
deriving DecidableEq, Repr

namespace Task

/-- The fields of a task that have been read so far. -/
structure Draft where
  app : Option TodoApp
  subject : Option String
  body : Option String

def fields : List (FieldRule Draft) :=
  [.storing "app" TodoApp.decode (fun app draft => { draft with app := some app }) false,
    .storing "subject" decodeText
      (fun subject draft => { draft with subject := some subject }) false,
    .storing "body" decodeText (fun body draft => { draft with body := some body }) false]

def decode : Decoder Task :=
  decodeRecord "TodoTask" fields ⟨none, none, none⟩ fun draft => do
    let app ← required "app" draft.app
    let subject ← required "subject" draft.subject
    let body ← required "body" draft.body
    .ok { app, subject, body }

def toValue (task : Task) : Value :=
  .ofMembers [("app", task.app.toValue), ("subject", .string task.subject),
    ("body", .string task.body)]

end Task

/-- A task that was made, with the identifier that the application gave it, if any. -/
structure CreatedTask where
  id : Option String
deriving DecidableEq, Repr

namespace CreatedTask

def fields : List (FieldRule (Option String)) :=
  [.storing "id" (decodeOptional decodeText) (fun id _ => id) true]

def decode : Decoder CreatedTask :=
  decodeRecord "CreatedTask" fields none fun draft => .ok ⟨draft⟩

/-- A made task as JSON; an identifier that is not there is null. -/
def toValue (task : CreatedTask) : Value :=
  .ofMembers [("id", (task.id.map Value.string).getD .null)]

end CreatedTask

end Precis.Service
