import PrimeTester.Resources

/-!
# The endpoints of the REST interface

The callbacks of `TasksEndpoint` and `ResultsEndpoint`, which turn the answer of an actor, or the
failure of asking it, into a response.
-/

namespace PrimeTester

/-- A response with an entity of type `α` when it is `200 OK`. -/
inductive Response (α : Type) where
  | ok (entity : α)
  | seeOther (location : String)
  | notFound
  | serverError (entity : ErrorResource)
  deriving DecidableEq

/-- What `Patterns.ask` completes with: the answer, or the message of a failure. -/
abbrev Asked (α : Type) := Except (Option String) α

namespace TasksEndpoint

def CreateTaskCallback.onComplete :
    Asked TaskIdAssignedMessage → Except Fault (Response TaskStatusResource)
  | .error failure => .ok (.serverError ⟨failure⟩)
  | .ok message => do
    return .ok (← TaskStatusResource.new message.taskId (some message.number) (some .QUEUED))

/-- The URI of the result of `number`: `UriBuilder.build` refuses a `null` value. -/
def resultLocation : Option String → Except Fault String
  | some number => .ok ("/api/results/" ++ number)
  | none => .error .illegalArgument

def GetStatusCallback.onComplete :
    Asked TaskStatusMessage → Except Fault (Response TaskStatusResource)
  | .error failure => .ok (.serverError ⟨failure⟩)
  | .ok message =>
    if message = TaskStatusMessage.NOT_FOUND then
      .ok .notFound
    else if message.status = some .FINISHED then do
      return .seeOther (← resultLocation message.number)
    else do
      return .ok (← TaskStatusResource.new message.taskId message.number message.status)

end TasksEndpoint

namespace ResultsEndpoint

def ResultCallback.onComplete : Asked CalculationResultMessage → Response ResultResource
  | .error failure => .serverError ⟨failure⟩
  | .ok response =>
    if response = CalculationResultMessage.NOT_FOUND then
      .notFound
    else
      .ok ⟨response.number, response.isPrime, response.divider⟩

end ResultsEndpoint

end PrimeTester
