import PrimeTester.Messages

/-!
# The resources of the REST interface

The classes of `io.onqi.primetester.rest.resources`. A `CreateTaskResource` of the model is one
that Jersey has validated, so it carries the match of its number with `NUMBER_PATTERN`.
-/

namespace PrimeTester

/-! ## `CreateTaskResource` -/

/-- `CreateTaskResource.NUMBER_PATTERN`, the pattern `^([0-9]+)$`, which has to match the whole
string. -/
def NUMBER_PATTERN (s : String) : Bool :=
  !s.toList.isEmpty && s.toList.all fun c => decide ('0' ≤ c ∧ c ≤ '9')

/-- A string that passes `NUMBER_PATTERN` is parsed as the integer it denotes. -/
theorem BigInteger.parse_eq {s : String} (h : NUMBER_PATTERN s) :
    BigInteger.parse s = .ok (decimalValue s : Int) := by
  simp only [NUMBER_PATTERN, Bool.and_eq_true, Bool.not_eq_true', List.isEmpty_eq_false_iff,
    List.all_eq_true, decide_eq_true_eq] at h
  exact parse_digits h.1 h.2

theorem ne_empty_of_NUMBER_PATTERN {s : String} (h : NUMBER_PATTERN s) : s ≠ "" := by
  rintro rfl
  exact absurd h (by decide)

structure CreateTaskResource where
  number : String
  number_matches : NUMBER_PATTERN number

namespace CreateTaskResource

/-- The checks `@NotNull` and `@Pattern` on the `number` of a request body. -/
def validate : Option String → Option CreateTaskResource
  | some number => if h : NUMBER_PATTERN number then some ⟨number, h⟩ else none
  | none => none

/-- What is accepted passes the checks again. -/
theorem validate_number (resource : CreateTaskResource) :
    validate (some resource.number) = some resource := dif_pos resource.number_matches

def toMessage (resource : CreateTaskResource) : NewNumberCalculationMessage :=
  ⟨resource.number⟩

end CreateTaskResource

/-! ## `TaskStatusResource` -/

namespace TaskStatusResource

/-- The `enum` that the REST interface shows for `TaskStorage.Status`. -/
inductive Status where
  | STARTED
  | QUEUED
  | FINISHED
  deriving DecidableEq, Repr

namespace Status

/-- The `status` field of an `enum` constant. -/
def actorStatus : Status → PrimeTester.Status
  | STARTED => .STARTED
  | QUEUED => .QUEUED
  | FINISHED => .FINISHED

def values : List Status := [STARTED, QUEUED, FINISHED]

def byActorEnum (status : Option PrimeTester.Status) : Except Fault Status :=
  match values.find? fun s => some s.actorStatus = status with
  | some s => .ok s
  | none => .error .illegalArgument

/-- The constant of the REST interface for an actor's status. -/
def ofActor : PrimeTester.Status → Status
  | .STARTED => STARTED
  | .QUEUED => QUEUED
  | .FINISHED => FINISHED

/-- No status that an actor records is unsupported. -/
@[simp] theorem byActorEnum_some (status : PrimeTester.Status) :
    byActorEnum (some status) = .ok (ofActor status) := by
  cases status <;> rfl

@[simp] theorem actorStatus_ofActor (status : PrimeTester.Status) :
    (ofActor status).actorStatus = status := by
  cases status <;> rfl

end Status

end TaskStatusResource

structure TaskStatusResource where
  taskId : Long
  number : Option String
  status : TaskStatusResource.Status
  deriving DecidableEq

/-- The constructor of `TaskStatusResource`. -/
def TaskStatusResource.new (taskId : Long) (number : Option String)
    (status : Option PrimeTester.Status) : Except Fault TaskStatusResource := do
  return ⟨taskId, number, ← Status.byActorEnum status⟩

/-! ## `ResultResource` and `ErrorResource` -/

structure ResultResource where
  number : String
  prime : Bool
  divider : Option String
  deriving DecidableEq, Repr

structure ErrorResource where
  error : Option String
  deriving DecidableEq, Repr

end PrimeTester
