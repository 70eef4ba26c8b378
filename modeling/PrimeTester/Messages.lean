import Mathlib.Order.Defs.LinearOrder
import PrimeTester.Java

/-!
# The messages of the actors

The immutable message classes that are nested in `TaskStorage`, `Worker` and `ResultStorage`, and
the status of a task. A field that may be `null` is an `Option`. `B` is the type of references to
`SseBroadcaster` objects.
-/

namespace PrimeTester

/-- `TaskStorage.Status`. -/
inductive Status where
  | QUEUED
  | STARTED
  | FINISHED
  deriving DecidableEq, Repr

namespace Status

/-- The position in the `enum`, by which `compareTo` orders its constants. -/
def ordinal : Status → Nat
  | QUEUED => 0
  | STARTED => 1
  | FINISHED => 2

theorem ordinal_injective : Function.Injective ordinal := by
  intro a b h
  cases a <;> cases b <;> first | rfl | cases h

instance : LinearOrder Status := LinearOrder.lift' ordinal ordinal_injective

/-- `toString()` of an `enum` constant is its name. -/
def toString : Status → String
  | QUEUED => "QUEUED"
  | STARTED => "STARTED"
  | FINISHED => "FINISHED"

theorem QUEUED_le (a : Status) : QUEUED ≤ a := by cases a <;> decide

theorem le_FINISHED (a : Status) : a ≤ FINISHED := by cases a <;> decide

end Status

/-! ## Requests -/

structure NewNumberCalculationMessage where
  number : String
  deriving DecidableEq, Repr

structure GetTaskStatusMessage where
  taskId : Long
  deriving DecidableEq

structure RegisterForNotifications (B : Type) where
  taskId : Long
  broadcaster : B
  deriving DecidableEq

structure GetCalculationResultMessage where
  number : String
  deriving DecidableEq, Repr

/-! ## Answers -/

structure TaskIdAssignedMessage where
  taskId : Long
  number : String
  deriving DecidableEq

structure TaskStatusMessage where
  taskId : Long
  number : Option String
  status : Option Status
  deriving DecidableEq

/-- The answer about a task that the storage does not know. -/
def TaskStatusMessage.NOT_FOUND : TaskStatusMessage := ⟨Long.MIN_VALUE, some "", none⟩

structure CalculationResultMessage where
  number : String
  isPrime : Bool
  divider : Option String
  deriving DecidableEq, Repr

/-- The answer about a number without a result. -/
def CalculationResultMessage.NOT_FOUND : CalculationResultMessage := ⟨"", false, none⟩

/-! ## Events of the workers -/

structure CalculationStarted where
  taskId : Long
  deriving DecidableEq

structure CalculationFinished where
  taskId : Long
  number : String
  isPrime : Bool
  divider : Option String
  deriving DecidableEq

/-- What the workers publish on `TaskStorage.TOPIC`. -/
inductive Event where
  | started (m : CalculationStarted)
  | finished (m : CalculationFinished)
  deriving DecidableEq

namespace Event

def taskId : Event → Long
  | started m => m.taskId
  | finished m => m.taskId

/-- The status that `TaskStorage` records for the event. -/
def status : Event → Status
  | started _ => .STARTED
  | finished _ => .FINISHED

end Event

end PrimeTester
