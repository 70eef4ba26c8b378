import PrimeTester.ResultStorage
import PrimeTester.TaskStorage

/-!
# What the clients are answered

The responses of the REST interface as the state of the storages determines them: a lemma for each
case of `GetStatusCallback`, which asks the task storage, and of `ResultCallback`, which asks the
result storage. The first throws for a finished task without a number, and nothing else does.
-/

namespace PrimeTester

/-- The answer about the status of a task, among what a task storage sends. -/
def TaskStorage.Output.replied? {B : Type} : TaskStorage.Output B → Option TaskStatusMessage
  | .replyStatus m => some m
  | _ => none

namespace TasksEndpoint

variable {B : Type} {st : TaskStorage B} {taskId : Long}

/-- A task without a status is not found. -/
theorem GetStatusCallback.onComplete_none (h : st.statuses.get taskId = none) :
    GetStatusCallback.onComplete (.ok (st.handleGet ⟨taskId⟩)) = .ok .notFound := by
  rw [TaskStorage.handleGet]
  simp only [h]
  rfl

/-- A finished task is redirected, if it has a number; any other task is shown. -/
theorem GetStatusCallback.onComplete_some {status : Status}
    (h : st.statuses.get taskId = some status) :
    GetStatusCallback.onComplete (.ok (st.handleGet ⟨taskId⟩)) =
      if status = .FINISHED then (resultLocation (st.tasks.get taskId)).map .seeOther
      else .ok (.ok ⟨taskId, st.tasks.get taskId, .ofActor status⟩) := by
  have hget : st.handleGet ⟨taskId⟩ = ⟨taskId, st.tasks.get taskId, some status⟩ := by
    rw [TaskStorage.handleGet]
    simp only [h]
  have hfound : (⟨taskId, st.tasks.get taskId, some status⟩ : TaskStatusMessage) ≠
      TaskStatusMessage.NOT_FOUND := fun hc => by
    cases congrArg TaskStatusMessage.status hc
  rw [hget, GetStatusCallback.onComplete, if_neg hfound]
  cases status with
  | FINISHED => cases st.tasks.get taskId <;> rfl
  | _ => rfl

/-- The callback throws exactly for a finished task without a number. -/
theorem GetStatusCallback.onComplete_error {fault : Fault} :
    GetStatusCallback.onComplete (.ok (st.handleGet ⟨taskId⟩)) = .error fault ↔
      fault = .illegalArgument ∧ st.statuses.get taskId = some .FINISHED ∧
        st.tasks.get taskId = none := by
  cases h : st.statuses.get taskId with
  | none => simp [onComplete_none h]
  | some status =>
    rw [onComplete_some h]
    cases status with
    | FINISHED => cases st.tasks.get taskId <;> simp [resultLocation, Except.map, eq_comm]
    | _ => simp

end TasksEndpoint

end PrimeTester
