import PrimeTester.Cluster.OneFrontend

/-!
# Frontends whose clients register only for their own tasks

Where every client registers only for ids that its frontend has answered a POST with, no task
storage ever restarts, whatever else is in the cluster. So each frontend holds exactly the tasks
that were posted to it, under the ids that it has answered with (`Run.holds`, `Run.answered_eq`).
-/

namespace PrimeTester.Cluster

variable {F C W B : Type} [DecidableEq F] [DecidableEq C] [DecidableEq W]
variable {tr : List (Label F C W B)} {s : State F C W B} {l : Label F C W B}

omit [DecidableEq C] [DecidableEq W] in
/-- A registration that a task storage takes is a request at its frontend. -/
theorem registration_request {f : F} {m : TaskStorage.Message B}
    {r : RegisterForNotifications B} (hl : l.taskMessage? f = some m)
    (hm : m.registration? = some r) : l = .request f (.suspend r.taskId r.broadcaster) := by
  cases l with
  | request f' r' =>
    obtain ⟨rfl, hr⟩ := Option.ite_none_right_eq_some.1 hl
    cases hr
    cases r' with
    | createTask r' => cases hm
    | getStatus i => cases hm
    | suspend i b =>
      cases hm
      rfl
  | statusEvent f' w e =>
    obtain ⟨-, he⟩ := Option.ite_none_right_eq_some.1 hl
    cases he
    rw [TaskStorage.registration?_ofEvent] at hm
    cases hm
  | _ => cases hl

/-- The registrations that a task storage takes are for ids that it has answered with. -/
theorem Run.registersAnswered (h : (system F C W B).Run Registered tr s) (f : F) :
    TaskStorage.RegistersAnswered (taskMessages f tr) := by
  refine h.induct (I := fun tr _ => TaskStorage.RegistersAnswered (taskMessages f tr)) Always.nil ?_
  intro tr s l s' _ ih _ hreg
  rw [taskMessages_concat]
  cases hl : l.taskMessage? f with
  | none => rwa [Option.toList_none, List.append_nil]
  | some m =>
    rw [Option.toList_some]
    refine Always.concat.2 ⟨ih, fun r hr => ?_⟩
    exact hreg f r.taskId r.broadcaster (registration_request hl hr)

/-- No task storage restarts after a POST. -/
theorem Run.noLateRestart (h : (system F C W B).Run Registered tr s) {f : F}
    (hlen : (TaskStorage.posted (taskMessages f tr)).length ≤ 2 ^ 64) :
    TaskStorage.NoLateRestart (taskMessages f tr) := (Run.registersAnswered h f).noLateRestart hlen

/-- **Every frontend holds what was posted to it.** -/
theorem Run.holds (h : (system F C W B).Run Registered tr s) {f : F}
    (hlen : (TaskStorage.posted (taskMessages f tr)).length ≤ 2 ^ 64) :
    TaskStorage.Holds (TaskStorage.posted (taskMessages f tr)) (s.taskStorage f) := by
  rw [Run.taskStorage_eq h f]
  exact TaskStorage.holds_after (Run.noLateRestart h hlen) hlen

/-- Its answers are the numbers with their ids. -/
theorem Run.answered_eq (h : (system F C W B).Run Registered tr s) {f : F}
    (hlen : (TaskStorage.posted (taskMessages f tr)).length ≤ 2 ^ 64) :
    TaskStorage.answered (taskMessages f tr) =
      TaskStorage.assignments (TaskStorage.posted (taskMessages f tr)) :=
  TaskStorage.answered_eq (Run.noLateRestart h hlen) hlen

/-- The answers to the POSTs of a frontend are all different. -/
theorem Run.answered_nodup (h : (system F C W B).Run Registered tr s) {f : F}
    (hlen : (TaskStorage.posted (taskMessages f tr)).length ≤ 2 ^ 64) :
    (TaskStorage.answered (taskMessages f tr)).Nodup := by
  rw [Run.answered_eq h hlen]
  exact (TaskStorage.assignments_nodup hlen).of_map

end PrimeTester.Cluster
