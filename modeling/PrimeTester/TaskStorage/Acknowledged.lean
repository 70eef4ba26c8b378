import Mathlib.Data.Fintype.Card
import PrimeTester.TaskStorage.Runs

/-!
# Acknowledged tasks

A client that got `(taskId, number)` from `POST /tasks` counts on asking for that task later.
`Acknowledged ms` says that every state of a run honours this. It fails when a registration for an
id without a status makes the storage restart (`acknowledged_lost`), and `acknowledged_iff` says
that this, and more than `2 ^ 64` POSTs, are the only ways to lose it.
-/

namespace PrimeTester.TaskStorage

section
variable {B : Type}

/-- In every state of the run the storage answers for every task that it has acknowledged by then
with the task's number, and no id is acknowledged twice. -/
def Acknowledged (ms : List (Message B)) : Prop :=
  (∀ pre post, ms = pre ++ post → ∀ a ∈ answered pre, ∃ status,
    (after pre).handleGet ⟨a.taskId⟩ = ⟨a.taskId, some a.number, some status⟩) ∧
  ((answered ms).map (·.taskId)).Nodup

theorem NoLateRestart.left {ms ms' : List (Message B)} (h : NoLateRestart (ms ++ ms')) :
    NoLateRestart ms := Always.left h

/-- A task that the storage holds is answered for with its number. -/
theorem Holds.handleGet {numbers : List String} {st : TaskStorage B} (h : Holds numbers st)
    {a : TaskIdAssignedMessage} (ha : a ∈ assignments numbers) : ∃ status,
    st.handleGet ⟨a.taskId⟩ = ⟨a.taskId, some a.number, some status⟩ := by
  have htask : st.tasks.get a.taskId = some a.number := (h.tasks_eq _ _).2 ha
  have hne : st.statuses.get a.taskId ≠ none := by
    refine h.statuses_ne _ ?_
    rw [htask]
    exact Option.some_ne_none _
  obtain ⟨status, hstatus⟩ := Option.ne_none_iff_exists'.1 hne
  refine ⟨status, ?_⟩
  rw [TaskStorage.handleGet]
  simp only [hstatus, htask]

/-- A restart after a POST breaks the promise to the client of that POST at once. -/
theorem not_acknowledged_of_restart (pre post : List (Message B)) (r : RegisterForNotifications B)
    (hnone : (after pre).statuses.get r.taskId = none) (hposted : posted pre ≠ []) :
    ¬ Acknowledged (pre ++ .register r :: post) := by
  rintro ⟨hkept, -⟩
  have hne : answered pre ≠ [] := by
    intro h
    rw [← answered_numbers, h] at hposted
    exact hposted rfl
  obtain ⟨a, ha⟩ := List.exists_mem_of_ne_nil _ hne
  obtain ⟨status, h⟩ := hkept (pre ++ [.register r]) post (by simp) a (mem_answered_append ha)
  rw [after, Actor.after_concat, process_register_none hnone] at h
  exact absurd (congrArg TaskStatusMessage.status h) (by simp [TaskStorage.handleGet, fresh,
    TaskStatusMessage.NOT_FOUND])

/-- More ids than a `long` has cannot all be different. -/
theorem length_le_of_nodup {ids : List Long} (h : ids.Nodup) : ids.length ≤ 2 ^ 64 := by
  have hinj : Function.Injective fun i : Long => i.toBitVec.toFin := by
    intro i j hij
    exact Int64.toBitVec_inj.1 (BitVec.toFin_inj.1 hij)
  have := (h.map hinj).length_le_card
  rwa [List.length_map, Fintype.card_fin] at this

/-- **Acknowledged tasks are kept, but for two exceptions.** In every run the storage honours its
answers to the POSTs exactly when no registration arrives for an id without a status once a POST was
processed, and there are at most `2 ^ 64` POSTs. -/
theorem acknowledged_iff (ms : List (Message B)) :
    Acknowledged ms ↔ NoLateRestart ms ∧ (posted ms).length ≤ 2 ^ 64 := by
  constructor
  · intro h
    refine ⟨?_, ?_⟩
    · rintro pre m post rfl r rfl hnone
      by_contra hposted
      exact not_acknowledged_of_restart pre post r hnone hposted h
    · rw [← length_answered]
      simpa using length_le_of_nodup h.2
  · rintro ⟨hrun, hlen⟩
    refine ⟨?_, ?_⟩
    · rintro pre post rfl a ha
      have hlen' : (posted pre).length ≤ 2 ^ 64 := (length_posted_left pre post).trans hlen
      rw [answered_eq hrun.left hlen'] at ha
      exact (holds_after hrun.left hlen').handleGet ha
    · rw [answered_eq hrun hlen]
      exact assignments_nodup hlen

/-- After a POST of `7`, one `GET /tasks/99/notifications` loses the task. -/
theorem acknowledged_lost :
    ¬ Acknowledged ([.newNumber ⟨"7"⟩, .register ⟨99, ()⟩] : List (Message Unit)) :=
  not_acknowledged_of_restart [.newNumber ⟨"7"⟩] [] ⟨99, ()⟩
    (by decide) (by decide)

end

end PrimeTester.TaskStorage
