import PrimeTester.TaskStorage.Acknowledged

/-!
# Mailboxes with registrations for acknowledged tasks

When all registrations are for ids that a POST was answered with, the storage never restarts: such
an id has a status (`RegistersAnswered.status_of_answered`). So it holds what was posted, and an id
that an event was about keeps a status, whoever the event came from.
-/

namespace PrimeTester.TaskStorage

variable {B : Type} {ms : List (Message B)} {m : Message B}

/-- Every registration is for an id that a POST before it was answered with. -/
abbrev RegistersAnswered (ms : List (Message B)) : Prop :=
  Always (fun pre m => ∀ r ∈ m.registration?, ∃ a ∈ answered pre, a.taskId = r.taskId) ms

/-- An acknowledged task has a status, unless the storage has restarted. -/
theorem NoLateRestart.status_of_answered (h : NoLateRestart ms)
    (hlen : (posted ms).length ≤ 2 ^ 64) {a : TaskIdAssignedMessage} (ha : a ∈ answered ms) :
    (after ms).statuses.get a.taskId ≠ none := by
  intro hnone
  rw [answered_eq h hlen] at ha
  obtain ⟨status, hget⟩ := (holds_after h hlen).handleGet ha
  rw [TaskStorage.handleGet, hnone] at hget
  exact absurd (congrArg TaskStatusMessage.status hget) (by simp [TaskStatusMessage.NOT_FOUND])

namespace RegistersAnswered

/-- A registration for an acknowledged task does not make the storage restart. -/
theorem noLateRestart (h : RegistersAnswered ms) (hlen : (posted ms).length ≤ 2 ^ 64) :
    NoLateRestart ms := by
  induction ms using List.reverseRecOn with
  | nil => exact Always.nil
  | append_singleton ms m ih =>
    have hlen' : (posted ms).length ≤ 2 ^ 64 := (length_posted_left ms [m]).trans hlen
    have hrun : NoLateRestart ms := ih h.left hlen'
    refine Always.concat.2 ⟨hrun, ?_⟩
    rintro r rfl hnone
    obtain ⟨a, ha, hid⟩ := (Always.concat.1 h).2 r rfl
    exact absurd (hid ▸ hnone) (hrun.status_of_answered hlen' ha)

theorem status_of_answered (h : RegistersAnswered ms) (hlen : (posted ms).length ≤ 2 ^ 64)
    {a : TaskIdAssignedMessage} (ha : a ∈ answered ms) :
    (after ms).statuses.get a.taskId ≠ none :=
  (h.noLateRestart hlen).status_of_answered hlen ha

/-- No message takes a status away. -/
theorem status_kept (h : RegistersAnswered (ms ++ [m])) (hlen : (posted ms).length ≤ 2 ^ 64)
    {i : Long} (hi : (after ms).statuses.get i ≠ none) :
    (after (ms ++ [m])).statuses.get i ≠ none := by
  rw [after, Actor.after_concat]
  cases m using Message.casesEvent with
  | newNumber m => exact HashMap.get_put_ne_none _ _ _ hi
  | register r =>
    obtain ⟨a, ha, hid⟩ := (Always.concat.1 h).2 r rfl
    obtain ⟨status, hstatus⟩ :=
      Option.ne_none_iff_exists'.1 (status_of_answered h.left hlen ha)
    rw [hid] at hstatus
    rw [process_register_some hstatus]
    exact hi
  | event e =>
    rw [process_event]
    exact HashMap.get_put_ne_none _ _ _ hi
  | getStatus m => exact hi

/-- An id that an event was about has a status. -/
theorem status_of_progress (h : RegistersAnswered ms) (hlen : (posted ms).length ≤ 2 ^ 64)
    {i : Long} (hi : progress i ms ≠ []) : (after ms).statuses.get i ≠ none := by
  induction ms using List.reverseRecOn with
  | nil => exact absurd rfl hi
  | append_singleton ms m ih =>
    have hlen' : (posted ms).length ≤ 2 ^ 64 := (length_posted_left ms [m]).trans hlen
    by_cases hold : progress i ms = []
    · rw [progress_concat, hold, List.nil_append] at hi
      cases m using Message.casesEvent with
      | newNumber m => exact absurd rfl hi
      | register r => exact absurd rfl hi
      | event e =>
        rw [progress?_ofEvent] at hi
        split at hi
        · rename_i hid
          rw [← hid, status_after_event]
          exact Option.some_ne_none _
        · exact absurd rfl hi
      | getStatus m => exact absurd rfl hi
    · exact h.status_kept hlen' (ih h.left hlen' hold)

end RegistersAnswered

end PrimeTester.TaskStorage
