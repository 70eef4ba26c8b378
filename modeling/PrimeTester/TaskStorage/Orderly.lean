import PrimeTester.TaskStorage.Registered

/-!
# Orderly mailboxes

`Orderly ms` is what the mailbox of the only frontend of a cluster looks like: registrations and
events are about tasks that were acknowledged before, and the events of a task arrive in order, at
most once each. Then the storage has a status exactly for the acknowledged tasks, and no message
takes a status back (`Orderly.status_mono`).
-/

namespace PrimeTester.TaskStorage

section
variable {B : Type} {ms ms' : List (Message B)} {m : Message B} {i : Long}

/-- The mailbox of a storage that is alone in its cluster. -/
structure Orderly (ms : List (Message B)) : Prop where
  /-- Registrations are for ids that a POST was answered with. -/
  registered : Always (fun pre m => ∀ r ∈ m.registration?,
    ∃ a ∈ answered pre, a.taskId = r.taskId) ms
  /-- Events are about ids that a POST was answered with. -/
  known : Always (fun pre m => ∀ i, m.progress? i ≠ none → ∃ a ∈ answered pre, a.taskId = i) ms
  /-- The events of a task are at most one start followed by at most one end. -/
  events : ∀ i, (progress i ms).Sublist [.STARTED, .FINISHED]

theorem Orderly.left (h : Orderly (ms ++ ms')) : Orderly ms where
  registered := h.registered.left
  known := h.known.left
  events i := (progress_left i ms ms').trans (h.events i)

theorem Orderly.noLateRestart (h : Orderly ms) (hlen : (posted ms).length ≤ 2 ^ 64) :
    NoLateRestart ms := RegistersAnswered.noLateRestart h.registered hlen

theorem Orderly.holds (h : Orderly ms) (hlen : (posted ms).length ≤ 2 ^ 64) :
    Holds (posted ms) (after ms) := holds_after (h.noLateRestart hlen) hlen

theorem Orderly.answered_eq (h : Orderly ms) (hlen : (posted ms).length ≤ 2 ^ 64) :
    answered ms = assignments (posted ms) :=
  TaskStorage.answered_eq (h.noLateRestart hlen) hlen

/-- What an event is about was acknowledged. -/
theorem Orderly.mem_answered (h : Orderly ms) (hi : progress i ms ≠ []) :
    ∃ a ∈ answered ms, a.taskId = i := by
  obtain ⟨status, hstatus⟩ := List.exists_mem_of_ne_nil _ hi
  obtain ⟨m, hm, hp⟩ := List.mem_filterMap.1 hstatus
  obtain ⟨pre, post, rfl⟩ := List.append_of_mem hm
  obtain ⟨a, ha, hid⟩ := h.known pre m post rfl i (by rw [hp]; exact Option.some_ne_none _)
  exact ⟨a, mem_answered_append ha, hid⟩

/-- A task has a status exactly when it was acknowledged. -/
theorem Orderly.status_ne_none (h : Orderly ms) (hlen : (posted ms).length ≤ 2 ^ 64) :
    (after ms).statuses.get i ≠ none ↔ ∃ a ∈ answered ms, a.taskId = i := by
  constructor
  · intro hi
    obtain ⟨status, hstatus⟩ := Option.ne_none_iff_exists'.1 hi
    rcases status_from hstatus with ⟨-, ha⟩ | hp
    · exact ha
    · exact h.mem_answered (List.ne_nil_of_mem hp)
  · rintro ⟨a, ha, rfl⟩
    rw [h.answered_eq hlen] at ha
    refine (h.holds hlen).statuses_ne _ ?_
    rw [((h.holds hlen).tasks_eq _ _).2 ha]
    exact Option.some_ne_none _

/-- The id of the next POST has no status yet. -/
theorem Orderly.status_next (h : Orderly ms) (hlen : (posted ms).length < 2 ^ 64) :
    (after ms).statuses.get ((after ms).id + 1) = none := by
  by_contra hne
  obtain ⟨a, ha, hid⟩ := (h.status_ne_none (by omega)).1 hne
  rw [h.answered_eq (by omega)] at ha
  refine next_id_new hlen ha ?_
  rw [hid, (h.holds (by omega)).id_eq, Int64.ofNat_add]
  rfl

/-- One message does not take a status back. -/
theorem Orderly.status_step (h : Orderly (ms ++ [m])) (hlen : (posted (ms ++ [m])).length ≤ 2 ^ 64)
    {status : Status} (hstatus : (after ms).statuses.get i = some status) :
    ∃ status', (after (ms ++ [m])).statuses.get i = some status' ∧ status ≤ status' := by
  rw [after, Actor.after_concat]
  cases m using Message.casesEvent with
  | newNumber m =>
    have hnew : i ≠ (after ms).id + 1 := by
      rintro rfl
      rw [posted_concat, List.length_append, Message.number?, Option.toList_some,
        List.length_singleton] at hlen
      rw [h.left.status_next (by omega)] at hstatus
      cases hstatus
    refine ⟨status, ?_, le_refl _⟩
    show ((after ms).statuses.put ((after ms).id + 1) .QUEUED).get i = some status
    rwa [HashMap.get_put_ne _ _ _ hnew]
  | register r =>
    have hlen' : (posted ms).length ≤ 2 ^ 64 := (length_posted_left ms _).trans hlen
    obtain ⟨old, hold⟩ := Option.ne_none_iff_exists'.1
      ((h.left.status_ne_none hlen').2 ((Always.concat.1 h.registered).2 r rfl))
    rw [process_register_some hold]
    exact ⟨status, hstatus, le_refl _⟩
  | event e =>
    rw [process_event]
    show ∃ status', ((after ms).statuses.put e.taskId e.status).get i = some status' ∧ _
    by_cases hi : i = e.taskId
    · subst hi
      refine ⟨e.status, HashMap.get_put_self _ _ _, ?_⟩
      rcases status_from hstatus with ⟨rfl, -⟩ | hp
      · exact Status.QUEUED_le _
      · exact le_of_lt (lt_status_of_progress (h.events e.taskId) hp)
    · exact ⟨status, by rwa [HashMap.get_put_ne _ _ _ hi], le_refl _⟩
  | getStatus m => exact ⟨status, hstatus, le_refl _⟩

/-- **A status never goes back.** -/
theorem Orderly.status_mono (h : Orderly (ms ++ ms'))
    (hlen : (posted (ms ++ ms')).length ≤ 2 ^ 64) {status : Status}
    (hstatus : (after ms).statuses.get i = some status) :
    ∃ status', (after (ms ++ ms')).statuses.get i = some status' ∧ status ≤ status' := by
  induction ms' using List.reverseRecOn with
  | nil => exact ⟨status, by rwa [List.append_nil], le_refl _⟩
  | append_singleton ms' m ih =>
    rw [← List.append_assoc] at h hlen ⊢
    have hlen' : (posted (ms ++ ms')).length ≤ 2 ^ 64 := (length_posted_left _ [m]).trans hlen
    obtain ⟨status', hstatus', hle⟩ := ih h.left hlen'
    obtain ⟨status'', hstatus'', hle'⟩ := h.status_step hlen hstatus'
    exact ⟨status'', hstatus'', le_trans hle hle'⟩

/-- After its end a task is `FINISHED`. -/
theorem Orderly.status_finished (h : Orderly ms) (hlen : (posted ms).length ≤ 2 ^ 64)
    (hi : .FINISHED ∈ progress i ms) : (after ms).statuses.get i = some .FINISHED := by
  obtain ⟨m, hm, hp⟩ := List.mem_filterMap.1 hi
  obtain ⟨pre, post, rfl⟩ := List.append_of_mem hm
  rw [List.append_cons] at h hlen ⊢
  have hend : (after (pre ++ [m])).statuses.get i = some .FINISHED := by
    cases m using Message.casesEvent with
    | newNumber m => cases hp
    | register r => cases hp
    | event e =>
      rw [progress?_ofEvent] at hp
      obtain ⟨hi, hs⟩ := Option.ite_none_right_eq_some.1 hp
      rw [← hi, ← hs]
      exact status_after_event pre e
    | getStatus m => cases hp
  obtain ⟨status, hstatus, hle⟩ := h.status_mono hlen hend
  rw [hstatus, le_antisymm (Status.le_FINISHED status) hle]

end

end PrimeTester.TaskStorage
