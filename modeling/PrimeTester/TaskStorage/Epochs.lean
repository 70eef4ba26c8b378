import PrimeTester.Lib.Restart
import PrimeTester.TaskStorage.Registered

/-!
# What the storage remembers

In any mailbox, with whatever registrations and events, the storage remembers what came since its
last restart, and nothing else. `Remembers ms st` says of every field of the storage what it is after
the messages `ms` of an epoch: the tasks that were posted, for each of them the last event after its
POST, for every other id the last event, and the last broadcaster that was registered for an id.
`remembers_epoch` puts the epoch in its place in the mailbox: it is preceded by a registration for an
id without a status, and its POSTs are answered with ids from `1` on again.
-/

namespace PrimeTester.TaskStorage

section
variable {B : Type}

/-- The messages since the last restart. -/
abbrev epoch (ms : List (Message B)) : List (Message B) := (actor B).epoch ms

/-- No message makes the storage restart. -/
abbrev NoRestart (ms : List (Message B)) : Prop :=
  Always (fun pre m => (actor B).throws (after pre) m = false) ms

/-- What each field is after the messages since the last restart. -/
structure Remembers (ms : List (Message B)) (st : TaskStorage B) : Prop where
  id_eq : st.id = Int64.ofNat (posted ms).length
  tasks_eq : ∀ i n, st.tasks.get i = some n ↔ ⟨i, n⟩ ∈ assignments (posted ms)
  /-- The status of a task is that of the last event after its POST. -/
  status_posted : ∀ pre m post, ms = pre ++ .newNumber m :: post →
    st.statuses.get (Int64.ofNat ((posted pre).length + 1)) =
      some ((progress (Int64.ofNat ((posted pre).length + 1)) post).getLast?.getD .QUEUED)
  /-- An id that was not posted has the status of the last event. -/
  status_foreign : ∀ i, (∀ n, ⟨i, n⟩ ∉ assignments (posted ms)) →
    st.statuses.get i = (progress i ms).getLast?
  subscriptions_eq : ∀ i, st.subscriptions.get i =
    ((registrations ms).filter (·.taskId = i)).getLast?.map (·.broadcaster)

variable {ms ms' : List (Message B)} {m : Message B} {i : Long}

/-- A handler throws exactly on a registration for an id without a status. -/
theorem throws_iff {st : TaskStorage B} :
    (actor B).throws st m ↔ ∃ r, m = .register r ∧ st.statuses.get r.taskId = none := by
  cases m using Message.casesEvent with
  | newNumber m => simp [Actor.throws, actor, receive]
  | register r =>
    cases h : st.statuses.get r.taskId with
    | none => simp [Actor.throws, actor, receive, register_none h, h]
    | some status => simp [Actor.throws, actor, receive, register_some h, h]
  | event e => cases e <;> simp [Actor.throws, actor, receive, recordStateChange_eq, Message.ofEvent]
  | getStatus m => simp [Actor.throws, actor, receive]

/-- A registration that makes nothing restart is for an id with a status. -/
theorem status_of_not_throws {st : TaskStorage B} {r : RegisterForNotifications B}
    (h : (actor B).throws st (.register r) = false) :
    ∃ status, st.statuses.get r.taskId = some status := by
  refine Option.ne_none_iff_exists'.1 fun hnone => ?_
  rw [throws_iff.2 ⟨r, rfl, hnone⟩] at h
  cases h

/-- Without restarts, there is none after a POST either. -/
theorem NoRestart.noLateRestart (h : NoRestart ms) : NoLateRestart ms := by
  intro pre m post hms r hr hnone
  have hthrows : (actor B).throws (after pre) m = false := h pre m post hms
  rw [throws_iff.2 ⟨r, hr, hnone⟩] at hthrows
  cases hthrows

theorem NoRestart.left (h : NoRestart (ms ++ ms')) : NoRestart ms := Always.left h

/-! ## Fields -/

/-- The status of an id after more messages, none of which is a POST that gets the id: that of the
last event among them, or else the one before. -/
theorem NoRestart.status_append (h : NoRestart (ms ++ ms'))
    (hnew : ∀ pre m post, ms' = pre ++ .newNumber m :: post → (after (ms ++ pre)).id + 1 ≠ i) :
    (after (ms ++ ms')).statuses.get i =
      (progress i ms').getLast?.or ((after ms).statuses.get i) := by
  induction ms' using List.reverseRecOn with
  | nil => rw [List.append_nil]; rfl
  | append_singleton ms' m ih =>
    rw [← List.append_assoc] at h ⊢
    obtain ⟨hleft, hm⟩ := Always.concat.1 h
    have ih := ih hleft fun pre m' post hms =>
      hnew pre m' (post ++ [m]) (by rw [hms]; simp)
    rw [after, Actor.after_concat]
    cases m using Message.casesEvent with
    | newNumber m =>
      rw [progress_concat_of_none ms' rfl, ← ih]
      exact HashMap.get_put_ne _ _ _ (hnew ms' m [] rfl).symm
    | register r =>
      obtain ⟨status, hstatus⟩ := status_of_not_throws hm
      rw [progress_concat_of_none ms' rfl, process_register_some hstatus]
      exact ih
    | event e =>
      rw [progress_concat, progress?_ofEvent, process_event]
      show ((after (ms ++ ms')).statuses.put e.taskId e.status).get i = _
      rw [HashMap.get_put]
      by_cases hi : i = e.taskId
      · rw [if_pos hi, if_pos hi.symm, Option.toList_some, List.getLast?_concat]
        rfl
      · rw [if_neg hi, if_neg (Ne.symm hi), Option.toList_none, List.append_nil]
        exact ih
    | getStatus m =>
      rw [progress_concat_of_none ms' rfl]
      exact ih

/-- The subscriber of an id is the last broadcaster that was registered for it. -/
theorem NoRestart.subscriptions_eq (h : NoRestart ms) (i : Long) :
    (after ms).subscriptions.get i =
      ((registrations ms).filter (·.taskId = i)).getLast?.map (·.broadcaster) := by
  induction ms using List.reverseRecOn with
  | nil => rfl
  | append_singleton ms m ih =>
    obtain ⟨hleft, hm⟩ := Always.concat.1 h
    have ih := ih hleft
    rw [after, Actor.after_concat]
    cases m using Message.casesEvent with
    | newNumber m =>
      rw [registrations_concat_of_none ms rfl]
      exact ih
    | register r =>
      obtain ⟨status, hstatus⟩ := status_of_not_throws hm
      rw [process_register_some hstatus, registrations_concat]
      show ((after ms).subscriptions.put r.taskId r.broadcaster).get i = _
      rw [HashMap.get_put, Message.registration?, Option.toList_some, List.filter_append]
      by_cases hi : r.taskId = i
      · rw [if_pos hi.symm]
        simp [hi]
      · rw [if_neg (Ne.symm hi), ih]
        simp [hi]
    | event e =>
      rw [registrations_concat_of_none ms (registration?_ofEvent e), process_event]
      exact ih
    | getStatus m =>
      rw [registrations_concat_of_none ms rfl]
      exact ih

theorem posted_newNumber (m : NewNumberCalculationMessage) (ms : List (Message B)) :
    posted (.newNumber m :: ms) = m.number :: posted ms := rfl

/-- The id that the next POST gets. -/
theorem NoRestart.next_id (h : NoRestart ms) (hlen : (posted ms).length ≤ 2 ^ 64) :
    (after ms).id + 1 = Int64.ofNat ((posted ms).length + 1) := by
  rw [(holds_after h.noLateRestart hlen).id_eq, Int64.ofNat_add]
  rfl

/-- **What the storage remembers** of messages without a restart, up to `2 ^ 64` POSTs. -/
theorem NoRestart.remembers (h : NoRestart ms) (hlen : (posted ms).length ≤ 2 ^ 64) :
    Remembers ms (after ms) where
  id_eq := (holds_after h.noLateRestart hlen).id_eq
  tasks_eq := (holds_after h.noLateRestart hlen).tasks_eq
  status_posted pre m post hms := by
    subst hms
    rw [List.append_cons] at h hlen ⊢
    have hbefore : (posted pre).length < 2 ^ 64 := by
      simp only [posted_append, posted_newNumber, List.length_append, List.length_cons] at hlen
      omega
    have hid := (h.left.left).next_id hbefore.le
    rw [h.status_append]
    · rw [after, Actor.after_concat, ← hid]
      show (progress _ post).getLast?.or
        (((after pre).statuses.put ((after pre).id + 1) .QUEUED).get ((after pre).id + 1)) = _
      rw [HashMap.get_put_self, Option.or_some]
    · rintro pre' m' post' rfl
      have hleft : NoRestart (pre ++ [.newNumber m] ++ pre') := by
        rw [← List.append_assoc] at h
        exact h.left
      have hpre' : (posted (pre ++ [.newNumber m] ++ pre')).length < 2 ^ 64 := by
        simp only [posted_append, posted_newNumber, List.length_append, List.length_cons] at hlen ⊢
        omega
      rw [hleft.next_id hpre'.le]
      intro hc
      have heq := Long.ofNat_succ_inj hpre' hbefore hc
      simp only [posted_append, posted_newNumber, List.length_append, List.length_cons] at heq
      omega
  status_foreign i hi := by
    have hstatus : (after ([] ++ ms)).statuses.get i =
        (progress i ms).getLast?.or ((after ([] : List (Message B))).statuses.get i) := by
      refine NoRestart.status_append h ?_
      rintro pre m post rfl
      have hpre : (posted pre).length < 2 ^ 64 := by
        simp only [posted_append, posted_newNumber, List.length_append, List.length_cons] at hlen
        omega
      rw [List.nil_append, h.left.next_id hpre.le]
      rintro rfl
      refine hi m.number (mem_assignments.2 ⟨(posted pre).length, ?_, ?_⟩)
      · simp [posted_append, posted_newNumber]
      · simp [posted_append, posted_newNumber]
    rw [List.nil_append] at hstatus
    rw [hstatus]
    exact Option.or_none
  subscriptions_eq := h.subscriptions_eq

/-! ## Any mailbox -/

/-- **The storage remembers what came since its last restart.** In any mailbox, with up to `2 ^ 64`
POSTs since then, every field is what these messages make of it. Before them there is nothing, or a
registration for an id that had no status; and the POSTs among them are answered last, with ids from
`1` on. -/
theorem remembers_epoch (ms : List (Message B)) (hlen : (posted (epoch ms)).length ≤ 2 ^ 64) :
    Remembers (epoch ms) (after ms) ∧
      (epoch ms = ms ∨ ∃ pre r, ms = pre ++ .register r :: epoch ms ∧
        (after pre).statuses.get r.taskId = none) ∧
      ∃ old, answered ms = old ++ assignments (posted (epoch ms)) := by
  have hno : NoRestart (epoch ms) := (actor B).always_epoch ms
  refine ⟨?_, ?_, ?_⟩
  · rw [← show after (epoch ms) = after ms from (actor B).after_epoch ms]
    exact hno.remembers hlen
  · rcases (actor B).epoch_cut ms with hall | ⟨pre, m, hms, hthrows⟩
    · exact .inl hall
    · obtain ⟨r, rfl, hnone⟩ := throws_iff.1 hthrows
      exact .inr ⟨pre, r, hms, hnone⟩
  · obtain ⟨os, hos⟩ := (actor B).outputs_epoch ms
    refine ⟨os.filterMap Output.assigned?, ?_⟩
    rw [← answered_eq hno.noLateRestart hlen, answered, outputs, hos, List.filterMap_append]
    rfl

/-- After a restart the next POST gets the id `1` again. -/
theorem remembers_epoch_restart :
    (after ([.newNumber ⟨"7"⟩, .register ⟨99, ()⟩, .newNumber ⟨"8"⟩] :
      List (Message Unit))).tasks.get 1 = some "8" :=
  ((remembers_epoch [.newNumber ⟨"7"⟩, .register ⟨99, ()⟩, .newNumber ⟨"8"⟩] (by decide)).1.tasks_eq
    1 "8").2 (by decide)

end

end PrimeTester.TaskStorage
