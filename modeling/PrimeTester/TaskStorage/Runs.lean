import Mathlib.Data.List.FinRange
import PrimeTester.Lib.Run
import PrimeTester.TaskStorage

/-!
# Runs of the task storage

`TaskStorage.after ms` is the storage after a list of messages and `answered ms` what it has
answered to the POSTs among them. Their numbers are `posted ms`. As long as no registration makes
the storage restart after a POST, the answers are `assignments (posted ms)`: the numbers with the
ids `1, 2, …` in the order of the POSTs (`answered_eq`), and up to `2 ^ 64` POSTs the storage holds
exactly these tasks (`holds_after`).
-/

namespace PrimeTester.TaskStorage

section
variable {B : Type}

/-- The storage after a list of messages, under supervision. -/
abbrev after (ms : List (Message B)) : TaskStorage B := (actor B).after ms

/-- Everything the storage sends during a list of messages. -/
abbrev outputs (ms : List (Message B)) : List (Output B) := (actor B).outputs ms

/-! ## Histories -/

/-- The number that a POST asks to test. -/
def Message.number? : Message B → Option String
  | .newNumber m => some m.number
  | _ => none

/-- The numbers of the POSTs, in order. -/
def posted (ms : List (Message B)) : List String := ms.filterMap Message.number?

def Output.assigned? : Output B → Option TaskIdAssignedMessage
  | .replyAssigned m => some m
  | _ => none

def Output.forwarded? : Output B → Option TaskIdAssignedMessage
  | .toClusterProxy m => some m
  | _ => none

/-- The answers to the POSTs, in order. -/
def answered (ms : List (Message B)) : List TaskIdAssignedMessage :=
  (outputs ms).filterMap Output.assigned?

/-- The registration that a message brings. -/
def Message.registration? : Message B → Option (RegisterForNotifications B)
  | .register m => some m
  | _ => none

/-- The registrations, in order. -/
def registrations (ms : List (Message B)) : List (RegisterForNotifications B) :=
  ms.filterMap Message.registration?

/-- The status that an event about task `i` announces. -/
def Message.progress? (i : Long) : Message B → Option Status
  | .started m => if m.taskId = i then some .STARTED else none
  | .finished m => if m.taskId = i then some .FINISHED else none
  | _ => none

/-- The statuses that the events about task `i` announce, in order. -/
def progress (i : Long) (ms : List (Message B)) : List Status :=
  ms.filterMap (Message.progress? i)

theorem posted_concat (ms : List (Message B)) (m : Message B) :
    posted (ms ++ [m]) = posted ms ++ m.number?.toList := by
  cases h : m.number? <;> simp [posted, h]

theorem posted_append (ms ms' : List (Message B)) : posted (ms ++ ms') = posted ms ++ posted ms' :=
  List.filterMap_append

/-- A run has at least the POSTs of its beginning. -/
theorem length_posted_left (ms ms' : List (Message B)) :
    (posted ms).length ≤ (posted (ms ++ ms')).length := by
  rw [posted_append, List.length_append]
  exact Nat.le_add_right _ _

theorem registrations_concat (ms : List (Message B)) (m : Message B) :
    registrations (ms ++ [m]) = registrations ms ++ m.registration?.toList := by
  cases h : m.registration? <;> simp [registrations, h]

theorem registrations_concat_of_none (ms : List (Message B)) {m : Message B}
    (hm : m.registration? = none) : registrations (ms ++ [m]) = registrations ms := by
  rw [registrations_concat, hm]
  exact List.append_nil _

theorem progress_concat (i : Long) (ms : List (Message B)) (m : Message B) :
    progress i (ms ++ [m]) = progress i ms ++ (m.progress? i).toList := by
  cases h : m.progress? i <;> simp [progress, h]

theorem progress_concat_of_none {i : Long} (ms : List (Message B)) {m : Message B}
    (hm : m.progress? i = none) : progress i (ms ++ [m]) = progress i ms := by
  rw [progress_concat, hm]
  exact List.append_nil _

theorem progress_left (i : Long) (ms ms' : List (Message B)) :
    (progress i ms).Sublist (progress i (ms ++ ms')) := by
  rw [progress, progress, List.filterMap_append]
  exact List.sublist_append_left _ _

@[simp] theorem progress?_ofEvent (i : Long) (e : Event) :
    (Message.ofEvent e : Message B).progress? i =
      if e.taskId = i then some e.status else none := by
  cases e <;> rfl

@[simp] theorem number?_ofEvent (e : Event) : (Message.ofEvent e : Message B).number? = none := by
  cases e <;> rfl

@[simp] theorem registration?_ofEvent (e : Event) :
    (Message.ofEvent e : Message B).registration? = none := by
  cases e <;> rfl

/-- When the events of a task come in order, an event comes after all the earlier ones in the order
of the statuses. -/
theorem lt_status_of_progress {ms : List (Message B)} {e : Event}
    (h : (progress e.taskId (ms ++ [.ofEvent e])).Sublist [.STARTED, .FINISHED]) {status : Status}
    (hs : status ∈ progress e.taskId ms) : status < e.status := by
  rw [progress_concat, progress?_ofEvent, if_pos rfl, Option.toList_some] at h
  have hpw : (progress e.taskId ms ++ [e.status]).Pairwise (· < ·) :=
    List.Pairwise.sublist h (by decide)
  exact (List.pairwise_append.1 hpw).2.2 _ hs _ (List.mem_singleton_self _)

theorem mem_registrations {ms : List (Message B)} {r : RegisterForNotifications B} :
    r ∈ registrations ms ↔ .register r ∈ ms := by
  rw [registrations, List.mem_filterMap]
  constructor
  · rintro ⟨m, hm, hr⟩
    cases m <;> cases hr
    exact hm
  · intro h
    exact ⟨_, h, rfl⟩

/-- A message is an event or one of the three requests. -/
theorem Message.casesEvent {motive : Message B → Prop} (newNumber : ∀ m, motive (.newNumber m))
    (register : ∀ r, motive (.register r)) (event : ∀ e, motive (.ofEvent e))
    (getStatus : ∀ m, motive (.getStatus m)) (m : Message B) : motive m := by
  cases m with
  | newNumber m => exact newNumber m
  | register r => exact register r
  | started m => exact event (.started m)
  | finished m => exact event (.finished m)
  | getStatus m => exact getStatus m

/-! ## The answers to the POSTs -/

/-- Only a POST is answered with an id, the successor of the storage's counter, and the same goes
to the cluster proxy. -/
theorem process_assigned (st : TaskStorage B) (m : Message B) :
    ((actor B).process st m).2.filterMap Output.assigned? =
        (m.number?.toList.map fun number => ⟨st.id + 1, number⟩) ∧
      ((actor B).process st m).2.filterMap Output.forwarded? =
        m.number?.toList.map fun number => ⟨st.id + 1, number⟩ := by
  cases m using Message.casesEvent with
  | newNumber m => exact ⟨rfl, rfl⟩
  | register r =>
    cases h : st.statuses.get r.taskId with
    | none => rw [process_register_none h]; exact ⟨rfl, rfl⟩
    | some status => rw [process_register_some h]; cases status <;> exact ⟨rfl, rfl⟩
  | event e =>
    rw [process_event, notify]
    cases st.subscriptions.get e.taskId <;> cases e <;> exact ⟨rfl, rfl⟩
  | getStatus m => exact ⟨rfl, rfl⟩

theorem answered_concat (ms : List (Message B)) (m : Message B) :
    answered (ms ++ [m]) =
      answered ms ++ m.number?.toList.map fun number => ⟨(after ms).id + 1, number⟩ := by
  rw [answered, outputs, Actor.outputs_concat, List.filterMap_append, (process_assigned _ m).1]
  rfl

theorem answered_concat_of_none (ms : List (Message B)) {m : Message B} (hm : m.number? = none) :
    answered (ms ++ [m]) = answered ms := by
  rw [answered_concat, hm]
  exact List.append_nil _

/-- Every POST is answered, with its own number. -/
theorem answered_numbers (ms : List (Message B)) : (answered ms).map (·.number) = posted ms := by
  induction ms using List.reverseRecOn with
  | nil => rfl
  | append_singleton ms m ih =>
    rw [answered_concat, posted_concat, List.map_append, ih, List.map_map]
    cases m.number? <;> rfl

theorem length_answered (ms : List (Message B)) : (answered ms).length = (posted ms).length := by
  rw [← answered_numbers, List.length_map]

/-- An answer is never taken back. -/
theorem mem_answered_append {ms ms' : List (Message B)} {a : TaskIdAssignedMessage}
    (h : a ∈ answered ms) : a ∈ answered (ms ++ ms') := by
  rw [answered, List.mem_filterMap] at h ⊢
  obtain ⟨o, ho, ha⟩ := h
  exact ⟨o, Actor.mem_outputs_append ho, ha⟩

/-- An event is recorded. -/
theorem status_after_event (ms : List (Message B)) (e : Event) :
    (after (ms ++ [.ofEvent e])).statuses.get e.taskId = some e.status := by
  rw [after, Actor.after_concat, process_event]
  exact HashMap.get_put_self _ _ _

/-- Where a status comes from: a POST that was answered with the id, or an event about the task. -/
theorem status_from {ms : List (Message B)} {i : Long} {status : Status}
    (h : (after ms).statuses.get i = some status) :
    (status = .QUEUED ∧ ∃ a ∈ answered ms, a.taskId = i) ∨ status ∈ progress i ms := by
  induction ms using List.reverseRecOn with
  | nil => cases h
  | append_singleton ms m ih =>
    have old (hold : (after ms).statuses.get i = some status) :
        (status = .QUEUED ∧ ∃ a ∈ answered (ms ++ [m]), a.taskId = i) ∨
          status ∈ progress i (ms ++ [m]) := by
      rw [progress_concat, List.mem_append]
      refine (ih hold).imp ?_ .inl
      rintro ⟨rfl, a, ha, hi⟩
      exact ⟨rfl, a, mem_answered_append ha, hi⟩
    rw [after, Actor.after_concat] at h
    cases m using Message.casesEvent with
    | newNumber m =>
      replace h : ((after ms).statuses.put ((after ms).id + 1) .QUEUED).get i = some status := h
      rw [HashMap.get_put] at h
      split at h
      · rename_i hi
        cases h
        refine .inl ⟨rfl, ⟨(after ms).id + 1, m.number⟩, ?_, hi.symm⟩
        rw [answered_concat]
        exact List.mem_append_right _ (List.mem_singleton_self _)
      · exact old h
    | register r =>
      cases hs : (after ms).statuses.get r.taskId with
      | none =>
        rw [process_register_none hs] at h
        cases h
      | some _ =>
        rw [process_register_some hs] at h
        exact old h
    | event e =>
      rw [process_event] at h
      replace h : ((after ms).statuses.put e.taskId e.status).get i = some status := h
      rw [HashMap.get_put] at h
      split at h
      · rename_i hi
        cases h
        rw [progress_concat, progress?_ofEvent, if_pos hi.symm]
        exact .inr (List.mem_append_right _ (List.mem_singleton_self _))
      · exact old h
    | getStatus m => exact old h

/-! ## The ids in the order of the POSTs -/

/-- The `(j + 1)`-st number under the id `j + 1`. -/
def assignments (numbers : List String) : List TaskIdAssignedMessage :=
  numbers.mapIdx fun j number => ⟨Int64.ofNat (j + 1), number⟩

theorem assignments_concat (numbers : List String) (number : String) :
    assignments (numbers ++ [number]) =
      assignments numbers ++ [⟨Int64.ofNat (numbers.length + 1), number⟩] := by
  simp [assignments, List.mapIdx_append]

theorem length_assignments (numbers : List String) :
    (assignments numbers).length = numbers.length := by
  simp [assignments]

theorem mem_assignments {numbers : List String} {a : TaskIdAssignedMessage} :
    a ∈ assignments numbers ↔
      ∃ j, ∃ h : j < numbers.length, a = ⟨Int64.ofNat (j + 1), numbers[j]⟩ := by
  rw [assignments, List.mem_mapIdx]
  constructor
  · rintro ⟨j, h, rfl⟩; exact ⟨j, h, rfl⟩
  · rintro ⟨j, h, rfl⟩; exact ⟨j, h, rfl⟩

/-- Up to `2 ^ 64` numbers get different ids. -/
theorem assignments_nodup {numbers : List String} (hlen : numbers.length ≤ 2 ^ 64) :
    ((assignments numbers).map (·.taskId)).Nodup := by
  rw [List.nodup_iff_injective_getElem]
  rintro ⟨j, hj⟩ ⟨j', hj'⟩ h
  simp only [List.length_map, length_assignments] at hj hj'
  simp only [assignments, List.getElem_map, List.getElem_mapIdx] at h
  cases Long.ofNat_succ_inj (by omega) (by omega) h
  rfl

/-- The id of the next POST is new. -/
theorem next_id_new {numbers : List String} (hlen : numbers.length < 2 ^ 64)
    {a : TaskIdAssignedMessage} (ha : a ∈ assignments numbers) :
    a.taskId ≠ Int64.ofNat (numbers.length + 1) := by
  obtain ⟨j, hj, rfl⟩ := mem_assignments.1 ha
  intro h
  cases Long.ofNat_succ_inj (by omega) (by omega) h
  omega

/-! ## What the storage holds -/

/-- The storage holds exactly the tasks of `numbers`, in the order in which they were posted. -/
structure Holds (numbers : List String) (st : TaskStorage B) : Prop where
  id_eq : st.id = Int64.ofNat numbers.length
  tasks_eq : ∀ i n, st.tasks.get i = some n ↔ ⟨i, n⟩ ∈ assignments numbers
  statuses_ne : ∀ i, st.tasks.get i ≠ none → st.statuses.get i ≠ none

theorem Holds.fresh : Holds [] (fresh : TaskStorage B) where
  id_eq := rfl
  tasks_eq i n := ⟨fun h => (by cases h), fun h => (by cases h)⟩
  statuses_ne i h := absurd rfl h

/-- The next POST adds its task under a new id. -/
theorem Holds.queueNewMessage {numbers : List String} {st : TaskStorage B} (h : Holds numbers st)
    (hlen : numbers.length < 2 ^ 64) (m : NewNumberCalculationMessage) :
    Holds (numbers ++ [m.number]) (st.queueNewMessage m).1 := by
  have hid : st.id + 1 = Int64.ofNat (numbers.length + 1) := by
    rw [h.id_eq, Int64.ofNat_add]
    rfl
  refine ⟨?_, fun i n => ?_, fun i hi => ?_⟩
  · rw [List.length_append]
    exact hid
  · show (st.tasks.put (st.id + 1) m.number).get i = some n ↔ _
    rw [hid, HashMap.get_put, assignments_concat, List.mem_append, List.mem_singleton]
    split
    · rename_i hi
      subst hi
      simp only [Option.some_inj, TaskIdAssignedMessage.mk.injEq, true_and]
      exact ⟨fun hn => .inr hn.symm, fun hn => (hn.resolve_left fun ha =>
        next_id_new hlen ha rfl).symm⟩
    · rename_i hi
      simp only [h.tasks_eq i n, TaskIdAssignedMessage.mk.injEq, hi, false_and, or_false]
  · show (st.statuses.put (st.id + 1) .QUEUED).get i ≠ none
    by_cases hi' : i = st.id + 1
    · rw [hi', HashMap.get_put_self]
      exact Option.some_ne_none _
    · refine HashMap.get_put_ne_none _ _ _ (h.statuses_ne i ?_)
      rwa [← HashMap.get_put_ne _ _ m.number hi']

/-- A message that does not make the storage restart keeps what it holds, and a POST adds to it. -/
theorem Holds.process {numbers : List String} {st : TaskStorage B} (h : Holds numbers st)
    {m : Message B} (hlen : (numbers ++ m.number?.toList).length ≤ 2 ^ 64)
    (hm : ∀ r, m = .register r → st.statuses.get r.taskId = none → numbers = []) :
    Holds (numbers ++ m.number?.toList) ((actor B).process st m).1 := by
  cases m using Message.casesEvent with
  | newNumber m =>
    simp only [Message.number?, Option.toList_some, List.length_append,
      List.length_singleton] at hlen
    exact h.queueNewMessage (by omega) m
  | register r =>
    have hnum : numbers ++ (Message.register r : Message B).number?.toList = numbers :=
      List.append_nil _
    rw [hnum]
    cases hs : st.statuses.get r.taskId with
    | none =>
      rw [process_register_none hs, hm r rfl hs]
      exact .fresh
    | some status =>
      rw [process_register_some hs]
      exact ⟨h.id_eq, h.tasks_eq, h.statuses_ne⟩
  | event e =>
    have hnum : numbers ++ (Message.ofEvent e : Message B).number?.toList = numbers := by
      cases e <;> exact List.append_nil _
    rw [hnum, process_event]
    exact ⟨h.id_eq, h.tasks_eq, fun i hi => HashMap.get_put_ne_none _ _ _ (h.statuses_ne i hi)⟩
  | getStatus m =>
    have hnum : numbers ++ (Message.getStatus m : Message B).number?.toList = numbers :=
      List.append_nil _
    rw [hnum]
    exact h

/-- No registration arrives for an id without a status once a POST was processed. -/
def NoLateRestart (ms : List (Message B)) : Prop :=
  Always (fun pre m => ∀ r, m = .register r → (after pre).statuses.get r.taskId = none →
    posted pre = []) ms

/-- **What the storage holds after a run.** Without a restart after a POST, and up to `2 ^ 64`
POSTs, the storage holds exactly the tasks that were posted. -/
theorem holds_after {ms : List (Message B)} (hrun : NoLateRestart ms)
    (hlen : (posted ms).length ≤ 2 ^ 64) : Holds (posted ms) (after ms) := by
  induction ms using List.reverseRecOn with
  | nil => exact .fresh
  | append_singleton ms m ih =>
    obtain ⟨hms, hm⟩ := Always.concat.1 hrun
    have hlen' : (posted ms).length ≤ 2 ^ 64 := (length_posted_left ms [m]).trans hlen
    rw [posted_concat] at hlen ⊢
    rw [after, Actor.after_concat]
    exact (ih hms hlen').process hlen hm

/-- The answers of such a run are the numbers with their ids. -/
theorem answered_eq {ms : List (Message B)} (hrun : NoLateRestart ms)
    (hlen : (posted ms).length ≤ 2 ^ 64) : answered ms = assignments (posted ms) := by
  induction ms using List.reverseRecOn with
  | nil => rfl
  | append_singleton ms m ih =>
    obtain ⟨hms, -⟩ := Always.concat.1 hrun
    have hlen' : (posted ms).length ≤ 2 ^ 64 := (length_posted_left ms [m]).trans hlen
    rw [posted_concat, answered_concat, ih hms hlen', (holds_after hms hlen').id_eq]
    cases m.number? with
    | none => simp
    | some number =>
      rw [Option.toList_some, assignments_concat, Int64.ofNat_add]
      rfl

end

end PrimeTester.TaskStorage
