import PrimeTester.Cluster.OneFrontend
import PrimeTester.Cluster.Results

/-!
# The status of a task and its worker

`Consistent tr s` ties the maps of the only task storage to what is in flight and to what the
workers have done by then. It holds in every state that a run reaches, and no step takes a status
back (`status_follows_worker`), whatever messages are lost.
-/

namespace PrimeTester.Cluster

section
variable {W B : Type}

/-- The task is on its way to a worker, or a worker is busy with it. -/
def InFlight (s : State Unit Empty W B) (m : TaskIdAssignedMessage) : Prop :=
  m ∈ waiting s ∨ ∃ w t, (t ∈ s.mailbox w ∨ s.busy w = some t) ∧ t.message = m

/-- The event is on its way to one of the storages. -/
def EventInFlight (s : State Unit Empty W B) (e : Event) : Prop :=
  ∃ w p, (p ∈ s.statusMail () w ∨ p ∈ s.resultMail () w) ∧ p.message = e

/-- The maps of the task storage, what is in flight and what the workers have done. -/
structure Consistent (tr : List (Label Unit Empty W B)) (s : State Unit Empty W B) : Prop where
  /-- Tasks and statuses have the keys from `1` up to the counter. -/
  tasks_keys : ∀ i, (s.taskStorage ()).tasks.get i ≠ none ↔ 1 ≤ i ∧ i ≤ (s.taskStorage ()).id
  statuses_keys : ∀ i, (s.taskStorage ()).statuses.get i ≠ none ↔
    1 ≤ i ∧ i ≤ (s.taskStorage ()).id
  /-- Messages in flight are about these tasks. -/
  assigned : ∀ m, InFlight s m → (s.taskStorage ()).tasks.get m.taskId = some m.number
  started : ∀ m, EventInFlight s (.started m) → 1 ≤ m.taskId ∧ m.taskId ≤ (s.taskStorage ()).id
  finished : ∀ m, EventInFlight s (.finished m) →
    (s.taskStorage ()).tasks.get m.taskId = some m.number
  /-- A status is that of a worker with exactly this task. -/
  begun : ∀ i, (s.taskStorage ()).statuses.get i = some .STARTED →
    ∃ w t, .begin w t ∈ tr ∧ t.message.taskId = i ∧
      (s.taskStorage ()).tasks.get i = some t.message.number
  completed : ∀ i, (s.taskStorage ()).statuses.get i = some .FINISHED →
    ∃ w t m, .complete w t m ∈ tr ∧ t.message.taskId = i ∧
      (s.taskStorage ()).tasks.get i = some t.message.number

variable [DecidableEq W] {A : Assumption (State Unit Empty W B) (Label Unit Empty W B)}
variable {tr : List (Label Unit Empty W B)} {s : State Unit Empty W B}

/-- The ids from `1` on, in the order of `long`. -/
theorem mem_assignments_range {numbers : List String} (hlen : numbers.length < 2 ^ 63) {i : Long} :
    (∃ a ∈ TaskStorage.assignments numbers, a.taskId = i) ↔
      1 ≤ i ∧ i ≤ Int64.ofNat numbers.length := by
  rw [← Long.ofNat_succ_range hlen]
  constructor
  · rintro ⟨a, ha, rfl⟩
    obtain ⟨j, hj, rfl⟩ := TaskStorage.mem_assignments.1 ha
    exact ⟨j, hj, rfl⟩
  · rintro ⟨j, hj, rfl⟩
    exact ⟨_, TaskStorage.mem_assignments.2 ⟨j, hj, rfl⟩, rfl⟩

/-- The number of an event that ends a task is the number of the task. -/
theorem Run.published_finished (h : (system Unit Empty W B).Run A tr s) {w : W}
    {e : Published Unit Empty} (he : PublishedBy tr w e) {m : CalculationFinished}
    (hm : e.message = .finished m) : ⟨m.taskId, m.number⟩ ∈ TaskStorage.answered (messages tr) := by
  obtain ⟨t, -, hsub, rfl | ⟨-, rfl⟩⟩ := Run.published h he
  · cases hm
  · cases hm
    exact hsub.answered

/-- A status that was announced comes from the worker with the task. -/
theorem Run.announced (h : (system Unit Empty W B).Run A tr s) {i : Long} {status : Status}
    (hs : status ∈ TaskStorage.progress i (messages tr)) :
    ∃ w t, t.message ∈ TaskStorage.answered (messages tr) ∧ t.message.taskId = i ∧
      (status = .STARTED ∧ .begin w t ∈ tr ∨
        status = .FINISHED ∧ .complete w t (Worker.verdict t.message) ∈ tr) := by
  obtain ⟨w, e, he, rfl, rfl⟩ := mem_progress.1 hs
  obtain ⟨t, hbegin, hsub, rfl | ⟨hdone, rfl⟩⟩ := Run.published h (Run.statusEvent h he)
  · exact ⟨w, t, hsub.answered, rfl, .inl ⟨rfl, hbegin⟩⟩
  · exact ⟨w, t, hsub.answered, rfl, .inr ⟨rfl, hdone⟩⟩

/-- In every run of a cluster with one frontend, the maps of its task storage agree with what is
in flight and with what the workers have done. -/
theorem Run.consistent (h : (system Unit Empty W B).Run Registered tr s)
    (hlen : (TaskStorage.posted (messages tr)).length < 2 ^ 63) : Consistent tr s := by
  obtain ⟨hord, -⟩ := Run.orderly h (by omega)
  have hflight := Run.flight h
  have hst : s.taskStorage () = TaskStorage.after (messages tr) := Run.taskStorage_eq h ()
  have hholds := hord.holds (by omega)
  have hanswered := hord.answered_eq (by omega)
  have htask {a : TaskIdAssignedMessage} (ha : a ∈ TaskStorage.answered (messages tr)) :
      (s.taskStorage ()).tasks.get a.taskId = some a.number := by
    rw [hst, hholds.tasks_eq, ← hanswered]
    exact ha
  have hrange (i : Long) : (∃ a ∈ TaskStorage.answered (messages tr), a.taskId = i) ↔
      1 ≤ i ∧ i ≤ (s.taskStorage ()).id := by
    rw [hst, hholds.id_eq, hanswered]
    exact mem_assignments_range hlen
  have hevent {e : Event} (he : EventInFlight s e) :
      ∃ w p, PublishedBy tr w p ∧ p.message = e := by
    obtain ⟨w, p, hp | hp, rfl⟩ := he
    · exact ⟨w, p, hflight.statusMail () w p hp, rfl⟩
    · exact ⟨w, p, hflight.resultMail () w p hp, rfl⟩
  refine ⟨fun i => ?_, fun i => ?_, fun m hm => ?_, fun m hm => ?_, fun m hm => ?_,
    fun i hi => ?_, fun i hi => ?_⟩
  · rw [← hrange]
    constructor
    · intro hi
      obtain ⟨n, hn⟩ := Option.ne_none_iff_exists'.1 hi
      rw [hst, hholds.tasks_eq, ← hanswered] at hn
      exact ⟨_, hn, rfl⟩
    · rintro ⟨a, ha, rfl⟩
      rw [htask ha]
      exact Option.some_ne_none _
  · rw [← hrange, hst]
    exact hord.status_ne_none (by omega)
  · rcases hm with hm | ⟨w, t, ht | ht, rfl⟩
    · exact htask (hflight.clusterProxy _ m hm).answered
    · exact htask (hflight.mailbox w t ht).answered
    · exact htask (Run.begun h (hflight.busy w t ht)).answered
  · obtain ⟨w, p, hp, hpm⟩ := hevent hm
    rw [← hrange]
    obtain ⟨a, ha, hid⟩ := Run.published_known h hp
    exact ⟨a, ha, by rw [hid, hpm]; rfl⟩
  · obtain ⟨w, p, hp, hpm⟩ := hevent hm
    exact htask (Run.published_finished h hp hpm)
  · rw [hst] at hi
    obtain ⟨w, t, ht, rfl, ⟨-, hbegin⟩ | ⟨hc, -⟩⟩ := Run.announced h
      ((TaskStorage.status_from hi).resolve_left fun hc => absurd hc.1 (by decide))
    · exact ⟨w, t, hbegin, rfl, htask ht⟩
    · cases hc
  · rw [hst] at hi
    obtain ⟨w, t, ht, rfl, ⟨hc, -⟩ | ⟨-, hdone⟩⟩ := Run.announced h
      ((TaskStorage.status_from hi).resolve_left fun hc => absurd hc.1 (by decide))
    · cases hc
    · exact ⟨w, t, _, hdone, rfl, htask ht⟩

/-- **A status follows the worker and never goes back.** In a cluster with one frontend whose
clients register only for ids that a POST was answered with, and with less than `2 ^ 63` POSTs, every
state reached is consistent, and no further step takes a status back, whatever is lost. -/
theorem status_follows_worker (h : (system Unit Empty W B).Run Registered tr s)
    (hlen : (TaskStorage.posted (messages tr)).length < 2 ^ 63) :
    Consistent tr s ∧ ∀ l s', Step s l s' → Registered tr s l →
      (TaskStorage.posted (messages (tr ++ [l]))).length < 2 ^ 63 →
      ∀ i status, (s.taskStorage ()).statuses.get i = some status →
        ∃ status', (s'.taskStorage ()).statuses.get i = some status' ∧ status ≤ status' := by
  refine ⟨Run.consistent h hlen, fun l s' hs hreg hlen' i status hstatus => ?_⟩
  have h' : (system Unit Empty W B).Run Registered (tr ++ [l]) s' := h.step hs hreg
  obtain ⟨hord, -⟩ := Run.orderly h' (by omega)
  rw [Run.taskStorage_eq h ()] at hstatus
  rw [Run.taskStorage_eq h' ()]
  rw [messages_concat] at hord hlen'
  rw [taskMessages_concat]
  exact hord.status_mono (by omega) hstatus

end

/-- The only task of a run, after its end. -/
theorem status_follows_worker_two : ∃ (tr : List (Label Unit Empty Unit Unit))
    (s : State Unit Empty Unit Unit), (system Unit Empty Unit Unit).Run Registered tr s ∧
      (s.taskStorage ()).statuses.get 1 = some .FINISHED ∧ Consistent tr s := by
  obtain ⟨s, hrun, hst, -⟩ := run_oneTaskFinished (A := Registered) (r := ⟨"2", by decide⟩)
    fun tr s l hl f i b hsuspend => absurd hsuspend ((oneTaskFinished_plain hl).1 f i b)
  have hposted : (TaskStorage.posted (messages (oneTaskFinished ⟨"2", by decide⟩))).length = 1 :=
    rfl
  refine ⟨_, s, hrun, by rw [hst]; rfl, (status_follows_worker hrun ?_).1⟩
  rw [hposted]
  norm_num

end PrimeTester.Cluster
