import PrimeTester.Cluster.Flight

/-!
# Several frontends in one cluster

Events are published to every frontend and carry only the id that the frontend of the task has
counted up to, so a frontend records the events of other frontends' tasks, too (`foreign_status`).
`Isolated` is what it can still rely on: an event touches nothing but the status under its own id,
that status comes from a worker with a task of this id, and an id that the frontend never assigned
is unknown to it as long as it has taken no foreign event with that id.
-/

namespace PrimeTester.Cluster

section
variable {F C W B : Type} [DecidableEq F] [DecidableEq C] [DecidableEq W]
variable {A : Assumption (State F C W B) (Label F C W B)}
variable {tr : List (Label F C W B)} {s s' : State F C W B} {l : Label F C W B} {f : F}

/-- What the frontend `f` can rely on, whoever else is in the cluster. -/
structure Isolated (tr : List (Label F C W B)) (s : State F C W B) (f : F) : Prop where
  /-- An event changes at most the status under its own id. -/
  event : ∀ w e s', Step s (.statusEvent f w e) s' →
    (s'.taskStorage f).id = (s.taskStorage f).id ∧
    (s'.taskStorage f).tasks = (s.taskStorage f).tasks ∧
    ∀ i, i ≠ e.message.taskId →
      (s'.taskStorage f).statuses.get i = (s.taskStorage f).statuses.get i
  /-- A status beyond `QUEUED` is recorded for an event of the worker that has begun, or completed,
  a task with the id. -/
  advanced : ∀ l s' i status, Step s l s' → (s'.taskStorage f).statuses.get i = some status →
    status ≠ .QUEUED → (s.taskStorage f).statuses.get i ≠ some status →
    ∃ w t, t.message.taskId = i ∧ Submitted tr t.origin t.message ∧
      (status = .STARTED ∧ .begin w t ∈ tr ∧ l = .statusEvent f w t.started ∨
        status = .FINISHED ∧ ∃ m, .complete w t m ∈ tr ∧ l = .statusEvent f w (t.finished m))
  /-- An id that was never assigned is unknown, unless an event of a task from elsewhere carried
  it. -/
  unassigned : ∀ i, (∀ a ∈ TaskStorage.answered (taskMessages f tr), a.taskId ≠ i) →
    (∀ w e, .statusEvent f w e ∈ tr → e.origin ≠ .inl f → e.message.taskId ≠ i) →
    (s.taskStorage f).handleGet ⟨i⟩ = TaskStatusMessage.NOT_FOUND

/-- A status beyond `QUEUED` that a message brings is that of an event about the task. -/
theorem advanced_by_event {st : TaskStorage B} {m : TaskStorage.Message B} {i : Long}
    {status : Status}
    (hnew : ((TaskStorage.actor B).process st m).1.statuses.get i = some status)
    (hq : status ≠ .QUEUED) (hold : st.statuses.get i ≠ some status) :
    ∃ e, m = .ofEvent e ∧ e.taskId = i ∧ e.status = status := by
  cases m using TaskStorage.Message.casesEvent with
  | newNumber m =>
    replace hnew : (st.statuses.put (st.id + 1) .QUEUED).get i = some status := hnew
    rw [HashMap.get_put] at hnew
    split at hnew
    · exact absurd (Option.some_inj.1 hnew).symm hq
    · exact absurd hnew hold
  | register r =>
    cases hr : st.statuses.get r.taskId with
    | none =>
      rw [TaskStorage.process_register_none hr] at hnew
      cases hnew
    | some old =>
      rw [TaskStorage.process_register_some hr] at hnew
      exact absurd hnew hold
  | event e =>
    rw [TaskStorage.process_event] at hnew
    replace hnew : (st.statuses.put e.taskId e.status).get i = some status := hnew
    rw [HashMap.get_put] at hnew
    split at hnew
    · rename_i hi
      exact ⟨e, rfl, hi.symm, Option.some_inj.1 hnew⟩
    · exact absurd hnew hold
  | getStatus m => exact absurd hnew hold

/-- The step that advances a status takes an event. -/
theorem Step.advanced (hs : Step s l s') {i : Long} {status : Status}
    (hnew : (s'.taskStorage f).statuses.get i = some status) (hq : status ≠ .QUEUED)
    (hold : (s.taskStorage f).statuses.get i ≠ some status) :
    ∃ w e, l = .statusEvent f w e ∧ e.message.taskId = i ∧ e.message.status = status := by
  rw [hs.taskStorage f] at hnew
  cases hl : l.taskMessage? f with
  | none =>
    rw [hl] at hnew
    exact absurd hnew hold
  | some m =>
    rw [hl] at hnew
    obtain ⟨e, rfl, hi, hstatus⟩ := advanced_by_event hnew hq hold
    cases l with
    | request f' r =>
      obtain ⟨-, hr⟩ := Option.ite_none_right_eq_some.1 hl
      cases e <;> cases r <;> cases hr
    | statusEvent f' w p =>
      obtain ⟨rfl, hp⟩ := Option.ite_none_right_eq_some.1 hl
      have he : p.message = e := by
        obtain ⟨o, _ | _⟩ := p <;> cases e <;> cases hp <;> rfl
      exact ⟨w, p, rfl, by rw [he, hi], by rw [he, hstatus]⟩
    | _ => cases hl

/-- **What frontends owe each other**, in every run of any cluster. -/
theorem isolated (h : (system F C W B).Run A tr s) (f : F) : Isolated tr s f where
  event w e s' hs := by
    have hst : s'.taskStorage f = _ := hs.taskStorage f
    rw [Label.taskMessage?, if_pos rfl] at hst
    replace hst : s'.taskStorage f =
        ((TaskStorage.actor B).process (s.taskStorage f) (.ofEvent e.message)).1 := hst
    rw [TaskStorage.process_event] at hst
    rw [hst]
    exact ⟨rfl, rfl, fun i hi => HashMap.get_put_ne _ _ _ hi⟩
  advanced l s' i status hs hnew hq hold := by
    obtain ⟨w, e, rfl, rfl, rfl⟩ := hs.advanced hnew hq hold
    obtain ⟨t, hbegin, hsub, rfl | ⟨hdone, rfl⟩⟩ := Run.published h (Run.taken h hs)
    · exact ⟨w, t, rfl, hsub, .inl ⟨rfl, hbegin, rfl⟩⟩
    · exact ⟨w, t, rfl, hsub, .inr ⟨rfl, _, hdone, rfl⟩⟩
  unassigned i hassigned hforeign := by
    have hnone : (s.taskStorage f).statuses.get i = none := by
      rw [Run.taskStorage_eq h f]
      by_contra hne
      obtain ⟨status, hstatus⟩ := Option.ne_none_iff_exists'.1 hne
      rcases TaskStorage.status_from hstatus with ⟨-, a, ha, hi⟩ | hp
      · exact hassigned a ha hi
      · obtain ⟨w, e, he, hi, -⟩ := mem_progress.1 hp
        refine hforeign w e he (fun horigin => ?_) hi
        obtain ⟨number, hsub⟩ := Run.published_submitted h (Run.statusEvent h he)
        rw [horigin] at hsub
        exact hassigned _ hsub hi
    rw [TaskStorage.handleGet]
    simp only [hnone]

end

/-- A worker has begun task `1` of the frontend `false`. -/
def foreignTask : List (Label Bool Empty Unit Unit) :=
  [.request false (.createTask ⟨"2", by decide⟩), .forward (.inl false) (),
    .begin () ⟨.inl false, ⟨1, "2"⟩⟩]

/-- The frontend `true` has done nothing, and the event is on its way to it. -/
theorem run_foreignTask : ∃ s, (system Bool Empty Unit Unit).Run ⊤ foreignTask s ∧
    s.taskStorage true = TaskStorage.fresh ∧ s.clusterProxy (.inl true) = [] ∧
    s.statusMail true () = [⟨.inl false, .started ⟨1⟩⟩] := by
  have h₀ : (system Bool Empty Unit Unit).Run ⊤ [] State.init := .init
  have h₁ := h₀.step (Step.request _ false (.createTask ⟨"2", by decide⟩)) trivial
  have h₂ := h₁.step (Step.forward (p := .inl false) () rfl) trivial
  have h₃ := h₂.step (Step.begin (w := ()) (t := ⟨.inl false, ⟨1, "2"⟩⟩) rfl rfl) trivial
  exact ⟨_, h₃, rfl, rfl, rfl⟩

/-- The frontend `true` has no tasks and reports that task `1` of the frontend `false` has started;
with a task of its own that is still waiting, it reports that this one has started. -/
theorem foreign_status :
    (∃ (tr : List (Label Bool Empty Unit Unit)) (s s' : State Bool Empty Unit Unit)
      (e : Published Bool Empty),
      (system Bool Empty Unit Unit).Run ⊤ tr s ∧ Step s (.statusEvent true () e) s' ∧
        e.origin = .inl false ∧ TaskStorage.posted (taskMessages true tr) = [] ∧
        (s.taskStorage true).statuses.get 1 = none ∧
        (s'.taskStorage true).statuses.get 1 = some .STARTED ∧
        (s'.taskStorage true).handleGet ⟨1⟩ = ⟨1, none, some .STARTED⟩) ∧
    ∃ (tr : List (Label Bool Empty Unit Unit)) (s s' : State Bool Empty Unit Unit)
      (e : Published Bool Empty),
      (system Bool Empty Unit Unit).Run ⊤ tr s ∧ Step s (.statusEvent true () e) s' ∧
        e.origin = .inl false ∧
        TaskStorage.answered (taskMessages true tr) = [⟨1, "3"⟩] ∧
        s'.clusterProxy (.inl true) = [⟨1, "3"⟩] ∧
        (s.taskStorage true).statuses.get 1 = some .QUEUED ∧
        (s'.taskStorage true).handleGet ⟨1⟩ = ⟨1, some "3", some .STARTED⟩ := by
  obtain ⟨s, hrun, hfresh, hproxy, hmail⟩ := run_foreignTask
  refine ⟨⟨_, s, _, _, hrun, Step.statusEvent hmail, rfl, rfl, ?_, ?_, ?_⟩, ?_⟩
  · rw [hfresh]
    rfl
  · simp only [State.deliver, Function.update_self, hfresh]
    rfl
  · simp only [State.deliver, Function.update_self, hfresh]
    rfl
  · have hpost := hrun.step (Step.request _ true (.createTask ⟨"3", by decide⟩)) trivial
    refine ⟨_, _, _, _, hpost, Step.statusEvent hmail, rfl, rfl, ?_, ?_, ?_⟩
    · simp only [State.deliver, Function.update_self, Channels.send_self, hfresh, hproxy]
      rfl
    · simp only [State.deliver, Function.update_self, hfresh]
      rfl
    · simp only [State.deliver, Function.update_self, hfresh]
      rfl

/-- Another id is unknown to it. -/
theorem isolated_two : ∃ (tr : List (Label Bool Empty Unit Unit))
    (s : State Bool Empty Unit Unit), (system Bool Empty Unit Unit).Run ⊤ tr s ∧
      (∃ w e, .statusEvent true w e ∈ tr ∧ e.origin = .inl false) ∧
      (s.taskStorage true).handleGet ⟨2⟩ = TaskStatusMessage.NOT_FOUND := by
  obtain ⟨s, hrun, -, -, hmail⟩ := run_foreignTask
  have hrun' := hrun.step (Step.statusEvent hmail) trivial
  refine ⟨_, _, hrun', ⟨(), ⟨.inl false, .started ⟨1⟩⟩, by simp, rfl⟩,
    (isolated hrun' true).unassigned 2 ?_ ?_⟩
  · intro a ha
    cases ha
  · intro w e he _
    simp only [foreignTask, List.mem_append, List.mem_cons, List.not_mem_nil, or_false] at he
    rcases he with (he | he | he) | he <;> cases he
    decide

end PrimeTester.Cluster
