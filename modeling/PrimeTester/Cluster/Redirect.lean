import PrimeTester.Cluster.Results
import PrimeTester.Cluster.Status

/-!
# From a finished task to its result

`GET /api/tasks/{id}` redirects to the result as soon as the task storage has taken the end of the
task. The result storage learns of it through a mailbox of its own, so the redirect can lead to
`404 Not Found` (`redirect_not_found`). `readable_iff` says when it does not: in a run every state is
`Readable` exactly when the end of a task always reaches the result storage first (`ResultFirst`,
and `resultFirst_iff` in terms of the events).
-/

namespace PrimeTester.Cluster

section
variable {W B : Type}

/-- Following the redirect of a finished task leads to a result. -/
def Readable (s : State Unit Empty W B) : Prop :=
  ∀ i, (s.taskStorage ()).statuses.get i = some .FINISHED → ∃ number,
    (s.taskStorage ()).tasks.get i = some number ∧
    (s.resultStorage ()).results.get number ≠ none ∧
    TasksEndpoint.GetStatusCallback.onComplete (.ok ((s.taskStorage ()).handleGet ⟨i⟩)) =
      .ok (.seeOther ("/api/results/" ++ number)) ∧
    ResultsEndpoint.ResultCallback.onComplete (.ok ((s.resultStorage ()).handleGet ⟨number⟩)) ≠
      .notFound

/-- When the task storage takes the end of a task, the result storage has taken before the end of a
task with the number that the task storage has under the id. -/
def ResultFirst : Assumption (State Unit Empty W B) (Label Unit Empty W B) := fun tr s l =>
  ∀ w e m, l = .statusEvent () w e → e.message = .finished m → ∃ w' e' m',
    .resultEvent () w' e' ∈ tr ∧ e'.message = .finished m' ∧
      (s.taskStorage ()).tasks.get m.taskId = some m'.number

/-- Every finished task has its number's result. -/
def HasResults (s : State Unit Empty W B) : Prop :=
  ∀ i, (s.taskStorage ()).statuses.get i = some .FINISHED → ∃ number,
    (s.taskStorage ()).tasks.get i = some number ∧ (s.resultStorage ()).results.get number ≠ none

variable [DecidableEq W] {A : Assumption (State Unit Empty W B) (Label Unit Empty W B)}
variable {tr : List (Label Unit Empty W B)} {s s' : State Unit Empty W B} {l : Label Unit Empty W B}

/-- The redirect of a finished task with a result is followed to it. -/
theorem Run.readable (h : (system Unit Empty W B).Run A tr s) (hs : HasResults s) :
    Readable s := by
  intro i hi
  obtain ⟨number, htask, hresult⟩ := hs i hi
  refine ⟨number, htask, hresult, ?_, ?_⟩
  · have hget : (s.taskStorage ()).handleGet ⟨i⟩ = ⟨i, some number, some .FINISHED⟩ := by
      rw [TaskStorage.handleGet]
      simp only [hi, htask]
    have hfound : (⟨i, some number, some .FINISHED⟩ : TaskStatusMessage) ≠
        TaskStatusMessage.NOT_FOUND := fun hc => by
      cases congrArg TaskStatusMessage.status hc
    rw [hget, TasksEndpoint.GetStatusCallback.onComplete, if_neg hfound, if_pos rfl]
    rfl
  · rcases Run.getResult h () number with ⟨hnone, -⟩ | ⟨-, hget, hfound⟩
    · exact absurd hnone hresult
    · rw [hget, ResultsEndpoint.ResultCallback.onComplete, if_neg hfound]
      exact fun hc => by cases hc

/-- A message that brings no end of a task finishes no task. -/
theorem finished_before {st : TaskStorage B} {m : TaskStorage.Message B} {i : Long}
    (hi : ((TaskStorage.actor B).process st m).1.statuses.get i = some .FINISHED)
    (hm : ∀ f : CalculationFinished, m = .finished f → f.taskId ≠ i) :
    st.statuses.get i = some .FINISHED ∧
      ((TaskStorage.actor B).process st m).1.tasks.get i = st.tasks.get i := by
  cases m using TaskStorage.Message.casesEvent with
  | newNumber m =>
    replace hi : (st.statuses.put (st.id + 1) .QUEUED).get i = some .FINISHED := hi
    by_cases hid : i = st.id + 1
    · rw [hid, HashMap.get_put_self] at hi
      cases hi
    · rw [HashMap.get_put_ne _ _ _ hid] at hi
      exact ⟨hi, HashMap.get_put_ne _ _ _ hid⟩
  | register r =>
    cases hr : st.statuses.get r.taskId with
    | none =>
      rw [TaskStorage.process_register_none hr] at hi
      cases hi
    | some status =>
      rw [TaskStorage.process_register_some hr] at hi ⊢
      exact ⟨hi, rfl⟩
  | event e =>
    rw [TaskStorage.process_event] at hi ⊢
    replace hi : (st.statuses.put e.taskId e.status).get i = some .FINISHED := hi
    by_cases hid : i = e.taskId
    · rw [hid, HashMap.get_put_self] at hi
      cases e with
      | started m => cases hi
      | finished m => exact absurd hid.symm (hm m rfl)
    · rw [HashMap.get_put_ne _ _ _ hid] at hi
      exact ⟨hi, rfl⟩
  | getStatus m => exact ⟨hi, rfl⟩

/-- A step that meets the condition keeps the results of the finished tasks. -/
theorem HasResults.step (h : HasResults s) (hrun : (system Unit Empty W B).Run A tr s)
    (hs : Step s l s') (hfirst : ResultFirst tr s l) : HasResults s' := by
  have hrun' : (system Unit Empty W B).Run ⊤ (tr ++ [l]) s' := hrun.free.step hs trivial
  intro i hi
  have hstep := hs.taskStorage ()
  cases hl : l.taskMessage? () with
  | none =>
    rw [hl] at hstep
    replace hstep : s'.taskStorage () = s.taskStorage () := hstep
    rw [hstep] at hi ⊢
    obtain ⟨number, htask, hresult⟩ := h i hi
    exact ⟨number, htask, Run.result_stays hrun hrun' hresult⟩
  | some m =>
    rw [hl] at hstep
    replace hstep : s'.taskStorage () = ((TaskStorage.actor B).process (s.taskStorage ()) m).1 :=
      hstep
    rw [hstep] at hi ⊢
    by_cases hend : ∃ f : CalculationFinished, m = .finished f ∧ f.taskId = i
    · obtain ⟨f, rfl, rfl⟩ := hend
      obtain ⟨w, e, rfl, he⟩ : ∃ w e, l = .statusEvent () w e ∧ e.message = .finished f := by
        cases l with
        | request f' r => cases r <;> cases hl
        | statusEvent f' w e =>
          refine ⟨w, e, rfl, ?_⟩
          obtain ⟨p, _ | _⟩ := e <;> cases hl
          rfl
        | _ => cases hl
      obtain ⟨w', e', m', hin, he', htask⟩ := hfirst w e f rfl he
      refine ⟨m'.number, htask, Run.result_stays hrun hrun' ?_⟩
      rw [Run.resultStorage_eq hrun (), ResultStorage.get_results_ne_none]
      exact ⟨m', mem_resultMessages.2 ⟨w', e', hin, he'⟩, rfl⟩
    · obtain ⟨hold, htasks⟩ := finished_before hi fun f hf hid => hend ⟨f, hf, hid⟩
      obtain ⟨number, htask, hresult⟩ := h i hold
      exact ⟨number, by rw [htasks, htask], Run.result_stays hrun hrun' hresult⟩

/-- Where clients register only for acknowledged ids, the condition is about the number in the
event, which is the one that the task storage has under the id. -/
theorem resultFirst_iff (h : (system Unit Empty W B).Run Registered tr s)
    (hlen : (TaskStorage.posted (messages tr)).length ≤ 2 ^ 64) (hs : Step s l s') :
    ResultFirst tr s l ↔ ∀ w e m, l = .statusEvent () w e → e.message = .finished m →
      ∃ w' e' m', .resultEvent () w' e' ∈ tr ∧ e'.message = .finished m' ∧ m'.number = m.number := by
  have hnumber {w : W} {e : Published Unit Empty} {m : CalculationFinished}
      (hl : l = .statusEvent () w e) (he : e.message = .finished m) :
      (s.taskStorage ()).tasks.get m.taskId = some m.number := by
    subst hl
    obtain ⟨hord, -⟩ := Run.orderly h hlen
    rw [Run.taskStorage_eq h (), (hord.holds hlen).tasks_eq, ← hord.answered_eq hlen]
    exact Run.published_finished h (Run.taken h hs) he
  constructor
  · intro hfirst w e m hl he
    obtain ⟨w', e', m', hin, he', htask⟩ := hfirst w e m hl he
    rw [hnumber hl he, Option.some_inj] at htask
    exact ⟨w', e', m', hin, he', htask.symm⟩
  · intro hfirst w e m hl he
    obtain ⟨w', e', m', hin, he', heq⟩ := hfirst w e m hl he
    exact ⟨w', e', m', hin, he', by rw [hnumber hl he, heq]⟩

/-- In a run whose steps all meet the condition, every finished task has a result. -/
theorem Run.hasResults (h : (system Unit Empty W B).Run ResultFirst tr s) : HasResults s := by
  refine h.induct (I := fun _ s => HasResults s) (fun i hi => by cases hi) ?_
  intro tr s l s' hrun ih hs hfirst
  exact ih.step hrun hs hfirst

/-- A step that violates the condition leads to a finished task without a result. -/
theorem not_readable_of_step (hrun : (system Unit Empty W B).Run A tr s) (hs : Step s l s')
    (hfirst : ¬ ResultFirst tr s l) : ¬ Readable s' := by
  intro hreadable
  refine hfirst ?_
  rintro w e m rfl he
  have htask := hs.taskStorage ()
  have hresult := hs.resultStorage ()
  replace hresult : s'.resultStorage () = s.resultStorage () := hresult
  replace htask : s'.taskStorage () =
      ((TaskStorage.actor B).process (s.taskStorage ()) (.ofEvent e.message)).1 := htask
  rw [TaskStorage.process_event, he] at htask
  obtain ⟨number, hnumber, hheld, -⟩ := hreadable m.taskId (by
    rw [htask]
    exact HashMap.get_put_self _ _ _)
  rw [htask] at hnumber
  rw [hresult, Run.resultStorage_eq hrun (), ResultStorage.get_results_ne_none] at hheld
  obtain ⟨m', hm', rfl⟩ := hheld
  obtain ⟨w', e', hin, he'⟩ := mem_resultMessages.1 hm'
  exact ⟨w', e', m', hin, he', hnumber⟩

/-- **When a finished task is readable.** Whatever is assumed of the clients and the network, all
the states of a run are readable exactly when every step of the run meets `ResultFirst`. -/
theorem readable_iff (h : (system Unit Empty W B).Run A tr s) :
    (∀ pre post s₁, tr = pre ++ post → (system Unit Empty W B).Run A pre s₁ → Readable s₁) ↔
      (system Unit Empty W B).Run (A ⊓ ResultFirst) tr s := by
  constructor
  · intro hall
    induction h with
    | init => exact .init
    | @step tr s s' l hrun hs ha ih =>
      refine .step (ih fun pre post s₁ htr => ?_) hs ⟨ha, ?_⟩
      · exact hall pre (post ++ [l]) s₁ (by rw [htr, List.append_assoc])
      · by_contra hfirst
        exact not_readable_of_step hrun hs hfirst
          (hall _ [] s' (List.append_nil _).symm (hrun.step hs ha))
  · rintro hmeets pre post s₁ rfl hrun
    obtain ⟨s₂, hpre⟩ := hmeets.before
    have hhas : HasResults s₁ := by
      have := Run.hasResults (hpre.mono inf_le_right)
      rwa [HasResults, Run.taskStorage_eq hpre (), Run.resultStorage_eq hpre (),
        ← Run.taskStorage_eq hrun (), ← Run.resultStorage_eq hrun ()] at this
    exact Run.readable hrun hhas

end

/-- The task storage has taken the end of a task that the result storage has yet to hear of: the
redirect leads to `404 Not Found`. -/
theorem redirect_not_found : ∃ (tr : List (Label Unit Empty Unit Unit))
    (s : State Unit Empty Unit Unit), (system Unit Empty Unit Unit).Run (Registered ⊓ NoLoss) tr s ∧
      (s.taskStorage ()).statuses.get 1 = some .FINISHED ∧
      TasksEndpoint.GetStatusCallback.onComplete (.ok ((s.taskStorage ()).handleGet ⟨1⟩)) =
        .ok (.seeOther "/api/results/2") ∧
      ResultsEndpoint.ResultCallback.onComplete (.ok ((s.resultStorage ()).handleGet ⟨"2"⟩)) =
        .notFound := by
  have hA (tr : List (Label Unit Empty Unit Unit)) (s : State Unit Empty Unit Unit)
      (l : Label Unit Empty Unit Unit) (hreq : ∀ f i b, l ≠ .request f (.suspend i b))
      (hlose : ∀ x, l ≠ .lose x) : (Registered ⊓ NoLoss) tr s l :=
    ⟨fun f i b hl => absurd hl (hreq f i b), hlose⟩
  have h₀ := run_oneTask (B := Unit) (A := Registered ⊓ NoLoss) (r := ⟨"2", by decide⟩) <| by
    intro tr s l hl
    have hplain := oneTaskFinished_plain (List.mem_append_left _ (List.mem_append_left _ hl))
    exact hA tr s l hplain.1 hplain.2
  have h₁ := h₀.step (Step.statusEvent (f := ()) (w := ()) rfl) (hA _ _ _ (by simp) (by simp))
  have h₂ := h₁.step (Step.statusEvent (f := ()) (w := ()) rfl) (hA _ _ _ (by simp) (by simp))
  exact ⟨_, _, h₂, rfl, rfl, rfl⟩

/-- A run in which the result storage is first. -/
theorem readable_iff_two : ∃ (tr : List (Label Unit Empty Unit Unit))
    (s : State Unit Empty Unit Unit), (system Unit Empty Unit Unit).Run ⊤ tr s ∧
      (s.taskStorage ()).statuses.get 1 = some .FINISHED ∧ Readable s := by
  have h₀ := run_oneTaskStored (B := Unit) (A := ⊤ ⊓ ResultFirst) (r := ⟨"2", by decide⟩) <| by
    refine fun tr s l hl => ⟨trivial, ?_⟩
    rintro w e m rfl
    simp [oneTaskStored, oneTask] at hl
  have h₁ := h₀.step (Step.statusEvent (f := ()) (w := ()) rfl) ⟨trivial, by
    rintro w e m hl he
    cases hl
    cases he⟩
  have h₂ := h₁.step (Step.statusEvent (f := ()) (w := ()) rfl) ⟨trivial, by
    rintro w e m hl he
    cases hl
    cases he
    exact ⟨(), (firstTask ⟨"2", by decide⟩).finished (firstFinished ⟨"2", by decide⟩), _,
      by simp [oneTaskStored], rfl, rfl⟩⟩
  have hrun := h₂.free
  exact ⟨_, _, hrun, rfl, (readable_iff hrun).2 h₂ _ [] _ (List.append_nil _).symm hrun⟩

end PrimeTester.Cluster
