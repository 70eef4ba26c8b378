import PrimeTester.Cluster.Dividers
import PrimeTester.Cluster.Status
import PrimeTester.Responses
import PrimeTester.Service

/-!
# The cluster refines the service

`observe` is what the clients of the only frontend see of a step: a request with the response that
the endpoint's callback makes of the storage's answer, given that it comes before the `TIMEOUT` of
the endpoint. Every request has one (`observe_ask`). `State.toService` forgets everything but the
maps of the two storages. Each step of the cluster is a step of the `Service` with the same
exchange, or changes nothing there (`simulation`):

* a POST creates a job under an id that stands for nothing yet;
* an event at the task storage advances a job, as it comes after the earlier ones;
* an event at the result storage publishes the number of a job;
* everything else, losses and crashes included, is invisible.

So in every run the clients see what the service allows (`refines`), and they can rely on what
clients of the service can rely on (`exchanges_coherent`).
-/

namespace PrimeTester.Cluster

section
variable {W B : Type}

/-- What clients see of a step. -/
def observe (s : State Unit Empty W B) : Label Unit Empty W B → Option Exchange
  | .request _ (.createTask r) =>
    (((TaskStorage.actor B).process (s.taskStorage ()) (.newNumber r.toMessage)).2.findSome?
      TaskStorage.Output.assigned?).map fun m =>
        .created r (TasksEndpoint.CreateTaskCallback.onComplete (.ok m))
  | .request _ (.getStatus i) =>
    (((TaskStorage.actor B).process (s.taskStorage ()) (.getStatus ⟨i⟩)).2.findSome?
      TaskStorage.Output.replied?).map fun m =>
        .status i (TasksEndpoint.GetStatusCallback.onComplete (.ok m))
  | .getResult _ m answer =>
    some (.result m.number (ResultsEndpoint.ResultCallback.onComplete (.ok answer)))
  | _ => none

/-- What a client asks for in a step. -/
def Label.ask? : Label Unit Empty W B → Option Ask
  | .request _ (.createTask r) => some (.createTask r)
  | .request _ (.getStatus i) => some (.getStatus i)
  | .getResult _ m _ => some (.getResult m.number)
  | _ => none

/-- Every request is answered, and nothing else is. -/
theorem observe_ask (s : State Unit Empty W B) (l : Label Unit Empty W B) :
    (observe s l).map Exchange.ask = l.ask? := by
  cases l with
  | request f r => cases r <;> rfl
  | _ => rfl

/-- There are at most `2 ^ 64` POSTs. -/
def FewPosts : Assumption (State Unit Empty W B) (Label Unit Empty W B) := fun tr _ l =>
  (TaskStorage.posted (messages (tr ++ [l]))).length ≤ 2 ^ 64

/-- The state of the service that a state of the cluster stands for. -/
def State.toService (s : State Unit Empty W B) : Service where
  jobs i := ((s.taskStorage ()).statuses.get i).bind fun status =>
    ((s.taskStorage ()).tasks.get i).map fun number => ⟨number, status⟩
  ready k := (s.resultStorage ()).results.get k ≠ none

variable {s s' : State Unit Empty W B} {i : Long}

theorem State.jobs_none (hi : (s.taskStorage ()).statuses.get i = none) :
    s.toService.jobs i = none := by
  simp only [State.toService, hi, Option.bind_none]

theorem State.jobs_some {number : String} {status : Status}
    (hi : (s.taskStorage ()).statuses.get i = some status)
    (hnumber : (s.taskStorage ()).tasks.get i = some number) :
    s.toService.jobs i = some ⟨number, status⟩ := by
  simp only [State.toService, hi, hnumber, Option.bind_some, Option.map_some]

/-- Nothing but the maps of the storages is seen. -/
theorem State.toService_congr (hst : s'.taskStorage () = s.taskStorage ())
    (hrs : s'.resultStorage () = s.resultStorage ()) : s'.toService = s.toService := by
  rw [State.toService, State.toService, hst, hrs]

/-- The verdict is what the service answers. -/
theorem service_answer (k : String) :
    (⟨k, (answer k).isPrime, (answer k).divider⟩ : ResultResource) = Service.answer k := by
  rw [answer_eq]
  rfl

variable [DecidableEq W] {A : Assumption (State Unit Empty W B) (Label Unit Empty W B)}
variable {tr : List (Label Unit Empty W B)} {l : Label Unit Empty W B}

/-! ## Steps -/

/-- An id with a status has a number. -/
theorem Run.number_of_status (h : (system Unit Empty W B).Run Registered tr s)
    (hlen : (TaskStorage.posted (messages tr)).length ≤ 2 ^ 64) {status : Status}
    (hi : (s.taskStorage ()).statuses.get i = some status) :
    ∃ number, (s.taskStorage ()).tasks.get i = some number := by
  obtain ⟨hord, -⟩ := Run.orderly h hlen
  rw [Run.taskStorage_eq h ()] at hi ⊢
  obtain ⟨⟨_, number⟩, ha, rfl⟩ :=
    (hord.status_ne_none hlen).1 (by rw [hi]; exact Option.some_ne_none _)
  rw [hord.answered_eq hlen] at ha
  exact ⟨number, ((hord.holds hlen).tasks_eq _ _).2 ha⟩

/-- The answer about a status is what the service responds. -/
theorem Run.status_response (h : (system Unit Empty W B).Run Registered tr s)
    (hlen : (TaskStorage.posted (messages tr)).length ≤ 2 ^ 64) (i : Long) :
    TasksEndpoint.GetStatusCallback.onComplete (.ok ((s.taskStorage ()).handleGet ⟨i⟩)) =
      .ok (s.toService.respond i) := by
  cases hi : (s.taskStorage ()).statuses.get i with
  | none =>
    rw [TasksEndpoint.GetStatusCallback.onComplete_none hi, Service.respond, State.jobs_none hi]
  | some status =>
    obtain ⟨number, hnumber⟩ := Run.number_of_status h hlen hi
    rw [TasksEndpoint.GetStatusCallback.onComplete_some hi, Service.respond,
      State.jobs_some hi hnumber, hnumber]
    cases status <;> rfl

/-- A POST creates a job. -/
theorem simulate_post (h : (system Unit Empty W B).Run Registered tr s) (r : CreateTaskResource)
    (hfew : FewPosts tr s (.request () (.createTask r))) :
    Service.Step s.toService (observe s (.request () (.createTask r)))
      (s.deliver () (Request.createTask r).toMessage).toService := by
  have hlen : (TaskStorage.posted (messages tr)).length < 2 ^ 64 := by
    rw [FewPosts, messages_concat, Label.taskMessage?, if_pos rfl, Option.toList_some,
      TaskStorage.posted_concat, List.length_append] at hfew
    exact hfew
  obtain ⟨hord, -⟩ := Run.orderly h hlen.le
  have hnew : (s.taskStorage ()).statuses.get ((s.taskStorage ()).id + 1) = none := by
    rw [Run.taskStorage_eq h ()]
    exact hord.status_next hlen
  have hput : (s.deliver () (Request.createTask r).toMessage).toService =
      s.toService.put ((s.taskStorage ()).id + 1) ⟨r.number, .QUEUED⟩ := by
    refine Service.ext (funext fun i => ?_) rfl
    show (((s.taskStorage ()).statuses.put ((s.taskStorage ()).id + 1) .QUEUED).get i).bind
      (fun status => (((s.taskStorage ()).tasks.put ((s.taskStorage ()).id + 1) r.number).get i).map
        fun number => (⟨number, status⟩ : Job)) =
      Function.update s.toService.jobs ((s.taskStorage ()).id + 1) (some ⟨r.number, .QUEUED⟩) i
    rw [HashMap.get_put, HashMap.get_put, Function.update_apply]
    split
    · rfl
    · rfl
  rw [hput]
  exact .create r (State.jobs_none hnew)

/-- A registration is not seen. -/
theorem simulate_suspend (h : (system Unit Empty W B).Run Registered tr s)
    (hlen : (TaskStorage.posted (messages tr)).length ≤ 2 ^ 64) {b : B}
    (hreg : Registered tr s (.request () (.suspend i b))) :
    (s.deliver () (Request.suspend i b).toMessage).toService = s.toService := by
  obtain ⟨hord, -⟩ := Run.orderly h hlen
  have hne : (s.taskStorage ()).statuses.get i ≠ none := by
    rw [Run.taskStorage_eq h ()]
    exact (hord.status_ne_none hlen).2 (hreg () i b rfl)
  obtain ⟨status, hstatus⟩ := Option.ne_none_iff_exists'.1 hne
  simp only [State.toService, State.deliver, Function.update_self, Request.toMessage,
    TaskStorage.process_register_some (m := ⟨i, b⟩) hstatus]

/-- An event advances a job. -/
theorem simulate_event (h : (system Unit Empty W B).Run Registered tr s) {w : W}
    {e : Published Unit Empty}
    (hlen : (TaskStorage.posted (messages (tr ++ [.statusEvent () w e]))).length ≤ 2 ^ 64)
    (hs : Step s (.statusEvent () w e) s') : Service.Step s.toService none s'.toService := by
  have hlen' : (TaskStorage.posted (messages tr)).length ≤ 2 ^ 64 :=
    (length_posted_left tr _).trans hlen
  have hreg : Registered tr s (.statusEvent () w e) := fun f i b hl => by cases hl
  obtain ⟨hord, -⟩ := Run.orderly h hlen'
  obtain ⟨hord', -⟩ := Run.orderly (h.step hs hreg) hlen
  rw [messages_concat, Label.taskMessage?, if_pos rfl, Option.toList_some] at hord'
  have hne : (s.taskStorage ()).statuses.get e.message.taskId ≠ none := by
    rw [Run.taskStorage_eq h ()]
    exact (hord.status_ne_none hlen').2 (Run.published_known h (Run.taken h hs))
  obtain ⟨status, hstatus⟩ := Option.ne_none_iff_exists'.1 hne
  obtain ⟨number, hnumber⟩ := Run.number_of_status h hlen' hstatus
  have hlt : status < e.message.status := by
    rw [Run.taskStorage_eq h ()] at hstatus
    rcases TaskStorage.status_from hstatus with ⟨rfl, -⟩ | hp
    · cases e.message with
      | started m => exact (by decide : Status.QUEUED < Status.STARTED)
      | finished m => exact (by decide : Status.QUEUED < Status.FINISHED)
    · exact TaskStorage.lt_status_of_progress (hord'.events _) hp
  have hput : s'.toService = s.toService.put e.message.taskId ⟨number, e.message.status⟩ := by
    have hst := hs.taskStorage ()
    rw [Label.taskMessage?, if_pos rfl, Option.elim_some, TaskStorage.process_event] at hst
    have hrs := hs.resultStorage ()
    refine Service.ext (funext fun i => ?_) (by rw [State.toService, hrs]; rfl)
    simp only [State.toService, hst, HashMap.get_put, Service.put, Function.update_apply]
    split
    · rename_i hi
      rw [hi, hnumber]
      rfl
    · rfl
  rw [hput]
  exact .advance (State.jobs_some hstatus hnumber) hlt

/-- The end of a task publishes the number of its job. -/
theorem simulate_result (h : (system Unit Empty W B).Run Registered tr s) {w : W}
    {e : Published Unit Empty} (hlen : (TaskStorage.posted (messages tr)).length ≤ 2 ^ 64)
    (hs : Step s (.resultEvent () w e) s') :
    Service.Step s.toService none s'.toService ∨ s'.toService = s.toService := by
  have hpublished : PublishedBy tr w e := by
    cases hs with
    | resultEvent hf =>
      exact (Run.flight h).resultMail () w e (by rw [hf]; exact List.mem_cons_self)
  have hst := hs.taskStorage ()
  have hrs := hs.resultStorage ()
  rw [Label.resultMessage?, if_pos rfl, Option.elim_some] at hrs
  obtain ⟨p, ev⟩ := e
  cases ev with
  | started m => exact .inr (State.toService_congr hst hrs)
  | finished m =>
    left
    have hm : ⟨m.taskId, m.number⟩ ∈ TaskStorage.answered (messages tr) :=
      Run.published_finished h hpublished rfl
    obtain ⟨hord, -⟩ := Run.orderly h hlen
    have hne : (s.taskStorage ()).statuses.get m.taskId ≠ none := by
      rw [Run.taskStorage_eq h ()]
      exact (hord.status_ne_none hlen).2 ⟨_, hm, rfl⟩
    obtain ⟨status, hstatus⟩ := Option.ne_none_iff_exists'.1 hne
    have hnumber : (s.taskStorage ()).tasks.get m.taskId = some m.number := by
      rw [Run.taskStorage_eq h (), (hord.holds hlen).tasks_eq, ← hord.answered_eq hlen]
      exact hm
    have hready : s'.toService =
        { s.toService with ready := fun k => k = m.number ∨ s.toService.ready k } := by
      refine Service.ext (by rw [State.toService, hst]; rfl) (funext fun k => propext ?_)
      show (s'.resultStorage ()).results.get k ≠ none ↔
        k = m.number ∨ (s.resultStorage ()).results.get k ≠ none
      rw [hrs]
      show ((s.resultStorage ()).results.put m.number m).get k ≠ none ↔ _
      rw [HashMap.get_put]
      by_cases hk : k = m.number
      · simp [hk]
      · simp [hk]
    rw [hready]
    exact .publish (State.jobs_some hstatus hnumber)

/-- The answer about a result is what the service answers, if there is one. -/
theorem Run.result_response (h : (system Unit Empty W B).Run A tr s) (k : String) :
    (s.resultStorage ()).results.get k = none ∧
        ResultsEndpoint.ResultCallback.onComplete (.ok ((s.resultStorage ()).handleGet ⟨k⟩)) =
          .notFound ∨
      (s.resultStorage ()).results.get k ≠ none ∧
        ResultsEndpoint.ResultCallback.onComplete (.ok ((s.resultStorage ()).handleGet ⟨k⟩)) =
          .ok (Service.answer k) := by
  rcases Run.getResult h () k with ⟨hk, hget⟩ | ⟨hk, hget, hfound⟩
  · exact .inl ⟨hk, by rw [hget, ResultsEndpoint.ResultCallback.onComplete, if_pos rfl]⟩
  · refine .inr ⟨hk, ?_⟩
    rw [hget, ResultsEndpoint.ResultCallback.onComplete, if_neg hfound]
    exact congrArg Response.ok (service_answer k)

/-- A request for a result sees whether there is one. -/
theorem simulate_getResult (h : (system Unit Empty W B).Run A tr s)
    (m : GetCalculationResultMessage) :
    Service.Step s.toService (observe s (.getResult () m ((s.resultStorage ()).handleGet m)))
      s.toService := by
  rw [observe]
  rcases Run.result_response h m.number with ⟨hk, hresponse⟩ | ⟨hk, hresponse⟩
  · rw [hresponse]
    exact .noResult fun hc => hc hk
  · rw [hresponse]
    exact .result hk

/-- The cluster is simulated by the service. -/
theorem simulation : LTS.Simulation (system Unit Empty W B) (Registered ⊓ FewPosts) observe
    Service.system fun _ s v => v = s.toService where
  init := Service.ext rfl (funext fun k => propext ⟨False.elim, fun hk => hk rfl⟩)
  step := by
    rintro tr s l s' v hrun rfl hs ⟨hreg, hfew⟩
    have hrun' : (system Unit Empty W B).Run Registered tr s := hrun.mono inf_le_left
    have hlen : (TaskStorage.posted (messages tr)).length ≤ 2 ^ 64 :=
      (length_posted_left tr [l]).trans hfew
    cases hs with
    | request f r =>
      cases r with
      | createTask r => exact .inl ⟨_, simulate_post hrun' r hfew, rfl⟩
      | getStatus i =>
        refine .inl ⟨s.toService, ?_, (State.toService_congr ?_ rfl).symm⟩
        · show Service.Step s.toService (some (.status i
            (TasksEndpoint.GetStatusCallback.onComplete
              (.ok ((s.taskStorage ()).handleGet ⟨i⟩))))) _
          rw [Run.status_response hrun' hlen]
          exact .status _ i
        · exact Step.taskStorage (.request s () (.getStatus i)) ()
      | suspend i b => exact .inr ⟨rfl, (simulate_suspend hrun' hlen hreg).symm⟩
    | getResult f m =>
      refine .inl ⟨s.toService, simulate_getResult hrun m, (State.toService_congr rfl ?_).symm⟩
      exact Step.resultStorage (.getResult s () m) ()
    | client c => cases c
    | statusEvent hf =>
      exact .inl ⟨_, simulate_event hrun' hfew (.statusEvent hf), rfl⟩
    | resultEvent hf =>
      rcases simulate_result hrun' hlen (.resultEvent hf) with hstep | hsame
      · exact .inl ⟨_, hstep, rfl⟩
      · exact .inr ⟨rfl, hsame.symm⟩
    | lose x => exact .inr ⟨rfl, by cases x <;> rfl⟩
    | _ => exact .inr ⟨rfl, rfl⟩

/-! ## Runs -/

/-- **The cluster refines the service.** What the clients of the only frontend observe in a run, the
service shows on the way to the state that the last state of the run stands for: under all
interleavings, whatever is lost, when clients register only for acknowledged ids and there are at
most `2 ^ 64` POSTs. -/
theorem refines {os : List Exchange}
    (h : (system Unit Empty W B).Observed (Registered ⊓ FewPosts) observe tr os s) :
    Service.system.Shows os s.toService := by
  obtain ⟨v, hshows, rfl⟩ := simulation.shows h
  exact hshows

/-- **What the clients of the cluster can rely on.** Every request is answered, once and in order.
In all the answers, an id is not given out again, keeps its number, and its status does not go back;
a result stays as it is; and they are about ids and numbers that go back to a POST, and right. -/
theorem exchanges_coherent {os : List Exchange}
    (h : (system Unit Empty W B).Observed (Registered ⊓ FewPosts) observe tr os s) :
    os.map Exchange.ask = tr.filterMap Label.ask? ∧ os.Pairwise Exchange.Follows ∧
      Always Exchange.Grounded os := by
  obtain ⟨v, hshows, -⟩ := simulation.shows h
  exact ⟨h.map_eq observe_ask, Service.coherent hshows⟩

end

/-- A POST of `2` and the exchange that its client sees. -/
theorem observed_post : ∃ s : State Unit Empty Unit Unit,
    (system Unit Empty Unit Unit).Observed (Registered ⊓ FewPosts) observe
      [.request () (.createTask ⟨"2", by decide⟩)]
      [.created ⟨"2", by decide⟩ (.ok (.ok ⟨1, some "2", .QUEUED⟩))] s ∧
      s.taskStorage () = TaskStorage.after [.newNumber ⟨"2"⟩] := by
  have h₀ : (system Unit Empty Unit Unit).Observed (Registered ⊓ FewPosts) observe [] []
    State.init := .init
  exact ⟨_, h₀.step (Step.request _ () (.createTask ⟨"2", by decide⟩)) (by
    refine ⟨fun f i b h => ?_, by unfold FewPosts; decide⟩
    cases h), rfl⟩

/-- The service shows that exchange. -/
theorem refines_post : ∃ v, Service.system.Shows
    [.created ⟨"2", by decide⟩ (.ok (.ok ⟨1, some "2", .QUEUED⟩))] v := by
  obtain ⟨s, h, -⟩ := observed_post
  exact ⟨_, refines h⟩

/-- Its client is answered, and answered again when it asks for the status. -/
theorem exchanges_coherent_post : ∃ (tr : List (Label Unit Empty Unit Unit)) (os : List Exchange)
    (s : State Unit Empty Unit Unit),
    (system Unit Empty Unit Unit).Observed (Registered ⊓ FewPosts) observe tr os s ∧
      os = [.created ⟨"2", by decide⟩ (.ok (.ok ⟨1, some "2", .QUEUED⟩)),
        .status 1 (.ok (.ok ⟨1, some "2", .QUEUED⟩))] ∧
      os.map Exchange.ask = [.createTask ⟨"2", by decide⟩, .getStatus 1] ∧
      os.Pairwise Exchange.Follows ∧ Always Exchange.Grounded os := by
  obtain ⟨s, hpost, hst⟩ := observed_post
  have hrun := hpost.step (Step.request _ () (.getStatus 1)) (by
    refine ⟨fun f i b h => ?_, by unfold FewPosts; decide⟩
    cases h)
  refine ⟨_, _, _, hrun, ?_, exchanges_coherent hrun⟩
  rw [observe, hst]
  rfl

end PrimeTester.Cluster
