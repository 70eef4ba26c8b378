import PrimeTester.Cluster.Convergence
import PrimeTester.Cluster.Refines
import PrimeTester.TaskStorage.Streams

/-!
# What pages are told in a cluster

A page asks for notifications about a task that its frontend has assigned, and each request brings
a broadcaster of its own. Then, in any cluster and at any time, the last event sent to the current
page of a task is the status that its frontend has for the task (`Run.current_shown`), also where
that status comes from a task of another frontend under the same id. So when a cluster comes to rest
without loss, every page has been told of an end last, unless another page took its place
(`pages_follow`).

With one frontend events and requests agree, too: what a client asks for after an event is at least
as far as the event (`event_confirmed`), so a page that is told of the end of its task is redirected
to the result when it asks, as the `FINISHED` handler of `engine.js` does.
-/

namespace PrimeTester.Cluster

section
variable {F C W B : Type} [DecidableEq F] [DecidableEq C] [DecidableEq W]
variable {tr : List (Label F C W B)} {s : State F C W B} {f : F}

open TaskStorage (Fresh sentTo event)

/-- No two registrations at a frontend have the same key. -/
def DistinctKeys {K : Type} (key : RegisterForNotifications B → K) :
    Assumption (State F C W B) (Label F C W B) := fun tr _ l =>
  ∀ f i b, l = .request f (.suspend i b) →
    ∀ r ∈ TaskStorage.registrations (taskMessages f tr), key r ≠ key ⟨i, b⟩

theorem Run.nodup_registrations {K : Type} {key : RegisterForNotifications B → K}
    (h : (system F C W B).Run (DistinctKeys key) tr s) (f : F) :
    ((TaskStorage.registrations (taskMessages f tr)).map key).Nodup := by
  refine h.induct (I := fun tr _ =>
    ((TaskStorage.registrations (taskMessages f tr)).map key).Nodup) List.nodup_nil ?_
  intro tr s l s' _ ih _ hnew
  rw [taskMessages_concat]
  cases hl : l.taskMessage? f with
  | none => rwa [Option.toList_none, List.append_nil]
  | some m =>
    rw [Option.toList_some, TaskStorage.registrations_concat]
    cases hm : m.registration? with
    | none => rwa [Option.toList_none, List.append_nil]
    | some r =>
      rw [Option.toList_some, List.map_append, List.nodup_append]
      refine ⟨ih, List.nodup_singleton _, fun k hk k' hk' => ?_⟩
      obtain ⟨r', hr', rfl⟩ := List.mem_map.1 hk
      rw [List.mem_singleton.1 hk']
      exact hnew f r.taskId r.broadcaster (registration_request hl hm) r' hr'

/-- With fresh broadcasters no broadcaster is registered twice at a frontend. -/
theorem Run.fresh (h : (system F C W B).Run FreshBroadcasters tr s) (f : F) :
    Fresh (taskMessages f tr) := by
  have hkeys : (system F C W B).Run (DistinctKeys (·.broadcaster)) tr s := h
  exact Run.nodup_registrations hkeys f

variable [DecidableEq B]

omit [DecidableEq C] [DecidableEq W] [DecidableEq B] in
/-- No page registers in an internal step. -/
theorem registrations_internal (f : F) {ls : List (Label F C W B)} (hls : ∀ l ∈ ls, l.internal) :
    TaskStorage.registrations (taskMessages f ls) = [] := by
  refine List.filterMap_eq_nil_iff.2 fun m hm => ?_
  obtain ⟨l, hl, hlm⟩ := List.mem_filterMap.1 hm
  refine Option.eq_none_iff_forall_ne_some.2 fun r hr => ?_
  rw [registration_request hlm hr] at hl
  cases hls _ hl

/-- The current page of a task has been shown its status last. -/
theorem Run.current_shown (h : (system F C W B).Run (Registered ⊓ FreshBroadcasters) tr s)
    (hlen : (TaskStorage.posted (taskMessages f tr)).length ≤ 2 ^ 64) {i : Long} {b : B}
    (hb : (s.taskStorage f).subscriptions.get i = some b) :
    ∃ status, (s.taskStorage f).statuses.get i = some status ∧
      (sentTo b (taskMessages f tr)).getLast? =
        if status = .QUEUED then none else some (event i status) := by
  have hreg := Run.registersAnswered (h.mono inf_le_left) f
  rw [Run.taskStorage_eq h f] at hb ⊢
  exact TaskStorage.current_shown hreg (Run.fresh (h.mono inf_le_right) f) hlen hb

omit [DecidableEq B] in
/-- A registration that no later one replaces is the current one. -/
theorem Run.subscription (h : (system F C W B).Run Registered tr s)
    (hlen : (TaskStorage.posted (taskMessages f tr)).length ≤ 2 ^ 64)
    {pre post : List (TaskStorage.Message B)} {r : RegisterForNotifications B}
    (hms : taskMessages f tr = pre ++ .register r :: post)
    (hlast : ∀ r' ∈ TaskStorage.registrations post, r'.taskId ≠ r.taskId) :
    (s.taskStorage f).subscriptions.get r.taskId = some r.broadcaster := by
  have hno := (Run.registersAnswered h f).noRestart hlen
  have hnone : (TaskStorage.registrations post).filter (·.taskId = r.taskId) = [] := by
    refine List.filter_eq_nil_iff.2 fun r' hr' hid => ?_
    exact hlast r' hr' (of_decide_eq_true hid)
  have hregs : TaskStorage.registrations (pre ++ .register r :: post) =
      TaskStorage.registrations pre ++ r :: TaskStorage.registrations post :=
    List.filterMap_append
  rw [Run.taskStorage_eq h f, hno.subscriptions_eq, hms, hregs, List.filter_append,
    List.filter_cons_of_pos (by simp), hnone, List.getLast?_concat]
  rfl

/-- **Pages follow their tasks.** In any cluster, at any time and whatever is lost, the current page
of a task has been sent the status of the task last. When nothing is lost and the cluster has come
to rest, every page has been sent `FINISHED` last, unless another page registered for the same id
after it. -/
theorem pages_follow (h : (system F C W B).Run (Registered ⊓ FreshBroadcasters) tr s)
    (hlen : (TaskStorage.posted (taskMessages f tr)).length ≤ 2 ^ 64) :
    (∀ i b, (s.taskStorage f).subscriptions.get i = some b →
      ∃ status, (s.taskStorage f).statuses.get i = some status ∧
        (sentTo b (taskMessages f tr)).getLast? =
          if status = .QUEUED then none else some (event i status)) ∧
    ((system F C W B).Run NoLoss tr s → Rest s →
      ∀ pre r post, taskMessages f tr = pre ++ .register r :: post →
        (∀ r' ∈ TaskStorage.registrations post, r'.taskId ≠ r.taskId) →
        (sentTo r.broadcaster (taskMessages f tr)).getLast? =
          some (event r.taskId .FINISHED)) := by
  refine ⟨fun i b hb => Run.current_shown h hlen hb, ?_⟩
  intro hloss hrest pre r post hms hlast
  obtain ⟨status, hstatus, hsent⟩ :=
    Run.current_shown h hlen (Run.subscription (h.mono inf_le_left) hlen hms hlast)
  obtain rfl := statuses_at_rest hloss hrest f r.taskId status hstatus
  rw [hsent]
  rfl

end

/-! ## Events and requests -/

section
variable {W B : Type} [DecidableEq W] [DecidableEq B]
variable {tr : List (Label Unit Empty W B)} {s : State Unit Empty W B}

open TaskStorage (sentTo event)

/-- **Requests confirm events.** In every run of a cluster with one frontend, when an event has been
sent to a page, whichever, `GET /api/tasks/{id}` shows the number that was posted under the id, with
the status of the event or a later one: after `FINISHED` it is a redirect to the result of that
number. -/
theorem event_confirmed (h : (system Unit Empty W B).Run Registered tr s)
    (hlen : (TaskStorage.posted (messages tr)).length ≤ 2 ^ 64) {b : B} {i : Long}
    {status : Status} (hsent : event i status ∈ sentTo b (messages tr)) :
    ∃ number, ⟨i, number⟩ ∈ TaskStorage.answered (messages tr) ∧
      Exchange.Shows i number status
        (TasksEndpoint.GetStatusCallback.onComplete (.ok ((s.taskStorage ()).handleGet ⟨i⟩))) := by
  obtain ⟨hord, -⟩ := Run.orderly h hlen
  obtain ⟨status', hstatus, hle⟩ := hord.sent_le hlen hsent
  rw [← Run.taskStorage_eq h ()] at hstatus
  obtain ⟨number, hnumber⟩ := Run.number_of_status h hlen hstatus
  refine ⟨number, ?_, ?_⟩
  · rw [hord.answered_eq hlen, ← (hord.holds hlen).tasks_eq, ← Run.taskStorage_eq h ()]
    exact hnumber
  · rw [Run.status_response h hlen]
    exact Service.shows_job (State.jobs_some hstatus hnumber) hle

end

/-! ## One page -/

section

open TaskStorage (sentTo event)

/-- A POST, with a page that registers right after it. -/
def onePage (r : CreateTaskResource) : List (Label Unit Empty Unit Unit) :=
  [.request () (.createTask r), .request () (.suspend 1 ())]

/-- What follows until the cluster is at rest. -/
theorem run_onePage (r : CreateTaskResource) : ∃ ls s, (system Unit Empty Unit Unit).Run
    ((Registered ⊓ FreshBroadcasters) ⊓ NoLoss) (onePage r ++ ls) s ∧ Rest s ∧
      TaskStorage.registrations (messages ls) = [] ∧ TaskStorage.posted (messages ls) = [] := by
  have h₀ : (system Unit Empty Unit Unit).Run ((Registered ⊓ FreshBroadcasters) ⊓ NoLoss) []
    State.init := .init
  have h₁ := h₀.step (Step.request _ () (.createTask r)) (by
    refine ⟨⟨fun f i b h => ?_, fun f i b h => ?_⟩, fun x h => ?_⟩
    · cases h
    · cases h
    · cases h)
  have h₂ := h₁.step (Step.request _ () (.suspend 1 ())) (by
    refine ⟨⟨fun f i b h => ?_, fun f i b h r hr => ?_⟩, fun x h => ?_⟩
    · cases h
      exact ⟨⟨1, r.number⟩, List.mem_singleton_self _, rfl⟩
    · cases h
      cases hr
    · cases h)
  obtain ⟨ls, s, hp, hzero⟩ := internal_works.exists_path ⟨_, h₂.free⟩
  have hrun := h₂.extend hp fun tr s l hl => by
    obtain ⟨hreg, hloss⟩ := internal_plain tr s l hl
    refine ⟨⟨hreg, fun f i b h => ?_⟩, hloss⟩
    rw [h] at hl
    cases hl
  exact ⟨ls, s, hrun, work_eq_zero.1 hzero, registrations_internal () hp.labels,
    posted_internal () hp.labels⟩

/-- The messages of the task storage, and how many POSTs are among them. -/
theorem messages_onePage (r : CreateTaskResource) (ls : List (Label Unit Empty Unit Unit)) :
    messages (onePage r ++ ls) = [.newNumber ⟨r.number⟩] ++ .register ⟨1, ()⟩ :: messages ls := by
  rw [messages, taskMessages_append]
  rfl

theorem posted_onePage (r : CreateTaskResource) {ls : List (Label Unit Empty Unit Unit)}
    (hls : TaskStorage.posted (messages ls) = []) :
    (TaskStorage.posted (messages (onePage r ++ ls))).length ≤ 2 ^ 64 := by
  rw [messages_onePage, TaskStorage.posted_append]
  show ([r.number] ++ TaskStorage.posted (messages ls)).length ≤ _
  rw [hls]
  exact Nat.one_le_two_pow

/-- A page that registers right after its POST is told of the end of the task. -/
theorem pages_follow_two : ∃ (tr : List (Label Unit Empty Unit Unit))
    (s : State Unit Empty Unit Unit),
    (system Unit Empty Unit Unit).Run (Registered ⊓ FreshBroadcasters) tr s ∧ Rest s ∧
      (sentTo () (messages tr)).getLast? = some (event 1 .FINISHED) := by
  obtain ⟨ls, s, hrun, hrest, hregs, hposted⟩ := run_onePage ⟨"2", by decide⟩
  refine ⟨_, s, hrun.mono inf_le_left, hrest, (pages_follow (hrun.mono inf_le_left)
    (posted_onePage _ hposted)).2 (hrun.mono inf_le_right) hrest _ _ _ (messages_onePage _ ls)
    fun r hr => ?_⟩
  rw [hregs] at hr
  cases hr

/-- When it asks then, it is redirected. -/
theorem event_confirmed_two : ∃ (tr : List (Label Unit Empty Unit Unit))
    (s : State Unit Empty Unit Unit) (number : String),
    (system Unit Empty Unit Unit).Run Registered tr s ∧
      Exchange.Shows 1 number .FINISHED
        (TasksEndpoint.GetStatusCallback.onComplete (.ok ((s.taskStorage ()).handleGet ⟨1⟩))) := by
  obtain ⟨ls, s, hrun, hrest, hregs, hposted⟩ := run_onePage ⟨"2", by decide⟩
  have hreg := (hrun.mono inf_le_left).mono inf_le_left
  have hlen := posted_onePage ⟨"2", by decide⟩ hposted
  have hsub := Run.subscription hreg hlen (messages_onePage _ ls) (by
    rw [hregs]
    intro r hr
    cases hr)
  obtain ⟨status, hstatus, hsent⟩ := Run.current_shown (hrun.mono inf_le_left) hlen hsub
  obtain rfl := statuses_at_rest (hrun.mono inf_le_right) hrest () 1 status hstatus
  obtain ⟨number, -, hshows⟩ := event_confirmed hreg hlen (List.mem_of_getLast? hsent)
  exact ⟨_, s, number, hreg, hshows⟩

end

end PrimeTester.Cluster
