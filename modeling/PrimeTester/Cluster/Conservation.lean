import PrimeTester.Cluster.Registered
import PrimeTester.Cluster.Rest

/-!
# No task is processed twice

A task is taken by a worker as often as it was submitted, less what is still on its way, and it is
completed as often as it was begun, less what workers are busy with (`conserved`); losses can only
make these numbers smaller. Both are balances of a `Price` that counts one task. As the task
storage of a frontend assigns an id once, each of its tasks is begun and completed at most once in
every run, and exactly once where nothing is lost and the cluster has come to rest
(`processed_once`).
-/

namespace PrimeTester.Cluster

section
variable {F C W B : Type} [DecidableEq F] [DecidableEq C]

/-- A worker begins the task. -/
def Label.begins (t : Task F C) : Label F C W B → Bool
  | .begin _ t' => t' = t
  | _ => false

/-- A worker completes the task. -/
def Label.completes (t : Task F C) : Label F C W B → Bool
  | .complete _ t' _ => t' = t
  | _ => false

/-- The `ClusterClient` sends its task. -/
def Label.sends (c : C) : Label F C W B → Bool
  | .client c' => c' = c
  | _ => false

/-- How often the task was submitted where it comes from. -/
def submissions (tr : List (Label F C W B)) (t : Task F C) : ℕ :=
  match t.origin with
  | .inl f => (TaskStorage.answered (taskMessages f tr)).count t.message
  | .inr c => if t.message = ClusterClient.task then tr.countP (Label.sends c) else 0

variable [Fintype W]

/-- How often the task is on its way to a worker. -/
def queued (s : State F C W B) (t : Task F C) : ℕ :=
  (s.clusterProxy t.origin).count t.message + ∑ w, (s.mailbox w).count t

/-- How many workers are busy with the task. -/
def computing (s : State F C W B) (t : Task F C) : ℕ :=
  ∑ w, if s.busy w = some t then 1 else 0

/-- The price that counts the task while it is on its way. -/
def queuedPrice (t : Task F C) : Price F C W where
  waiting t' := if t' = t then 1 else 0
  queued t' := if t' = t then 1 else 0
  busy _ := 0
  status _ _ _ := 0
  result _ _ _ := 0

/-- The price that counts the task while workers are busy with it. -/
def computingPrice (t : Task F C) : Price F C W where
  waiting _ := 0
  queued _ := 0
  busy t' := if t' = t then 1 else 0
  status _ _ _ := 0
  result _ _ _ := 0

variable [Fintype F] [Fintype C]

theorem queued_eq (s : State F C W B) (t : Task F C) : (queuedPrice t).value s = queued s t := by
  obtain ⟨p₀, m₀⟩ := t
  have hbusy (o : Option (Task F C)) : o.elim 0 (fun _ => 0) = 0 := by cases o <;> rfl
  simp only [Price.value, queuedPrice, queued, Envelope.mk.injEq, Channels.total_count,
    Channels.total_count_at, hbusy]
  simp

theorem computing_eq (s : State F C W B) (t : Task F C) :
    (computingPrice t).value s = computing s t := by
  have hbusy (w : W) : (s.busy w).elim 0 (fun t' => if t' = t then 1 else 0) =
      if s.busy w = some t then 1 else 0 := by
    cases s.busy w with
    | none => rfl
    | some t' => simp
  simp [Price.value, computingPrice, hbusy, computing]

omit [Fintype W] [Fintype C] in
@[simp] theorem queuedPrice_published (t : Task F C) (w : W) (e : Published F C) :
    (queuedPrice t : Price F C W).published w e = 0 := by
  simp [Price.published, queuedPrice]

omit [Fintype W] [Fintype C] in
@[simp] theorem computingPrice_published (t : Task F C) (w : W) (e : Published F C) :
    (computingPrice t : Price F C W).published w e = 0 := by
  simp [Price.published, computingPrice]

end

/-! ## Steps -/

section
variable {F C W B : Type} [DecidableEq F] [DecidableEq C]
variable {tr : List (Label F C W B)} {s s' : State F C W B} {l : Label F C W B}

@[simp] theorem submissions_nil (t : Task F C) :
    submissions ([] : List (Label F C W B)) t = 0 := by
  obtain ⟨f | c, m⟩ := t
  · rfl
  · exact ite_self 0

/-- Nothing but a submission submits. -/
theorem submissions_keep (hl : l.submits = false) (t : Task F C) :
    submissions (tr ++ [l]) t = submissions tr t := by
  obtain ⟨f | c, m⟩ := t
  · show (TaskStorage.answered (taskMessages f (tr ++ [l]))).count m = _
    rw [taskMessages_concat]
    cases hm : l.taskMessage? f with
    | none => rw [Option.toList_none, List.append_nil]; rfl
    | some m' =>
      rw [Option.toList_some, TaskStorage.answered_concat_of_none _ (l.number?_eq_none hl hm)]
      rfl
  · have hsends : l.sends c = false := by
      cases l with
      | client c' => cases hl
      | _ => rfl
    simp only [submissions, List.countP_append, List.countP_singleton, hsends]
    rfl

/-- A POST submits the task it is answered with. -/
theorem submissions_post (f : F) (r : CreateTaskResource) (t : Task F C) :
    submissions (tr ++ [.request f (.createTask r)]) t = submissions tr t +
      if ⟨.inl f, ⟨(TaskStorage.after (taskMessages f tr)).id + 1, r.number⟩⟩ = t
        then 1 else 0 := by
  obtain ⟨f' | c, m⟩ := t
  · simp only [submissions, taskMessages_concat, Label.taskMessage?]
    by_cases hf : f = f'
    · subst hf
      rw [if_pos rfl, Option.toList_some, TaskStorage.answered_concat, List.count_append]
      congr 1
      simp [Request.toMessage, CreateTaskResource.toMessage, TaskStorage.Message.number?,
        List.count_singleton]
    · rw [if_neg hf, Option.toList_none, List.append_nil, if_neg, Nat.add_zero]
      intro hc
      cases hc
      exact hf rfl
  · simp [submissions, List.countP_append, Label.sends]

/-- A `ClusterClient` submits its task. -/
theorem submissions_client (c : C) (t : Task F C) :
    submissions (tr ++ [.client c]) t = submissions tr t +
      if ⟨.inr c, ClusterClient.task⟩ = t then 1 else 0 := by
  obtain ⟨f | c', m⟩ := t
  · simp [submissions, taskMessages_concat, Label.taskMessage?]
  · simp only [submissions, List.countP_append, List.countP_singleton, Label.sends,
      Envelope.mk.injEq, Sum.inr.injEq, decide_eq_true_eq]
    by_cases hm : m = ClusterClient.task
    · simp [hm]
    · simp [hm, Ne.symm hm]

variable [Fintype F] [DecidableEq W] {A : Assumption (State F C W B) (Label F C W B)}

/-- A task that a step puts on its way is a new submission, and one that it takes from there is
begun. -/
theorem queued_balance (h : (system F C W B).Run A tr s) (hs : Step s l s') (t : Task F C) :
    (queuedPrice t).credit s l + (if l.begins t then 1 else 0) + submissions tr t =
      (queuedPrice t).debit s l + submissions (tr ++ [l]) t := by
  cases hs with
  | request f r =>
    cases r with
    | createTask r =>
      rw [submissions_post, ← Run.taskStorage_eq h]
      simp only [Price.credit, Price.debit, Label.begins, Request.toMessage,
        CreateTaskResource.toMessage, TaskStorage.Message.number?, Option.toList_some,
        List.map_singleton, List.sum_singleton, queuedPrice, Bool.false_eq_true, if_false]
      omega
    | getStatus i => rw [submissions_keep rfl]; rfl
    | suspend i b => rw [submissions_keep rfl]; rfl
  | getResult f m => rw [submissions_keep rfl]; rfl
  | client c =>
    rw [submissions_client]
    simp only [Price.credit, Price.debit, Label.begins, queuedPrice, Bool.false_eq_true, if_false]
    omega
  | @forward p m ms w hp =>
    rw [submissions_keep rfl]
    simp [Price.credit, Price.debit, Label.begins, queuedPrice, hp]
  | begin hidle hw =>
    rw [submissions_keep rfl, Price.credit, queuedPrice_published]
    simp [Price.debit, Label.begins, queuedPrice]
  | complete hnp hw hm =>
    rw [submissions_keep rfl, Price.credit, queuedPrice_published]
    simp [Price.debit, Label.begins, queuedPrice]
  | fail hnp hw hm hfault => rw [submissions_keep rfl]; rfl
  | statusEvent hf => rw [submissions_keep rfl]; rfl
  | resultEvent hf => rw [submissions_keep rfl]; rfl
  | lose x => rw [submissions_keep rfl]; rfl

/-- A task that a worker begins to be busy with is begun, and one that it is no longer busy with is
completed. -/
theorem computing_balance (h : (system F C W B).Run A tr s) (hs : Step s l s') (t : Task F C) :
    (computingPrice t).credit s l + (if l.completes t then 1 else 0) +
        tr.countP (Label.begins t) =
      (computingPrice t).debit s l + (tr ++ [l]).countP (Label.begins t) := by
  have hstep : (computingPrice t).credit s l + (if l.completes t then 1 else 0) =
      (computingPrice t).debit s l + (if l.begins t then 1 else 0) := by
    cases hs with
    | request f r => cases r <;> rfl
    | forward w hp =>
      simp [Price.credit, Price.debit, Label.begins, Label.completes, computingPrice]
    | begin hidle hw =>
      rw [Price.credit, computingPrice_published]
      simp [Price.debit, Label.begins, Label.completes, computingPrice]
    | complete hnp hw hm =>
      rw [Price.credit, computingPrice_published]
      simp [Price.debit, Label.begins, Label.completes, computingPrice]
    | fail hnp hw hm hfault => exact absurd (.fail hnp hw hm hfault) (Run.not_fail h)
    | _ => rfl
  rw [List.countP_append, List.countP_singleton]
  omega

end

/-! ## Events -/

/-- The two subscribers of the topic at a frontend. -/
inductive Subscriber where
  | taskStorage
  | resultStorage
  deriving DecidableEq

/-- The mailboxes of a subscriber. -/
def State.mail {F C W B : Type} (s : State F C W B) : Subscriber → F → Channels W (Published F C)
  | .taskStorage => s.statusMail
  | .resultStorage => s.resultMail

section
variable {F C W B : Type} [DecidableEq F] [DecidableEq C] [DecidableEq W]

/-- The worker publishes the event. -/
def Label.publishes (w : W) (e : Published F C) : Label F C W B → Bool
  | .begin w' t => w' = w ∧ t.started = e
  | .complete w' t m => w' = w ∧ t.finished m = e
  | _ => false

/-- The subscriber at `f` takes the event of the worker. -/
def Label.takes (x : Subscriber) (f : F) (w : W) (e : Published F C) : Label F C W B → Bool
  | .statusEvent f' w' e' => x = .taskStorage ∧ f' = f ∧ w' = w ∧ e' = e
  | .resultEvent f' w' e' => x = .resultStorage ∧ f' = f ∧ w' = w ∧ e' = e
  | _ => false

/-- The price that counts the event in one mailbox. -/
def eventPrice (x : Subscriber) (f : F) (w : W) (e : Published F C) : Price F C W where
  waiting _ := 0
  queued _ := 0
  busy _ := 0
  status f' w' e' := if x = .taskStorage ∧ f' = f ∧ w' = w ∧ e' = e then 1 else 0
  result f' w' e' := if x = .resultStorage ∧ f' = f ∧ w' = w ∧ e' = e then 1 else 0

variable [Fintype F] [Fintype C] [Fintype W]

theorem eventPrice_value (s : State F C W B) (x : Subscriber) (f : F) (w : W)
    (e : Published F C) : (eventPrice x f w e).value s = (s.mail x f w).count e := by
  have hbusy (o : Option (Task F C)) : o.elim 0 (fun _ => 0) = 0 := by cases o <;> rfl
  have hmail (mail : F → Channels W (Published F C)) :
      ∑ f', (mail f').total (fun w' e' => if f' = f ∧ w' = w ∧ e' = e then 1 else 0) =
        (mail f w).count e := by
    rw [Finset.sum_eq_single_of_mem f (Finset.mem_univ f), ← Channels.total_count_at]
    · simp only [true_and]
    · intro f' _ hne
      exact Channels.total_eq_zero fun w' e' => if_neg fun hc => hne hc.1
  cases x <;> simp [Price.value, eventPrice, hmail, hbusy, State.mail]

omit [Fintype C] [Fintype W] in
theorem eventPrice_published (x : Subscriber) (f : F) (w w' : W) (e e' : Published F C) :
    (eventPrice x f w e : Price F C W).published w' e' = if w' = w ∧ e' = e then 1 else 0 := by
  cases x <;> simp [Price.published, eventPrice, ite_and]

end

section
variable {F C W B : Type} [DecidableEq F] [DecidableEq C] [DecidableEq W]
variable [Fintype F]
variable {A : Assumption (State F C W B) (Label F C W B)}
variable {tr : List (Label F C W B)} {s s' : State F C W B} {l : Label F C W B}

/-- An event that a step puts into a mailbox is published, and one that it takes out is taken. -/
theorem event_balance (h : (system F C W B).Run A tr s) (hs : Step s l s') (x : Subscriber) (f : F)
    (w : W) (e : Published F C) :
    (eventPrice x f w e).credit s l + (if l.takes x f w e then 1 else 0) +
        tr.countP (Label.publishes w e) =
      (eventPrice x f w e).debit s l + (tr ++ [l]).countP (Label.publishes w e) := by
  have hstep : (eventPrice x f w e).credit s l + (if l.takes x f w e then 1 else 0) =
      (eventPrice x f w e).debit s l + (if l.publishes w e then 1 else 0) := by
    cases hs with
    | request f r => cases r <;> rfl
    | forward w hp => simp [Price.credit, Price.debit, Label.takes, Label.publishes, eventPrice]
    | begin hidle hw =>
      rw [Price.credit, eventPrice_published]
      simp [Price.debit, Label.takes, Label.publishes, eventPrice]
    | complete hnp hw hm =>
      rw [Price.credit, eventPrice_published]
      simp [Price.debit, Label.takes, Label.publishes, eventPrice]
    | fail hnp hw hm hfault => exact absurd (.fail hnp hw hm hfault) (Run.not_fail h)
    | statusEvent hf => simp [Price.credit, Price.debit, Label.takes, Label.publishes, eventPrice]
    | resultEvent hf => simp [Price.credit, Price.debit, Label.takes, Label.publishes, eventPrice]
    | _ => rfl
  rw [List.countP_append, List.countP_singleton]
  omega

/-! ## Runs -/

variable [Fintype C] [Fintype W]

/-- What is begun was submitted, and what is completed was begun. -/
theorem Run.conserved_le (h : (system F C W B).Run A tr s) (t : Task F C) :
    queued s t + tr.countP (Label.begins t) ≤ submissions tr t ∧
      computing s t + tr.countP (Label.completes t) ≤ tr.countP (Label.begins t) := by
  rw [← queued_eq, ← computing_eq]
  exact ⟨Run.balance_le (g := fun tr => submissions tr t) h (submissions_nil t)
      fun _ _ _ _ hrun hs => queued_balance hrun hs t,
    Run.balance_le (g := fun tr => tr.countP (Label.begins t)) h rfl
      fun _ _ _ _ hrun hs => computing_balance hrun hs t⟩

/-- **Conservation.** Without loss, a task is on its way or was begun as often as it was submitted,
and a worker is busy with it or has completed it as often as it was begun. -/
theorem Run.conserved (h : (system F C W B).Run NoLoss tr s) (t : Task F C) :
    queued s t + tr.countP (Label.begins t) = submissions tr t ∧
      computing s t + tr.countP (Label.completes t) = tr.countP (Label.begins t) := by
  rw [← queued_eq, ← computing_eq]
  exact ⟨Run.balance (g := fun tr => submissions tr t) h (submissions_nil t)
      fun _ _ _ _ hrun hs => queued_balance hrun hs t,
    Run.balance (g := fun tr => tr.countP (Label.begins t)) h rfl
      fun _ _ _ _ hrun hs => computing_balance hrun hs t⟩

/-- An event is taken by a subscriber at most as often as it was published. -/
theorem Run.delivered_le (h : (system F C W B).Run A tr s) (x : Subscriber) (f : F) (w : W)
    (e : Published F C) :
    (s.mail x f w).count e + tr.countP (Label.takes x f w e) ≤ tr.countP (Label.publishes w e) := by
  rw [← eventPrice_value]
  exact Run.balance_le (g := fun tr => tr.countP (Label.publishes w e)) h rfl
    fun _ _ _ _ hrun hs => event_balance hrun hs x f w e

/-- Without loss, it is on its way to each subscriber or was taken as often as it was published. -/
theorem Run.delivered (h : (system F C W B).Run NoLoss tr s) (x : Subscriber) (f : F) (w : W)
    (e : Published F C) :
    (s.mail x f w).count e + tr.countP (Label.takes x f w e) = tr.countP (Label.publishes w e) := by
  rw [← eventPrice_value]
  exact Run.balance (g := fun tr => tr.countP (Label.publishes w e)) h rfl
    fun _ _ _ _ hrun hs => event_balance hrun hs x f w e

/-! ## Exactly once -/

/-- **No task is processed twice.** Where clients register only for acknowledged ids, a task that a
frontend has answered one of up to `2 ^ 64` POSTs with is begun at most once and completed at most
once, by all the workers together and whatever is lost, and no other task is begun under its name.
Without loss, it is begun and completed exactly once when the cluster is at rest. -/
theorem processed_once (h : (system F C W B).Run Registered tr s) (f : F)
    (hlen : (TaskStorage.posted (taskMessages f tr)).length ≤ 2 ^ 64) (m : TaskIdAssignedMessage) :
    (tr.countP (Label.completes ⟨.inl f, m⟩) ≤ tr.countP (Label.begins ⟨.inl f, m⟩) ∧
      tr.countP (Label.begins ⟨.inl f, m⟩) ≤ 1 ∧
      (m ∉ TaskStorage.answered (taskMessages f tr) →
        tr.countP (Label.begins ⟨.inl f, m⟩) = 0)) ∧
    ((system F C W B).Run NoLoss tr s → Rest s → m ∈ TaskStorage.answered (taskMessages f tr) →
      tr.countP (Label.begins ⟨.inl f, m⟩) = 1 ∧ tr.countP (Label.completes ⟨.inl f, m⟩) = 1) := by
  have hone : submissions tr ⟨.inl f, m⟩ ≤ 1 :=
    List.nodup_iff_count_le_one.1 (Run.answered_nodup h hlen) m
  obtain ⟨hbegins, hcompletes⟩ := Run.conserved_le h ⟨.inl f, m⟩
  refine ⟨⟨by omega, by omega, fun hm => ?_⟩, fun hloss hrest hm => ?_⟩
  · have hnone : submissions tr ⟨.inl f, m⟩ = 0 := List.count_eq_zero.2 hm
    omega
  · have hsome : submissions tr ⟨.inl f, m⟩ ≠ 0 := fun hc => List.count_eq_zero.1 hc hm
    obtain ⟨hb, hc⟩ := Run.conserved hloss ⟨.inl f, m⟩
    have hqueued : queued s ⟨.inl f, m⟩ = 0 := by
      simp [queued, hrest.clusterProxy, hrest.mailbox]
    have hcomputing : computing s (⟨.inl f, m⟩ : Task F C) = 0 := by
      simp [computing, hrest.busy]
    omega

end

/-- The only task of a run. -/
theorem processed_once_two : ∃ (tr : List (Label Unit Empty Unit Unit))
    (s : State Unit Empty Unit Unit), (system Unit Empty Unit Unit).Run Registered tr s ∧
      tr.countP (Label.begins ⟨.inl (), ⟨1, "2"⟩⟩) = 1 ∧
      tr.countP (Label.completes ⟨.inl (), ⟨1, "2"⟩⟩) = 1 := by
  obtain ⟨s, hrun, -, -, hproxy, hmailbox, hbusy, hstatus, hresult⟩ :=
    run_oneTaskFinished (A := Registered ⊓ NoLoss) (r := ⟨"2", by decide⟩) fun tr s l hl =>
      ⟨fun f i b hsuspend => absurd hsuspend ((oneTaskFinished_plain hl).1 f i b),
        (oneTaskFinished_plain hl).2⟩
  have hrest : Rest s := by
    refine ⟨fun p => ?_, fun _ => hmailbox, fun _ => hbusy, fun _ _ => hstatus, fun _ _ => hresult⟩
    obtain ⟨⟩ | c := p
    · exact hproxy
    · cases c
  exact ⟨_, s, hrun.mono inf_le_left, (processed_once (hrun.mono inf_le_left) () (by decide)
    ⟨1, "2"⟩).2 (hrun.mono inf_le_right) hrest (by decide)⟩

end PrimeTester.Cluster
