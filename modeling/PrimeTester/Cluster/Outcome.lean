import PrimeTester.Cluster.Status

/-!
# The outcome of a run

Without loss every acknowledged task is somewhere on its way until a worker has completed it, and
the end of a completed task is on its way to each storage until that storage has taken it
(`NothingLost`). So a run of a cluster with one frontend that has come to rest has the `Outcome`
that the posted numbers alone determine, whatever the interleaving and whoever did the work
(`outcome_of_quiescent`).
-/

namespace PrimeTester.Cluster

section
variable {W B : Type}

/-- What the cluster is for: all the posted tasks are finished, and exactly the posted numbers have
results, with what `checkIsPrime` computes for them. -/
structure Outcome (numbers : List String) (s : State Unit Empty W B) : Prop where
  tasks : ∀ i n, (s.taskStorage ()).tasks.get i = some n ↔
    ⟨i, n⟩ ∈ TaskStorage.assignments numbers
  statuses : ∀ i status, (s.taskStorage ()).statuses.get i = some status ↔
    status = .FINISHED ∧ ∃ a ∈ TaskStorage.assignments numbers, a.taskId = i
  results : ∀ k, (s.resultStorage ()).results.get k ≠ none ↔ k ∈ numbers
  verdicts : ∀ k cf, (s.resultStorage ()).results.get k = some cf → cf.number = k ∧
    ∀ np : NextProbablePrime, np.SkipsNoPrime → ∃ enough, ∀ fuel, enough ≤ fuel → ∀ i,
      Worker.checkIsPrime np fuel ⟨i, k⟩ = .ok ⟨i, k, cf.isPrime, cf.divider⟩

/-! ## Nothing is lost -/

/-- The task is waiting, a worker has it, or a worker has completed it. -/
def Placed (tr : List (Label Unit Empty W B)) (s : State Unit Empty W B)
    (m : TaskIdAssignedMessage) : Prop :=
  m ∈ waiting s ∨ ∃ w t, t.message = m ∧
    (t ∈ s.mailbox w ∨ s.busy w = some t ∨ ∃ cf, .complete w t cf ∈ tr)

/-- Every task is somewhere, and the end of every completed task is on its way to each storage or
was taken. -/
structure NothingLost (tr : List (Label Unit Empty W B)) (s : State Unit Empty W B) : Prop where
  task : ∀ m ∈ TaskStorage.answered (messages tr), Placed tr s m
  status : ∀ w t cf, .complete w t cf ∈ tr →
    t.finished cf ∈ s.statusMail () w ∨ .statusEvent () w (t.finished cf) ∈ tr
  result : ∀ w t cf, .complete w t cf ∈ tr →
    t.finished cf ∈ s.resultMail () w ∨ .resultEvent () w (t.finished cf) ∈ tr

theorem NothingLost.init : NothingLost [] (State.init : State Unit Empty W B) where
  task _ h := by cases h
  status _ _ _ h := by cases h
  result _ _ _ h := by cases h

variable [DecidableEq W] {A : Assumption (State Unit Empty W B) (Label Unit Empty W B)}
variable {tr : List (Label Unit Empty W B)} {s s' : State Unit Empty W B}
variable {l : Label Unit Empty W B} {m : TaskIdAssignedMessage}

omit [DecidableEq W] in
/-- A task that keeps its place. -/
theorem Placed.keep (h : Placed tr s m) (hwaiting : m ∈ waiting s → m ∈ waiting s')
    (hmailbox : s'.mailbox = s.mailbox) (hbusy : s'.busy = s.busy) : Placed (tr ++ [l]) s' m := by
  refine h.imp hwaiting ?_
  rintro ⟨w, t, rfl, ht | ht | ⟨cf, ht⟩⟩
  · exact ⟨w, t, rfl, .inl (by rwa [hmailbox])⟩
  · exact ⟨w, t, rfl, .inr (.inl (by rwa [hbusy]))⟩
  · exact ⟨w, t, rfl, .inr (.inr ⟨cf, List.mem_append_left _ ht⟩)⟩

/-- No step without loss makes a task disappear. -/
theorem Placed.step (h : Placed tr s m) (hrun : (system Unit Empty W B).Run A tr s)
    (hs : Step s l s') (hloss : NoLoss tr s l) : Placed (tr ++ [l]) s' m := by
  cases hs with
  | request f r =>
    refine h.keep (fun hm => ?_) rfl rfl
    rw [waiting_deliver]
    exact List.mem_append_left _ hm
  | getResult f m => exact h.keep id rfl rfl
  | client c => cases c
  | @forward p m' ms w hp =>
    obtain ⟨⟩ | c := p
    swap
    · cases c
    rcases h with hm | ⟨w', t, rfl, ht | ht | ⟨cf, ht⟩⟩
    · rcases Channels.mem_next_or hp hm with hrest | ⟨-, rfl⟩
      · exact .inl hrest
      · exact .inr ⟨w, ⟨.inl (), m⟩, rfl, .inl (Channels.mem_send.2 (.inr ⟨rfl, by simp⟩))⟩
    · exact .inr ⟨w', t, rfl, .inl (Channels.mem_send.2 (.inl ht))⟩
    · exact .inr ⟨w', t, rfl, .inr (.inl ht)⟩
    · exact .inr ⟨w', t, rfl, .inr (.inr ⟨cf, List.mem_append_left _ ht⟩)⟩
  | @begin w t' ts hidle hw =>
    refine h.imp id ?_
    rintro ⟨w', t, rfl, ht | ht | ⟨cf, ht⟩⟩
    · rcases Channels.mem_next_or hw ht with hrest | ⟨rfl, rfl⟩
      · exact ⟨w', t, rfl, .inl hrest⟩
      · exact ⟨w', t, rfl, .inr (.inl (Function.update_self ..))⟩
    · have hne : w' ≠ w := by
        rintro rfl
        rw [hidle] at ht
        cases ht
      exact ⟨w', t, rfl, .inr (.inl ((Function.update_of_ne hne ..).trans ht))⟩
    · exact ⟨w', t, rfl, .inr (.inr ⟨cf, List.mem_append_left _ ht⟩)⟩
  | @complete w t' cf' np fuel hnp hw hm =>
    refine h.imp id ?_
    rintro ⟨w', t, rfl, ht | ht | ⟨cf, ht⟩⟩
    · exact ⟨w', t, rfl, .inl ht⟩
    · by_cases hw' : w' = w
      · subst hw'
        rw [hw] at ht
        cases ht
        exact ⟨w', t', rfl, .inr (.inr ⟨cf', by simp⟩)⟩
      · exact ⟨w', t, rfl, .inr (.inl ((Function.update_of_ne hw' ..).trans ht))⟩
    · exact ⟨w', t, rfl, .inr (.inr ⟨cf, List.mem_append_left _ ht⟩)⟩
  | fail hnp hw hm hfault => exact absurd (.fail hnp hw hm hfault) (Run.not_fail hrun)
  | @statusEvent f w e es hf =>
    refine h.keep (fun hm => ?_) rfl rfl
    rw [waiting_deliver]
    exact List.mem_append_left _ hm
  | resultEvent hf => exact h.keep id rfl rfl
  | lose x => exact absurd rfl (hloss x)

/-- A task that is acknowledged in a step waits in the proxy. -/
theorem Placed.acknowledged (hrun : (system Unit Empty W B).Run A tr s) (hs : Step s l s')
    (hm : m ∈ TaskStorage.answered (messages (tr ++ [l]))) :
    m ∈ TaskStorage.answered (messages tr) ∨ m ∈ waiting s' := by
  rw [messages_concat] at hm
  cases hs with
  | request f r =>
    rw [Label.taskMessage?, if_pos rfl, Option.toList_some, TaskStorage.answered_concat,
      List.mem_append] at hm
    refine hm.imp id fun hnew => ?_
    rw [waiting_deliver, Run.taskStorage_eq hrun]
    exact List.mem_append_right _ hnew
  | @statusEvent f w e es hf =>
    rw [Label.taskMessage?, if_pos rfl, Option.toList_some,
      TaskStorage.answered_concat_of_none _ (TaskStorage.number?_ofEvent _)] at hm
    exact .inl hm
  | _ => exact .inl ((List.append_nil (messages tr)) ▸ hm)

/-- An event stays in a mailbox until it is taken. -/
theorem mem_update_next {mail : Unit → Channels W (Published Unit Empty)} {w w' : W}
    {e e' : Published Unit Empty} {es : List (Published Unit Empty)} (hf : mail () w' = e' :: es)
    (he : e ∈ mail () w) :
    e ∈ Function.update mail () ((mail ()).next w') () w ∨ w = w' ∧ e = e' := by
  rw [Function.update_self]
  exact Channels.mem_next_or hf he

/-- The end of a task stays on its way to the task storage until it is taken. -/
theorem Step.statusMail (hs : Step s l s') (hloss : NoLoss tr s l) {w : W}
    {e : Published Unit Empty} (he : e ∈ s.statusMail () w) :
    e ∈ s'.statusMail () w ∨ .statusEvent () w e = l := by
  cases hs with
  | begin hidle hw => exact .inl (Channels.mem_send.2 (.inl he))
  | complete hnp hw hm => exact .inl (Channels.mem_send.2 (.inl he))
  | statusEvent hf =>
    refine (mem_update_next hf he).imp_right ?_
    rintro ⟨rfl, rfl⟩
    rfl
  | lose x => exact absurd rfl (hloss x)
  | _ => exact .inl he

/-- And on its way to the result storage. -/
theorem Step.resultMail (hs : Step s l s') (hloss : NoLoss tr s l) {w : W}
    {e : Published Unit Empty} (he : e ∈ s.resultMail () w) :
    e ∈ s'.resultMail () w ∨ .resultEvent () w e = l := by
  cases hs with
  | begin hidle hw => exact .inl (Channels.mem_send.2 (.inl he))
  | complete hnp hw hm => exact .inl (Channels.mem_send.2 (.inl he))
  | resultEvent hf =>
    refine (mem_update_next hf he).imp_right ?_
    rintro ⟨rfl, rfl⟩
    rfl
  | lose x => exact absurd rfl (hloss x)
  | _ => exact .inl he

/-- The end of a task goes to both storages. -/
theorem Step.complete_mail {w : W} {t : Task Unit Empty} {cf : CalculationFinished}
    (hs : Step s (.complete w t cf) s') :
    t.finished cf ∈ s'.statusMail () w ∧ t.finished cf ∈ s'.resultMail () w := by
  cases hs with
  | complete hnp hw hm =>
    exact ⟨Channels.mem_send.2 (.inr ⟨rfl, by simp⟩), Channels.mem_send.2 (.inr ⟨rfl, by simp⟩)⟩

omit [DecidableEq W] in
/-- What is on its way or was taken is so after a step that only takes it. -/
theorem kept_or_taken {e : Published Unit Empty} {mail mail' : List (Published Unit Empty)}
    {taken : Label Unit Empty W B} (h : e ∈ mail ∨ taken ∈ tr)
    (hstep : e ∈ mail → e ∈ mail' ∨ taken = l) : e ∈ mail' ∨ taken ∈ tr ++ [l] := by
  rcases h with hin | hout
  · exact (hstep hin).imp_right fun hl => by rw [hl]; simp
  · exact .inr (List.mem_append_left _ hout)

theorem NothingLost.step (h : NothingLost tr s) (hrun : (system Unit Empty W B).Run A tr s)
    (hs : Step s l s') (hloss : NoLoss tr s l) : NothingLost (tr ++ [l]) s' := by
  refine ⟨fun m hm => ?_, fun w t cf ht => ?_, fun w t cf ht => ?_⟩
  · rcases Placed.acknowledged hrun hs hm with hold | hnew
    · exact (h.task m hold).step hrun hs hloss
    · exact .inl hnew
  · rcases List.mem_append.1 ht with hold | hnew
    · exact kept_or_taken (h.status w t cf hold) (hs.statusMail hloss)
    · rw [← List.mem_singleton.1 hnew] at hs
      exact .inl hs.complete_mail.1
  · rcases List.mem_append.1 ht with hold | hnew
    · exact kept_or_taken (h.result w t cf hold) (hs.resultMail hloss)
    · rw [← List.mem_singleton.1 hnew] at hs
      exact .inl hs.complete_mail.2

/-- In no run without loss anything is lost. -/
theorem Run.nothingLost (h : (system Unit Empty W B).Run NoLoss tr s) : NothingLost tr s := by
  refine h.induct NothingLost.init ?_
  intro tr s l s' hrun ih hs hloss
  exact ih.step hrun hs hloss

/-! ## At rest -/

/-- At rest every acknowledged task was completed, and both storages have taken its end. -/
theorem Run.all_completed (h : (system Unit Empty W B).Run NoLoss tr s) (hrest : Rest s)
    (hm : m ∈ TaskStorage.answered (messages tr)) :
    ∃ (w : W) (t : Task Unit Empty), t.message = m ∧
      .statusEvent () w (t.finished (Worker.verdict m)) ∈ tr ∧
      .resultEvent () w (t.finished (Worker.verdict m)) ∈ tr := by
  have hlost := Run.nothingLost h
  rcases hlost.task m hm with hw | ⟨w, t, rfl, ht | ht | ⟨cf, ht⟩⟩
  · rw [waiting, hrest.clusterProxy] at hw
    cases hw
  · rw [hrest.mailbox] at ht
    cases ht
  · rw [hrest.busy] at ht
    cases ht
  · obtain ⟨-, rfl⟩ := Run.completed h ht
    refine ⟨w, t, rfl, (hlost.status w t _ ht).resolve_left ?_,
      (hlost.result w t _ ht).resolve_left ?_⟩
    · rw [hrest.statusMail]
      exact List.not_mem_nil
    · rw [hrest.resultMail]
      exact List.not_mem_nil

/-- A run that has come to rest has the outcome of its posted numbers. -/
theorem Run.outcome (h : (system Unit Empty W B).Run (Registered ⊓ NoLoss) tr s)
    (hlen : (TaskStorage.posted (messages tr)).length < 2 ^ 63) (hrest : Rest s) :
    Outcome (TaskStorage.posted (messages tr)) s := by
  have hloss : (system Unit Empty W B).Run NoLoss tr s := h.mono inf_le_right
  obtain ⟨hord, -⟩ := Run.orderly (h.mono inf_le_left) (by omega)
  have hst := Run.taskStorage_eq h ()
  have hanswered := hord.answered_eq (by omega)
  have hfinished {a : TaskIdAssignedMessage} (ha : a ∈ TaskStorage.answered (messages tr)) :
      (s.taskStorage ()).statuses.get a.taskId = some .FINISHED := by
    obtain ⟨w, t, rfl, hstatus, -⟩ := Run.all_completed hloss hrest ha
    rw [hst]
    exact hord.status_finished (by omega) (mem_progress.2 ⟨w, _, hstatus, rfl, rfl⟩)
  refine ⟨fun i n => ?_, fun i status => ?_, fun k => ?_, fun k cf hcf => ?_⟩
  · rw [hst]
    exact (hord.holds (by omega)).tasks_eq i n
  · rw [← hanswered]
    constructor
    · intro hi
      have hne : (TaskStorage.after (messages tr)).statuses.get i ≠ none := by
        rw [← hst, hi]
        exact Option.some_ne_none _
      obtain ⟨a, ha, rfl⟩ := (hord.status_ne_none (by omega)).1 hne
      rw [hfinished ha] at hi
      exact ⟨(Option.some_inj.1 hi).symm, a, ha, rfl⟩
    · rintro ⟨rfl, a, ha, rfl⟩
      exact hfinished ha
  · constructor
    · intro hk
      obtain ⟨cf, hcf⟩ := Option.ne_none_iff_exists'.1 hk
      obtain ⟨w, t, rfl, hsub, -⟩ := Run.result h hcf
      rw [← TaskStorage.answered_numbers]
      exact List.mem_map_of_mem hsub.answered
    · intro hk
      rw [← TaskStorage.answered_numbers] at hk
      obtain ⟨a, ha, rfl⟩ := List.mem_map.1 hk
      obtain ⟨w, t, rfl, -, hresult⟩ := Run.all_completed hloss hrest ha
      rw [Run.resultStorage_eq h (), ResultStorage.get_results_ne_none]
      exact ⟨_, mem_resultMessages.2 ⟨w, _, hresult, rfl⟩, rfl⟩
  · obtain ⟨w, t, rfl, hsub, -, rfl⟩ := Run.result h hcf
    refine ⟨rfl, fun np hnp => ⟨decimalValue t.message.number + 2, fun fuel hfuel i => ?_⟩⟩
    have hmatch : NUMBER_PATTERN (TaskIdAssignedMessage.mk i t.message.number).number :=
      hsub.number_matches
    obtain ⟨m, hm⟩ := Worker.checkIsPrime_total np ⟨i, t.message.number⟩ hmatch
      (Nat.lt_of_succ_le hfuel)
    rw [hm, Worker.checkIsPrime_sound hnp hmatch hm]
    rfl

/-- **The outcome does not depend on scheduling.** A run of a cluster with one frontend without
loss, with registrations only for acknowledged ids and less than `2 ^ 63` POSTs, that has come to
rest, has the outcome that its posted numbers determine; and any two such runs with the same posted
numbers answer every request for a status or a result alike. -/
theorem outcome_of_quiescent (h : (system Unit Empty W B).Run (Registered ⊓ NoLoss) tr s)
    (hlen : (TaskStorage.posted (messages tr)).length < 2 ^ 63) (hrest : Rest s) :
    Outcome (TaskStorage.posted (messages tr)) s ∧
      ∀ tr' s', (system Unit Empty W B).Run (Registered ⊓ NoLoss) tr' s' → Rest s' →
        TaskStorage.posted (messages tr') = TaskStorage.posted (messages tr) →
        (∀ m, (s'.taskStorage ()).handleGet m = (s.taskStorage ()).handleGet m) ∧
        ∀ m, (s'.resultStorage ()).handleGet m = (s.resultStorage ()).handleGet m := by
  have ho := Run.outcome h hlen hrest
  refine ⟨ho, fun tr' s' h' hrest' hposted => ?_⟩
  have ho' := Run.outcome h' (hposted ▸ hlen) hrest'
  rw [hposted] at ho'
  refine ⟨fun m => ?_, fun m => ?_⟩
  · have htasks : (s'.taskStorage ()).tasks.get m.taskId = (s.taskStorage ()).tasks.get m.taskId :=
      Option.ext fun n => (ho'.tasks _ n).trans (ho.tasks _ n).symm
    have hstatuses : (s'.taskStorage ()).statuses.get m.taskId =
        (s.taskStorage ()).statuses.get m.taskId :=
      Option.ext fun status => (ho'.statuses _ status).trans (ho.statuses _ status).symm
    rw [TaskStorage.handleGet, TaskStorage.handleGet, htasks, hstatuses]
  · obtain ⟨k⟩ := m
    rcases Run.getResult h () k with ⟨hk, hget⟩ | ⟨hk, hget, -⟩ <;>
      rcases Run.getResult h' () k with ⟨hk', hget'⟩ | ⟨hk', hget', -⟩
    · rw [hget, hget']
    · exact absurd hk ((ho.results k).2 ((ho'.results k).1 hk'))
    · exact absurd hk' ((ho'.results k).2 ((ho.results k).1 hk))
    · rw [hget, hget']

end

/-- The only task of a run, at rest. -/
theorem rest_oneTaskFinished
    {A : Assumption (State Unit Empty Unit Unit) (Label Unit Empty Unit Unit)}
    (r : CreateTaskResource) (hA : ∀ tr s, ∀ l ∈ oneTaskFinished r, A tr s l) :
    ∃ s, (system Unit Empty Unit Unit).Run A (oneTaskFinished r) s ∧ Rest s ∧
      (s.taskStorage ()).statuses.get 1 = some .FINISHED := by
  obtain ⟨s, hrun, hst, -, hproxy, hmailbox, hbusy, hstatus, hresult⟩ := run_oneTaskFinished hA
  refine ⟨s, hrun, ⟨fun p => ?_, fun _ => hmailbox, fun _ => hbusy, fun _ _ => hstatus,
    fun _ _ => hresult⟩, by rw [hst]; rfl⟩
  obtain ⟨⟩ | c := p
  · exact hproxy
  · cases c

/-- The posted number `2` has its outcome. -/
theorem outcome_of_quiescent_two : ∃ (tr : List (Label Unit Empty Unit Unit))
    (s : State Unit Empty Unit Unit), (system Unit Empty Unit Unit).Run (Registered ⊓ NoLoss) tr s ∧
      Rest s ∧ Outcome ["2"] s := by
  obtain ⟨s, hrun, hrest, -⟩ :=
    rest_oneTaskFinished (A := Registered ⊓ NoLoss) ⟨"2", by decide⟩ fun tr s l hl =>
      ⟨fun f i b hsuspend => absurd hsuspend ((oneTaskFinished_plain hl).1 f i b),
        (oneTaskFinished_plain hl).2⟩
  have hposted : TaskStorage.posted (messages (oneTaskFinished ⟨"2", by decide⟩)) = ["2"] := rfl
  refine ⟨_, s, hrun, hrest, hposted ▸ (outcome_of_quiescent hrun ?_ hrest).1⟩
  rw [hposted]
  norm_num

end PrimeTester.Cluster
