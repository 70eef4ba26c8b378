import PrimeTester.Cluster
import PrimeTester.Worker.Total

/-!
# What is in flight

In every run of the cluster the storages are what the messages they have taken make of them
(`Run.taskStorage_eq`, `Run.resultStorage_eq`), and nothing in flight is invented: a task was
submitted where its envelope says, an event was published by the worker that began or completed a
task (`Flight`). As only numbers that match `NUMBER_PATTERN` are submitted, a completed task has
ended with the `Worker.verdict` on it (`Run.completed`). A cluster with nothing in flight is at
`Rest`.
-/

namespace PrimeTester.Cluster

section
variable {F C W B : Type}

/-- Nothing is in flight and no worker is busy. -/
structure Rest (s : State F C W B) : Prop where
  clusterProxy : ∀ p, s.clusterProxy p = []
  mailbox : ∀ w, s.mailbox w = []
  busy : ∀ w, s.busy w = none
  statusMail : ∀ f w, s.statusMail f w = []
  resultMail : ∀ f w, s.resultMail f w = []

/-! ## Where messages come from -/

/-- The worker `w` published the event: for a task that it has begun, or completed. -/
def PublishedBy (tr : List (Label F C W B)) (w : W) (e : Published F C) : Prop :=
  ∃ t, (.begin w t ∈ tr ∧ e = t.started) ∨ ∃ m, .complete w t m ∈ tr ∧ e = t.finished m

theorem PublishedBy.append {tr : List (Label F C W B)} {w : W} {e : Published F C}
    (h : PublishedBy tr w e) (tr' : List (Label F C W B)) : PublishedBy (tr ++ tr') w e := by
  obtain ⟨t, ⟨ht, he⟩ | ⟨m, ht, he⟩⟩ := h
  · exact ⟨t, .inl ⟨List.mem_append_left _ ht, he⟩⟩
  · exact ⟨t, .inr ⟨m, List.mem_append_left _ ht, he⟩⟩

section
variable [DecidableEq F] {tr : List (Label F C W B)} {s : State F C W B}

theorem taskMessages_append (f : F) (tr tr' : List (Label F C W B)) :
    taskMessages f (tr ++ tr') = taskMessages f tr ++ taskMessages f tr' := List.filterMap_append

theorem taskMessages_concat (f : F) (tr : List (Label F C W B)) (l : Label F C W B) :
    taskMessages f (tr ++ [l]) = taskMessages f tr ++ (l.taskMessage? f).toList := by
  cases h : l.taskMessage? f <;> simp [taskMessages, h]

theorem resultMessages_concat (f : F) (tr : List (Label F C W B)) (l : Label F C W B) :
    resultMessages f (tr ++ [l]) = resultMessages f tr ++ (l.resultMessage? f).toList := by
  cases h : l.resultMessage? f <;> simp [resultMessages, h]

/-- The task was submitted at `p`: a client of the frontend was answered with it, or the
`ClusterClient` sent it. -/
def Submitted (tr : List (Label F C W B)) : F ⊕ C → TaskIdAssignedMessage → Prop
  | .inl f, m => m ∈ TaskStorage.answered (taskMessages f tr)
  | .inr c, m => .client c ∈ tr ∧ m = ClusterClient.task

theorem Submitted.append {p : F ⊕ C} {m : TaskIdAssignedMessage} (h : Submitted tr p m)
    (tr' : List (Label F C W B)) : Submitted (tr ++ tr') p m := by
  cases p with
  | inl f =>
    rw [Submitted, taskMessages_append]
    exact TaskStorage.mem_answered_append h
  | inr c => exact ⟨List.mem_append_left _ h.1, h.2⟩

/-- A number was posted when a client sent a request to create a task for it. -/
theorem mem_posted {f : F} {number : String} :
    number ∈ TaskStorage.posted (taskMessages f tr) ↔
      ∃ r : CreateTaskResource, .request f (.createTask r) ∈ tr ∧ r.number = number := by
  simp only [TaskStorage.posted, taskMessages, List.mem_filterMap]
  constructor
  · rintro ⟨m, ⟨l, hl, hm⟩, hn⟩
    cases l with
    | request f' r =>
      obtain ⟨rfl, hr⟩ := Option.ite_none_right_eq_some.1 hm
      cases hr
      cases r with
      | createTask r => exact ⟨r, hl, Option.some_inj.1 hn⟩
      | getStatus i => cases hn
      | suspend i b => cases hn
    | statusEvent f' w e =>
      obtain ⟨rfl, hr⟩ := Option.ite_none_right_eq_some.1 hm
      cases hr
      obtain ⟨p, _ | _⟩ := e <;> cases hn
    | _ => cases hm
  · rintro ⟨r, hl, rfl⟩
    exact ⟨_, ⟨_, hl, if_pos rfl⟩, rfl⟩

/-- A status was announced when the task storage took an event with it. -/
theorem mem_progress {f : F} {i : Long} {status : Status} :
    status ∈ TaskStorage.progress i (taskMessages f tr) ↔
      ∃ w e, .statusEvent f w e ∈ tr ∧ e.message.taskId = i ∧ e.message.status = status := by
  simp only [TaskStorage.progress, taskMessages, List.mem_filterMap]
  constructor
  · rintro ⟨m, ⟨l, hl, hm⟩, hs⟩
    cases l with
    | request f' r =>
      obtain ⟨-, hr⟩ := Option.ite_none_right_eq_some.1 hm
      cases hr
      cases r <;> cases hs
    | statusEvent f' w e =>
      obtain ⟨rfl, hr⟩ := Option.ite_none_right_eq_some.1 hm
      cases hr
      rw [TaskStorage.progress?_ofEvent] at hs
      obtain ⟨hi, hs⟩ := Option.ite_none_right_eq_some.1 hs
      exact ⟨w, e, hl, hi, Option.some_inj.1 hs⟩
    | _ => cases hm
  · rintro ⟨w, e, hl, hi, hs⟩
    refine ⟨_, ⟨_, hl, if_pos rfl⟩, ?_⟩
    rw [TaskStorage.progress?_ofEvent, if_pos hi, hs]

/-- Only accepted numbers are submitted. -/
theorem Submitted.number_matches {p : F ⊕ C} {m : TaskIdAssignedMessage}
    (h : Submitted tr p m) : NUMBER_PATTERN m.number := by
  cases p with
  | inl f =>
    have hposted : m.number ∈ TaskStorage.posted (taskMessages f tr) := by
      rw [← TaskStorage.answered_numbers]
      exact List.mem_map_of_mem h
    obtain ⟨r, -, hr⟩ := mem_posted.1 hposted
    rw [← hr]
    exact r.number_matches
  | inr c =>
    rw [h.2]
    decide

/-- Everything in flight comes from a step of the run. -/
structure Flight (tr : List (Label F C W B)) (s : State F C W B) : Prop where
  clusterProxy : ∀ p, ∀ m ∈ s.clusterProxy p, Submitted tr p m
  mailbox : ∀ w, ∀ t ∈ s.mailbox w, Submitted tr t.origin t.message
  busy : ∀ w t, s.busy w = some t → .begin w t ∈ tr
  statusMail : ∀ f w, ∀ e ∈ s.statusMail f w, PublishedBy tr w e
  resultMail : ∀ f w, ∀ e ∈ s.resultMail f w, PublishedBy tr w e

theorem Flight.init : Flight [] (State.init : State F C W B) where
  clusterProxy _ _ h := by cases h
  mailbox _ _ h := by cases h
  busy _ _ h := by cases h
  statusMail _ _ _ h := by cases h
  resultMail _ _ _ h := by cases h

theorem Flight.concat (h : Flight tr s) (l : Label F C W B) : Flight (tr ++ [l]) s where
  clusterProxy p m hm := (h.clusterProxy p m hm).append _
  mailbox w t ht := (h.mailbox w t ht).append _
  busy w t ht := List.mem_append_left _ (h.busy w t ht)
  statusMail f w e he := (h.statusMail f w e he).append _
  resultMail f w e he := (h.resultMail f w e he).append _

/-- A worker that becomes idle adds nothing. -/
theorem Flight.idle [DecidableEq W] (h : Flight tr s) (w : W) :
    Flight tr { s with busy := Function.update s.busy w none } := by
  refine { h with busy := fun w' t ht => ?_ }
  simp only [Function.update_apply] at ht
  split at ht
  · cases ht
  · exact h.busy w' t ht

/-- A family of mailboxes of which one has lost a message holds nothing new. -/
theorem mem_update_mail {mail : F → Channels W (Published F C)} {f f' : F} {w : W}
    {q : Channels W (Published F C)} {e : Published F C} (hq : (q w).Sublist (mail f w))
    (he : e ∈ Function.update mail f q f' w) : e ∈ mail f' w := by
  rw [Function.update_apply] at he
  split at he
  · rename_i hf
    rw [hf]
    exact hq.subset he
  · exact he

end

variable [DecidableEq F] [DecidableEq C] [DecidableEq W]
variable {A : Assumption (State F C W B) (Label F C W B)}
variable {tr : List (Label F C W B)} {s s' : State F C W B} {l : Label F C W B}

/-! ## The storages -/

/-- A task storage changes by the message that the step brings to it. -/
theorem Step.taskStorage (h : Step s l s') (f : F) :
    s'.taskStorage f = (l.taskMessage? f).elim (s.taskStorage f)
      fun m => ((TaskStorage.actor B).process (s.taskStorage f) m).1 := by
  have hdeliver (s : State F C W B) (f' : F) (m : TaskStorage.Message B) :
      (s.deliver f' m).taskStorage f = (if f' = f then some m else none).elim (s.taskStorage f)
        fun m => ((TaskStorage.actor B).process (s.taskStorage f) m).1 := by
    by_cases hf : f' = f
    · subst hf
      simp [State.deliver]
    · simp [State.deliver, hf, Function.update_of_ne (Ne.symm hf)]
  cases h with
  | request f' r => exact hdeliver s f' _
  | statusEvent hf => exact hdeliver _ _ _
  | lose x => cases x <;> rfl
  | _ => rfl

/-- A result storage changes by the message that the step brings to it. -/
theorem Step.resultStorage (h : Step s l s') (f : F) :
    s'.resultStorage f = (l.resultMessage? f).elim (s.resultStorage f)
      fun m => (ResultStorage.actor.process (s.resultStorage f) m).1 := by
  have hstore (s : State F C W B) (f' : F) (m : ResultStorage.Message) :
      (s.store f' m).resultStorage f = (if f' = f then some m else none).elim (s.resultStorage f)
        fun m => (ResultStorage.actor.process (s.resultStorage f) m).1 := by
    by_cases hf : f' = f
    · subst hf
      simp [State.store]
    · simp [State.store, hf, Function.update_of_ne (Ne.symm hf)]
  cases h with
  | getResult f' m => exact hstore s f' _
  | resultEvent hf => exact hstore _ _ _
  | lose x => cases x <;> rfl
  | _ => rfl

/-- A task storage of the cluster is what the messages it has taken make of a fresh one. -/
theorem Run.taskStorage_eq (h : (system F C W B).Run A tr s) (f : F) :
    s.taskStorage f = TaskStorage.after (taskMessages f tr) := by
  refine h.induct (I := fun tr s => s.taskStorage f = TaskStorage.after (taskMessages f tr)) rfl ?_
  intro tr s l s' _ ih hs _
  rw [hs.taskStorage f, taskMessages_concat, ih]
  cases l.taskMessage? f with
  | none => simp
  | some m => simp [TaskStorage.after]

/-- A result storage of the cluster is what the messages it has taken make of a fresh one. -/
theorem Run.resultStorage_eq (h : (system F C W B).Run A tr s) (f : F) :
    s.resultStorage f = ResultStorage.after (resultMessages f tr) := by
  refine h.induct
    (I := fun tr s => s.resultStorage f = ResultStorage.after (resultMessages f tr)) rfl ?_
  intro tr s l s' _ ih hs _
  rw [hs.resultStorage f, resultMessages_concat, ih]
  cases l.resultMessage? f with
  | none => simp
  | some m => simp [ResultStorage.after]

/-! ## One step and a run -/

omit [DecidableEq W] in
/-- What a task storage sends to its proxy was submitted there. -/
theorem Flight.deliver (h : Flight tr s) {f : F} {m : TaskStorage.Message B}
    (hst : s.taskStorage f = TaskStorage.after (taskMessages f tr))
    (hm : l.taskMessage? f = some m) : Flight (tr ++ [l]) (s.deliver f m) := by
  refine { h.concat l with clusterProxy := fun p a ha => ?_ }
  rcases Channels.mem_send.1 ha with hold | ⟨rfl, hnew⟩
  · exact (h.clusterProxy p a hold).append _
  · rw [Submitted, taskMessages_concat, hm, Option.toList_some, TaskStorage.answered_concat]
    rw [hst, (TaskStorage.process_assigned _ m).2] at hnew
    exact List.mem_append_right _ hnew

omit [DecidableEq C] in
theorem Flight.publish (h : Flight tr s) {w : W} {e : Published F C} (he : PublishedBy tr w e) :
    Flight tr (s.publish w e) := by
  have hsend {mail : Channels W (Published F C)} (hmail : ∀ w', ∀ e' ∈ mail w', PublishedBy tr w' e')
      (w' : W) (e' : Published F C) (he' : e' ∈ mail.send w [e] w') : PublishedBy tr w' e' := by
    rcases Channels.mem_send.1 he' with hold | ⟨rfl, hnew⟩
    · exact hmail w' e' hold
    · rwa [List.mem_singleton.1 hnew]
  exact { h with
    statusMail := fun f => hsend (h.statusMail f)
    resultMail := fun f => hsend (h.resultMail f) }

theorem Flight.lose (h : Flight tr s) (x : Loss F C W) : Flight tr (s.lose x) := by
  cases x with
  | assigned p n =>
    exact { h with clusterProxy := fun p' m hm => h.clusterProxy p' m (Channels.mem_of_mem_lose hm) }
  | routed w n =>
    exact { h with mailbox := fun w' t ht => h.mailbox w' t (Channels.mem_of_mem_lose ht) }
  | crash w => exact h.idle w
  | status f w n =>
    refine { h with statusMail := fun f' w' e he => h.statusMail f' w' e ?_ }
    exact mem_update_mail (Channels.lose_sublist _ _ _ _) he
  | result f w n =>
    refine { h with resultMail := fun f' w' e he => h.resultMail f' w' e ?_ }
    exact mem_update_mail (Channels.lose_sublist _ _ _ _) he

theorem Flight.step (h : Flight tr s) (hs : Step s l s')
    (hst : ∀ f, s.taskStorage f = TaskStorage.after (taskMessages f tr)) :
    Flight (tr ++ [l]) s' := by
  have hl := h.concat l
  cases hs with
  | request f r => exact h.deliver (hst f) (by simp [Label.taskMessage?])
  | getResult f m => exact { hl with }
  | client c =>
    refine { hl with clusterProxy := fun p m hm => ?_ }
    rcases Channels.mem_send.1 hm with hold | ⟨rfl, hnew⟩
    · exact hl.clusterProxy p m hold
    · exact ⟨by simp, List.mem_singleton.1 hnew⟩
  | @forward p m ms w hp =>
    refine { hl with
      clusterProxy := fun p' m' hm => hl.clusterProxy p' m' (Channels.mem_of_mem_next hm)
      mailbox := fun w' t ht => ?_ }
    rcases Channels.mem_send.1 ht with hold | ⟨rfl, hnew⟩
    · exact hl.mailbox w' t hold
    · rw [List.mem_singleton.1 hnew]
      exact hl.clusterProxy p m (by rw [hp]; exact List.mem_cons_self)
  | @begin w t ts hidle hw =>
    have htaken : Flight (tr ++ [.begin w t])
        { s with mailbox := s.mailbox.next w, busy := Function.update s.busy w (some t) } := by
      refine { hl with
        mailbox := fun w' t' ht => hl.mailbox w' t' (Channels.mem_of_mem_next ht)
        busy := fun w' t' ht => ?_ }
      simp only [Function.update_apply] at ht
      split at ht
      · rename_i hw'
        cases ht
        rw [hw']
        simp
      · exact hl.busy w' t' ht
    exact htaken.publish ⟨t, .inl ⟨by simp, rfl⟩⟩
  | complete hnp hw hm => exact (hl.idle _).publish ⟨_, .inr ⟨_, by simp, rfl⟩⟩
  | fail hnp hw hm hfault => exact hl.idle _
  | @statusEvent f w e es hf =>
    have htaken : Flight tr
        { s with statusMail := Function.update s.statusMail f ((s.statusMail f).next w) } := by
      refine { h with statusMail := fun f' w' e' he => h.statusMail f' w' e' ?_ }
      exact mem_update_mail (Channels.next_sublist _ _ _) he
    exact htaken.deliver (hst f) (by simp [Label.taskMessage?])
  | @resultEvent f w e es hf =>
    refine { hl with resultMail := fun f' w' e' he => hl.resultMail f' w' e' ?_ }
    exact mem_update_mail (Channels.next_sublist _ _ _) he
  | lose x => exact hl.lose x

/-- Nothing in flight is invented, in any run. -/
theorem Run.flight (h : (system F C W B).Run A tr s) : Flight tr s := by
  refine h.induct Flight.init ?_
  intro tr s l s' hrun ih hs _
  exact ih.step hs (Run.taskStorage_eq hrun)

/-! ## The steps of a calculation -/

/-- A worker that begins and completes a task publishes what `Worker.calculate` does. -/
theorem Step.complete_calculate {w : W} {t : Task F C} {m : CalculationFinished}
    (h : Step s (.complete w t m) s') : ∃ np fuel,
      Worker.calculate np fuel t.message = ([t.started.message, (t.finished m).message], none) := by
  cases h with
  | @complete w t m np fuel hnp hw hm =>
    refine ⟨np, fuel, ?_⟩
    rw [Worker.calculate, hm]
    rfl

/-- A worker that begins a task and fails publishes what `Worker.calculate` does before it
throws. -/
theorem Step.fail_calculate {w : W} {t : Task F C} (h : Step s (.fail w t) s') :
    ∃ np fuel fault, fault ≠ .outOfFuel ∧
      Worker.calculate np fuel t.message = ([t.started.message], some fault) := by
  cases h with
  | @fail w t fault np fuel hnp hw hm hfault =>
    refine ⟨np, fuel, fault, hfault, ?_⟩
    rw [Worker.calculate, hm]
    rfl

/-! ## What has happened -/

/-- A task that a worker has begun was submitted. -/
theorem Run.begun (h : (system F C W B).Run A tr s) {w : W} {t : Task F C}
    (ht : .begin w t ∈ tr) : Submitted tr t.origin t.message := by
  obtain ⟨pre, post, rfl⟩ := List.append_of_mem ht
  obtain ⟨s₁, s₂, hrun, hs, -⟩ := h.split rfl
  cases hs with
  | begin hidle hw => exact ((Run.flight hrun).mailbox w t (by rw [hw]; simp)).append _

/-- A worker is busy with an accepted number. -/
theorem Run.busy_matches (h : (system F C W B).Run A tr s) {w : W} {t : Task F C}
    (hw : s.busy w = some t) : NUMBER_PATTERN t.message.number :=
  (Run.begun h ((Run.flight h).busy w t hw)).number_matches

/-- No worker fails. -/
theorem Run.not_fail (h : (system F C W B).Run A tr s) {w : W} {t : Task F C} :
    ¬ Step s (.fail w t) s' := by
  intro hs
  cases hs with
  | fail hnp hw hm hfault => exact hfault (Worker.checkIsPrime_fault (Run.busy_matches h hw) hm)

/-- A busy worker can complete its task. -/
theorem Run.can_complete (h : (system F C W B).Run A tr s) {w : W} {t : Task F C}
    (hw : s.busy w = some t) : ∃ m s', Step s (.complete w t m) s' := by
  obtain ⟨m, hm⟩ :=
    Worker.checkIsPrime_total .exact t.message (Run.busy_matches h hw) (Nat.lt_succ_self _)
  exact ⟨m, _, .complete NextProbablePrime.exact_skipsNoPrime hw hm⟩

/-- A task that a worker has completed was begun, and the worker found the verdict. -/
theorem Run.completed (h : (system F C W B).Run A tr s) {w : W} {t : Task F C}
    {m : CalculationFinished} (ht : .complete w t m ∈ tr) :
    .begin w t ∈ tr ∧ m = Worker.verdict t.message := by
  obtain ⟨pre, post, rfl⟩ := List.append_of_mem ht
  obtain ⟨s₁, s₂, hrun, hs, -⟩ := h.split rfl
  cases hs with
  | complete hnp hw hm =>
    exact ⟨List.mem_append_left _ ((Run.flight hrun).busy w t hw),
      Worker.checkIsPrime_sound hnp (Run.busy_matches hrun hw) hm⟩

/-- **Where an event comes from.** An event was published for a submitted task, by the worker that
has begun it, and its end by the worker that has completed it with the verdict on it. -/
theorem Run.published (h : (system F C W B).Run A tr s) {w : W} {e : Published F C}
    (he : PublishedBy tr w e) : ∃ t, .begin w t ∈ tr ∧ Submitted tr t.origin t.message ∧
      (e = t.started ∨ .complete w t (Worker.verdict t.message) ∈ tr ∧
        e = t.finished (Worker.verdict t.message)) := by
  obtain ⟨t, ⟨ht, rfl⟩ | ⟨m, ht, rfl⟩⟩ := he
  · exact ⟨t, ht, Run.begun h ht, .inl rfl⟩
  · obtain ⟨hbegin, rfl⟩ := Run.completed h ht
    exact ⟨t, hbegin, Run.begun h hbegin, .inr ⟨ht, rfl⟩⟩

/-- An event is about a task that was submitted at its origin. -/
theorem Run.published_submitted (h : (system F C W B).Run A tr s) {w : W} {e : Published F C}
    (he : PublishedBy tr w e) : ∃ number, Submitted tr e.origin ⟨e.message.taskId, number⟩ := by
  obtain ⟨t, -, hsub, rfl | ⟨-, rfl⟩⟩ := Run.published h he
  · exact ⟨t.message.number, hsub⟩
  · exact ⟨t.message.number, hsub⟩

/-- An event that a task storage takes was published. -/
theorem Run.taken (h : (system F C W B).Run A tr s) {f : F} {w : W} {e : Published F C}
    (hs : Step s (.statusEvent f w e) s') : PublishedBy tr w e := by
  cases hs with
  | statusEvent hf => exact (Run.flight h).statusMail f w e (by rw [hf]; exact List.mem_cons_self)

/-- An event that a task storage has taken was published. -/
theorem Run.statusEvent (h : (system F C W B).Run A tr s) {f : F} {w : W} {e : Published F C}
    (he : .statusEvent f w e ∈ tr) : PublishedBy tr w e := by
  obtain ⟨pre, post, rfl⟩ := List.append_of_mem he
  obtain ⟨s₁, s₂, hrun, hs, -⟩ := h.split rfl
  exact (Run.taken hrun hs).append _

/-- An event that a result storage has taken was published. -/
theorem Run.resultEvent (h : (system F C W B).Run A tr s) {f : F} {w : W} {e : Published F C}
    (he : .resultEvent f w e ∈ tr) : PublishedBy tr w e := by
  obtain ⟨pre, post, rfl⟩ := List.append_of_mem he
  obtain ⟨s₁, s₂, hrun, hs, -⟩ := h.split rfl
  cases hs with
  | resultEvent hf => exact ((Run.flight hrun).resultMail f w e (by rw [hf]; simp)).append _

end

end PrimeTester.Cluster
