import PrimeTester.Cluster.Conservation
import PrimeTester.Cluster.Frontends
import PrimeTester.Cluster.Results
import PrimeTester.Responses

/-!
# What all frontends end up with

Any number of frontends and `ClusterClient`s share the workers, ids collide, and storages may
restart. Nevertheless, without loss, a cluster that has come to rest has settled:

* no task is left `QUEUED` or `STARTED` anywhere (`statuses_settle`). Behind every such status the
  end of a task with the same id is still to come (`Settling`): a task goes to the proxy when it is
  `QUEUED`, and a worker publishes the end of a task after its start;
* all frontends serve the same results, those of exactly the numbers that were submitted anywhere
  (`results_agree`);
* a frontend answers for its own tasks with a redirect, and it never answers at all for an id that
  only others have assigned (`status_at_rest`).
-/

namespace PrimeTester.Cluster

/-! ## The end is still to come -/

section
variable {F C W B : Type}

/-- The end of a task with this id is in the mailbox, or the worker is busy with such a task. -/
def Ends (mail : List (Published F C)) (busy : Option (Task F C)) (i : Long) : Prop :=
  (∃ e ∈ mail, e.message.taskId = i ∧ e.message.status = .FINISHED) ∨
    ∃ t, busy = some t ∧ t.message.taskId = i

/-- After every start in the mailbox the end of a task with the same id is to come. -/
def Followed : List (Published F C) → Option (Task F C) → Prop
  | [], _ => True
  | e :: mail, busy =>
    (e.message.status = .STARTED → Ends mail busy e.message.taskId) ∧ Followed mail busy

theorem Ends.begin {mail : List (Published F C)} {i : Long} (h : Ends mail none i)
    (t : Task F C) : Ends (mail ++ [t.started]) (some t) i := by
  rcases h with ⟨e, he, hi⟩ | ⟨t, ht, -⟩
  · exact .inl ⟨e, List.mem_append_left _ he, hi⟩
  · cases ht

theorem Ends.complete {mail : List (Published F C)} {i : Long} {t : Task F C}
    {m : CalculationFinished} (h : Ends mail (some t) i) (hm : m.taskId = t.message.taskId) :
    Ends (mail ++ [t.finished m]) none i := by
  rcases h with ⟨e, he, hi⟩ | ⟨t', ht, hi⟩
  · exact .inl ⟨e, List.mem_append_left _ he, hi⟩
  · cases ht
    exact .inl ⟨t.finished m, by simp, hm.trans hi, rfl⟩

/-- A worker that was idle begins a task. -/
theorem Followed.begin {mail : List (Published F C)} (h : Followed mail none) (t : Task F C) :
    Followed (mail ++ [t.started]) (some t) := by
  induction mail with
  | nil => exact ⟨fun _ => .inr ⟨t, rfl, rfl⟩, trivial⟩
  | cons e mail ih => exact ⟨fun he => (h.1 he).begin t, ih h.2⟩

/-- A worker completes its task. -/
theorem Followed.complete {mail : List (Published F C)} {t : Task F C} {m : CalculationFinished}
    (h : Followed mail (some t)) (hm : m.taskId = t.message.taskId) :
    Followed (mail ++ [t.finished m]) none := by
  induction mail with
  | nil =>
    refine ⟨fun he => ?_, trivial⟩
    cases he
  | cons e mail ih => exact ⟨fun he => (h.1 he).complete hm, ih h.2⟩

/-- A task with this id is on its way, or `f` will take the end of one. -/
def Pending (s : State F C W B) (f : F) (i : Long) : Prop :=
  (∃ p, ∃ m ∈ s.clusterProxy p, m.taskId = i) ∨ (∃ w, ∃ t ∈ s.mailbox w, t.message.taskId = i) ∨
    ∃ w, Ends (s.statusMail f w) (s.busy w) i

/-- At rest nothing is pending. -/
theorem Rest.not_pending {s : State F C W B} {f : F} {i : Long} (hrest : Rest s) :
    ¬ Pending s f i := by
  rintro (⟨p, m, hm, -⟩ | ⟨w, t, ht, -⟩ | ⟨w, ⟨e, he, -⟩ | ⟨t, ht, -⟩⟩)
  · rw [hrest.clusterProxy] at hm
    cases hm
  · rw [hrest.mailbox] at ht
    cases ht
  · rw [hrest.statusMail] at he
    cases he
  · rw [hrest.busy] at ht
    cases ht

/-- No status but `FINISHED` is the last one of its id. -/
structure Settling (s : State F C W B) : Prop where
  followed : ∀ f w, Followed (s.statusMail f w) (s.busy w)
  pending : ∀ f i status, (s.taskStorage f).statuses.get i = some status → status ≠ .FINISHED →
    Pending s f i

variable [DecidableEq F] [DecidableEq C] [DecidableEq W]
variable {A : Assumption (State F C W B) (Label F C W B)}
variable {tr : List (Label F C W B)} {s s' : State F C W B} {l : Label F C W B} {f : F} {i : Long}

omit [DecidableEq C] [DecidableEq W] in
/-- Only a POST brings a number. -/
theorem Label.createTask_of_newNumber {m : NewNumberCalculationMessage}
    (hl : l.taskMessage? f = some (.newNumber m)) :
    ∃ r : CreateTaskResource, l = .request f (.createTask r) := by
  cases l with
  | request f' r =>
    obtain ⟨rfl, hr⟩ := Option.ite_none_right_eq_some.1 hl
    cases r with
    | createTask r => exact ⟨r, rfl⟩
    | getStatus i => cases hr
    | suspend i b => cases hr
  | statusEvent f' w e =>
    obtain ⟨-, he⟩ := Option.ite_none_right_eq_some.1 hl
    obtain ⟨p, _ | _⟩ := e <;> cases he
  | _ => cases hl

/-- A worker completes a task under its own id. -/
theorem Run.completed_taskId (h : (system F C W B).Run A tr s) {w : W} {t : Task F C}
    {m : CalculationFinished} {np : NextProbablePrime} {fuel : ℕ} (hw : s.busy w = some t)
    (hm : Worker.checkIsPrime np fuel t.message = .ok m) : m.taskId = t.message.taskId :=
  (Worker.checkIsPrime_about (Run.busy_matches h hw) hm).1

theorem Settling.followed_step (h : Settling s) (hrun : (system F C W B).Run A tr s)
    (hs : Step s l s') (hloss : NoLoss tr s l) (f : F) (w : W) :
    Followed (s'.statusMail f w) (s'.busy w) := by
  have hold := h.followed f w
  cases hs with
  | @begin w' t ts hidle hw =>
    by_cases hww : w = w'
    · subst hww
      rw [hidle] at hold
      simp only [State.publish, Channels.send_self, Function.update_self]
      exact hold.begin t
    · simp only [State.publish, Channels.send_ne _ _ hww, Function.update_of_ne hww]
      exact hold
  | @complete w' t m np fuel hnp hw hm =>
    by_cases hww : w = w'
    · subst hww
      rw [hw] at hold
      simp only [State.publish, Channels.send_self, Function.update_self]
      exact hold.complete (Run.completed_taskId hrun hw hm)
    · simp only [State.publish, Channels.send_ne _ _ hww, Function.update_of_ne hww]
      exact hold
  | fail hnp hw hm hfault => exact absurd (.fail hnp hw hm hfault) (Run.not_fail hrun)
  | @statusEvent f' w' e es hf =>
    show Followed (Function.update s.statusMail f' ((s.statusMail f').next w') f w) (s.busy w)
    by_cases hff : f = f'
    · subst hff
      rw [Function.update_self]
      by_cases hww : w = w'
      · subst hww
        rw [hf] at hold
        rw [Channels.next_self, hf]
        exact hold.2
      · rwa [Channels.next_ne _ hww]
    · rwa [Function.update_of_ne hff]
  | lose x => exact absurd rfl (hloss x)
  | _ => exact hold

/-- What is pending stays so until the end of a task with the id is taken. -/
theorem Pending.step (h : Pending s f i) (hrun : (system F C W B).Run A tr s) (hs : Step s l s')
    (hloss : NoLoss tr s l) : Pending s' f i ∨
      ∃ w e, l = .statusEvent f w e ∧ e.message.taskId = i ∧ e.message.status = .FINISHED := by
  cases hs with
  | request f' r =>
    refine .inl (h.imp_left ?_)
    rintro ⟨p, m, hm, hi⟩
    exact ⟨p, m, Channels.mem_send.2 (.inl hm), hi⟩
  | getResult f' m => exact .inl h
  | client c =>
    refine .inl (h.imp_left ?_)
    rintro ⟨p, m, hm, hi⟩
    exact ⟨p, m, Channels.mem_send.2 (.inl hm), hi⟩
  | @forward p m ms w hp =>
    rcases h with ⟨p', m', hm, hi⟩ | ⟨w', t, ht, hi⟩ | hends
    · rcases Channels.mem_next_or hp hm with hrest | ⟨rfl, rfl⟩
      · exact .inl (.inl ⟨p', m', hrest, hi⟩)
      · exact .inl (.inr (.inl ⟨w, ⟨p', m'⟩, Channels.mem_send.2 (.inr ⟨rfl, by simp⟩), hi⟩))
    · exact .inl (.inr (.inl ⟨w', t, Channels.mem_send.2 (.inl ht), hi⟩))
    · exact .inl (.inr (.inr hends))
  | @begin w t ts hidle hw =>
    rcases h with hproxy | ⟨w', t', ht, hi⟩ | ⟨w', hends⟩
    · exact .inl (.inl hproxy)
    · rcases Channels.mem_next_or hw ht with hrest | ⟨rfl, rfl⟩
      · exact .inl (.inr (.inl ⟨w', t', hrest, hi⟩))
      · exact .inl (.inr (.inr ⟨w', .inr ⟨t', Function.update_self .., hi⟩⟩))
    · refine .inl (.inr (.inr ⟨w', ?_⟩))
      by_cases hww : w' = w
      · subst hww
        rw [hidle] at hends
        simp only [State.publish, Channels.send_self, Function.update_self]
        exact hends.begin t
      · simp only [State.publish, Channels.send_ne _ _ hww, Function.update_of_ne hww]
        exact hends
  | @complete w t m np fuel hnp hw hm =>
    rcases h with hproxy | hmail | ⟨w', hends⟩
    · exact .inl (.inl hproxy)
    · exact .inl (.inr (.inl hmail))
    · refine .inl (.inr (.inr ⟨w', ?_⟩))
      by_cases hww : w' = w
      · subst hww
        rw [hw] at hends
        simp only [State.publish, Channels.send_self, Function.update_self]
        exact hends.complete (Run.completed_taskId hrun hw hm)
      · simp only [State.publish, Channels.send_ne _ _ hww, Function.update_of_ne hww]
        exact hends
  | fail hnp hw hm hfault => exact absurd (.fail hnp hw hm hfault) (Run.not_fail hrun)
  | @statusEvent f' w e es hf =>
    rcases h with ⟨p, m, hm, hi⟩ | hmail | ⟨w', ⟨e', he, hi⟩ | hbusy⟩
    · exact .inl (.inl ⟨p, m, Channels.mem_send.2 (.inl hm), hi⟩)
    · exact .inl (.inr (.inl hmail))
    · by_cases hff : f = f'
      · subst hff
        rcases Channels.mem_next_or hf he with hrest | ⟨rfl, rfl⟩
        · refine .inl (.inr (.inr ⟨w', .inl ⟨e', ?_, hi⟩⟩))
          show e' ∈ Function.update s.statusMail f ((s.statusMail f).next w) f w'
          rwa [Function.update_self]
        · exact .inr ⟨w', e', rfl, hi⟩
      · refine .inl (.inr (.inr ⟨w', .inl ⟨e', ?_, hi⟩⟩))
        show e' ∈ Function.update s.statusMail f' ((s.statusMail f').next w) f w'
        rwa [Function.update_of_ne hff]
    · exact .inl (.inr (.inr ⟨w', .inr hbusy⟩))
  | resultEvent hf => exact .inl h
  | lose x => exact absurd rfl (hloss x)

/-- The step that makes a status `QUEUED` is a POST. -/
theorem Step.newly_queued (hs : Step s l s')
    (hnew : (s'.taskStorage f).statuses.get i = some .QUEUED)
    (hold : (s.taskStorage f).statuses.get i ≠ some .QUEUED) :
    ∃ r, l = .request f (.createTask r) ∧ i = (s.taskStorage f).id + 1 := by
  rw [hs.taskStorage f] at hnew
  cases hl : l.taskMessage? f with
  | none =>
    rw [hl] at hnew
    exact absurd hnew hold
  | some m =>
    rw [hl, Option.elim_some] at hnew
    cases m using TaskStorage.Message.casesEvent with
    | newNumber m =>
      replace hnew : ((s.taskStorage f).statuses.put ((s.taskStorage f).id + 1) .QUEUED).get i =
        some .QUEUED := hnew
      rw [HashMap.get_put] at hnew
      split at hnew
      · rename_i hi
        obtain ⟨r, rfl⟩ := Label.createTask_of_newNumber hl
        exact ⟨r, rfl, hi⟩
      · exact absurd hnew hold
    | register r =>
      cases hr : (s.taskStorage f).statuses.get r.taskId with
      | none =>
        rw [TaskStorage.process_register_none hr] at hnew
        cases hnew
      | some old =>
        rw [TaskStorage.process_register_some hr] at hnew
        exact absurd hnew hold
    | event e =>
      rw [TaskStorage.process_event] at hnew
      replace hnew : ((s.taskStorage f).statuses.put e.taskId e.status).get i = some .QUEUED := hnew
      rw [HashMap.get_put] at hnew
      split at hnew
      · cases e <;> cases hnew
      · exact absurd hnew hold
    | getStatus m => exact absurd hnew hold

/-- An event that a task storage takes is recorded. -/
theorem Step.recorded {w : W} {e : Published F C} (hs : Step s (.statusEvent f w e) s') :
    (s'.taskStorage f).statuses.get e.message.taskId = some e.message.status := by
  rw [hs.taskStorage f, Label.taskMessage?, if_pos rfl, Option.elim_some,
    TaskStorage.process_event]
  exact HashMap.get_put_self _ _ _

theorem Settling.step (h : Settling s) (hrun : (system F C W B).Run A tr s) (hs : Step s l s')
    (hloss : NoLoss tr s l) : Settling s' := by
  refine ⟨h.followed_step hrun hs hloss, fun f i status hstatus hne => ?_⟩
  by_cases hold : (s.taskStorage f).statuses.get i = some status
  · rcases (h.pending f i status hold hne).step hrun hs hloss with hp | ⟨w, e, rfl, rfl, hend⟩
    · exact hp
    · rw [hs.recorded, hend] at hstatus
      exact absurd (Option.some_inj.1 hstatus).symm hne
  · by_cases hq : status = .QUEUED
    · subst hq
      obtain ⟨r, rfl, rfl⟩ := hs.newly_queued hstatus hold
      cases hs with
      | request f r =>
        refine .inl ⟨.inl f, ⟨(s.taskStorage f).id + 1, r.number⟩, Channels.mem_send.2 ?_, rfl⟩
        exact .inr ⟨rfl, List.mem_singleton_self _⟩
    · obtain ⟨w, e, rfl, rfl, hstarted⟩ := hs.advanced hstatus hq hold
      have hfollowed := h.followed f w
      cases hs with
      | @statusEvent f w e es hf =>
        rw [hf] at hfollowed
        have he : e.message.status = .STARTED := by
          rw [hstarted]
          cases status with
          | QUEUED => exact absurd rfl hq
          | STARTED => rfl
          | FINISHED => exact absurd rfl hne
        refine .inr (.inr ⟨w, ?_⟩)
        show Ends (Function.update s.statusMail f ((s.statusMail f).next w) f w) (s.busy w) _
        rw [Function.update_self, Channels.next_self, hf]
        exact hfollowed.1 he

theorem Run.settling (h : (system F C W B).Run NoLoss tr s) : Settling s := by
  refine h.induct (I := fun _ s => Settling s) ?_ ?_
  · refine ⟨fun f w => ?_, fun f i status hc => ?_⟩
    · exact trivial
    · cases hc
  · intro tr s l s' hrun ih hs hloss
    exact ih.step hrun hs hloss

/-- Every status is `FINISHED` at rest. -/
theorem statuses_at_rest (h : (system F C W B).Run NoLoss tr s) (hrest : Rest s) (f : F) (i : Long)
    (status : Status) (hi : (s.taskStorage f).statuses.get i = some status) :
    status = .FINISHED := by
  by_contra hne
  exact hrest.not_pending ((Run.settling h).pending f i status hi hne)

/-- **Every status settles.** In any cluster, with any number of frontends and with clients that
register for whatever they like, as long as nothing is lost, the end of a task is still to come
for every id that is `QUEUED` or `STARTED` somewhere; so at rest every status is `FINISHED`. -/
theorem statuses_settle (h : (system F C W B).Run NoLoss tr s) :
    (∀ f i status, (s.taskStorage f).statuses.get i = some status → status ≠ .FINISHED →
      Pending s f i) ∧
    (Rest s → ∀ f i status, (s.taskStorage f).statuses.get i = some status →
      status = .FINISHED) :=
  ⟨(Run.settling h).pending, statuses_at_rest h⟩

end

/-- The status of the only task of a run. -/
theorem statuses_settle_two : ∃ (tr : List (Label Unit Empty Unit Unit))
    (s : State Unit Empty Unit Unit) (status : Status), (system Unit Empty Unit Unit).Run NoLoss tr s ∧
      Rest s ∧ (s.taskStorage ()).statuses.get 1 = some status ∧ status = .FINISHED := by
  obtain ⟨s, hrun, hrest, hst⟩ := rest_oneTaskFinished (A := NoLoss) ⟨"2", by decide⟩
    fun tr s l hl => (oneTaskFinished_plain hl).2
  exact ⟨_, s, _, hrun, hrest, hst, (statuses_settle hrun).2 hrest () 1 _ hst⟩

/-! ## All results are everywhere -/

section
variable {F C W B : Type} [DecidableEq F] [DecidableEq C]
variable {tr : List (Label F C W B)} {p : F ⊕ C} {m : TaskIdAssignedMessage}

/-- What was submitted is counted. -/
theorem submitted_iff : Submitted tr p m ↔ submissions tr ⟨p, m⟩ ≠ 0 := by
  rw [← Nat.pos_iff_ne_zero]
  cases p with
  | inl f => exact List.count_pos_iff.symm
  | inr c =>
    have hsends (l : Label F C W B) : l.sends c ↔ l = .client c := by
      cases l <;> simp [Label.sends]
    by_cases hm : m = ClusterClient.task
    · simp [Submitted, submissions, hm, List.countP_pos_iff, hsends]
    · simp [Submitted, submissions, hm]

end

section
variable {F C W B : Type} [DecidableEq F] [DecidableEq C] [DecidableEq W]
variable {tr : List (Label F C W B)} {p : F ⊕ C} {m : TaskIdAssignedMessage}
variable [Fintype F] [Fintype C] [Fintype W] {s : State F C W B}

omit [Fintype F] [Fintype C] [Fintype W] in
/-- The step in which the task storage takes an event. -/
theorem Label.mem_of_takes {f : F} {w : W} {e : Published F C} {l : Label F C W B} (hl : l ∈ tr)
    (htakes : l.takes .taskStorage f w e) : .statusEvent f w e ∈ tr := by
  cases l with
  | statusEvent f' w' e' =>
    obtain ⟨rfl, rfl, rfl⟩ : f' = f ∧ w' = w ∧ e' = e := by simpa [Label.takes] using htakes
    exact hl
  | resultEvent f' w' e' => simp [Label.takes] at htakes
  | _ => cases htakes

omit [Fintype F] [Fintype C] [Fintype W] in
/-- The step in which the result storage takes an event. -/
theorem Label.mem_of_takes_result {f : F} {w : W} {e : Published F C} {l : Label F C W B}
    (hl : l ∈ tr) (htakes : l.takes .resultStorage f w e) : .resultEvent f w e ∈ tr := by
  cases l with
  | resultEvent f' w' e' =>
    obtain ⟨rfl, rfl, rfl⟩ : f' = f ∧ w' = w ∧ e' = e := by simpa [Label.takes] using htakes
    exact hl
  | statusEvent f' w' e' => simp [Label.takes] at htakes
  | _ => cases htakes

/-- At rest, every submitted task was begun and completed, and every subscriber of every frontend has
taken its end. -/
theorem Run.taken_everywhere (h : (system F C W B).Run NoLoss tr s) (hrest : Rest s)
    (hm : Submitted tr p m) (x : Subscriber) (f : F) : ∃ w,
      tr.countP (Label.takes x f w (Task.finished ⟨p, m⟩ (Worker.verdict m))) ≠ 0 := by
  obtain ⟨hbegins, hcompletes⟩ := Run.conserved h ⟨p, m⟩
  have hqueued : queued s ⟨p, m⟩ = 0 := by simp [queued, hrest.clusterProxy, hrest.mailbox]
  have hcomputing : computing s (⟨p, m⟩ : Task F C) = 0 := by simp [computing, hrest.busy]
  have hdone : 0 < tr.countP (Label.completes ⟨p, m⟩) := by
    have hne := submitted_iff.1 hm
    omega
  obtain ⟨l, hl, hlt⟩ := List.countP_pos_iff.1 hdone
  cases l with
  | complete w t cf =>
    obtain rfl : t = ⟨p, m⟩ := by simpa [Label.completes] using hlt
    obtain ⟨-, rfl⟩ := Run.completed h hl
    refine ⟨w, ?_⟩
    have hmail : s.mail x f w = [] := by
      cases x with
      | taskStorage => exact hrest.statusMail f w
      | resultStorage => exact hrest.resultMail f w
    have hdelivered := Run.delivered h x f w (Task.finished ⟨p, m⟩ (Worker.verdict m))
    have hpublished : 0 < tr.countP
        (Label.publishes w (Task.finished ⟨p, m⟩ (Worker.verdict m))) := by
      refine List.countP_pos_iff.2 ⟨_, hl, ?_⟩
      simp [Label.publishes]
    rw [hmail, List.count_nil] at hdelivered
    omega
  | _ => cases hlt

/-- The results at rest are those of the submitted numbers. -/
theorem Run.results_at_rest (h : (system F C W B).Run NoLoss tr s) (hrest : Rest s) (f : F)
    (k : String) : (s.resultStorage f).results.get k ≠ none ↔
      ∃ p m, Submitted tr p m ∧ m.number = k := by
  constructor
  · intro hk
    obtain ⟨cf, hcf⟩ := Option.ne_none_iff_exists'.1 hk
    obtain ⟨w, t, hnumber, hsub, -⟩ := Run.result h hcf
    exact ⟨_, _, hsub, hnumber⟩
  · rintro ⟨p, m, hsub, rfl⟩
    obtain ⟨w, htaken⟩ := Run.taken_everywhere h hrest hsub .resultStorage f
    obtain ⟨l, hl, htakes⟩ := List.countP_pos_iff.1 (Nat.pos_of_ne_zero htaken)
    rw [Run.resultStorage_eq h f, ResultStorage.get_results_ne_none]
    exact ⟨_, mem_resultMessages.2 ⟨w, _, Label.mem_of_takes_result hl htakes, rfl⟩, rfl⟩

/-- **All frontends serve the same results.** In any cluster, a run without loss that has come to
rest leaves every frontend with the results of exactly the numbers that were submitted anywhere, by a
POST to any frontend or by a `ClusterClient`, and all the frontends answer every request for a
result alike, whatever the order in which they took the events. -/
theorem results_agree (h : (system F C W B).Run NoLoss tr s) (hrest : Rest s) (f : F) :
    (∀ k, (s.resultStorage f).results.get k ≠ none ↔ ∃ p m, Submitted tr p m ∧ m.number = k) ∧
      ∀ g m, (s.resultStorage g).handleGet m = (s.resultStorage f).handleGet m := by
  refine ⟨Run.results_at_rest h hrest f, fun g m => ?_⟩
  obtain ⟨k⟩ := m
  have hboth := (Run.results_at_rest h hrest g k).trans (Run.results_at_rest h hrest f k).symm
  rcases Run.getResult h f k with ⟨hf, hget⟩ | ⟨hf, hget, -⟩ <;>
    rcases Run.getResult h g k with ⟨hg, hget'⟩ | ⟨hg, hget', -⟩
  · rw [hget, hget']
  · exact absurd hf (hboth.1 hg)
  · exact absurd hg (hboth.2 hf)
  · rw [hget, hget']

end

/-- A number that was posted to the frontend `false` has its result at both frontends. -/
theorem results_agree_two : ∃ (tr : List (Label Bool Empty Unit Unit))
    (s : State Bool Empty Unit Unit), (system Bool Empty Unit Unit).Run NoLoss tr s ∧ Rest s ∧
      TaskStorage.posted (taskMessages true tr) = [] ∧
      (s.resultStorage true).results.get "2" ≠ none ∧
      (s.resultStorage true).handleGet ⟨"2"⟩ = (s.resultStorage false).handleGet ⟨"2"⟩ := by
  have h₀ : (system Bool Empty Unit Unit).Run NoLoss [] State.init := .init
  have h₁ := h₀.step (Step.request _ false (.createTask ⟨"2", by decide⟩)) (by
    rintro x ⟨⟩)
  obtain ⟨ls, s, hp, hzero⟩ := internal_works.exists_path ⟨_, h₁.free⟩
  have hrun := h₁.extend hp fun tr s l hl => (internal_plain tr s l hl).2
  have hrest : Rest s := work_eq_zero.1 hzero
  have hsub : Submitted ([] ++ [.request false (.createTask ⟨"2", by decide⟩)] :
      List (Label Bool Empty Unit Unit)) (.inl false) ⟨1, "2"⟩ := List.mem_singleton_self _
  refine ⟨_, s, hrun, hrest, ?_, ?_, (results_agree hrun hrest false).2 true ⟨"2"⟩⟩
  · rw [taskMessages_append, TaskStorage.posted_append, posted_internal true hp.labels]
    rfl
  · exact ((results_agree hrun hrest true).1 "2").2 ⟨_, _, hsub.append ls, rfl⟩

/-! ## The answers about tasks -/

section
variable {F C W B : Type} [DecidableEq F] [DecidableEq C] [DecidableEq W]
variable [Fintype F] [Fintype C] [Fintype W]
variable {tr : List (Label F C W B)} {s : State F C W B}

open TasksEndpoint (GetStatusCallback.onComplete)

/-- **What `GET /api/tasks/{id}` answers in the end.** Where clients register only for acknowledged
ids, a frontend with up to `2 ^ 64` POSTs redirects every id that it has assigned to the result of
its own number, and answers `404` for an id that nobody has assigned. For an id that only others
have assigned its callback throws, so the request is never answered. -/
theorem status_at_rest (h : (system F C W B).Run (Registered ⊓ NoLoss) tr s) (hrest : Rest s)
    (f : F) (hlen : (TaskStorage.posted (taskMessages f tr)).length ≤ 2 ^ 64) (i : Long) :
    (∀ n, ⟨i, n⟩ ∈ TaskStorage.answered (taskMessages f tr) →
      GetStatusCallback.onComplete (.ok ((s.taskStorage f).handleGet ⟨i⟩)) =
        .ok (.seeOther ("/api/results/" ++ n))) ∧
    ((∀ n, ⟨i, n⟩ ∉ TaskStorage.answered (taskMessages f tr)) →
      (∃ p m, Submitted tr p m ∧ m.taskId = i) →
      GetStatusCallback.onComplete (.ok ((s.taskStorage f).handleGet ⟨i⟩)) =
        .error .illegalArgument) ∧
    ((∀ p m, Submitted tr p m → m.taskId ≠ i) →
      GetStatusCallback.onComplete (.ok ((s.taskStorage f).handleGet ⟨i⟩)) = .ok .notFound) := by
  have hreg : (system F C W B).Run Registered tr s := h.mono inf_le_left
  have hloss : (system F C W B).Run NoLoss tr s := h.mono inf_le_right
  have hholds := Run.holds hreg hlen
  have hanswered := Run.answered_eq hreg hlen
  have hst := Run.taskStorage_eq h f
  have hfinished {i : Long} (hne : (s.taskStorage f).statuses.get i ≠ none) :
      GetStatusCallback.onComplete (.ok ((s.taskStorage f).handleGet ⟨i⟩)) =
        (TasksEndpoint.resultLocation ((s.taskStorage f).tasks.get i)).map .seeOther := by
    obtain ⟨status, hstatus⟩ := Option.ne_none_iff_exists'.1 hne
    obtain rfl := statuses_at_rest hloss hrest f i status hstatus
    rw [TasksEndpoint.GetStatusCallback.onComplete_some hstatus, if_pos rfl]
  refine ⟨fun n hn => ?_, fun hnone hsub => ?_, fun hnone => ?_⟩
  · rw [hanswered] at hn
    have htask := (hholds.tasks_eq i n).2 hn
    rw [hfinished (hholds.statuses_ne i (by rw [htask]; exact Option.some_ne_none _)), htask]
    rfl
  · obtain ⟨p, m, hm, rfl⟩ := hsub
    obtain ⟨w, htaken⟩ := Run.taken_everywhere hloss hrest hm .taskStorage f
    obtain ⟨l, hl, htakes⟩ := List.countP_pos_iff.1 (Nat.pos_of_ne_zero htaken)
    have hprogress : TaskStorage.progress m.taskId (taskMessages f tr) ≠ [] := by
      refine List.ne_nil_of_mem (mem_progress.2
        ⟨w, Task.finished ⟨p, m⟩ (Worker.verdict m), Label.mem_of_takes hl htakes, rfl, rfl⟩)
    have hne := (Run.registersAnswered hreg f).status_of_progress hlen hprogress
    rw [← hst] at hne
    have htask : (s.taskStorage f).tasks.get m.taskId = none := by
      by_contra hc
      obtain ⟨n, hn⟩ := Option.ne_none_iff_exists'.1 hc
      rw [hholds.tasks_eq, ← hanswered] at hn
      exact hnone n hn
    rw [hfinished hne, htask]
    rfl
  · have hnostatus : (s.taskStorage f).statuses.get i = none := by
      by_contra hc
      obtain ⟨status, hstatus⟩ := Option.ne_none_iff_exists'.1 hc
      rw [hst] at hstatus
      rcases TaskStorage.status_from hstatus with ⟨-, a, ha, hid⟩ | hp
      · exact hnone (.inl f) a ha hid
      · obtain ⟨w, e, he, hid, -⟩ := mem_progress.1 hp
        obtain ⟨number, hsub⟩ := Run.published_submitted h (Run.statusEvent h he)
        exact hnone _ _ hsub hid
    exact TasksEndpoint.GetStatusCallback.onComplete_none hnostatus

end

/-- The task of a `ClusterClient` at a frontend that has assigned nothing. -/
theorem status_at_rest_client : ∃ (tr : List (Label Unit Unit Unit Unit))
    (s : State Unit Unit Unit Unit), (system Unit Unit Unit Unit).Run (Registered ⊓ NoLoss) tr s ∧
      Rest s ∧ TasksEndpoint.GetStatusCallback.onComplete
        (.ok ((s.taskStorage ()).handleGet ⟨123⟩)) = .error .illegalArgument := by
  have h₀ : (system Unit Unit Unit Unit).Run (Registered ⊓ NoLoss) [] State.init := .init
  have h₁ := h₀.step (Step.client _ ()) (by
    refine ⟨fun f i b h => ?_, fun x h => ?_⟩
    · cases h
    · cases h)
  obtain ⟨ls, s, hp, hzero⟩ := internal_works.exists_path ⟨_, h₁.free⟩
  have hrun := h₁.extend hp internal_plain
  have hrest : Rest s := work_eq_zero.1 hzero
  have hposted : TaskStorage.posted (taskMessages () ([] ++ [.client ()] ++ ls)) = [] := by
    rw [taskMessages_append, TaskStorage.posted_append, posted_internal () hp.labels]
    rfl
  have hnone (a : TaskIdAssignedMessage) :
      a ∉ TaskStorage.answered (taskMessages () ([] ++ [.client ()] ++ ls)) := by
    intro ha
    have hmem := List.mem_map_of_mem (f := TaskIdAssignedMessage.number) ha
    rw [TaskStorage.answered_numbers, hposted] at hmem
    cases hmem
  refine ⟨_, s, hrun, hrest, (status_at_rest hrun hrest () ?_ 123).2.1 (fun n => hnone _) ?_⟩
  · rw [hposted]
    exact Nat.zero_le _
  · exact ⟨.inr (), ClusterClient.task, ⟨by simp, rfl⟩, rfl⟩

end PrimeTester.Cluster
