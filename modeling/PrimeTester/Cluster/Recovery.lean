import PrimeTester.Cluster.Convergence

/-!
# What losses do to a task

Nothing is sent twice in the cluster, so what is lost stays lost. `finishes_iff` says exactly when a
status can still become `FINISHED` at a frontend, in any state that a run with any losses and
crashes has reached: when a task with the id is on its way to a worker, a worker is busy with one, or
its end is on its way to that frontend (`Pending`). Otherwise neither the actors nor any request about
a task that was posted before will change that.
-/

namespace PrimeTester.Cluster

variable {F C W B : Type} [DecidableEq F] [DecidableEq C] [DecidableEq W]
variable {A : Assumption (State F C W B) (Label F C W B)}
variable {tr : List (Label F C W B)} {s s' : State F C W B} {l : Label F C W B} {f : F} {i : Long}

/-! ## Nothing comes back -/

omit [DecidableEq F] [DecidableEq C] [DecidableEq W] in
/-- An end that is to come with less is to come with more. -/
theorem Ends.mono {mail mail' : List (Published F C)} {busy busy' : Option (Task F C)}
    (h : Ends mail' busy' i) (hmail : ∀ e ∈ mail', e ∈ mail) (hbusy : ∀ t, busy' = some t →
      busy = some t) : Ends mail busy i := by
  rcases h with ⟨e, he, hi⟩ | ⟨t, ht, hi⟩
  · exact .inl ⟨e, hmail e he, hi⟩
  · exact .inr ⟨t, hbusy t ht, hi⟩

omit [DecidableEq W] in
/-- A message that brings no number leaves the proxies alone. -/
theorem clusterProxy_deliver (s : State F C W B) (f : F) {m : TaskStorage.Message B}
    (hm : m.number? = none) (p : F ⊕ C) : (s.deliver f m).clusterProxy p = s.clusterProxy p := by
  show s.clusterProxy.send (.inl f) _ p = _
  rw [(TaskStorage.process_assigned _ m).2, hm, Channels.send_apply]
  simp

/-- What is pending after a step that submits nothing was pending before it. -/
theorem Pending.back (hrun : (system F C W B).Run A tr s) (hs : Step s l s')
    (hl : l.submits = false) (h : Pending s' f i) : Pending s f i := by
  cases hs with
  | request f' r =>
    refine h.imp_left ?_
    rintro ⟨p, m, hm, hi⟩
    rw [clusterProxy_deliver s f' ((Label.request f' r).number?_eq_none hl (if_pos rfl))] at hm
    exact ⟨p, m, hm, hi⟩
  | getResult f' m => exact h
  | client c => cases hl
  | @forward p m ms w hp =>
    rcases h with ⟨p', m', hm, hi⟩ | ⟨w', t, ht, hi⟩ | hends
    · exact .inl ⟨p', m', Channels.mem_of_mem_next hm, hi⟩
    · rcases Channels.mem_send.1 ht with hold | ⟨-, hnew⟩
      · exact .inr (.inl ⟨w', t, hold, hi⟩)
      · rw [List.mem_singleton.1 hnew] at hi
        exact .inl ⟨p, m, by rw [hp]; exact List.mem_cons_self, hi⟩
    · exact .inr (.inr hends)
  | @begin w t ts hidle hw =>
    rcases h with hproxy | ⟨w', t', ht, hi⟩ | ⟨w', hends⟩
    · exact .inl hproxy
    · exact .inr (.inl ⟨w', t', Channels.mem_of_mem_next ht, hi⟩)
    · by_cases hww : w' = w
      · subst hww
        simp only [State.publish, Channels.send_self, Function.update_self] at hends
        rcases hends with ⟨e, he, hi, hend⟩ | ⟨t', ht, hi⟩
        · rcases List.mem_append.1 he with hold | hnew
          · exact .inr (.inr ⟨w', .inl ⟨e, hold, hi, hend⟩⟩)
          · rw [List.mem_singleton.1 hnew] at hend
            cases hend
        · cases ht
          exact .inr (.inl ⟨w', t, by rw [hw]; exact List.mem_cons_self, hi⟩)
      · simp only [State.publish, Channels.send_ne _ _ hww, Function.update_of_ne hww] at hends
        exact .inr (.inr ⟨w', hends⟩)
  | @complete w t m np fuel hnp hw hm =>
    rcases h with hproxy | hmail | ⟨w', hends⟩
    · exact .inl hproxy
    · exact .inr (.inl hmail)
    · by_cases hww : w' = w
      · subst hww
        simp only [State.publish, Channels.send_self, Function.update_self] at hends
        rcases hends with ⟨e, he, hi, hend⟩ | ⟨t', ht, hi⟩
        · rcases List.mem_append.1 he with hold | hnew
          · exact .inr (.inr ⟨w', .inl ⟨e, hold, hi, hend⟩⟩)
          · rw [List.mem_singleton.1 hnew] at hi
            exact .inr (.inr ⟨w', .inr ⟨t, hw, (Run.completed_taskId hrun hw hm) ▸ hi⟩⟩)
        · cases ht
      · simp only [State.publish, Channels.send_ne _ _ hww, Function.update_of_ne hww] at hends
        exact .inr (.inr ⟨w', hends⟩)
  | fail hnp hw hm hfault => exact absurd (.fail hnp hw hm hfault) (Run.not_fail hrun)
  | @statusEvent f' w e es hf =>
    rcases h with ⟨p, m, hm, hi⟩ | hmail | ⟨w', hends⟩
    · rw [clusterProxy_deliver _ f' (TaskStorage.number?_ofEvent _)] at hm
      exact .inl ⟨p, m, hm, hi⟩
    · exact .inr (.inl hmail)
    · refine .inr (.inr ⟨w', hends.mono (fun e' he' => ?_) fun t ht => ht⟩)
      replace he' : e' ∈ Function.update s.statusMail f' ((s.statusMail f').next w) f w' := he'
      by_cases hff : f = f'
      · subst hff
        rw [Function.update_self] at he'
        exact Channels.mem_of_mem_next he'
      · rwa [Function.update_of_ne hff] at he'
  | resultEvent hf => exact h
  | lose x =>
    cases x with
    | assigned p n =>
      refine h.imp_left ?_
      rintro ⟨p', m, hm, hi⟩
      exact ⟨p', m, Channels.mem_of_mem_lose hm, hi⟩
    | routed w n =>
      refine h.imp_right (Or.imp_left ?_)
      rintro ⟨w', t, ht, hi⟩
      exact ⟨w', t, Channels.mem_of_mem_lose ht, hi⟩
    | crash w =>
      refine h.imp_right (Or.imp_right ?_)
      rintro ⟨w', hends⟩
      refine ⟨w', hends.mono (fun e he => he) fun t ht => ?_⟩
      replace ht : Function.update s.busy w none w' = some t := ht
      by_cases hww : w' = w
      · subst hww
        rw [Function.update_self] at ht
        cases ht
      · rwa [Function.update_of_ne hww] at ht
    | status f' w n =>
      refine h.imp_right (Or.imp_right ?_)
      rintro ⟨w', hends⟩
      refine ⟨w', hends.mono (fun e he => ?_) fun t ht => ht⟩
      replace he : e ∈ Function.update s.statusMail f' ((s.statusMail f').lose w n) f w' := he
      by_cases hff : f = f'
      · subst hff
        rw [Function.update_self] at he
        exact Channels.mem_of_mem_lose he
      · rwa [Function.update_of_ne hff] at he
    | result f' w n => exact h

/-- The status can become `FINISHED`, or is `FINISHED` already. -/
def CanFinish (s : State F C W B) (f : F) (i : Long) : Prop :=
  (s.taskStorage f).statuses.get i = some .FINISHED ∨ Pending s f i

theorem CanFinish.back (hrun : (system F C W B).Run A tr s) (hs : Step s l s')
    (hl : l.submits = false) (h : CanFinish s' f i) : CanFinish s f i := by
  rcases h with hfinished | hpending
  · by_cases hold : (s.taskStorage f).statuses.get i = some .FINISHED
    · exact .inl hold
    · obtain ⟨w, e, rfl, hi, hend⟩ := hs.advanced hfinished (by decide) hold
      cases hs with
      | statusEvent hf =>
        exact .inr (.inr (.inr ⟨w, .inl ⟨e, by rw [hf]; exact List.mem_cons_self, hi, hend⟩⟩))
  · exact .inr (hpending.back hrun hs hl)

/-! ## What is pending comes -/

variable [Fintype F] [Fintype C] [Fintype W]

omit [Fintype F] [Fintype C] [Fintype W] in
/-- Every step leads from a reachable state to a reachable one. -/
theorem reach_step (s : State F C W B) (l : Label F C W B) (s' : State F C W B)
    (h : ∃ tr, (system F C W B).Run ⊤ tr s) (hs : Step s l s') :
    ∃ tr, (system F C W B).Run ⊤ tr s' := by
  obtain ⟨tr, hrun⟩ := h
  exact ⟨_, hrun.step hs trivial⟩

/-- On the way to rest, what is pending comes. -/
theorem Pending.finishes [Nonempty W] (h : (system F C W B).Run ⊤ tr s) (hp : Pending s f i) :
    ∃ ls s', Internal s ls s' ∧ (s'.taskStorage f).statuses.get i = some .FINISHED := by
  obtain ⟨ls, s', hpath, hzero⟩ := internal_works.exists_path ⟨tr, h⟩
  refine hpath.point (Q := fun s => Pending s f i) reach_step ?_ ⟨tr, h⟩ hp
    (work_eq_zero.1 hzero).not_pending
  rintro s l s' ⟨tr, hrun⟩ hs hl hp
  rcases hp.step hrun hs (internal_plain tr s l hl).2 with hp' | ⟨w, e, rfl, rfl, hend⟩
  · exact .inl hp'
  · exact .inr (hend ▸ hs.recorded)

/-- **When a status can still become `FINISHED`.** In every state that a run of a cluster reaches,
whatever was lost, the actors can bring the status of an id to `FINISHED` at a frontend exactly when
it is there already or pending. If it is neither, it will not be `FINISHED` either after anything else
that submits no new task: requests about tasks, restarts and further losses. -/
theorem finishes_iff [Nonempty W] (h : (system F C W B).Run ⊤ tr s) (f : F) (i : Long) :
    ((∃ ls s', Internal s ls s' ∧ (s'.taskStorage f).statuses.get i = some .FINISHED) ↔
      (s.taskStorage f).statuses.get i = some .FINISHED ∨ Pending s f i) ∧
    ((s.taskStorage f).statuses.get i ≠ some .FINISHED → ¬ Pending s f i →
      ∀ ls s', (system F C W B).Path (fun l => l.submits = false) s ls s' →
        (s'.taskStorage f).statuses.get i ≠ some .FINISHED) := by
  refine ⟨⟨?_, ?_⟩, ?_⟩
  · rintro ⟨ls, s', hpath, hfinished⟩
    refine hpath.back (G := fun s => CanFinish s f i) reach_step ?_ ⟨tr, h⟩ (.inl hfinished)
    rintro s l s' ⟨tr, hrun⟩ hs hl
    exact CanFinish.back hrun hs (Label.submits_of_internal hl)
  · rintro (hfinished | hpending)
    · exact ⟨[], s, .nil, hfinished⟩
    · exact hpending.finishes h
  · intro hne hpending ls s' hpath hfinished
    have hback := hpath.back (G := fun s => CanFinish s f i) reach_step
      (fun s l s' ⟨tr, hrun⟩ hs hl => CanFinish.back hrun hs hl) ⟨tr, h⟩ (.inl hfinished)
    rcases hback with hfinished | hp
    · exact hne hfinished
    · exact hpending hp

/-- A task that is lost on its way to the router is never finished. -/
theorem finishes_iff_lost : ∃ (tr : List (Label Unit Empty Unit Unit))
    (s : State Unit Empty Unit Unit), (system Unit Empty Unit Unit).Run ⊤ tr s ∧
      (s.taskStorage ()).statuses.get 1 = some .QUEUED ∧
      ∀ ls s', (system Unit Empty Unit Unit).Path (fun l => l.submits = false) s ls s' →
        (s'.taskStorage ()).statuses.get 1 ≠ some .FINISHED := by
  have h₀ : (system Unit Empty Unit Unit).Run ⊤ [] State.init := .init
  have h₁ := h₀.step (Step.request _ () (.createTask ⟨"2", by decide⟩)) trivial
  have h₂ := h₁.step (Step.lose _ (.assigned (.inl ()) 0)) trivial
  refine ⟨_, _, h₂, by decide, (finishes_iff h₂ () 1).2 (by decide) ?_⟩
  rintro (⟨⟨⟩ | ⟨⟨⟩⟩, m, hm, -⟩ | ⟨w, t, ht, -⟩ | ⟨w, ⟨e, he, -⟩ | ⟨t, ht, -⟩⟩)
  · cases hm
  · cases ht
  · cases he
  · cases ht

end PrimeTester.Cluster
