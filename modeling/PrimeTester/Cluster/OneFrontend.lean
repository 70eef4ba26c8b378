import Mathlib.Data.List.Flatten
import PrimeTester.Cluster.Flight
import PrimeTester.TaskStorage.Orderly
import PrimeTester.TaskStorage.Subscribers

/-!
# A cluster with one frontend

When one frontend is alone in its cluster and clients register only for ids that a POST was answered
with, the mailbox of its task storage is `Orderly` (`Run.orderly`). With a fresh broadcaster for
each registration it is also `Disciplined` (`Run.disciplined`). The invariant behind it follows
each task through the cluster (`Pipeline`): it waits in the proxy, or one worker has all of what is
still ahead of it. Beginning and completing a task leave what is ahead as it is, messages that are
lost only take away from it.
-/

namespace PrimeTester.Cluster

section
variable {F C W B : Type} [DecidableEq F]

/-- Clients register for notifications only on ids that POST returned. -/
def Registered : Assumption (State F C W B) (Label F C W B) := fun tr _ l =>
  ∀ f i b, l = .request f (.suspend i b) → ∃ a ∈ TaskStorage.answered (taskMessages f tr),
    a.taskId = i

/-- Each registration brings a broadcaster of its own, as `TasksEndpoint.suspend` creates it. -/
def FreshBroadcasters : Assumption (State F C W B) (Label F C W B) := fun tr _ l =>
  ∀ f i b, l = .request f (.suspend i b) →
    ∀ r ∈ TaskStorage.registrations (taskMessages f tr), r.broadcaster ≠ b

end

/-- No message is lost. -/
def NoLoss {F C W B : Type} : Assumption (State F C W B) (Label F C W B) :=
  fun _ _ l => ∀ x, l ≠ .lose x

/-! ## What is ahead of a task -/

section
variable {W B : Type}

/-- The status that an event announces about task `i`. -/
def statusOf (i : Long) (e : Published Unit Empty) : Option Status :=
  if e.message.taskId = i then some e.message.status else none

/-- The statuses that the worker `w` will still announce about task `i`, in order: what it has
published, what the task it is busy with and the tasks in its mailbox will bring. -/
def ahead (s : State Unit Empty W B) (w : W) (i : Long) : List Status :=
  (s.statusMail () w).filterMap (statusOf i) ++
    (((s.busy w).toList.flatMap fun t => if t.message.taskId = i then [.FINISHED] else []) ++
      (s.mailbox w).flatMap fun t => if t.message.taskId = i then [.STARTED, .FINISHED] else [])

/-- The tasks that wait in the proxy. -/
abbrev waiting (s : State Unit Empty W B) : List TaskIdAssignedMessage := s.clusterProxy (.inl ())

/-- The messages that the task storage has taken. -/
abbrev messages (tr : List (Label Unit Empty W B)) : List (TaskStorage.Message B) :=
  taskMessages () tr

theorem messages_concat (tr : List (Label Unit Empty W B)) (l : Label Unit Empty W B) :
    messages (tr ++ [l]) = messages tr ++ (l.taskMessage? ()).toList := taskMessages_concat () tr l

/-- A run has at least the POSTs of its beginning. -/
theorem length_posted_left (tr tr' : List (Label Unit Empty W B)) :
    (TaskStorage.posted (messages tr)).length ≤
      (TaskStorage.posted (messages (tr ++ tr'))).length := by
  rw [messages, messages, taskMessages_append]
  exact TaskStorage.length_posted_left _ _

/-- Every task is in one place, and its statuses are announced in order. -/
structure Pipeline (tr : List (Label Unit Empty W B)) (s : State Unit Empty W B) : Prop where
  order : ∀ w i, (TaskStorage.progress i (messages tr) ++ ahead s w i).Sublist [.STARTED, .FINISHED]
  owner : ∀ w w' i, ahead s w i ≠ [] → ahead s w' i ≠ [] → w = w'
  untouched : ∀ m ∈ waiting s, TaskStorage.progress m.taskId (messages tr) = [] ∧
    ∀ w, ahead s w m.taskId = []
  nodup : ((waiting s).map (·.taskId)).Nodup

variable {tr : List (Label Unit Empty W B)} {s s' : State Unit Empty W B} {l : Label Unit Empty W B}

theorem Pipeline.init : Pipeline [] (State.init : State Unit Empty W B) where
  order _ _ := List.nil_sublist _
  owner _ _ _ h := absurd rfl h
  untouched _ h := by cases h
  nodup := List.nodup_nil

/-- A step that brings nothing new and lets the task storage take no event keeps the order. -/
theorem Pipeline.shrink (h : Pipeline tr s)
    (hprog : ∀ i, TaskStorage.progress i (messages (tr ++ [l])) =
      TaskStorage.progress i (messages tr))
    (hahead : ∀ w i, (ahead s' w i).Sublist (ahead s w i))
    (hwaiting : (waiting s').Sublist (waiting s)) : Pipeline (tr ++ [l]) s' where
  order w i := by
    rw [hprog]
    exact (List.Sublist.append_left (hahead w i) _).trans (h.order w i)
  owner w w' i hw hw' := by
    refine h.owner w w' i (fun hnil => hw ?_) (fun hnil => hw' ?_)
    · exact List.sublist_nil.1 (hnil ▸ hahead w i)
    · exact List.sublist_nil.1 (hnil ▸ hahead w' i)
  untouched m hm := by
    obtain ⟨hnil, hall⟩ := h.untouched m (hwaiting.subset hm)
    exact ⟨by rw [hprog, hnil], fun w => List.sublist_nil.1 (hall w ▸ hahead w m.taskId)⟩
  nodup := h.nodup.sublist (hwaiting.map _)

/-- What is ahead consists of its three parts. -/
theorem ahead_sublist {w : W} (hmail : (s'.statusMail () w).Sublist (s.statusMail () w))
    (hbusy : (s'.busy w).toList.Sublist (s.busy w).toList)
    (hmailbox : (s'.mailbox w).Sublist (s.mailbox w)) (i : Long) :
    (ahead s' w i).Sublist (ahead s w i) :=
  (hmail.filterMap _).append ((hbusy.flatMap _).append (hmailbox.flatMap _))

variable [DecidableEq W]

/-- A worker that becomes idle announces less. -/
theorem ahead_idle (s : State Unit Empty W B) (w w' : W) (i : Long) :
    (ahead { s with busy := Function.update s.busy w none } w' i).Sublist (ahead s w' i) := by
  apply ahead_sublist
  · exact List.Sublist.refl _
  · simp only [Function.update_apply]
    split
    · exact List.nil_sublist _
    · exact List.Sublist.refl _
  · exact List.Sublist.refl _

theorem ahead_lose (s : State Unit Empty W B) (x : Loss Unit Empty W) (w : W) (i : Long) :
    (ahead (s.lose x) w i).Sublist (ahead s w i) := by
  have refl {α : Type} (l : List α) := List.Sublist.refl l
  cases x with
  | assigned p n => exact refl _
  | routed w' n =>
    apply ahead_sublist
    · exact refl _
    · exact refl _
    · exact Channels.lose_sublist _ _ _ _
  | crash w' => exact ahead_idle s w' w i
  | status f w' n =>
    apply ahead_sublist
    · show (Function.update s.statusMail () _ () w).Sublist _
      rw [Function.update_self]
      exact Channels.lose_sublist _ _ _ _
    · exact refl _
    · exact refl _
  | result f w' n => exact refl _

/-- Beginning a task leaves what is ahead as it is. -/
theorem ahead_begin {w : W} {t : Task Unit Empty} {ts : List (Task Unit Empty)}
    (hidle : s.busy w = none) (hw : s.mailbox w = t :: ts) (w' : W) (i : Long) :
    ahead (State.publish { s with
        mailbox := s.mailbox.next w
        busy := Function.update s.busy w (some t) } w t.started) w' i = ahead s w' i := by
  by_cases h : w' = w
  · subst h
    simp only [ahead, State.publish, Channels.send_self, Channels.next_self, Function.update_self,
      hidle, hw]
    by_cases hi : t.message.taskId = i <;>
      simp [statusOf, Task.started, Event.taskId, Event.status, hi]
  · simp only [ahead, State.publish, Channels.send_ne _ _ h, Channels.next_ne _ h,
      Function.update_of_ne h]

/-- Completing a task leaves what is ahead as it is. -/
theorem ahead_complete {w : W} {t : Task Unit Empty} {m : CalculationFinished}
    (hw : s.busy w = some t) (hm : m.taskId = t.message.taskId) (w' : W) (i : Long) :
    ahead (State.publish { s with busy := Function.update s.busy w none } w (t.finished m)) w' i =
      ahead s w' i := by
  by_cases h : w' = w
  · subst h
    simp only [ahead, State.publish, Channels.send_self, Function.update_self, hw]
    by_cases hi : t.message.taskId = i <;>
      simp [statusOf, Task.finished, Event.taskId, Event.status, hm, hi]
  · simp only [ahead, State.publish, Channels.send_ne _ _ h, Function.update_of_ne h]

/-- A task that the router hands to a worker is ahead of it as a whole. -/
theorem ahead_forward {p : Unit ⊕ Empty} (s : State Unit Empty W B) (m : TaskIdAssignedMessage)
    (w w' : W) (i : Long) :
    ahead { s with
        clusterProxy := s.clusterProxy.next p
        mailbox := s.mailbox.send w [⟨p, m⟩] } w' i =
      ahead s w' i ++ if w' = w ∧ m.taskId = i then [.STARTED, .FINISHED] else [] := by
  by_cases h : w' = w
  · subst h
    by_cases hi : m.taskId = i <;> simp [ahead, hi]
  · simp [ahead, Channels.send_ne _ _ h, h]

/-- An event that is taken was ahead. -/
theorem ahead_taken {w : W} {e : Published Unit Empty} {es : List (Published Unit Empty)}
    (hf : s.statusMail () w = e :: es) {s' : State Unit Empty W B}
    (hmail : s'.statusMail = Function.update s.statusMail () ((s.statusMail ()).next w))
    (hbusy : s'.busy = s.busy) (hmailbox : s'.mailbox = s.mailbox) (w' : W) (i : Long) :
    ahead s w' i = (if w' = w then (statusOf i e).toList else []) ++ ahead s' w' i := by
  rw [ahead, ahead, hmail, hbusy, hmailbox, Function.update_self]
  by_cases h : w' = w
  · subst h
    rw [hf, Channels.next_self, hf, List.tail_cons, if_pos rfl, List.filterMap_cons]
    cases statusOf i e <;> rfl
  · rw [Channels.next_ne _ h, if_neg h]
    rfl

/-! ## One step -/

omit [DecidableEq W] in
theorem Submitted.answered {p : Unit ⊕ Empty} {m : TaskIdAssignedMessage}
    (h : Submitted tr p m) : m ∈ TaskStorage.answered (messages tr) := by
  cases p with
  | inl f => exact h
  | inr c => cases c

variable {A : Assumption (State Unit Empty W B) (Label Unit Empty W B)}

/-- An event is about a task that was acknowledged. -/
theorem Run.published_known (h : (system Unit Empty W B).Run A tr s) {w : W}
    {e : Published Unit Empty} (he : PublishedBy tr w e) :
    ∃ a ∈ TaskStorage.answered (messages tr), a.taskId = e.message.taskId := by
  obtain ⟨number, hsub⟩ := Run.published_submitted h he
  exact ⟨_, hsub.answered, rfl⟩

/-- Whatever is ahead is about a task that was acknowledged. -/
theorem Run.ahead_known (h : (system Unit Empty W B).Run A tr s) {w : W} {i : Long}
    (hi : ahead s w i ≠ []) : ∃ a ∈ TaskStorage.answered (messages tr), a.taskId = i := by
  have hflight := Run.flight h
  obtain ⟨status, hstatus⟩ := List.exists_mem_of_ne_nil _ hi
  rw [ahead, List.mem_append, List.mem_append] at hstatus
  rcases hstatus with hmail | hbusy | hmailbox
  · obtain ⟨e, he, hs⟩ := List.mem_filterMap.1 hmail
    rw [← (Option.ite_none_right_eq_some.1 hs).1]
    exact Run.published_known h (hflight.statusMail () w e he)
  · obtain ⟨t, ht, hs⟩ := List.mem_flatMap.1 hbusy
    split at hs
    · rename_i hid
      have hbegin := hflight.busy w t (Option.mem_toList.1 ht)
      exact ⟨_, (Run.begun h hbegin).answered, hid⟩
    · cases hs
  · obtain ⟨t, ht, hs⟩ := List.mem_flatMap.1 hmailbox
    split at hs
    · rename_i hid
      exact ⟨_, (hflight.mailbox w t ht).answered, hid⟩
    · cases hs

omit [DecidableEq W] in
/-- What a task storage sends waits in its proxy. -/
theorem waiting_deliver (s : State Unit Empty W B) (m : TaskStorage.Message B) :
    waiting (s.deliver () m) = waiting s ++
      m.number?.toList.map fun number => ⟨(s.taskStorage ()).id + 1, number⟩ := by
  simp only [waiting, State.deliver, Channels.send_self, (TaskStorage.process_assigned _ m).2]

omit [DecidableEq W] in
theorem waiting_deliver_of_none (s : State Unit Empty W B) {m : TaskStorage.Message B}
    (hm : m.number? = none) : waiting (s.deliver () m) = waiting s := by
  rw [waiting_deliver, hm]
  exact List.append_nil _

omit [DecidableEq W] in
theorem progress_request (i : Long) (tr : List (Label Unit Empty W B)) (r : Request B) :
    TaskStorage.progress i (messages (tr ++ [.request () r])) =
      TaskStorage.progress i (messages tr) := by
  rw [messages_concat, Label.taskMessage?, if_pos rfl, Option.toList_some]
  exact TaskStorage.progress_concat_of_none _ (by cases r <;> rfl)

omit [DecidableEq W] in
/-- What a step that is no event does to the progress of the tasks. -/
theorem progress_of_none (hl : l.taskMessage? () = none) (i : Long) :
    TaskStorage.progress i (messages (tr ++ [l])) = TaskStorage.progress i (messages tr) := by
  rw [messages_concat, hl, Option.toList_none, List.append_nil]

/-- A new task waits in the proxy, and nothing is known of its id yet. -/
theorem Pipeline.post (h : Pipeline tr s) (hrun : (system Unit Empty W B).Run A tr s)
    (hord : TaskStorage.Orderly (messages tr))
    (hlen : (TaskStorage.posted (messages tr)).length < 2 ^ 64) (r : CreateTaskResource) :
    Pipeline (tr ++ [.request () (.createTask r)])
      (s.deliver () (Request.createTask r).toMessage) := by
  have hnew : ¬ ∃ a ∈ TaskStorage.answered (messages tr), a.taskId = (s.taskStorage ()).id + 1 := by
    rw [Run.taskStorage_eq hrun, ← hord.status_ne_none (by omega), hord.status_next hlen]
    exact fun hc => hc rfl
  have hwaiting : waiting (s.deliver () (Request.createTask r).toMessage) =
      waiting s ++ [⟨(s.taskStorage ()).id + 1, r.number⟩] := waiting_deliver s _
  have hsub (m : TaskIdAssignedMessage) (hm : m ∈ waiting s) :
      m ∈ TaskStorage.answered (messages tr) :=
    ((Run.flight hrun).clusterProxy _ m hm).answered
  refine ⟨fun w i => ?_, h.owner, fun m hm => ?_, ?_⟩
  · rw [progress_request]
    exact h.order w i
  · rw [progress_request]
    rw [hwaiting, List.mem_append, List.mem_singleton] at hm
    rcases hm with hm | rfl
    · exact h.untouched m hm
    · refine ⟨?_, fun w => ?_⟩
      · by_contra hne
        exact hnew (hord.mem_answered hne)
      · by_contra hne
        exact hnew (Run.ahead_known hrun (w := w) hne)
  · rw [hwaiting, List.map_append, List.nodup_append]
    refine ⟨h.nodup, List.nodup_singleton _, fun a ha b hb => ?_⟩
    obtain ⟨m, hm, rfl⟩ := List.mem_map.1 ha
    rw [List.map_singleton, List.mem_singleton] at hb
    intro hid
    exact hnew ⟨m, hsub m hm, hid.trans hb⟩

/-- A task goes from the proxy to one worker. -/
theorem Pipeline.forward (h : Pipeline tr s) {p : Unit ⊕ Empty} {m : TaskIdAssignedMessage}
    {ms : List TaskIdAssignedMessage} (w : W) (hp : s.clusterProxy p = m :: ms) :
    Pipeline (tr ++ [.forward p w])
      { s with clusterProxy := s.clusterProxy.next p, mailbox := s.mailbox.send w [⟨p, m⟩] } := by
  obtain ⟨⟩ | c := p
  swap
  · cases c
  have hwaiting : waiting s = m :: ms := hp
  have hprog (i : Long) : TaskStorage.progress i (messages (tr ++ [.forward (.inl ()) w])) =
      TaskStorage.progress i (messages tr) := progress_of_none rfl i
  have hrest : waiting ({ s with
      clusterProxy := s.clusterProxy.next (.inl ())
      mailbox := s.mailbox.send w [⟨.inl (), m⟩] } : State Unit Empty W B) = ms := by
    show s.clusterProxy.next (.inl ()) (.inl ()) = ms
    rw [Channels.next_self, hp, List.tail_cons]
  have hnd := h.nodup
  rw [hwaiting, List.map_cons, List.nodup_cons] at hnd
  obtain ⟨hfirst, hnone⟩ := h.untouched m (by rw [hwaiting]; exact List.mem_cons_self)
  refine ⟨fun w' i => ?_, fun w₁ w₂ i h₁ h₂ => ?_, fun m' hm' => ?_, ?_⟩
  · rw [hprog, ahead_forward]
    by_cases hi : w' = w ∧ m.taskId = i
    · obtain ⟨rfl, rfl⟩ := hi
      rw [hfirst, hnone, if_pos ⟨rfl, rfl⟩]
      exact List.Sublist.refl _
    · rw [if_neg hi, List.append_nil]
      exact h.order w' i
  · rw [ahead_forward] at h₁ h₂
    by_cases hi : m.taskId = i
    · subst hi
      have honly (w' : W) (hw' : ahead s w' m.taskId ++
          (if w' = w ∧ m.taskId = m.taskId then [.STARTED, .FINISHED] else []) ≠ []) : w' = w := by
        by_contra hne
        rw [hnone, if_neg fun hc => hne hc.1] at hw'
        exact hw' rfl
      rw [honly w₁ h₁, honly w₂ h₂]
    · rw [if_neg fun hc => hi hc.2, List.append_nil] at h₁ h₂
      exact h.owner w₁ w₂ i h₁ h₂
  · rw [hrest] at hm'
    have hne : m.taskId ≠ m'.taskId := fun hc => hnd.1 (hc ▸ List.mem_map_of_mem hm')
    obtain ⟨hnil, hall⟩ := h.untouched m' (by rw [hwaiting]; exact List.mem_cons_of_mem _ hm')
    refine ⟨by rw [hprog, hnil], fun w' => ?_⟩
    rw [ahead_forward, hall, if_neg fun hc => hne hc.2, List.append_nil]
  · rw [hrest]
    exact hnd.2

/-- The task storage takes the next status of a task. -/
theorem Pipeline.take (h : Pipeline tr s) {w : W} {e : Published Unit Empty}
    {es : List (Published Unit Empty)} (hf : s.statusMail () w = e :: es)
    (hmail : s'.statusMail = Function.update s.statusMail () ((s.statusMail ()).next w))
    (hbusy : s'.busy = s.busy) (hmailbox : s'.mailbox = s.mailbox)
    (hwaiting : waiting s' = waiting s) : Pipeline (tr ++ [.statusEvent () w e]) s' := by
  have hprog (i : Long) : TaskStorage.progress i (messages (tr ++ [.statusEvent () w e])) =
      TaskStorage.progress i (messages tr) ++ (statusOf i e).toList := by
    rw [messages_concat, Label.taskMessage?, if_pos rfl, Option.toList_some,
      TaskStorage.progress_concat, TaskStorage.progress?_ofEvent]
    rfl
  have htaken := ahead_taken hf hmail hbusy hmailbox
  have hless (w' : W) (i : Long) (hne : ahead s' w' i ≠ []) : ahead s w' i ≠ [] := by
    rw [htaken]
    exact fun hc => hne (List.append_eq_nil_iff.1 hc).2
  refine ⟨fun w' i => ?_, fun w₁ w₂ i h₁ h₂ => h.owner w₁ w₂ i (hless w₁ i h₁) (hless w₂ i h₂),
    fun m hm => ?_, by rw [hwaiting]; exact h.nodup⟩
  · have hw := h.order w i
    rw [htaken, if_pos rfl, ← List.append_assoc, ← hprog] at hw
    by_cases hw' : w' = w
    · rw [hw']
      exact hw
    · cases hst : statusOf i e with
      | none =>
        have hold := h.order w' i
        rw [htaken, if_neg hw', List.nil_append] at hold
        rwa [hprog, hst, Option.toList_none, List.append_nil]
      | some status =>
        have hnil : ahead s' w' i = [] := by
          by_contra hne
          refine hw' (h.owner w' w i (hless w' i hne) ?_)
          rw [htaken, if_pos rfl, hst]
          exact List.cons_ne_nil _ _
        rw [hnil, List.append_nil]
        exact (List.sublist_append_left _ _).trans hw
  · rw [hwaiting] at hm
    obtain ⟨hnil, hall⟩ := h.untouched m hm
    have hst : statusOf m.taskId e = none := by
      have := hall w
      rw [htaken, if_pos rfl, List.append_eq_nil_iff] at this
      cases hst : statusOf m.taskId e with
      | none => rfl
      | some status => rw [hst] at this; cases this.1
    refine ⟨by rw [hprog, hnil, hst]; rfl, fun w' => ?_⟩
    by_contra hne
    exact hless w' _ hne (hall w')

theorem Pipeline.step (h : Pipeline tr s) (hrun : (system Unit Empty W B).Run A tr s)
    (hord : TaskStorage.Orderly (messages tr))
    (hlen : (TaskStorage.posted (messages (tr ++ [l]))).length ≤ 2 ^ 64) (hs : Step s l s') :
    Pipeline (tr ++ [l]) s' := by
  cases hs with
  | request f r =>
    cases r with
    | createTask r =>
      refine h.post hrun hord ?_ r
      rw [messages_concat, Label.taskMessage?, if_pos rfl, Option.toList_some,
        TaskStorage.posted_concat, List.length_append] at hlen
      exact hlen
    | getStatus i =>
      refine h.shrink (fun i => progress_request i tr _) (fun w i => List.Sublist.refl _) ?_
      rw [waiting_deliver_of_none s rfl]
    | suspend i b =>
      refine h.shrink (fun i => progress_request i tr _) (fun w i => List.Sublist.refl _) ?_
      rw [waiting_deliver_of_none s rfl]
  | getResult f m =>
    exact h.shrink (progress_of_none rfl) (fun w i => List.Sublist.refl _) (List.Sublist.refl _)
  | client c => cases c
  | forward w hp => exact h.forward w hp
  | begin hidle hw =>
    refine h.shrink (progress_of_none rfl) (fun w' i => ?_) (List.Sublist.refl _)
    rw [ahead_begin hidle hw]
  | complete hnp hw hm =>
    refine h.shrink (progress_of_none rfl) (fun w' i => ?_) (List.Sublist.refl _)
    rw [ahead_complete hw]
    rw [Worker.checkIsPrime_sound hnp (Run.busy_matches hrun hw) hm]
    rfl
  | fail hnp hw hm hfault =>
    exact h.shrink (progress_of_none rfl) (fun w' i => ahead_idle s _ w' i) (List.Sublist.refl _)
  | @statusEvent f w e es hf =>
    refine h.take hf rfl rfl rfl (waiting_deliver_of_none _ ?_)
    obtain ⟨p, _ | _⟩ := e <;> rfl
  | resultEvent hf =>
    exact h.shrink (progress_of_none rfl) (fun w i => List.Sublist.refl _) (List.Sublist.refl _)
  | lose x =>
    refine h.shrink (progress_of_none rfl) (fun w i => ahead_lose s x w i) ?_
    cases x with
    | assigned p n => exact Channels.lose_sublist _ _ _ _
    | _ => exact List.Sublist.refl _

/-! ## Runs -/

omit [DecidableEq W] in
/-- A request keeps the mailbox orderly. -/
theorem orderly_request (hord : TaskStorage.Orderly (messages tr)) {f : Unit} {r : Request B}
    (hreg : Registered tr s (.request f r)) :
    TaskStorage.Orderly (messages (tr ++ [.request f r])) where
  registered := by
    rw [messages_concat]
    refine Always.concat.2 ⟨hord.registered, fun m hm => ?_⟩
    cases r with
    | createTask r => cases hm
    | getStatus i => cases hm
    | suspend i b =>
      cases hm
      exact hreg f i b rfl
  known := by
    rw [messages_concat]
    refine Always.concat.2 ⟨hord.known, fun i hi => ?_⟩
    cases r <;> exact absurd rfl hi
  events i := by
    rw [progress_request]
    exact hord.events i

omit [DecidableEq W] in
/-- An event keeps the mailbox orderly. -/
theorem orderly_event (hord : TaskStorage.Orderly (messages tr)) {f : Unit} {w : W}
    {e : Published Unit Empty}
    (hknown : ∃ a ∈ TaskStorage.answered (messages tr), a.taskId = e.message.taskId)
    (h : Pipeline (tr ++ [.statusEvent f w e]) s') :
    TaskStorage.Orderly (messages (tr ++ [.statusEvent f w e])) where
  registered := by
    rw [messages_concat]
    refine Always.concat.2 ⟨hord.registered, fun m hm => ?_⟩
    obtain ⟨p, _ | _⟩ := e <;> cases hm
  known := by
    rw [messages_concat]
    refine Always.concat.2 ⟨hord.known, fun i hi => ?_⟩
    rw [TaskStorage.progress?_ofEvent] at hi
    split at hi
    · rename_i hid
      exact hid ▸ hknown
    · exact absurd rfl hi
  events i := (List.sublist_append_left _ _).trans (h.order w i)

/-- **The mailbox of the only frontend is orderly**, in every run in which clients register only for
ids that a POST was answered with, whatever is lost. -/
theorem Run.orderly (h : (system Unit Empty W B).Run Registered tr s)
    (hlen : (TaskStorage.posted (messages tr)).length ≤ 2 ^ 64) :
    TaskStorage.Orderly (messages tr) ∧ Pipeline tr s := by
  refine h.induct (I := fun tr s => (TaskStorage.posted (messages tr)).length ≤ 2 ^ 64 →
    TaskStorage.Orderly (messages tr) ∧ Pipeline tr s) ?_ ?_ hlen
  · exact fun _ => ⟨⟨Always.nil, Always.nil, fun i => List.nil_sublist _⟩, .init⟩
  · intro tr s l s' hrun ih hs hreg hlen
    obtain ⟨hord, hpipe⟩ := ih ((length_posted_left tr [l]).trans hlen)
    have hpipe' : Pipeline (tr ++ [l]) s' := hpipe.step hrun hord hlen hs
    refine ⟨?_, hpipe'⟩
    cases hs with
    | request f r => exact orderly_request hord hreg
    | statusEvent hf =>
      exact orderly_event hord (Run.published_known hrun (Run.taken hrun (.statusEvent hf))) hpipe'
    | _ =>
      rw [messages_concat]
      exact (List.append_nil (messages tr)).symm ▸ hord

omit [DecidableEq W] in
/-- A registration that the task storage takes is a request. -/
theorem registration_label {m : TaskStorage.Message B} {r : RegisterForNotifications B}
    (hl : l.taskMessage? () = some m) (hm : m.registration? = some r) :
    l = .request () (.suspend r.taskId r.broadcaster) := by
  cases l with
  | request f r' =>
    cases hl
    cases r' with
    | createTask r' => cases hm
    | getStatus i => cases hm
    | suspend i b =>
      cases hm
      rfl
  | statusEvent f w e =>
    cases hl
    rw [TaskStorage.registration?_ofEvent] at hm
    cases hm
  | _ => cases hl

/-- With fresh broadcasters no broadcaster is registered twice. -/
theorem Run.broadcasters (h : (system Unit Empty W B).Run FreshBroadcasters tr s) :
    ((TaskStorage.registrations (messages tr)).map (·.broadcaster)).Nodup := by
  refine h.induct
    (I := fun tr _ => ((TaskStorage.registrations (messages tr)).map (·.broadcaster)).Nodup)
    List.nodup_nil ?_
  intro tr s l s' _ ih _ hfresh
  rw [messages_concat]
  cases hl : l.taskMessage? () with
  | none => rwa [Option.toList_none, List.append_nil]
  | some m =>
    rw [Option.toList_some, TaskStorage.registrations_concat]
    cases hm : m.registration? with
    | none => rwa [Option.toList_none, List.append_nil]
    | some r =>
      rw [Option.toList_some, List.map_append, List.nodup_append]
      refine ⟨ih, List.nodup_singleton _, fun b hb b' hb' => ?_⟩
      obtain ⟨r', hr', rfl⟩ := List.mem_map.1 hb
      rw [List.mem_singleton.1 hb']
      exact hfresh () r.taskId r.broadcaster (registration_label hl hm) r' hr'

/-- **The mailbox of the only frontend is disciplined**, in every run in which each registration
brings a fresh broadcaster, too. So its subscribers are served as those of a disciplined mailbox. -/
theorem Run.disciplined (h : (system Unit Empty W B).Run (Registered ⊓ FreshBroadcasters) tr s)
    (hlen : (TaskStorage.posted (messages tr)).length ≤ 2 ^ 64) :
    TaskStorage.Disciplined (messages tr) := by
  obtain ⟨hord, -⟩ := Run.orderly (h.mono inf_le_left) hlen
  exact ⟨hord.registered, Run.broadcasters (h.mono inf_le_right), hord.events⟩

end

end PrimeTester.Cluster
