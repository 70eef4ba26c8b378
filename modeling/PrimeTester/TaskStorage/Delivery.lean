import PrimeTester.TaskStorage.Subscribers

/-!
# Who hears of the end of a task

`finished_sent_iff`: in a disciplined mailbox a broadcaster is sent the `FINISHED` event of its
task exactly when no later registration for the same task took its place before the event was
processed, or, for a registration after the event, when the id was not handed out once more in
between. The event is sent either by the handler of `CalculationFinished` or by the catch-up of the
registration (`finished_sent_cases`); each of them has one place in the mailbox, and what the
storage holds there is read off the messages before it.
-/

namespace PrimeTester.TaskStorage

section
variable {B : Type}

/-- The answers to the POSTs among the messages that follow `ms`. -/
def answeredAfter (ms ms' : List (Message B)) : List TaskIdAssignedMessage :=
  (answered (ms ++ ms')).drop (answered ms).length

@[simp] theorem answeredAfter_nil (ms : List (Message B)) : answeredAfter ms [] = [] := by
  simp [answeredAfter]

theorem answeredAfter_concat (ms ms' : List (Message B)) (m : Message B) :
    answeredAfter ms (ms' ++ [m]) = answeredAfter ms ms' ++
      m.number?.toList.map fun number => ⟨(after (ms ++ ms')).id + 1, number⟩ := by
  have hle : (answered ms).length ≤ (answered (ms ++ ms')).length := by
    rw [length_answered, length_answered]
    exact length_posted_left ms ms'
  rw [answeredAfter, ← List.append_assoc, answered_concat, List.drop_append_of_le_length hle]
  rfl

theorem event_inj {i : Long} {status status' : Status} (h : event i status = event i status') :
    status = status' := by
  have := congrArg (fun e => e.data.status.actorStatus) h
  simpa [event] using this

/-! ## One place for each message -/

theorem Disciplined.finished_once {ms : List (Message B)} (h : Disciplined ms) (i : Long) :
    AtMostOnce (fun m => ∃ f, m = .finished f ∧ f.taskId = i) ms := by
  rintro x _ y _ z rfl ⟨f, rfl, hf⟩ ⟨f', rfl, hf'⟩
  have hpre : Disciplined ((x ++ .finished f :: y) ++ [.ofEvent (.finished f')]) :=
    (show Disciplined (_ ++ z) by simpa [Message.ofEvent] using h).left
  refine lt_irrefl Status.FINISHED (hpre.progress_lt (e := .finished f') ?_)
  show _ ∈ progress f'.taskId _
  rw [hf', progress, List.filterMap_append, List.mem_append]
  exact .inr (by simp [Message.progress?, hf])

theorem Disciplined.register_once {ms : List (Message B)} (h : Disciplined ms)
    (r : RegisterForNotifications B) : AtMostOnce (fun m => m = .register r) ms := by
  rintro x _ y _ z rfl rfl rfl
  have hnd := h.broadcasters
  simp only [registrations, List.filterMap_append, List.filterMap_cons, Message.registration?,
    List.map_append, List.map_cons] at hnd
  have := (List.nodup_append.1 hnd).2.1
  exact absurd (by simp) (List.nodup_cons.1 this).1

/-- After its end no event about a task arrives. -/
theorem Disciplined.progress_after {ms ms' : List (Message B)} {i : Long}
    (h : Disciplined (ms ++ ms')) (hf : .FINISHED ∈ progress i ms) : progress i ms' = [] := by
  have hsub := h.events i
  rw [progress, List.filterMap_append] at hsub
  have hpw : (progress i ms ++ progress i ms').Pairwise (· < ·) :=
    List.Pairwise.sublist hsub (by decide)
  refine List.eq_nil_iff_forall_not_mem.2 fun s hs => ?_
  have := (List.pairwise_append.1 hpw).2.2 _ hf s hs
  exact absurd (Status.le_FINISHED s) (not_le_of_gt this)

/-! ## What the storage holds at a place -/

section
variable [DecidableEq B]

theorem Disciplined.subscriptions_concat {ms : List (Message B)} {m : Message B}
    (h : Disciplined (ms ++ [m])) (i : Long) :
    (after (ms ++ [m])).subscriptions.get i =
      match m.registration? with
      | some r => if i = r.taskId then some r.broadcaster else (after ms).subscriptions.get i
      | none => (after ms).subscriptions.get i := by
  rw [after, Actor.after_concat]
  cases m using Message.casesEvent with
  | newNumber m => rfl
  | register r =>
    obtain ⟨status, hstatus⟩ := h.left.served.registered_status h
    rw [process_register_some hstatus]
    rfl
  | event e =>
    rw [process_event]
    cases e <;> rfl
  | getStatus m => rfl

/-- Without a further registration for the task its subscription stays. -/
theorem Disciplined.subscription_kept {ms ms' : List (Message B)} {i : Long}
    (h : Disciplined (ms ++ ms')) (hnone : ∀ r ∈ registrations ms', r.taskId ≠ i) :
    (after (ms ++ ms')).subscriptions.get i = (after ms).subscriptions.get i := by
  induction ms' using List.reverseRecOn with
  | nil => rw [List.append_nil]
  | append_singleton ms' m ih =>
    rw [← List.append_assoc] at h ⊢
    rw [registrations_concat] at hnone
    rw [h.subscriptions_concat, ← ih h.left fun r hr => hnone r (List.mem_append_left _ hr)]
    cases hm : m.registration? with
    | none => rfl
    | some r =>
      rw [hm] at hnone
      exact if_neg fun hi => hnone r (by simp) hi.symm

/-- After further registrations for the task one of them is the subscription. -/
theorem Disciplined.subscription_replaced {ms ms' : List (Message B)} {i : Long}
    (h : Disciplined (ms ++ ms')) (hsome : ∃ r ∈ registrations ms', r.taskId = i) :
    ∃ b, (after (ms ++ ms')).subscriptions.get i = some b ∧ ⟨i, b⟩ ∈ registrations ms' := by
  induction ms' using List.reverseRecOn with
  | nil =>
    obtain ⟨r, hr, -⟩ := hsome
    cases hr
  | append_singleton ms' m ih =>
    rw [← List.append_assoc] at h ⊢
    rw [registrations_concat] at hsome ⊢
    rw [h.subscriptions_concat]
    have old (hold : ∃ r ∈ registrations ms', r.taskId = i) :
        ∃ b, (after (ms ++ ms')).subscriptions.get i = some b ∧
          ⟨i, b⟩ ∈ registrations ms' ++ m.registration?.toList := by
      obtain ⟨b, hb, hmem⟩ := ih h.left hold
      exact ⟨b, hb, List.mem_append_left _ hmem⟩
    cases hm : m.registration? with
    | none =>
      rw [hm, Option.toList_none, List.append_nil] at hsome
      rw [hm] at old
      exact old hsome
    | some r =>
      by_cases hi : i = r.taskId
      · exact ⟨r.broadcaster, if_pos hi, by rw [hi]; simp⟩
      · rw [hm] at hsome old
        obtain ⟨r', hr', hid⟩ := hsome
        have hmem : r' ∈ registrations ms' := by
          rcases List.mem_append.1 hr' with hr' | hr'
          · exact hr'
          · rw [Option.toList_some, List.mem_singleton] at hr'
            exact absurd (hr' ▸ hid).symm hi
        simp only [if_neg hi]
        exact old ⟨r', hmem, hid⟩

theorem Disciplined.statuses_concat {ms : List (Message B)} {m : Message B}
    (h : Disciplined (ms ++ [m])) {i : Long} (hm : m.progress? i = none) :
    (after (ms ++ [m])).statuses.get i =
      if m.number?.isSome ∧ i = (after ms).id + 1 then some .QUEUED
      else (after ms).statuses.get i := by
  rw [after, Actor.after_concat]
  cases m using Message.casesEvent with
  | newNumber m =>
    show ((after ms).statuses.put ((after ms).id + 1) .QUEUED).get i = _
    simp [HashMap.get_put, Message.number?]
  | register r =>
    obtain ⟨status, hstatus⟩ := h.left.served.registered_status h
    rw [process_register_some hstatus]
    simp [Message.number?]
  | event e =>
    rw [process_event]
    rw [progress?_ofEvent] at hm
    have hne : i ≠ e.taskId := by
      intro hi
      rw [if_pos hi.symm] at hm
      cases hm
    rw [if_neg (by cases e <;> simp [Message.ofEvent, Message.number?])]
    exact HashMap.get_put_ne _ _ _ hne
  | getStatus m => simp [Message.number?, process_getStatus]

/-- Without an event about a task its status is the one before, or `QUEUED` if its id was handed
out again. -/
theorem Disciplined.status_after {ms ms' : List (Message B)} {i : Long}
    (h : Disciplined (ms ++ ms')) (hprog : progress i ms' = []) :
    (after (ms ++ ms')).statuses.get i =
      if ∃ a ∈ answeredAfter ms ms', a.taskId = i then some .QUEUED
      else (after ms).statuses.get i := by
  induction ms' using List.reverseRecOn with
  | nil => simp
  | append_singleton ms' m ih =>
    rw [← List.append_assoc] at h ⊢
    rw [progress_concat, List.append_eq_nil_iff] at hprog
    have hm : m.progress? i = none := by
      cases hp : m.progress? i with
      | none => rfl
      | some s => rw [hp] at hprog; cases hprog.2
    rw [h.statuses_concat hm, ih h.left hprog.1, answeredAfter_concat]
    cases hn : m.number? with
    | none => simp
    | some number =>
      by_cases hi : i = (after (ms ++ ms')).id + 1
      · rw [if_pos ⟨rfl, hi⟩, if_pos]
        exact ⟨_, List.mem_append_right _ (List.mem_singleton_self _), hi.symm⟩
      · rw [if_neg fun hc => hi hc.2]
        simp only [Option.toList_some, List.map_singleton, List.mem_append, List.mem_singleton,
          or_and_right, exists_or, exists_eq_left, Ne.symm hi, or_false]

/-! ## The end of a task -/

theorem mem_sentTo {b : B} {ms : List (Message B)} {e : OutboundEvent} :
    e ∈ sentTo b ms ↔ .broadcast b e ∈ outputs ms := by
  rw [sentTo, List.mem_filterMap]
  constructor
  · rintro ⟨o, ho, he⟩
    cases o with
    | broadcast b' e' =>
      rw [Output.event?] at he
      split at he
      · rename_i hb
        cases he
        rwa [← hb]
      · cases he
    | toClusterProxy m => cases he
    | replyAssigned m => cases he
    | replyStatus m => cases he
  · intro h
    exact ⟨_, h, if_pos rfl⟩

/-- The end of a task is sent by the handler of its event to the subscription at that place, or by
the registration if the task has ended by then. -/
theorem Disciplined.finished_sent_cases {ms : List (Message B)} (h : Disciplined ms)
    {r : RegisterForNotifications B} (hr : .register r ∈ ms) :
    event r.taskId .FINISHED ∈ sentTo r.broadcaster ms ↔
      (∃ pre f post, ms = pre ++ .finished f :: post ∧ f.taskId = r.taskId ∧
        (after pre).subscriptions.get r.taskId = some r.broadcaster) ∨
      ∃ pre post, ms = pre ++ .register r :: post ∧
        (after pre).statuses.get r.taskId = some .FINISHED := by
  rw [mem_sentTo, outputs, Actor.mem_outputs]
  constructor
  · rintro ⟨pre, m, post, rfl, ho⟩
    have hpre : Disciplined (pre ++ [m]) := (show Disciplined (_ ++ post) by simpa using h).left
    cases m using Message.casesEvent with
    | newNumber m => simp [process_newNumber, queueNewMessage] at ho
    | register r' =>
      obtain ⟨status, hstatus⟩ := hpre.left.served.registered_status hpre
      rw [process_register_some hstatus] at ho
      split at ho
      · cases ho
      · simp only [List.mem_singleton, Output.broadcast.injEq] at ho
        obtain ⟨hb, he⟩ := ho
        have hrr : r = r' := h.registration_unique (mem_registrations.2 hr)
          (mem_registrations.2 (by simp)) hb
        subst hrr
        rw [← event_inj he] at hstatus
        exact .inr ⟨pre, post, rfl, hstatus⟩
    | event e =>
      rw [process_event, notify] at ho
      simp only [List.mem_map, Option.mem_toList, Output.broadcast.injEq] at ho
      obtain ⟨b, hb, rfl, he⟩ := ho
      have hsub := hpre.left.served.subscribed _ _ hb
      have hrr : r = ⟨e.taskId, r.broadcaster⟩ := by
        refine h.registration_unique (mem_registrations.2 hr) ?_ rfl
        rw [registrations, List.filterMap_append]
        exact List.mem_append_left _ hsub
      have hid : e.taskId = r.taskId := congrArg RegisterForNotifications.taskId hrr.symm
      rw [hid] at he hb
      cases e with
      | started m => exact absurd (event_inj he) (by rintro ⟨⟩)
      | finished f => exact .inl ⟨pre, f, post, rfl, hid, hb⟩
    | getStatus m => simp [process_getStatus] at ho
  · rintro (⟨pre, f, post, rfl, hf, hsub⟩ | ⟨pre, post, rfl, hstatus⟩)
    · refine ⟨pre, .ofEvent (.finished f), post, rfl, ?_⟩
      rw [process_event, notify]
      show _ ∈ ((after pre).subscriptions.get f.taskId).toList.map _
      rw [hf, hsub]
      simp [Event.taskId, Event.status, hf]
    · refine ⟨pre, .register r, post, rfl, ?_⟩
      rw [process_register_some hstatus]
      simp

/-- A registration before the end of the task: the broadcaster must still be subscribed then. -/
theorem Disciplined.finished_sent_before {p q s : List (Message B)}
    {r : RegisterForNotifications B} {f : CalculationFinished} (hf : f.taskId = r.taskId)
    (h : Disciplined (p ++ .register r :: (q ++ .finished f :: s))) :
    event r.taskId .FINISHED ∈ sentTo r.broadcaster (p ++ .register r :: (q ++ .finished f :: s)) ↔
      ∀ r' ∈ registrations q, r'.taskId ≠ r.taskId := by
  have hq : Disciplined ((p ++ [.register r]) ++ q) :=
    (show Disciplined (_ ++ .finished f :: s) by simpa using h).left
  have hpre : p ++ .register r :: (q ++ .finished f :: s) =
      ((p ++ [.register r]) ++ q) ++ .finished f :: s := by simp
  rw [h.finished_sent_cases (by simp)]
  constructor
  · rintro (⟨pre, f', post, hms, hf', hsub⟩ | ⟨pre, post, hms, hstatus⟩) r' hr' hid
    · obtain ⟨rfl, -, -⟩ := (h.finished_once r.taskId).unique hpre hms ⟨f, rfl, hf⟩ ⟨f', rfl, hf'⟩
      obtain ⟨b, hb, hmem⟩ := hq.subscription_replaced ⟨r', hr', hid⟩
      rw [hsub] at hb
      cases hb
      obtain ⟨x, y, rfl⟩ := List.append_of_mem (mem_registrations.1 hmem)
      exact h.register_once r p _ x _ (y ++ .finished f :: s) (by simp) rfl rfl
    · obtain ⟨rfl, -, -⟩ := (h.register_once r).unique rfl hms rfl rfl
      have hprog := (status_from hstatus).resolve_left fun hc => absurd hc.1 (by decide)
      have hnil := h.progress_after hprog
      rw [progress, List.filterMap_eq_nil_iff] at hnil
      have := hnil (.finished f) (by simp)
      simp [Message.progress?, hf] at this
  · intro hnone
    refine .inl ⟨_, f, s, hpre, hf, ?_⟩
    rw [hq.subscription_kept hnone, hq.left.subscriptions_concat]
    exact if_pos rfl

/-- A registration after the end of the task: the status must still be there then. -/
theorem Disciplined.finished_sent_after {p q s : List (Message B)}
    {r : RegisterForNotifications B} {f : CalculationFinished} (hf : f.taskId = r.taskId)
    (h : Disciplined (p ++ .finished f :: (q ++ .register r :: s))) :
    event r.taskId .FINISHED ∈ sentTo r.broadcaster (p ++ .finished f :: (q ++ .register r :: s)) ↔
      ∀ a ∈ answeredAfter (p ++ [.finished f]) q, a.taskId ≠ r.taskId := by
  have hq : Disciplined ((p ++ [.finished f]) ++ q) :=
    (show Disciplined (_ ++ .register r :: s) by simpa using h).left
  have hpre : p ++ .finished f :: (q ++ .register r :: s) =
      ((p ++ [.finished f]) ++ q) ++ .register r :: s := by simp
  have hprog : progress r.taskId q = [] := by
    refine hq.progress_after ?_
    rw [progress_concat]
    exact List.mem_append_right _ (by simp [Message.progress?, hf])
  have hend : (after (p ++ [.finished f])).statuses.get r.taskId = some .FINISHED := by
    rw [← hf]
    exact status_after_event p (.finished f)
  have hstatus := hq.status_after hprog
  rw [hend] at hstatus
  rw [h.finished_sent_cases (by simp)]
  constructor
  · rintro (⟨pre, f', post, hms, hf', hsub⟩ | ⟨pre, post, hms, hst⟩) a ha hid
    · obtain ⟨rfl, -, -⟩ := (h.finished_once r.taskId).unique rfl hms ⟨f, rfl, hf⟩ ⟨f', rfl, hf'⟩
      obtain ⟨x, y, rfl⟩ := List.append_of_mem
        (mem_registrations.1 (h.left.served.subscribed _ _ hsub))
      exact h.register_once r x _ (y ++ .finished f :: q) _ s (by simp) rfl rfl
    · obtain ⟨rfl, -, -⟩ := (h.register_once r).unique hpre hms rfl rfl
      rw [hst, if_pos ⟨a, ha, hid⟩] at hstatus
      cases hstatus
  · intro hnone
    refine .inr ⟨_, s, hpre, ?_⟩
    rw [hstatus, if_neg]
    rintro ⟨a, ha, hid⟩
    exact hnone a ha hid

/-- **When a subscriber hears of the end of its task.** A broadcaster registered before the end of
its task is sent the `FINISHED` event exactly when no other registration for the task comes in
between; one registered after the end, exactly when the id is not handed out again in between,
which takes `2 ^ 64` further POSTs. -/
theorem finished_sent_iff {ms : List (Message B)} (h : Disciplined ms)
    {r : RegisterForNotifications B} {f : CalculationFinished} (hf : f.taskId = r.taskId) :
    (∀ p q s, ms = p ++ .register r :: (q ++ .finished f :: s) →
      (event r.taskId .FINISHED ∈ sentTo r.broadcaster ms ↔
        ∀ r' ∈ registrations q, r'.taskId ≠ r.taskId)) ∧
    ∀ p q s, ms = p ++ .finished f :: (q ++ .register r :: s) →
      (event r.taskId .FINISHED ∈ sentTo r.broadcaster ms ↔
        ∀ a ∈ answeredAfter (p ++ [.finished f]) q, a.taskId ≠ r.taskId) := by
  constructor
  · rintro p q s rfl
    exact h.finished_sent_before hf
  · rintro p q s rfl
    exact h.finished_sent_after hf

end

/-! ## Two subscribers of one task -/

/-- The first of two subscribers is never told that the task has ended. -/
theorem finished_missed : Disciplined twoSubscribers ∧ .register ⟨1, 0⟩ ∈ twoSubscribers ∧
    .finished ⟨1, "7", true, none⟩ ∈ twoSubscribers ∧
    event 1 .FINISHED ∉ sentTo 0 twoSubscribers :=
  ⟨twoSubscribers_disciplined, by decide, by decide, by decide⟩

/-- The second one is told. -/
theorem finished_heard : event 1 .FINISHED ∈ sentTo 1 twoSubscribers :=
  ((finished_sent_iff twoSubscribers_disciplined (r := ⟨1, 1⟩)
    (f := ⟨1, "7", true, none⟩) rfl).1 [.newNumber ⟨"7"⟩, .register ⟨1, 0⟩] [.started ⟨1⟩] []
      rfl).2 (by decide)

end

end PrimeTester.TaskStorage
