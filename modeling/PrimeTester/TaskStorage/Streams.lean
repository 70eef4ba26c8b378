import PrimeTester.TaskStorage.Epochs
import PrimeTester.TaskStorage.Orderly
import PrimeTester.TaskStorage.Subscribers

/-!
# What each broadcaster is sent

In any mailbox in which every registration brings a broadcaster of its own, whatever the ids that
are registered for and whatever the events. A registration for an id without a status is sent
nothing, and any other one exactly two things, in this order (`sentTo_register`):

* its catch-up, the status that it finds, unless that is `QUEUED`;
* the events about its id among the messages during which it `stands`: up to the next registration
  for the same id, or up to the next restart of the storage.

`current_shown` draws the conclusion for clients that register for acknowledged ids: at any time the
last event sent to the current subscriber of a task is the status of the task.
-/

namespace PrimeTester.TaskStorage

section
variable {B : Type}

/-- Each registration brings a broadcaster of its own. -/
abbrev Fresh (ms : List (Message B)) : Prop := ((registrations ms).map (·.broadcaster)).Nodup

/-- The message is a registration for `i`. -/
def Message.registers (i : Long) (m : Message B) : Bool :=
  m.registration?.any fun r => r.taskId = i

/-- A message in a state that ends the subscription for `i`: another registration takes its place,
or the storage forgets it. -/
def ends (i : Long) (st : TaskStorage B) (m : Message B) : Bool :=
  m.registers i || (actor B).throws st m

/-- The messages during which a subscription for `i` stands that was made at the end of `pre`. -/
def stands (i : Long) (pre : List (Message B)) : List (Message B) → List (Message B)
  | [] => []
  | m :: ms => if ends i (after pre) m then [] else m :: stands i (pre ++ [m]) ms

/-- What a registration for an id with this status is sent at once. -/
def catchUp (i : Long) (status : Status) : List OutboundEvent :=
  if status = .QUEUED then [] else [event i status]

variable {ms ms' pre : List (Message B)} {m : Message B} {i : Long} {b : B}

theorem Fresh.left (h : Fresh (ms ++ ms')) : Fresh ms := by
  unfold Fresh registrations at h
  rw [List.filterMap_append, List.map_append] at h
  exact h.of_append_left

/-- Two registrations with one broadcaster are one registration. -/
theorem Fresh.unique (h : Fresh ms) {r r' : RegisterForNotifications B}
    (hr : r ∈ registrations ms) (hr' : r' ∈ registrations ms)
    (hb : r.broadcaster = r'.broadcaster) : r = r' := List.inj_on_of_nodup_map h hr hr' hb

/-- The broadcaster of a new registration is not among the earlier ones. -/
theorem Fresh.new {r r' : RegisterForNotifications B} (h : Fresh (ms ++ [.register r]))
    (hr' : r' ∈ registrations ms) : r'.broadcaster ≠ r.broadcaster := by
  unfold Fresh at h
  rw [registrations_concat, List.map_append, List.nodup_append] at h
  exact h.2.2 _ (List.mem_map_of_mem hr') _ (List.mem_singleton_self _)

/-! ## How long a subscription stands -/

theorem stands_start (i : Long) (pre ms : List (Message B)) : stands i pre ms <+: ms := by
  induction ms generalizing pre with
  | nil => exact List.prefix_rfl
  | cons m ms ih =>
    rw [stands]
    split
    · exact List.nil_prefix
    · exact List.cons_prefix_cons.2 ⟨rfl, ih _⟩

/-- What ends a subscription ends it for good. -/
theorem stands_append : stands i pre (ms ++ ms') =
    if (stands i pre ms).length = ms.length then ms ++ stands i (pre ++ ms) ms'
    else stands i pre ms := by
  induction ms generalizing pre with
  | nil => rw [List.append_nil, List.nil_append, List.nil_append]; rfl
  | cons m ms ih =>
    rw [List.cons_append, stands, stands]
    by_cases h : ends i (after pre) m
    · rw [if_pos h, if_pos h]
      exact (if_neg (Nat.succ_ne_zero _).symm).symm
    · rw [if_neg h, if_neg h, ih, List.append_assoc, List.singleton_append, List.length_cons,
        List.length_cons]
      simp only [Nat.add_right_cancel_iff]
      split
      · rfl
      · rfl

/-- A subscription stands during all messages exactly when none of them ends it. -/
theorem stands_concat_eq : stands i pre (ms ++ [m]) = ms ++ [m] ↔
    stands i pre ms = ms ∧ ends i (after (pre ++ ms)) m = false := by
  rw [stands_append]
  constructor
  · intro h
    split at h
    · rename_i hlen
      refine ⟨(stands_start i pre ms).eq_of_length hlen, Bool.eq_false_iff.2 fun hends => ?_⟩
      rw [stands, if_pos hends] at h
      simp at h
    · have hle := (stands_start i pre ms).length_le
      rw [h, List.length_append, List.length_singleton] at hle
      omega
  · rintro ⟨h, hends⟩
    rw [if_pos (congrArg List.length h), stands, if_neg (by rw [hends]; exact Bool.false_ne_true)]
    rfl

/-- What ends a subscription is no event. -/
theorem progress?_of_ends {st : TaskStorage B} {j : Long} (h : ends i st m) :
    m.progress? j = none := by
  cases m using Message.casesEvent with
  | event e => cases e <;> cases h
  | _ => rfl

/-- A subscription is the one that some registration asked for. -/
theorem subscribed (h : (after ms).subscriptions.get i = some b) :
    ⟨i, b⟩ ∈ registrations ms := by
  induction ms using List.reverseRecOn with
  | nil => cases h
  | append_singleton ms m ih =>
    rw [registrations_concat, List.mem_append]
    rw [after, Actor.after_concat] at h
    cases m using Message.casesEvent with
    | newNumber m => exact .inl (ih h)
    | register r =>
      cases hstatus : (after ms).statuses.get r.taskId with
      | none =>
        rw [process_register_none hstatus] at h
        cases h
      | some status =>
        rw [process_register_some hstatus] at h
        replace h : ((after ms).subscriptions.put r.taskId r.broadcaster).get i = some b := h
        rw [HashMap.get_put] at h
        split at h
        · rename_i hi
          cases h
          exact .inr (by rw [hi]; exact List.mem_singleton_self _)
        · exact .inl (ih h)
    | event e =>
      rw [process_event] at h
      exact .inl (ih h)
    | getStatus m => exact .inl (ih h)

/-- After one more message the subscription is still there exactly when the message does not end
it. -/
theorem subscription_concat (hfresh : Fresh (ms ++ [m])) (hb : ⟨i, b⟩ ∈ registrations ms) :
    (after (ms ++ [m])).subscriptions.get i = some b ↔
      (after ms).subscriptions.get i = some b ∧ ends i (after ms) m = false := by
  rw [after, Actor.after_concat]
  unfold ends
  cases m using Message.casesEvent with
  | newNumber m => exact (and_iff_left rfl).symm
  | register r =>
    cases hstatus : (after ms).statuses.get r.taskId with
    | none =>
      rw [process_register_none hstatus, throws_iff.2 ⟨r, rfl, hstatus⟩, Bool.or_true]
      simp [fresh]
    | some status =>
      have hthrows : (actor B).throws (after ms) (.register r) = false := by
        simp [Actor.throws, actor, receive, register_some hstatus]
      rw [process_register_some hstatus, hthrows, Bool.or_false]
      show ((after ms).subscriptions.put r.taskId r.broadcaster).get i = some b ↔ _
      rw [HashMap.get_put]
      by_cases hi : r.taskId = i
      · have hne : r.broadcaster ≠ b := (hfresh.new hb).symm
        simp [Message.registers, Message.registration?, hi, hne]
      · simp [Message.registers, Message.registration?, hi, Ne.symm hi]
  | event e =>
    have hends : ((Message.ofEvent e : Message B).registers i ||
        (actor B).throws (after ms) (.ofEvent e)) = false := by
      cases e <;>
        simp [Message.registers, Message.registration?, Message.ofEvent, Actor.throws, actor,
          receive, recordStateChange_eq]
    rw [process_event, hends]
    exact (and_iff_left rfl).symm
  | getStatus m => exact (and_iff_left rfl).symm

/-- The subscription of a registration is there as long as it stands. -/
theorem subscription_register {r : RegisterForNotifications B}
    (hfresh : Fresh ((ms ++ [.register r]) ++ ms')) {status : Status}
    (hstatus : (after ms).statuses.get r.taskId = some status) :
    (after ((ms ++ [.register r]) ++ ms')).subscriptions.get r.taskId = some r.broadcaster ↔
      stands r.taskId (ms ++ [.register r]) ms' = ms' := by
  induction ms' using List.reverseRecOn with
  | nil =>
    rw [List.append_nil, after, Actor.after_concat, process_register_some hstatus]
    exact iff_of_true (HashMap.get_put_self _ _ _) rfl
  | append_singleton ms' m ih =>
    rw [← List.append_assoc] at hfresh ⊢
    rw [subscription_concat hfresh (mem_registrations.2 (by simp)), ih hfresh.left,
      stands_concat_eq]

/-! ## What is sent -/

variable [DecidableEq B]

/-- One message sends a broadcaster the event about its id, if it is subscribed. -/
theorem sentTo_process (hfresh : Fresh (ms ++ [m])) (hb : ⟨i, b⟩ ∈ registrations ms) :
    ((actor B).process (after ms) m).2.filterMap (Output.event? b) =
      if (after ms).subscriptions.get i = some b then (m.progress? i).toList.map (event i)
      else [] := by
  cases m using Message.casesEvent with
  | newNumber m => simp [process_newNumber, queueNewMessage, Output.event?, Message.progress?]
  | register r =>
    have hne : r.broadcaster ≠ b := (hfresh.new hb).symm
    cases hstatus : (after ms).statuses.get r.taskId with
    | none => simp [process_register_none hstatus, Message.progress?]
    | some status =>
      rw [process_register_some hstatus]
      by_cases hq : status = .QUEUED
      · simp [hq, Message.progress?]
      · simp [hq, Output.event?, hne, Message.progress?]
  | event e =>
    rw [process_event, notify_event, progress?_ofEvent]
    by_cases hi : e.taskId = i
    · rw [hi, if_pos rfl]
      rfl
    · have hsub : (after ms).subscriptions.get e.taskId ≠ some b := by
        intro hc
        have heq := hfresh.left.unique (subscribed hc) hb rfl
        exact hi (congrArg RegisterForNotifications.taskId heq)
      rw [if_neg hsub, if_neg hi]
      simp
  | getStatus m => simp [process_getStatus, Output.event?, Message.progress?]

/-- Nothing is sent to a broadcaster that nobody registered. -/
theorem sentTo_unregistered (h : ∀ r ∈ registrations ms, r.broadcaster ≠ b) :
    sentTo b ms = [] := by
  induction ms using List.reverseRecOn with
  | nil => rfl
  | append_singleton ms m ih =>
    rw [registrations_concat] at h
    have hold : ∀ r ∈ registrations ms, r.broadcaster ≠ b :=
      fun r hr => h r (List.mem_append_left _ hr)
    rw [sentTo_concat, ih hold, List.nil_append]
    cases m using Message.casesEvent with
    | newNumber m => rfl
    | register r =>
      have hne : r.broadcaster ≠ b := h r (List.mem_append_right _ (List.mem_singleton_self _))
      cases hstatus : (after ms).statuses.get r.taskId with
      | none => rw [process_register_none hstatus]; rfl
      | some status =>
        rw [process_register_some hstatus]
        by_cases hq : status = .QUEUED
        · simp [hq]
        · simp [hq, Output.event?, hne]
    | event e =>
      rw [process_event, notify_event, if_neg]
      intro hc
      exact hold _ (subscribed hc) rfl
    | getStatus m => rfl

/-- A registration sends its own broadcaster the catch-up. -/
theorem sentTo_registration {r : RegisterForNotifications B}
    (hfresh : Fresh (ms ++ [.register r])) :
    sentTo r.broadcaster (ms ++ [.register r]) =
      ((after ms).statuses.get r.taskId).elim [] (catchUp r.taskId) := by
  rw [sentTo_concat, sentTo_unregistered fun r' hr' => hfresh.new hr', List.nil_append]
  cases hstatus : (after ms).statuses.get r.taskId with
  | none => rw [process_register_none hstatus]; rfl
  | some status =>
    rw [process_register_some hstatus, Option.elim_some, catchUp]
    by_cases hq : status = .QUEUED
    · simp [hq]
    · simp [hq, Output.event?]

/-- A broadcaster that is not subscribed any more is sent nothing any more. -/
theorem sentTo_unsubscribed (hfresh : Fresh (ms ++ ms')) (hb : ⟨i, b⟩ ∈ registrations ms)
    (hnone : (after ms).subscriptions.get i ≠ some b) :
    (after (ms ++ ms')).subscriptions.get i ≠ some b ∧ sentTo b (ms ++ ms') = sentTo b ms := by
  induction ms' using List.reverseRecOn with
  | nil => rw [List.append_nil]; exact ⟨hnone, rfl⟩
  | append_singleton ms' m ih =>
    rw [← List.append_assoc] at hfresh ⊢
    obtain ⟨hsub, hsent⟩ := ih hfresh.left
    have hb' : ⟨i, b⟩ ∈ registrations (ms ++ ms') := by
      rw [registrations, List.filterMap_append]
      exact List.mem_append_left _ hb
    refine ⟨fun hc => hsub ((subscription_concat hfresh hb').1 hc).1, ?_⟩
    rw [sentTo_concat, sentTo_process hfresh hb', if_neg hsub, List.append_nil, hsent]

/-- While it stands, a subscription is sent all events about its id, and nothing after that. -/
theorem sentTo_standing {r : RegisterForNotifications B}
    (hfresh : Fresh ((ms ++ [.register r]) ++ ms')) {status : Status}
    (hstatus : (after ms).statuses.get r.taskId = some status) :
    sentTo r.broadcaster ((ms ++ [.register r]) ++ ms') = catchUp r.taskId status ++
      (progress r.taskId (stands r.taskId (ms ++ [.register r]) ms')).map (event r.taskId) := by
  induction ms' using List.reverseRecOn with
  | nil =>
    rw [List.append_nil] at hfresh ⊢
    rw [sentTo_registration hfresh, hstatus]
    exact (List.append_nil _).symm
  | append_singleton ms' m ih =>
    rw [← List.append_assoc] at hfresh ⊢
    have hr : ⟨r.taskId, r.broadcaster⟩ ∈ registrations ((ms ++ [.register r]) ++ ms') :=
      mem_registrations.2 (by simp)
    rw [sentTo_concat, ih hfresh.left, sentTo_process hfresh hr, List.append_assoc, stands_append]
    by_cases hsub :
        (after ((ms ++ [.register r]) ++ ms')).subscriptions.get r.taskId = some r.broadcaster
    · have hstands := (subscription_register hfresh.left hstatus).1 hsub
      rw [if_pos hsub, if_pos (congrArg List.length hstands), hstands, ← List.map_append]
      congr 2
      rw [stands]
      split
      · rename_i hends
        rw [progress?_of_ends hends, List.append_nil]
        exact List.append_nil _
      · rw [stands, progress_concat]
    · have hstands := mt (subscription_register hfresh.left hstatus).2 hsub
      rw [if_neg hsub, List.append_nil, if_neg]
      intro hlen
      exact hstands ((stands_start _ _ _).eq_of_length hlen)

/-- **What a broadcaster is sent.** In any mailbox whose registrations bring fresh broadcasters, the
broadcaster of a registration is sent nothing at all if the id has no status then, and otherwise its
catch-up and the events about the id until the next registration for it, or the next restart. -/
theorem sentTo_register {r : RegisterForNotifications B}
    (hfresh : Fresh (ms ++ .register r :: ms')) :
    sentTo r.broadcaster (ms ++ .register r :: ms') =
      match (after ms).statuses.get r.taskId with
      | none => []
      | some status => catchUp r.taskId status ++
          (progress r.taskId (stands r.taskId (ms ++ [.register r]) ms')).map (event r.taskId) := by
  rw [List.append_cons] at hfresh ⊢
  cases hstatus : (after ms).statuses.get r.taskId with
  | none =>
    have hnone : (after (ms ++ [.register r])).subscriptions.get r.taskId ≠ some r.broadcaster := by
      rw [after, Actor.after_concat, process_register_none hstatus]
      exact (Option.some_ne_none _).symm
    rw [(sentTo_unsubscribed hfresh (mem_registrations.2 (by simp)) hnone).2,
      sentTo_registration hfresh.left, hstatus]
    rfl
  | some status => exact sentTo_standing hfresh hstatus

/-! ## The current subscriber -/

omit [DecidableEq B] in
/-- Registrations for acknowledged tasks make nothing restart. -/
theorem RegistersAnswered.noRestart (h : RegistersAnswered ms)
    (hlen : (posted ms).length ≤ 2 ^ 64) : NoRestart ms := by
  intro pre m post hms
  subst hms
  refine Bool.eq_false_iff.2 fun hthrows => ?_
  obtain ⟨r, rfl, hnone⟩ := throws_iff.1 hthrows
  obtain ⟨a, ha, hid⟩ := h pre _ post rfl r rfl
  refine RegistersAnswered.status_of_answered (Always.left h) ?_ ha (hid ▸ hnone)
  exact (length_posted_left pre _).trans hlen

omit [DecidableEq B] in
/-- The id of the next POST was not answered with before. -/
theorem RegistersAnswered.next_id_ne (h : RegistersAnswered ms)
    (hlen : (posted ms).length < 2 ^ 64) {a : TaskIdAssignedMessage} (ha : a ∈ answered ms) :
    (after ms).id + 1 ≠ a.taskId := by
  have hno := h.noRestart hlen.le
  rw [answered_eq hno.noLateRestart hlen.le] at ha
  rw [hno.next_id hlen.le]
  exact (next_id_new hlen ha).symm

omit [DecidableEq B] in
/-- The status of an acknowledged task is that of the last event since, if there is any. -/
theorem RegistersAnswered.status_append (h : RegistersAnswered (ms ++ ms'))
    (hlen : (posted (ms ++ ms')).length ≤ 2 ^ 64) {a : TaskIdAssignedMessage}
    (ha : a ∈ answered ms) : (after (ms ++ ms')).statuses.get a.taskId =
      (progress a.taskId ms').getLast?.or ((after ms).statuses.get a.taskId) := by
  refine (h.noRestart hlen).status_append fun pre m post hms => ?_
  subst hms
  rw [← List.append_assoc] at h hlen
  refine RegistersAnswered.next_id_ne (Always.left h) ?_ (mem_answered_append ha)
  rw [posted_append, posted_newNumber, List.length_append, List.length_cons] at hlen
  omega

omit [DecidableEq B] in
/-- No event announces that a task is queued. -/
theorem queued_notMem_progress (i : Long) (ms : List (Message B)) : .QUEUED ∉ progress i ms := by
  intro h
  obtain ⟨m, -, hm⟩ := List.mem_filterMap.1 h
  cases m using Message.casesEvent with
  | event e =>
    rw [progress?_ofEvent] at hm
    obtain ⟨-, hs⟩ := Option.ite_none_right_eq_some.1 hm
    cases e <;> cases hs
  | _ => cases hm

/-- The events after a catch-up end with the last status, if there is any. -/
theorem getLast?_stream (i : Long) (status : Status) {l : List Status} (hl : .QUEUED ∉ l) :
    (catchUp i status ++ l.map (event i)).getLast? =
      (catchUp i (l.getLast?.getD status)).getLast? := by
  induction l using List.reverseRecOn with
  | nil => rw [List.map_nil, List.append_nil]; rfl
  | append_singleton l s _ =>
    have hs : s ≠ .QUEUED := by
      rintro rfl
      exact hl (List.mem_append_right _ (List.mem_singleton_self _))
    rw [List.map_append, List.map_singleton, ← List.append_assoc, List.getLast?_concat,
      List.getLast?_concat, Option.getD_some, catchUp, if_neg hs]
    rfl

/-- **The current subscriber of a task is up to date.** When clients register for acknowledged ids
only, each with a fresh broadcaster, the last event sent to the current subscriber of a task is its
status at any time, and while that is `QUEUED` nothing has been sent. -/
theorem current_shown (h : RegistersAnswered ms) (hfresh : Fresh ms)
    (hlen : (posted ms).length ≤ 2 ^ 64) (hb : (after ms).subscriptions.get i = some b) :
    ∃ status, (after ms).statuses.get i = some status ∧
      (sentTo b ms).getLast? = if status = .QUEUED then none else some (event i status) := by
  obtain ⟨pre, post, rfl⟩ := List.append_of_mem (mem_registrations.1 (subscribed hb))
  obtain ⟨a, ha, rfl⟩ := h pre _ post rfl ⟨i, b⟩ rfl
  have hlen' : (posted pre).length ≤ 2 ^ 64 := (length_posted_left pre _).trans hlen
  obtain ⟨status, hstatus⟩ := Option.ne_none_iff_exists'.1
    (RegistersAnswered.status_of_answered (Always.left h) hlen' ha)
  have hnow := RegistersAnswered.status_append h hlen ha
  rw [List.append_cons] at hfresh hb
  have hsent := sentTo_standing (r := ⟨a.taskId, b⟩) hfresh hstatus
  rw [(subscription_register (r := ⟨a.taskId, b⟩) hfresh hstatus).1 hb, ← List.append_cons]
    at hsent
  have hprogress : progress a.taskId (.register ⟨a.taskId, b⟩ :: post) =
      progress a.taskId post := rfl
  rw [hstatus, hprogress] at hnow
  refine ⟨(progress a.taskId post).getLast?.getD status, ?_, ?_⟩
  · rw [hnow]
    cases (progress a.taskId post).getLast? <;> rfl
  · rw [hsent, getLast?_stream _ _ (queued_notMem_progress _ _), catchUp]
    split
    · rfl
    · rfl

/-! ## Orderly mailboxes -/

omit [DecidableEq B] in
theorem event_eq {j : Long} {status status' : Status} (h : event i status = event j status') :
    i = j ∧ status = status' := by
  refine ⟨congrArg (fun e => e.data.taskId) h, ?_⟩
  have hs := congrArg (fun e => e.data.status.actorStatus) h
  simpa [event] using hs

/-- A status that a message sends is recorded with that message at the latest. -/
theorem recorded_of_process {st : TaskStorage B} {o : Output B} {status : Status}
    (ho : o ∈ ((actor B).process st m).2) (he : o.event? b = some (event i status)) :
    ((actor B).process st m).1.statuses.get i = some status := by
  cases m using Message.casesEvent with
  | newNumber m =>
    rw [process_newNumber, queueNewMessage, List.mem_pair] at ho
    rcases ho with rfl | rfl
    · cases he
    · cases he
  | register r =>
    cases hstatus : st.statuses.get r.taskId with
    | none =>
      rw [process_register_none hstatus] at ho
      cases ho
    | some found =>
      rw [process_register_some hstatus] at ho ⊢
      split at ho
      · cases ho
      · rw [List.mem_singleton.1 ho, Output.event?] at he
        obtain ⟨-, he⟩ := Option.ite_none_right_eq_some.1 he
        obtain ⟨rfl, rfl⟩ := event_eq (Option.some_inj.1 he)
        exact hstatus
  | event e =>
    rw [process_event] at ho ⊢
    obtain ⟨b', -, rfl⟩ := List.mem_map.1 ho
    obtain ⟨-, he⟩ := Option.ite_none_right_eq_some.1 he
    obtain ⟨rfl, rfl⟩ := event_eq (Option.some_inj.1 he)
    exact HashMap.get_put_self _ _ _
  | getStatus m =>
    rw [process_getStatus, List.mem_singleton] at ho
    rw [ho] at he
    cases he

/-- Where events arrive in order, a status that was sent is not taken back. -/
theorem Orderly.sent_le (h : Orderly ms) (hlen : (posted ms).length ≤ 2 ^ 64) {status : Status}
    (hsent : event i status ∈ sentTo b ms) :
    ∃ status', (after ms).statuses.get i = some status' ∧ status ≤ status' := by
  obtain ⟨o, hout, he⟩ := List.mem_filterMap.1 hsent
  obtain ⟨pre, m, post, rfl, ho⟩ := Actor.mem_outputs.1 hout
  rw [List.append_cons] at h hlen ⊢
  refine h.status_mono hlen ?_
  rw [after, Actor.after_concat]
  exact recorded_of_process ho he

theorem pairwise_events : [Status.STARTED, .FINISHED].Pairwise (· < ·) := by decide

/-- Where events arrive in order, the stream of a broadcaster is at most the start and the end of
its task, in this order, and goes on from the status that the registration finds. -/
theorem Orderly.stream {r : RegisterForNotifications B} (h : Orderly (ms ++ .register r :: ms'))
    (hfresh : Fresh (ms ++ .register r :: ms'))
    (hlen : (posted (ms ++ .register r :: ms')).length ≤ 2 ^ 64) :
    ∃ (status : Status) (l : List Status), (after ms).statuses.get r.taskId = some status ∧
      l.Sublist [.STARTED, .FINISHED] ∧ (∀ status' ∈ l, status ≤ status') ∧
      sentTo r.broadcaster (ms ++ .register r :: ms') = l.map (event r.taskId) := by
  have hlen' : (posted ms).length ≤ 2 ^ 64 := (length_posted_left ms _).trans hlen
  obtain ⟨status, hstatus⟩ := Option.ne_none_iff_exists'.1
    ((h.left.status_ne_none hlen').2 (h.registered ms _ ms' rfl r rfl))
  have hevents := h.events r.taskId
  have hprogress : progress r.taskId (ms ++ .register r :: ms') =
      progress r.taskId ms ++ progress r.taskId ms' := List.filterMap_append
  rw [hprogress] at hevents
  have hlater : (progress r.taskId (stands r.taskId (ms ++ [.register r]) ms')).Sublist
      (progress r.taskId ms') := (stands_start _ _ _).sublist.filterMap _
  refine ⟨status, ?_⟩
  rw [List.append_cons] at hfresh ⊢
  rw [sentTo_standing hfresh hstatus, catchUp]
  by_cases hq : status = .QUEUED
  · refine ⟨_, hstatus, ?_, fun status' _ => ?_, by rw [if_pos hq, List.nil_append]⟩
    · exact (hlater.trans (List.sublist_append_right _ _)).trans hevents
    · rw [hq]
      exact Status.QUEUED_le status'
  · have hp : status ∈ progress r.taskId ms := by
      rcases status_from hstatus with ⟨hq', -⟩ | hp
      · exact absurd hq' hq
      · exact hp
    have hstream : (status :: progress r.taskId (stands r.taskId (ms ++ [.register r]) ms')).Sublist
        [.STARTED, .FINISHED] := ((List.singleton_sublist.2 hp).append hlater).trans hevents
    have hlt := (List.pairwise_cons.1 (pairwise_events.sublist hstream)).1
    refine ⟨_, hstatus, hstream, fun status' hs => ?_, by rw [if_neg hq]; rfl⟩
    rcases List.mem_cons.1 hs with rfl | hs
    · exact le_refl _
    · exact (hlt status' hs).le

/-- What is sent after a registration is not before what was sent about the task until then. -/
theorem Orderly.stream_ge {r : RegisterForNotifications B} (h : Orderly (ms ++ .register r :: ms'))
    (hfresh : Fresh (ms ++ .register r :: ms'))
    (hlen : (posted (ms ++ .register r :: ms')).length ≤ 2 ^ 64) {status status' : Status}
    (hold : event r.taskId status ∈ sentTo b ms)
    (hnew : event r.taskId status' ∈ sentTo r.broadcaster (ms ++ .register r :: ms')) :
    status ≤ status' := by
  obtain ⟨found, l, hfound, -, hle, hsent⟩ := h.stream hfresh hlen
  obtain ⟨now, hnow, hold⟩ := h.left.sent_le ((length_posted_left ms _).trans hlen) hold
  rw [hnow, Option.some_inj] at hfound
  rw [hsent] at hnew
  obtain ⟨_, hl, heq⟩ := List.mem_map.1 hnew
  rw [(event_eq heq).2] at hl
  exact hold.trans (hfound ▸ hle _ hl)

/-! ## Two subscribers of one task -/

/-- The stream of the first subscriber ends when the second one registers, before anything is
sent; the second one is sent both events. -/
theorem sentTo_register_first : sentTo 0 twoSubscribers = [] ∧
    sentTo 1 twoSubscribers = [event 1 .STARTED, event 1 .FINISHED] := by
  have hfirst : sentTo 0 ([.newNumber ⟨"7"⟩] ++ .register ⟨1, 0⟩ ::
      [.register ⟨1, 1⟩, .started ⟨1⟩, .finished ⟨1, "7", true, none⟩]) = _ :=
    sentTo_register (r := ⟨1, 0⟩) (by decide)
  have hsecond : sentTo 1 ([.newNumber ⟨"7"⟩, .register ⟨1, 0⟩] ++ .register ⟨1, 1⟩ ::
      [.started ⟨1⟩, .finished ⟨1, "7", true, none⟩]) = _ :=
    sentTo_register (r := ⟨1, 1⟩) (by decide)
  exact ⟨hfirst, hsecond⟩

end

end PrimeTester.TaskStorage
