import PrimeTester.TaskStorage.Runs

/-!
# Subscribers

What the broadcasters that `TasksEndpoint.suspend` registers are sent. `Disciplined ms` is what a
mailbox looks like when clients register only for ids that a POST was answered with, each with a
broadcaster of its own, and the events of a task arrive at most once each and in order.

Then every broadcaster gets a strictly advancing stream of events about its own task
(`sentTo_advances`). The invariant behind it is `Served`.
-/

namespace PrimeTester.TaskStorage

section
variable {B : Type}

/-! ## Mailboxes -/

/-- The mailbox of a storage whose clients and workers behave. -/
structure Disciplined (ms : List (Message B)) : Prop where
  /-- Registrations are for ids that a POST was answered with. -/
  registered : Always (fun pre m => ∀ r ∈ m.registration?,
    ∃ a ∈ answered pre, a.taskId = r.taskId) ms
  /-- Each registration brings a fresh broadcaster. -/
  broadcasters : ((registrations ms).map (·.broadcaster)).Nodup
  /-- The events of a task are at most one start followed by at most one end. -/
  events : ∀ i, (progress i ms).Sublist [.STARTED, .FINISHED]

theorem Disciplined.left {ms ms' : List (Message B)} (h : Disciplined (ms ++ ms')) :
    Disciplined ms where
  registered := h.registered.left
  broadcasters := by
    have := h.broadcasters
    rw [registrations, List.filterMap_append, List.map_append] at this
    exact this.of_append_left
  events i := (progress_left i ms ms').trans (h.events i)

/-- An event comes after all earlier ones of its task in the order of the statuses. -/
theorem Disciplined.progress_lt {ms : List (Message B)} {e : Event}
    (h : Disciplined (ms ++ [.ofEvent e])) {status : Status}
    (hs : status ∈ progress e.taskId ms) : status < e.status :=
  lt_status_of_progress (h.events e.taskId) hs

/-- Two registrations with one broadcaster are one registration. -/
theorem Disciplined.registration_unique {ms : List (Message B)} (h : Disciplined ms)
    {r r' : RegisterForNotifications B} (hr : r ∈ registrations ms) (hr' : r' ∈ registrations ms)
    (hb : r.broadcaster = r'.broadcaster) : r = r' :=
  List.inj_on_of_nodup_map h.broadcasters hr hr' hb

/-! ## What a broadcaster is sent -/

variable [DecidableEq B]

/-- The event that an output sends to `b`, if any. -/
def Output.event? (b : B) : Output B → Option OutboundEvent
  | .broadcast b' event => if b' = b then some event else none
  | _ => none

/-- The events that the storage sends to `b`, in order. -/
def sentTo (b : B) (ms : List (Message B)) : List OutboundEvent :=
  (outputs ms).filterMap (Output.event? b)

theorem sentTo_concat (b : B) (ms : List (Message B)) (m : Message B) :
    sentTo b (ms ++ [m]) =
      sentTo b ms ++ ((actor B).process (after ms) m).2.filterMap (Output.event? b) := by
  rw [sentTo, outputs, Actor.outputs_concat, List.filterMap_append]
  rfl

/-- A status change is sent to the broadcaster that is registered last. -/
theorem notify_event (st : TaskStorage B) (i : Long) (status : Status) (b : B) :
    (st.notify i status).filterMap (Output.event? b) =
      if st.subscriptions.get i = some b then [event i status] else [] := by
  rw [notify]
  cases st.subscriptions.get i with
  | none => rfl
  | some b' =>
    by_cases hb : b' = b
    · simp [Output.event?, hb]
    · simp [Output.event?, hb]

/-- What the subscribers of a disciplined mailbox have been sent, and why. -/
structure Served (ms : List (Message B)) : Prop where
  /-- A subscription comes from a registration. -/
  subscribed : ∀ i b, (after ms).subscriptions.get i = some b → ⟨i, b⟩ ∈ registrations ms
  /-- A broadcaster was sent some of the announced statuses of its task, in order. -/
  sent : ∀ r ∈ registrations ms, ∃ l : List Status,
    sentTo r.broadcaster ms = l.map (event r.taskId) ∧ l.Pairwise (· < ·) ∧
      ∀ status ∈ l, status ∈ progress r.taskId ms
  /-- Nothing is sent to a broadcaster that nobody registered. -/
  unsent : ∀ b, (∀ r ∈ registrations ms, r.broadcaster ≠ b) → sentTo b ms = []
  /-- An acknowledged task has a status. -/
  alive : ∀ a ∈ answered ms, (after ms).statuses.get a.taskId ≠ none

theorem Served.nil : Served ([] : List (Message B)) where
  subscribed i b h := by cases h
  sent r hr := by cases hr
  unsent b _ := rfl
  alive a ha := by cases ha

/-- A registration under the discipline finds a status, so it does not restart the storage. -/
theorem Served.registered_status {ms : List (Message B)} (h : Served ms)
    {r : RegisterForNotifications B} (hd : Disciplined (ms ++ [.register r])) :
    ∃ status, (after ms).statuses.get r.taskId = some status := by
  obtain ⟨a, ha, hid⟩ := (Always.concat.1 hd.registered).2 r rfl
  exact Option.ne_none_iff_exists'.1 (hid ▸ h.alive a ha)

theorem Served.register {ms : List (Message B)} (h : Served ms) {r : RegisterForNotifications B}
    (hd : Disciplined (ms ++ [.register r])) : Served (ms ++ [.register r]) := by
  obtain ⟨status, hstatus⟩ := h.registered_status hd
  have hregs : registrations (ms ++ [.register r]) = registrations ms ++ [r] :=
    registrations_concat ms _
  have hprog (i : Long) : progress i (ms ++ [.register r]) = progress i ms :=
    progress_concat_of_none ms rfl
  have hproc : (actor B).process (after ms) (.register r) = _ := process_register_some hstatus
  have hsent (b : B) : sentTo b (ms ++ [.register r]) = sentTo b ms ++
      if status ≠ .QUEUED ∧ r.broadcaster = b then [event r.taskId status] else [] := by
    rw [sentTo_concat, hproc]
    by_cases hq : status = .QUEUED <;> by_cases hb : r.broadcaster = b <;>
      simp [hq, hb, Output.event?]
  have hnew : ∀ r' ∈ registrations ms, r'.broadcaster ≠ r.broadcaster := by
    intro r' hr' hb
    have := hd.broadcasters
    rw [hregs, List.map_append, List.nodup_append] at this
    exact this.2.2 _ (List.mem_map_of_mem hr') _ (List.mem_singleton_self _) hb
  refine ⟨fun i b hb => ?_, fun r' hr' => ?_, fun b hb => ?_, fun a ha => ?_⟩
  · rw [after, Actor.after_concat, hproc] at hb
    replace hb : ((after ms).subscriptions.put r.taskId r.broadcaster).get i = some b := hb
    rw [HashMap.get_put] at hb
    rw [hregs, List.mem_append]
    split at hb
    · rename_i hi
      cases hb
      exact .inr (List.mem_singleton.2 (by rw [hi]))
    · exact .inl (h.subscribed i b hb)
  · rw [hsent, hprog]
    rw [hregs, List.mem_append, List.mem_singleton] at hr'
    rcases hr' with hr' | rfl
    · rw [if_neg fun hc => hnew r' hr' hc.2.symm, List.append_nil]
      exact h.sent r' hr'
    · rw [h.unsent _ hnew, List.nil_append]
      by_cases hq : status = .QUEUED
      · exact ⟨[], by simp [hq], .nil, by simp⟩
      · refine ⟨[status], by simp [hq], List.pairwise_singleton _ _, fun s hs => ?_⟩
        rw [List.mem_singleton.1 hs]
        exact (status_from hstatus).resolve_left fun hc => hq hc.1
  · rw [hsent, if_neg fun hc => hb r (by rw [hregs]; simp) hc.2, List.append_nil]
    exact h.unsent b fun r' hr' => hb r' (by rw [hregs]; exact List.mem_append_left _ hr')
  · rw [after, Actor.after_concat, hproc]
    rw [answered_concat_of_none ms rfl] at ha
    exact h.alive a ha

theorem Served.event {ms : List (Message B)} (h : Served ms) {e : Event}
    (hd : Disciplined (ms ++ [.ofEvent e])) : Served (ms ++ [.ofEvent e]) := by
  have hregs : registrations (ms ++ [.ofEvent e]) = registrations ms :=
    registrations_concat_of_none ms (registration?_ofEvent e)
  have hprog (i : Long) : progress i (ms ++ [.ofEvent e]) =
      progress i ms ++ if e.taskId = i then [e.status] else [] := by
    rw [progress_concat, progress?_ofEvent]
    split <;> rfl
  have hproc := process_event (after ms) e
  have hsent (b : B) : sentTo b (ms ++ [.ofEvent e]) = sentTo b ms ++
      if (after ms).subscriptions.get e.taskId = some b then [TaskStorage.event e.taskId e.status]
      else [] := by
    rw [sentTo_concat, hproc, notify_event]
  refine ⟨fun i b hb => ?_, fun r hr => ?_, fun b hb => ?_, fun a ha => ?_⟩
  · rw [after, Actor.after_concat, hproc] at hb
    rw [hregs]
    exact h.subscribed i b hb
  · rw [hregs] at hr
    obtain ⟨l, hl, hlt, hmem⟩ := h.sent r hr
    rw [hsent, hl]
    by_cases hsub : (after ms).subscriptions.get e.taskId = some r.broadcaster
    · have hid : e.taskId = r.taskId :=
        congrArg RegisterForNotifications.taskId
          (hd.left.registration_unique (h.subscribed _ _ hsub) hr rfl)
      refine ⟨l ++ [e.status], ?_, ?_, fun s hs => ?_⟩
      · rw [if_pos hsub, List.map_append, hid]
        rfl
      · refine List.pairwise_append.2 ⟨hlt, List.pairwise_singleton _ _, fun s hs s' hs' => ?_⟩
        rw [List.mem_singleton.1 hs']
        exact hd.progress_lt (hid ▸ hmem s hs)
      · rw [hprog, if_pos hid]
        rcases List.mem_append.1 hs with hs | hs
        · exact List.mem_append_left _ (hmem s hs)
        · exact List.mem_append_right _ hs
    · refine ⟨l, by rw [if_neg hsub, List.append_nil], hlt, fun s hs => ?_⟩
      rw [hprog]
      exact List.mem_append_left _ (hmem s hs)
  · rw [hregs] at hb
    rw [hsent, if_neg, List.append_nil]
    · exact h.unsent b hb
    · intro hsub
      exact hb _ (h.subscribed _ _ hsub) rfl
  · rw [after, Actor.after_concat, hproc]
    rw [answered_concat_of_none ms (number?_ofEvent e)] at ha
    exact HashMap.get_put_ne_none _ _ _ (h.alive a ha)

theorem Served.newNumber {ms : List (Message B)} (h : Served ms)
    (m : NewNumberCalculationMessage) : Served (ms ++ [.newNumber m]) := by
  have hregs : registrations (ms ++ [.newNumber m]) = registrations ms :=
    registrations_concat_of_none ms rfl
  have hprog (i : Long) : progress i (ms ++ [.newNumber m]) = progress i ms :=
    progress_concat_of_none ms rfl
  have hsent (b : B) : sentTo b (ms ++ [.newNumber m]) = sentTo b ms := by
    rw [sentTo_concat]
    exact List.append_nil _
  have hstatus (i : Long) : (after (ms ++ [.newNumber m])).statuses.get i =
      if i = (after ms).id + 1 then some .QUEUED else (after ms).statuses.get i := by
    rw [after, Actor.after_concat]
    rfl
  refine ⟨fun i b hb => ?_, fun r hr => ?_, fun b hb => ?_, fun a ha => ?_⟩
  · rw [after, Actor.after_concat] at hb
    rw [hregs]
    exact h.subscribed i b hb
  · rw [hregs] at hr
    rw [hsent, hprog]
    exact h.sent r hr
  · rw [hregs] at hb
    rw [hsent]
    exact h.unsent b hb
  · rw [hstatus]
    rw [answered_concat] at ha
    split
    · exact Option.some_ne_none _
    · rename_i hne
      rcases List.mem_append.1 ha with ha | ha
      · exact h.alive a ha
      · rw [List.mem_singleton.1 ha] at hne
        exact absurd rfl hne

theorem Served.getStatus {ms : List (Message B)} (h : Served ms) (m : GetTaskStatusMessage) :
    Served (ms ++ [.getStatus m]) := by
  have hregs : registrations (ms ++ [.getStatus m]) = registrations ms :=
    registrations_concat_of_none ms rfl
  have hprog (i : Long) : progress i (ms ++ [.getStatus m]) = progress i ms :=
    progress_concat_of_none ms rfl
  have hsent (b : B) : sentTo b (ms ++ [.getStatus m]) = sentTo b ms := by
    rw [sentTo_concat]
    exact List.append_nil _
  have hafter : after (ms ++ [.getStatus m]) = after ms := by
    rw [after, Actor.after_concat]
    rfl
  have hanswered : answered (ms ++ [.getStatus m]) = answered ms := answered_concat_of_none ms rfl
  constructor
  · simpa only [hafter, hregs] using h.subscribed
  · simpa only [hregs, hsent, hprog] using h.sent
  · simpa only [hregs, hsent] using h.unsent
  · simpa only [hafter, hanswered] using h.alive

/-- The subscribers of every disciplined mailbox are served. -/
theorem Disciplined.served {ms : List (Message B)} (h : Disciplined ms) : Served ms := by
  induction ms using List.reverseRecOn with
  | nil => exact .nil
  | append_singleton ms m ih =>
    have ih := ih h.left
    cases m using Message.casesEvent with
    | newNumber m => exact ih.newNumber m
    | register r => exact ih.register h
    | event e => exact ih.event h
    | getStatus m => exact ih.getStatus m

/-- **A subscriber sees a strictly advancing stream.** In a disciplined mailbox every registered
broadcaster is sent only events about its task, never `QUEUED`, with strictly increasing statuses,
also after another registration has taken its place. -/
theorem sentTo_advances {ms : List (Message B)} (h : Disciplined ms)
    {r : RegisterForNotifications B} (hr : .register r ∈ ms) : ∃ l : List Status,
      sentTo r.broadcaster ms = l.map (event r.taskId) ∧ l.Pairwise (· < ·) ∧ .QUEUED ∉ l := by
  obtain ⟨l, hl, hlt, hmem⟩ := h.served.sent r (mem_registrations.2 hr)
  refine ⟨l, hl, hlt, fun hq => ?_⟩
  have := (h.events r.taskId).subset (hmem _ hq)
  exact absurd this (by decide)

/-! ## Two subscribers of one task -/

/-- Task `1` is posted, two clients subscribe to it, and it is processed. -/
def twoSubscribers : List (Message Nat) :=
  [.newNumber ⟨"7"⟩, .register ⟨1, 0⟩, .register ⟨1, 1⟩, .started ⟨1⟩,
    .finished ⟨1, "7", true, none⟩]

theorem twoSubscribers_disciplined : Disciplined twoSubscribers where
  registered := by decide
  broadcasters := by decide
  events i := by
    by_cases hi : (1 : Long) = i
    · subst hi
      decide
    · simp [twoSubscribers, progress, Message.progress?, hi]

/-- The second subscriber hears of both changes of its task, in order. -/
theorem sentTo_advances_second :
    sentTo 1 twoSubscribers = [event 1 .STARTED, event 1 .FINISHED] ∧ ∃ l : List Status,
      sentTo 1 twoSubscribers = l.map (event 1) ∧ l.Pairwise (· < ·) ∧ .QUEUED ∉ l :=
  ⟨by decide, sentTo_advances twoSubscribers_disciplined (r := ⟨1, 1⟩) (by decide)⟩

end

end PrimeTester.TaskStorage
