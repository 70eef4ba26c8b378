import PrimeTester.Cluster.Session
import PrimeTester.Engine.Tale

/-!
# What a page has been told

`Told` says what a click has been told at each `Phase`: before it has the id of its task, nothing,
and then what its `Tale` says (`Tracks`). An attempt to connect gets its broadcaster after all that
earlier attempts have shown was sent (`Follows`), so it does not go back behind them. `Counted`
keeps account of the click's requests and its steps. Every step of the system keeps all this
(`Run.told`), so the rows of a click are those of a sound tale (`page_shows`).
-/

namespace PrimeTester.Cluster.Session

open Engine (Click Phase Ajax Row Attempt Tale eventRow resultRow)
open TaskStorage (sentTo event answered registrations)

/-! ## Streams of events -/

section
variable {B : Type} [DecidableEq B] {ms ms' : List (TaskStorage.Message B)}

/-- Every registered broadcaster is sent at most the start and the end of its task, and no status
behind those that were sent before the registration. -/
structure Streams (ms : List (TaskStorage.Message B)) : Prop where
  each : ∀ r ∈ registrations ms, ∃ l : List Status, l.Sublist [.STARTED, .FINISHED] ∧
    sentTo r.broadcaster ms = l.map (event r.taskId)
  rising : ∀ pre r post, ms = pre ++ .register r :: post → ∀ (b : B) (status status' : Status),
    event r.taskId status ∈ sentTo b pre → event r.taskId status' ∈ sentTo r.broadcaster ms →
    status ≤ status'

theorem Run.streams {W : Type} [DecidableEq W] {tr : List (Cluster.Label Unit Empty W B)}
    {s : State Unit Empty W B}
    (h : (Cluster.system Unit Empty W B).Run (Registered ⊓ FreshBroadcasters) tr s)
    (hlen : (TaskStorage.posted (messages tr)).length ≤ 2 ^ 64) : Streams (messages tr) := by
  obtain ⟨hord, -⟩ := Run.orderly (h.mono inf_le_left) hlen
  have hfresh : TaskStorage.Fresh (messages tr) := Run.fresh (h.mono inf_le_right) ()
  generalize messages tr = ms at hord hfresh hlen
  refine ⟨fun r hr => ?_, ?_⟩
  · obtain ⟨pre, post, rfl⟩ := List.append_of_mem (TaskStorage.mem_registrations.1 hr)
    obtain ⟨-, l, -, hl, -, hsent⟩ := hord.stream hfresh hlen
    exact ⟨l, hl, hsent⟩
  · rintro pre r post rfl b status status' hold hnew
    exact hord.stream_ge hfresh hlen hold hnew

/-- What was seen of a stream is its beginning. -/
theorem split_stream {i : Long} {seen l : List Status} {rest : List OutboundEvent}
    (h : l.map (event i) = seen.map (event i) ++ rest) :
    ∃ later, l = seen ++ later ∧ rest = later.map (event i) := by
  obtain ⟨l₁, l₂, rfl, hseen, hrest⟩ := List.map_eq_append_iff.1 h
  have hinj : Function.Injective (event i) := fun _ _ he => (TaskStorage.event_eq he).2
  rw [List.map_injective_iff.2 hinj hseen]
  exact ⟨l₂, rfl, hrest.symm⟩

/-- The next event of a stream comes after what was seen of it. -/
theorem next_status {seen later : List Status} {status : Status}
    (h : (seen ++ status :: later).Sublist [.STARTED, .FINISHED]) :
    (seen ++ [status]).Sublist [.STARTED, .FINISHED] ∧
      (∀ status' ∈ seen, status' < status) ∧ (status = .STARTED ∨ status = .FINISHED) := by
  refine ⟨?_, fun status' hs => ?_, ?_⟩
  · rw [List.append_cons] at h
    exact (List.sublist_append_left _ later).trans h
  · have hbefore := (List.pairwise_append.1 (TaskStorage.pairwise_events.sublist h)).2.2
    exact hbefore status' hs status List.mem_cons_self
  · have hmem := h.subset (List.mem_append_right seen List.mem_cons_self)
    simpa using hmem

/-- The next event on the wire is about the next status of the stream. -/
theorem next_event {b : B} {i : Long} {seen : List Status} {wire : List OutboundEvent}
    {e : OutboundEvent} {es : List OutboundEvent}
    (hold : sentTo b ms = seen.map (event i) ++ wire)
    (hstream : ∃ l : List Status, l.Sublist [.STARTED, .FINISHED] ∧ sentTo b ms = l.map (event i))
    (hwire : wire = e :: es) : ∃ status, e = event i status ∧
      (seen ++ [status]).Sublist [.STARTED, .FINISHED] ∧ (∀ status' ∈ seen, status' < status) ∧
      (status = .STARTED ∨ status = .FINISHED) ∧ event i status ∈ sentTo b ms ∧
      sentTo b ms = (seen ++ [status]).map (event i) ++ es := by
  obtain ⟨l, hl, hsent⟩ := hstream
  obtain ⟨later, rfl, hrest⟩ := split_stream (hsent.symm.trans hold)
  rw [hwire] at hrest
  obtain ⟨status, later, rfl, rfl, rfl⟩ := List.map_eq_cons_iff.1 hrest.symm
  obtain ⟨hseen, hlt, hstatus⟩ := next_status hl
  refine ⟨status, rfl, hseen, hlt, hstatus, ?_, ?_⟩
  · rw [hsent]
    exact List.mem_map_of_mem (List.mem_append_right _ List.mem_cons_self)
  · rw [hsent, ← List.map_append, List.append_assoc]
    rfl

end

/-! ## Accounts -/

section
variable {W B : Type} {tr : List (Label W B)} {t t' : Tale} {click click' : Click B}
variable {phase : Phase B} {l : Label W B}

/-- The steps that a request of the `FINISHED` handler has still to take. -/
def requestLeft : Ajax → ℕ
  | .requested _ => 3
  | .answered _ => 2
  | .followed _ => 1

/-- The steps that an attempt to connect takes apart from its events. -/
def phaseCost : Phase B → ℕ
  | .subscribing _ => 0
  | .connecting .. => 1
  | _ => 2

/-- The steps that a click with this tale may have taken: two until it has its id, two for each
attempt to connect, one for each event and three for each end. -/
def cost (t : Tale) (phase : Phase B) : ℕ :=
  2 + 2 * t.past.length + t.statuses.length + 3 * t.statuses.count .FINISHED + phaseCost phase

/-- The accounts of a click: the broken attempts, what became of the requests for which there was an
end, and the steps. -/
structure Counted (tr : List (Label W B)) (t : Tale) (click : Click B) : Prop where
  breaks : t.past.length = tr.countP Label.breaks
  asked : click.ajax.length + t.results + tr.countP Label.drops = t.statuses.count .FINISHED
  steps : tr.countP Label.own + (click.ajax.map requestLeft).sum ≤ cost t click.phase

/-- The click has taken `n` steps and nothing has gone wrong. -/
structure Clean (tr : List (Label W B)) (n : ℕ) : Prop where
  own : tr.countP Label.own = n
  breaks : tr.countP Label.breaks = 0
  drops : tr.countP Label.drops = 0

theorem phaseCost_le (phase : Phase B) : phaseCost phase ≤ 2 := by
  cases phase <;> simp [phaseCost]

theorem cost_connect (hnow : t.now = none) : cost t.connect phase = cost t phase := by
  simp only [cost, Tale.statuses_connect hnow]
  rfl

theorem cost_see {status : Status} :
    cost (t.see status) phase = cost t phase + 1 + 3 * [status].count .FINISHED := by
  simp only [cost, Tale.statuses_see, List.length_append, List.length_singleton, List.count_append]
  show 2 + 2 * t.past.length + _ + _ + _ = _
  omega

theorem cost_err : cost t.err phase = cost t phase + 2 := by
  have hpast : t.err.past.length = t.past.length + 1 := List.length_append
  simp only [cost, Tale.statuses_err, hpast]
  omega

theorem cost_result : cost t.result phase = cost t phase := rfl

theorem countP_concat (p : Label W B → Bool) (tr : List (Label W B)) (l : Label W B) :
    (tr ++ [l]).countP p = tr.countP p + if p l then 1 else 0 := by
  rw [List.countP_append, List.countP_singleton]

theorem Clean.concat {n : ℕ} (h : Clean tr n) {l : Label W B} (hbreaks : l.breaks = false)
    (hdrops : l.drops = false) : Clean (tr ++ [l]) (n + if l.own then 1 else 0) where
  own := by rw [countP_concat, h.own]
  breaks := by rw [countP_concat, h.breaks, hbreaks]; rfl
  drops := by rw [countP_concat, h.drops, hdrops]; rfl

/-- A step keeps the accounts when each of them changes by what the step is. -/
theorem Counted.step (h : Counted tr t click) (l : Label W B)
    (hbreaks : t'.past.length = t.past.length + if l.breaks then 1 else 0)
    (hasked : click'.ajax.length + t'.results + (if l.drops then 1 else 0) +
        t.statuses.count .FINISHED =
      click.ajax.length + t.results + t'.statuses.count .FINISHED)
    (hsteps : (if l.own then 1 else 0) + (click'.ajax.map requestLeft).sum + cost t click.phase ≤
      (click.ajax.map requestLeft).sum + cost t' click'.phase) :
    Counted (tr ++ [l]) t' click' := by
  obtain ⟨hb, ha, hs⟩ := h
  refine ⟨?_, ?_, ?_⟩
  · rw [countP_concat, hbreaks, hb]
  · rw [countP_concat]
    omega
  · rw [countP_concat]
    omega

/-- A request that gets on has one step less to take. -/
theorem Counted.replace {pre post : List Ajax} {x y : Ajax} (h : Counted tr t click)
    (hajax : click.ajax = pre ++ x :: post) (hdrops : l.drops = false) (hbreaks : l.breaks = false)
    (hxy : requestLeft x = requestLeft y + 1) :
    Counted (tr ++ [l]) t { click with ajax := pre ++ y :: post } := by
  refine h.step l ?_ ?_ ?_
  · rw [hbreaks]
    rfl
  · rw [hajax, hdrops]
    simp
  · rw [hajax]
    simp only [List.map_append, List.map_cons, List.sum_append, List.sum_cons, hxy]
    split <;> omega

/-- Who has asked has shown the end of the task. -/
theorem Counted.finished (h : Counted tr t click) (hajax : click.ajax ≠ []) :
    .FINISHED ∈ t.statuses := by
  have hpos := List.length_pos_iff.2 hajax
  have hasked := h.asked
  exact List.count_pos_iff.1 (by omega)

/-! ## What the task storage has taken -/

/-- What the task storage has taken. -/
abbrev taken (tr : List (Label W B)) : List (TaskStorage.Message B) :=
  messages (tr.filterMap Label.cluster?)

theorem taken_append (tr tr' : List (Label W B)) : taken (tr ++ tr') = taken tr ++ taken tr' := by
  rw [taken, List.filterMap_append]
  exact taskMessages_append () _ _

/-- A step outside the cluster brings nothing to the task storage. -/
theorem taken_none {l : Label W B} (hl : l.cluster? = none) : taken (tr ++ [l]) = taken tr := by
  rw [taken, taken, List.filterMap_append, List.filterMap_cons_none hl]
  exact congrArg messages (List.append_nil _)

theorem mem_answered_taken {a : TaskIdAssignedMessage} (ha : a ∈ answered (taken tr))
    (l : Label W B) : a ∈ answered (taken (tr ++ [l])) := by
  rw [taken_append]
  exact TaskStorage.mem_answered_append ha

/-- A run has at least the POSTs of its beginning. -/
theorem length_posted_left (tr tr' : List (Label W B)) :
    (TaskStorage.posted (taken tr)).length ≤ (TaskStorage.posted (taken (tr ++ tr'))).length := by
  rw [taken_append]
  exact TaskStorage.length_posted_left _ _

/-- The ids up to `2 ^ 53`, which numbers of JavaScript represent exactly, are fewer than all. -/
theorem posts_le {n : ℕ} (h : n ≤ 2 ^ 53) : n ≤ 2 ^ 64 :=
  h.trans (Nat.pow_le_pow_right (by decide) (by decide))

end

/-! ## Told -/

section
variable {W B : Type} [DecidableEq B] {number : String}

/-- How far a request of the `FINISHED` handler may have come. -/
inductive Asks (number : String) (i : Long) : Ajax → Prop
  | requested : Asks number i (.requested i)
  | redirected : Asks number i (.answered (.ok (.seeOther ("/api/results/" ++ number))))
  | found : Asks number i (.followed (.ok (Service.answer number)))
  | missing : Asks number i (.followed .notFound)

/-- The broadcaster was registered after everything had been sent that earlier attempts have
shown. -/
def Follows (ms : List (TaskStorage.Message B)) (i : Long) (b : B) (t : Tale) : Prop :=
  ∃ pre post, ms = pre ++ .register ⟨i, b⟩ :: post ∧
    ∀ status ∈ t.past.flatMap Attempt.statuses, ∃ b', event i status ∈ sentTo b' pre

/-- The current attempt to connect. What its broadcaster was sent is shown or on the wire. -/
inductive Source (ms : List (TaskStorage.Message B)) (wire : B → List OutboundEvent) (i : Long)
    (t : Tale) : Phase B → Prop
  | subscribing (hnow : t.now = none) (hresults : t.results = 0) :
    Source ms wire i t (.subscribing i)
  | connecting {b : B} (hnow : t.now = none) (hresults : t.results = 0) (hb : Follows ms i b t)
    (hwire : sentTo b ms = wire b) : Source ms wire i t (.connecting i b)
  | listening {b : B} {seen : List Status} (hnow : t.now = some seen) (hresults : t.results = 0)
    (hb : Follows ms i b t) (hwire : sentTo b ms = seen.map (event i) ++ wire b) :
    Source ms wire i t (.listening i b)
  | failed (hnow : t.now = none) (hresults : t.results = 0) : Source ms wire i t .failed
  | closed (hresults : 0 < t.results) : Source ms wire i t .closed

/-- A click with the task `i` and this tale, when the task storage has taken `ms`. -/
structure Tracks (number : String) (ms : List (TaskStorage.Message B))
    (wire : B → List OutboundEvent) (i : Long) (t : Tale) (click : Click B) : Prop where
  answered : ⟨i, number⟩ ∈ answered ms
  rows : click.rows = t.rows number i
  sound : t.Sound
  sent : ∀ status ∈ t.statuses, ∃ b, event i status ∈ sentTo b ms
  asks : ∀ x ∈ click.ajax, Asks number i x
  source : Source ms wire i t click.phase

/-- What a click has been told. -/
inductive Told (number : String) (tr : List (Label W B)) (wire : B → List OutboundEvent) :
    Click B → Prop
  | posting (hc : Clean tr 0) : Told number tr wire ⟨[], .posting number, []⟩
  | posted {i : Long} (hc : Clean tr 1) (hi : ⟨i, number⟩ ∈ answered (taken tr)) :
    Told number tr wire ⟨[], .posted (.ok (.ok ⟨i, some number, .QUEUED⟩)), []⟩
  | unanswered (hc : tr.countP Label.own ≤ 1) : Told number tr wire ⟨[], .unanswered, []⟩
  | tracks {i : Long} {t : Tale} {click : Click B}
    (ht : Tracks number (taken tr) wire i t click) (hc : Counted tr t click) :
    Told number tr wire click

/-! ## Messages -/

variable {tr : List (Label W B)} {i : Long} {t : Tale} {click : Click B}

variable {ms ms' : List (TaskStorage.Message B)} {wire : B → List OutboundEvent} {b : B}

/-- There is a result exactly when the page has closed the connection. -/
theorem Source.closed_iff {phase : Phase B} (h : Source ms wire i t phase) :
    phase = .closed ↔ 0 < t.results := by
  cases h with
  | closed hresults => exact iff_of_true rfl hresults
  | subscribing _ hresults | connecting _ hresults | listening _ hresults | failed _ hresults =>
    exact iff_of_false (fun hc => by cases hc) (by omega)

theorem Follows.mem (h : Follows ms i b t) : ⟨i, b⟩ ∈ registrations ms := by
  obtain ⟨pre, post, rfl, -⟩ := h
  exact TaskStorage.mem_registrations.2 (by simp)

theorem Follows.append (h : Follows ms i b t) (ms' : List (TaskStorage.Message B)) :
    Follows (ms ++ ms') i b t := by
  obtain ⟨pre, post, rfl, hpast⟩ := h
  exact ⟨pre, post ++ ms', by rw [List.append_assoc, List.cons_append], hpast⟩

/-- What else is sent is on the wire. -/
theorem Source.more {phase : Phase B} (h : Source ms wire i t phase)
    {sent : B → List OutboundEvent} (hsent : ∀ b, sentTo b (ms ++ ms') = sentTo b ms ++ sent b) :
    Source (ms ++ ms') (fun b => wire b ++ sent b) i t phase := by
  cases h with
  | subscribing hnow hresults => exact .subscribing hnow hresults
  | connecting hnow hresults hb hwire =>
    exact .connecting hnow hresults (hb.append ms') (by rw [hsent, hwire])
  | listening hnow hresults hb hwire =>
    exact .listening hnow hresults (hb.append ms') (by rw [hsent, hwire, List.append_assoc])
  | failed hnow hresults => exact .failed hnow hresults
  | closed hresults => exact .closed hresults

theorem Tracks.more (h : Tracks number ms wire i t click) {sent : B → List OutboundEvent}
    (hsent : ∀ b, sentTo b (ms ++ ms') = sentTo b ms ++ sent b) :
    Tracks number (ms ++ ms') (fun b => wire b ++ sent b) i t click where
  answered := TaskStorage.mem_answered_append h.answered
  rows := h.rows
  sound := h.sound
  sent status hs := by
    obtain ⟨b, hb⟩ := h.sent status hs
    exact ⟨b, by rw [hsent]; exact List.mem_append_left _ hb⟩
  asks := h.asks
  source := h.source.more hsent

/-- A request gets on. -/
theorem Tracks.replace {pre post : List Ajax} {x y : Ajax} (h : Tracks number ms wire i t click)
    (hajax : click.ajax = pre ++ x :: post) (hy : Asks number i y) :
    Tracks number ms wire i t { click with ajax := pre ++ y :: post } where
  answered := h.answered
  rows := h.rows
  sound := h.sound
  sent := h.sent
  asks z hz := by
    rcases List.mem_append.1 hz with hpre | hpost
    · exact h.asks z (by rw [hajax]; exact List.mem_append_left _ hpre)
    · rcases List.mem_cons.1 hpost with rfl | hpost
      · exact hy
      · exact h.asks z (by rw [hajax]; exact List.mem_append_right _ (List.mem_cons_of_mem _ hpost))
  source := h.source

/-- A request ends. -/
theorem Tracks.drop {pre post : List Ajax} {x : Ajax} (h : Tracks number ms wire i t click)
    (hajax : click.ajax = pre ++ x :: post) :
    Tracks number ms wire i t { click with ajax := pre ++ post } where
  answered := h.answered
  rows := h.rows
  sound := h.sound
  sent := h.sent
  asks z hz := by
    refine h.asks z ?_
    rw [hajax]
    rcases List.mem_append.1 hz with hpre | hpost
    · exact List.mem_append_left _ hpre
    · exact List.mem_append_right _ (List.mem_cons_of_mem _ hpost)
  source := h.source

/-! ## Steps of the click -/

variable {rows : List Row} {ajax : List Ajax}

/-- The page gets the id of its task. -/
theorem Told.success {response : TaskStatusResource}
    (h : Told number tr wire ⟨rows, .posted (.ok (.ok response)), ajax⟩) :
    Told number (tr ++ [.posted response]) wire
      (Engine.sendNumber.success ⟨rows, .posted (.ok (.ok response)), ajax⟩ response) := by
  cases h with
  | @posted i hc hi =>
    refine .tracks (i := i) (t := ⟨[], none, 0⟩) ?_ ?_
    · rw [taken_none rfl]
      exact ⟨hi, rfl, .start, fun _ hs => absurd hs List.not_mem_nil,
        fun _ hx => absurd hx List.not_mem_nil, .subscribing rfl rfl⟩
    · have hc' := hc.concat (l := .posted ⟨i, some number, .QUEUED⟩) rfl rfl
      exact ⟨hc'.breaks.symm, by rw [hc'.drops]; rfl, by rw [hc'.own]; exact le_refl 2⟩
  | tracks ht hc => cases ht.source

/-- The connection is open. -/
theorem Told.opened (h : Told number tr wire ⟨rows, .connecting i b, ajax⟩) :
    Told number (tr ++ [.opened]) wire
      { Engine.subscribeForNotifications.onopen ⟨rows, .connecting i b, ajax⟩ with
        phase := .listening i b } := by
  cases h with
  | @tracks i t _ ht hc =>
    cases ht.source with
    | connecting hnow hresults hb hwire =>
      refine .tracks (i := i) (t := t.connect) ?_ ?_
      · rw [taken_none rfl]
        refine ⟨ht.answered, ?_, ht.sound.connect hnow, ?_, ht.asks, .listening rfl hresults hb ?_⟩
        · rw [Tale.rows_connect hnow hresults, ← ht.rows]
          rfl
        · rw [Tale.statuses_connect hnow]
          exact ht.sent
        · exact hwire
      · refine hc.step _ rfl ?_ ?_
        · rw [Tale.statuses_connect hnow]
          rfl
        · rw [cost_connect hnow]
          simp only [Engine.subscribeForNotifications.onopen, cost, phaseCost, Label.own, if_true]
          omega

/-- The next event is displayed, and the end of the task is asked about. -/
theorem Told.event {e : OutboundEvent} {es : List OutboundEvent}
    (h : Told number tr wire ⟨rows, .listening i b, ajax⟩) (hstream : Streams (taken tr))
    (hnext : wire b = e :: es) : Told number (tr ++ [.event e]) (Function.update wire b es)
      (Engine.subscribeForNotifications.dispatch ⟨rows, .listening i b, ajax⟩ e) := by
  cases h with
  | @tracks i t _ ht hc =>
    cases ht.source with
    | @listening _ seen hnow hresults hb hwire =>
      obtain ⟨status, rfl, hseen, hlt, hstatus, hin, hsent⟩ :=
        next_event hwire (hstream.each _ hb.mem) hnext
      have hnowseen : t.now.statuses = seen := by rw [hnow]; rfl
      have hle : ∀ status' ∈ t.statuses, status' ≤ status := by
        intro status' hs
        rcases Tale.mem_statuses.1 hs with hpast | hcurrent
        · obtain ⟨pre, post, hms, hsent⟩ := hb
          obtain ⟨b', hb'⟩ := hsent status' hpast
          exact hstream.rising pre ⟨i, b⟩ post hms b' status' status hb' hin
        · rw [hnowseen] at hcurrent
          exact (hlt status' hcurrent).le
      have hsound : (t.see status).Sound := ht.sound.see (by rwa [hnowseen]) hle
      have hrows : (t.see status).rows number i = rows ++ [eventRow i status] := by
        rw [Tale.rows_see hnow hresults, ← ht.rows]
      have hshown : ∀ status' ∈ (t.see status).statuses, ∃ b,
          TaskStorage.event i status' ∈ sentTo b (taken tr) := by
        rw [Tale.statuses_see]
        intro status' hs
        rcases List.mem_append.1 hs with hold | hnew
        · exact ht.sent status' hold
        · exact ⟨b, by rwa [List.mem_singleton.1 hnew]⟩
      have hsource : Source (taken tr) (Function.update wire b es) i (t.see status)
          (.listening i b) := by
        have hsee : (t.see status).now = some (seen ++ [status]) := by rw [Tale.see, hnowseen]
        refine .listening hsee hresults hb ?_
        rw [Function.update_self]
        exact hsent
      rcases hstatus with rfl | rfl
      · rw [Engine.dispatch_started]
        refine .tracks (i := i) (t := t.see .STARTED) ?_ ?_
        · rw [taken_none rfl]
          exact ⟨ht.answered, hrows.symm, hsound, hshown, ht.asks, hsource⟩
        · refine hc.step _ rfl ?_ ?_
          · rw [Tale.statuses_see, List.count_append]
            rfl
          · have hcount : [Status.STARTED].count .FINISHED = 0 := rfl
            rw [cost_see, hcount]
            simp only [Label.own, if_true]
            omega
      · rw [Engine.dispatch_finished]
        refine .tracks (i := i) (t := t.see .FINISHED) ?_ ?_
        · rw [taken_none rfl]
          refine ⟨ht.answered, hrows.symm, hsound, hshown, fun x hx => ?_, hsource⟩
          rcases List.mem_append.1 hx with hold | hnew
          · exact ht.asks x hold
          · rw [List.mem_singleton.1 hnew]
            exact .requested
        · have hcount : [Status.FINISHED].count .FINISHED = 1 := rfl
          refine hc.step _ rfl ?_ ?_
          · rw [Tale.statuses_see, List.count_append, hcount]
            simp only [List.length_append, List.length_singleton, Tale.see, Label.drops,
              Bool.false_eq_true, if_false]
            omega
          · rw [cost_see, hcount]
            simp only [Label.own, if_true, List.map_append, List.map_cons, List.map_nil,
              requestLeft, List.sum_append, List.sum_cons, List.sum_nil]
            omega

/-- A click that has asked for its result has been told of the end of its task. -/
theorem Told.asked {pre post : List Ajax} {x : Ajax} (h : Told number tr wire click)
    (hajax : click.ajax = pre ++ x :: post) : ∃ i t, Tracks number (taken tr) wire i t click ∧
      Counted tr t click ∧ Asks number i x ∧ .FINISHED ∈ t.statuses := by
  cases h with
  | posting | posted | unanswered => simp at hajax
  | @tracks i t _ ht hc =>
    refine ⟨i, t, ht, hc, ht.asks x ?_, hc.finished ?_⟩
    · rw [hajax]
      exact List.mem_append_right _ List.mem_cons_self
    · rw [hajax]
      exact List.append_ne_nil_of_right_ne_nil _ (List.cons_ne_nil x post)

/-- A request succeeds, and its result is the right one. -/
theorem Told.found {pre post : List Ajax} {x : Ajax} {response : Engine.Data}
    (h : Told number tr wire click) (hajax : click.ajax = pre ++ x :: post)
    (hx : x.data? = some response) : Told number (tr ++ [.success response]) wire
      (Engine.subscribeForNotifications.success { click with ajax := pre ++ post } response) := by
  obtain ⟨i, t, ht, hc, hasks, -⟩ := h.asked hajax
  cases hasks with
  | found =>
    cases hx
    refine .tracks (i := i) (t := t.result) ?_ ?_
    · rw [taken_none rfl]
      refine ⟨ht.answered, ?_, ht.sound.result, ht.sent, (ht.drop hajax).asks,
        .closed (Nat.succ_pos _)⟩
      rw [Tale.rows_result, ← ht.rows]
      rfl
    · refine hc.step _ rfl ?_ ?_
      · rw [hajax, Tale.statuses_result]
        simp only [Engine.subscribeForNotifications.success, Tale.result, Label.drops,
          Bool.false_eq_true, if_false, List.length_append, List.length_cons]
        omega
      · rw [hajax, cost_result]
        have hphase := phaseCost_le click.phase
        have hclosed : phaseCost (.closed : Phase B) = 2 := rfl
        simp only [Engine.subscribeForNotifications.success, Label.own, if_true, cost, hclosed,
          requestLeft, List.map_append, List.map_cons, List.sum_append, List.sum_cons]
        omega
  | _ => cases hx

/-- The POST is given up. -/
theorem Told.unposted (h : Told number tr wire click)
    (hphase : (∃ number, click.phase = .posting number) ∨
      ∃ response, click.phase = .posted response) :
    Told number (tr ++ [.unanswered]) wire { click with phase := .unanswered } := by
  cases h with
  | posting hc =>
    exact .unanswered (by rw [countP_concat, hc.own]; exact Nat.zero_le _)
  | posted hc hi => exact .unanswered (by rw [countP_concat, hc.own]; exact le_refl 1)
  | unanswered hc => simp at hphase
  | tracks ht hc =>
    have hsource := ht.source
    rcases hphase with ⟨_, hphase⟩ | ⟨_, hphase⟩
    · rw [hphase] at hsource
      cases hsource
    · rw [hphase] at hsource
      cases hsource

/-- A request of the `FINISHED` handler is given up. -/
theorem Told.dropped {pre post : List Ajax} {x : Ajax} (h : Told number tr wire click)
    (hajax : click.ajax = pre ++ x :: post) :
    Told number (tr ++ [.unanswered]) wire { click with ajax := pre ++ post } := by
  obtain ⟨i, t, ht, hc, -⟩ := h.asked hajax
  refine .tracks (i := i) (t := t) ?_ ?_
  · rw [taken_none rfl]
    exact ht.drop hajax
  · refine hc.step _ rfl ?_ ?_
    · rw [hajax]
      simp only [Label.drops, if_true, List.length_append, List.length_cons]
      omega
    · rw [hajax]
      simp [Label.own]

/-- The connection breaks, and the browser tries again or not. -/
theorem Told.broken (h : Told number tr wire click) (hphase : click.phase.taskId? = some i)
    {l : Label W B} {phase : Phase B} (hl : l = .interrupted ∧ phase = .subscribing i ∨
      l = .failed ∧ phase = .failed) : Told number (tr ++ [l]) wire
      { Engine.subscribeForNotifications.onerror click none with phase := phase } := by
  cases h with
  | posting | posted | unanswered => cases hphase
  | @tracks j t _ ht hc =>
    have hsource := ht.source
    have hopen : t.results = 0 ∧ i = j := by
      generalize click.phase = phase at hphase hsource
      cases hsource with
      | subscribing _ hresults => exact ⟨hresults, (Option.some_inj.1 hphase).symm⟩
      | connecting _ hresults => exact ⟨hresults, (Option.some_inj.1 hphase).symm⟩
      | listening _ hresults => exact ⟨hresults, (Option.some_inj.1 hphase).symm⟩
      | failed | closed => cases hphase
    obtain ⟨hresults, rfl⟩ := hopen
    have hcost := phaseCost_le click.phase
    refine .tracks (i := i) (t := t.err) ?_ ?_
    · have hlabel : l.cluster? = none := by rcases hl with ⟨rfl, -⟩ | ⟨rfl, -⟩ <;> rfl
      rw [taken_none hlabel]
      refine ⟨ht.answered, ?_, ht.sound.err, ?_, ht.asks, ?_⟩
      · rw [Tale.rows_err hresults, ← ht.rows]
        rfl
      · rw [Tale.statuses_err]
        exact ht.sent
      · rcases hl with ⟨-, rfl⟩ | ⟨-, rfl⟩
        · exact .subscribing rfl hresults
        · exact .failed rfl hresults
    · refine hc.step l ?_ ?_ ?_
      · rcases hl with ⟨rfl, -⟩ | ⟨rfl, -⟩ <;> simp [Tale.err, Label.breaks]
      · rw [Tale.statuses_err]
        rcases hl with ⟨rfl, -⟩ | ⟨rfl, -⟩ <;> rfl
      · have hown : l.own = false := by rcases hl with ⟨rfl, -⟩ | ⟨rfl, -⟩ <;> rfl
        rw [cost_err, hown]
        simp only [Engine.subscribeForNotifications.onerror, Bool.false_eq_true, if_false, cost]
        omega

/-! ## Steps of the cluster -/

section
variable [DecidableEq W] {s s' : State Unit Empty W B} {w w' : Session W B} {l : Label W B}
variable {A : Assumption (State Unit Empty W B) (Cluster.Label Unit Empty W B)}
variable {l' : Cluster.Label Unit Empty W B}

/-- What a step of the cluster sends. -/
theorem sentTo_taken (hrun : (Cluster.system Unit Empty W B).Run A (tr.filterMap Label.cluster?) s)
    (hl : l.cluster? = some l') (b : B) :
    sentTo b (taken tr ++ taken [l]) = sentTo b (taken tr) ++ sends b s l' := by
  have htaken : taken [l] = (l'.taskMessage? ()).toList := by
    rw [taken, List.filterMap_cons_some hl]
    exact taskMessages_concat () [] l'
  rw [htaken, sends, Run.taskStorage_eq hrun ()]
  cases l'.taskMessage? () with
  | none => rw [Option.toList_none, List.append_nil]; exact (List.append_nil _).symm
  | some m => exact TaskStorage.sentTo_concat b _ m

/-- A step of the cluster puts on the wire what it sends. -/
theorem Tracks.advance
    (hrun : (Cluster.system Unit Empty W B).Run A (tr.filterMap Label.cluster?) s)
    (hl : l.cluster? = some l') (h : Tracks number (taken tr) wire i t click) :
    Tracks number (taken (tr ++ [l])) (fun b => wire b ++ sends b s l') i t click := by
  rw [taken_append]
  exact h.more (sentTo_taken hrun hl)

theorem Told.other
    (hrun : (Cluster.system Unit Empty W B).Run A (tr.filterMap Label.cluster?) s)
    (h : Told number tr wire click) (l' : Cluster.Label Unit Empty W B) :
    Told number (tr ++ [.other l']) (fun b => wire b ++ sends b s l') click := by
  cases h with
  | posting hc => exact .posting (hc.concat rfl rfl)
  | posted hc hi => exact .posted (hc.concat rfl rfl) (mem_answered_taken hi _)
  | unanswered hc => exact .unanswered (by rwa [countP_concat])
  | tracks ht hc =>
    refine .tracks (ht.advance hrun rfl) (hc.step _ rfl rfl ?_)
    simp only [Label.own, Bool.false_eq_true, if_false, Nat.zero_add, le_refl]

/-- The response to the POST says the id of its task. -/
theorem Told.post {n : String} {r : CreateTaskResource}
    {response : Except Fault (Response TaskStatusResource)}
    (hrun : (Cluster.system Unit Empty W B).Run A (tr.filterMap Label.cluster?) s)
    (h : Told number tr wire ⟨rows, .posting n, ajax⟩)
    (hr : CreateTaskResource.validate (some n) = some r)
    (hobs : observe s (.request () (.createTask r)) = some (.created r response)) :
    Told number (tr ++ [.post r]) (fun b => wire b ++ sends b s (.request () (.createTask r)))
      ⟨rows, .posted response, ajax⟩ := by
  have hnumber : r.number = n := by
    by_cases hn : NUMBER_PATTERN n
    · cases (CreateTaskResource.validate_number ⟨n, hn⟩).symm.trans hr
      rfl
    · rw [CreateTaskResource.validate, dif_neg hn] at hr
      cases hr
  have hresponse : some (Exchange.created r (.ok (.ok
      ⟨(s.taskStorage ()).id + 1, some r.number, .QUEUED⟩))) = some (.created r response) := hobs
  cases hresponse
  have hanswer : ⟨(s.taskStorage ()).id + 1, r.number⟩ ∈ answered (taken (tr ++ [.post r])) := by
    have htaken : taken ([.post r] : List (Label W B)) = [.newNumber r.toMessage] := rfl
    rw [taken_append, htaken, Run.taskStorage_eq hrun (), TaskStorage.answered_concat]
    exact List.mem_append_right _ (List.mem_singleton_self _)
  rw [hnumber] at hanswer ⊢
  cases h with
  | posting hc => exact .posted (hc.concat rfl rfl) hanswer
  | tracks ht hc => cases ht.source

/-- The page has registered with a new broadcaster. -/
theorem Told.subscribe
    (hrun : (Cluster.system Unit Empty W B).Run A (tr.filterMap Label.cluster?) s)
    (h : Told number tr wire ⟨rows, .subscribing i, ajax⟩)
    (hnew : ∀ r ∈ registrations (taken tr), r.broadcaster ≠ b)
    (hwire : wire b <:+ sentTo b (taken tr)) :
    Told number (tr ++ [.subscribe i b])
      (fun b' => wire b' ++ sends b' s (.request () (.suspend i b))) ⟨rows, .connecting i b, ajax⟩ := by
  cases h with
  | @tracks j t _ ht hc =>
    have hadvance := ht.advance hrun (l := .subscribe i b) rfl
    have hnone : sentTo b (taken tr) = [] := TaskStorage.sentTo_unregistered hnew
    rw [hnone, List.suffix_nil] at hwire
    cases ht.source with
    | subscribing hnow hresults =>
      refine .tracks (t := t) ⟨hadvance.answered, hadvance.rows, hadvance.sound, hadvance.sent,
        hadvance.asks, .connecting hnow hresults ⟨taken tr, [], ?_, fun status hs => ?_⟩ ?_⟩
        (hc.step _ rfl rfl ?_)
      · rw [taken_append]
        rfl
      · exact ht.sent status (Tale.mem_statuses.2 (.inl hs))
      · rw [taken_append, sentTo_taken hrun rfl, hnone, hwire]
      · simp only [cost, phaseCost, Label.own, if_true]
        omega

/-- A task whose end was announced is shown with its number's result. -/
theorem Run.status_announced {trc : List (Cluster.Label Unit Empty W B)}
    (h : (Cluster.system Unit Empty W B).Run Registered trc s)
    (hlen : (TaskStorage.posted (messages trc)).length ≤ 2 ^ 64)
    (hi : ⟨i, number⟩ ∈ answered (messages trc))
    (hsent : event i .FINISHED ∈ sentTo b (messages trc)) :
    (s.taskStorage ()).statuses.get i = some .FINISHED ∧
      (s.taskStorage ()).tasks.get i = some number := by
  obtain ⟨hord, -⟩ := Run.orderly h hlen
  obtain ⟨status, hstatus, hle⟩ := hord.sent_le hlen hsent
  rw [Run.taskStorage_eq h ()]
  refine ⟨by rw [hstatus, le_antisymm (Status.le_FINISHED status) hle], ?_⟩
  rwa [(hord.holds hlen).tasks_eq, ← hord.answered_eq hlen]

/-- A status request finds the task finished. -/
theorem Told.getStatus {pre post : List Ajax}
    {response : Except Fault (Response TaskStatusResource)}
    (hrun : (Cluster.system Unit Empty W B).Run Registered (tr.filterMap Label.cluster?) s)
    (hlen : (TaskStorage.posted (taken tr)).length ≤ 2 ^ 64)
    (h : Told number tr wire click) (hajax : click.ajax = pre ++ .requested i :: post)
    (hobs : observe s (.request () (.getStatus i)) = some (.status i response)) :
    Told number (tr ++ [.getStatus i]) (fun b => wire b ++ sends b s (.request () (.getStatus i)))
      { click with ajax := pre ++ .answered response :: post } := by
  obtain ⟨j, t, ht, hc, hasks, hend⟩ := h.asked hajax
  cases hasks
  obtain ⟨b, hsent⟩ := ht.sent _ hend
  obtain ⟨hstatus, hnumber⟩ := Run.status_announced hrun hlen ht.answered hsent
  have hresponse : some (Exchange.status i (TasksEndpoint.GetStatusCallback.onComplete
      (.ok ((s.taskStorage ()).handleGet ⟨i⟩)))) = some (.status i response) := hobs
  rw [TasksEndpoint.GetStatusCallback.onComplete_some hstatus, if_pos rfl, hnumber] at hresponse
  cases hresponse
  exact .tracks ((ht.advance hrun rfl).replace hajax .redirected) (hc.replace hajax rfl rfl rfl)

theorem Asks.location {location : String}
    (h : Asks number i (.answered (.ok (.seeOther location)))) :
    location = "/api/results/" ++ number := by
  cases h
  rfl

/-- A redirect leads to the result, or to nothing. -/
theorem Told.getResult {pre post : List Ajax} {n : String} {answer : CalculationResultMessage}
    {response : Response ResultResource}
    (hrun : (Cluster.system Unit Empty W B).Run A (tr.filterMap Label.cluster?) s)
    (h : Told number tr wire click)
    (hajax : click.ajax = pre ++ .answered (.ok (.seeOther ("/api/results/" ++ n))) :: post)
    (hs : Cluster.Step s (.getResult () ⟨n⟩ answer) s')
    (hobs : observe s (.getResult () ⟨n⟩ answer) = some (.result n response)) :
    Told number (tr ++ [.getResult n answer])
      (fun b => wire b ++ sends b s (.getResult () ⟨n⟩ answer))
      { click with ajax := pre ++ .followed response :: post } := by
  obtain ⟨j, t, ht, hc, hasks, -⟩ := h.asked hajax
  obtain rfl : n = number := (String.append_right_inj _).1 hasks.location
  have hresponse : Asks n j (.followed response) := by
    cases hs
    cases hobs
    rcases Run.result_response hrun n with ⟨-, hresponse⟩ | ⟨-, hresponse⟩
    · rw [hresponse]
      exact .missing
    · rw [hresponse]
      exact .found
  exact .tracks ((ht.advance hrun rfl).replace hajax hresponse) (hc.replace hajax rfl rfl rfl)

/-- One step keeps what the page has been told. -/
theorem Told.step (hrun : (Cluster.system Unit Empty W B).Run (Registered ⊓ FreshBroadcasters)
      (tr.filterMap Label.cluster?) w.cluster)
    (hlen : (TaskStorage.posted (taken tr)).length ≤ 2 ^ 64)
    (hwire : ∀ b, w.wire b <:+ sentTo b (taken tr)) (h : Told number tr w.wire w.click)
    (hs : Step w l w') (ha : (Registered ⊓ FreshBroadcasters).on cluster Label.cluster? tr w l) :
    Told number (tr ++ [l]) w'.wire w'.click := by
  cases hs with
  | other hs => exact h.other hrun _
  | post hclick hr hs hobs =>
    rw [hclick] at h
    exact h.post hrun hr hobs
  | posted hclick =>
    rw [hclick] at h ⊢
    exact h.success
  | @subscribe s rows ajax i b hclick hs =>
    rw [hclick] at h
    exact h.subscribe hrun ((ha _ rfl).2 () i b rfl) (hwire b)
  | opened hclick =>
    rw [hclick] at h ⊢
    exact h.opened
  | event hclick hnext =>
    rw [hclick] at h ⊢
    exact h.event (Run.streams hrun hlen) hnext
  | getStatus hajax hs hobs => exact h.getStatus (hrun.mono inf_le_left) hlen hajax hobs
  | getResult hajax hs hobs => exact h.getResult hrun hajax hs hobs
  | success hajax hx => exact h.found hajax hx
  | unposted hphase => exact h.unposted hphase
  | dropped hajax => exact h.dropped hajax
  | interrupted hphase => exact h.broken hphase (.inl ⟨rfl, rfl⟩)
  | failed hphase => exact h.broken hphase (.inr ⟨rfl, rfl⟩)

/-! ## Runs -/

/-- What is on the wire is the end of what was sent. -/
theorem Run.on_wire {A : Assumption (State Unit Empty W B) (Cluster.Label Unit Empty W B)}
    (h : (system W B number).Run (A.on cluster Label.cluster?) tr w) (b : B) :
    w.wire b <:+ sentTo b (taken tr) := by
  refine h.induct (I := fun tr w => w.wire b <:+ sentTo b (taken tr)) (List.suffix_refl []) ?_
  intro tr w l w' hrun ih hs _
  have hcluster := component.run hrun
  have hadvance (l : Label W B) (l' : Cluster.Label Unit Empty W B) (hl : l.cluster? = some l') :
      w.wire b ++ sends b w.cluster l' <:+ sentTo b (taken (tr ++ [l])) := by
    rw [taken_append, sentTo_taken hcluster hl]
    obtain ⟨pre, hpre⟩ := ih
    exact ⟨pre, by rw [← List.append_assoc, hpre]⟩
  cases hs with
  | other | post | subscribe | getStatus | getResult => exact hadvance _ _ rfl
  | @event rows ajax i b' e es hclick hnext =>
    rw [taken_none rfl]
    by_cases hb : b = b'
    · subst hb
      rw [hnext] at ih
      show Function.update w.wire b es b <:+ _
      rw [Function.update_self]
      exact (List.suffix_cons e es).trans ih
    · show Function.update w.wire b' es b <:+ _
      rwa [Function.update_of_ne hb]
  | _ =>
    rw [taken_none rfl]
    exact ih

/-- What the page has been told, in every run. -/
theorem Run.told
    (h : (system W B number).Run ((Registered ⊓ FreshBroadcasters).on cluster Label.cluster?) tr w)
    (hlen : (TaskStorage.posted (taken tr)).length ≤ 2 ^ 64) :
    Told number tr w.wire w.click := by
  refine h.induct (I := fun tr w => (TaskStorage.posted (taken tr)).length ≤ 2 ^ 64 →
    Told number tr w.wire w.click) (fun _ => .posting ⟨rfl, rfl, rfl⟩) ?_ hlen
  intro tr w l w' hrun ih hs ha hlen
  have hlen' := (length_posted_left tr [l]).trans hlen
  exact (ih hlen').step (component.run hrun) hlen' (Run.on_wire hrun) hs ha

/-- **What the page shows.** In every run of a cluster with one frontend, whatever else happens
there, whatever is lost and however often the connection breaks, a click shows nothing, or the
queued task with its number and its id and then, for each attempt to connect, what a sound tale
says: the open connection, at most the start and the end of the task, in this order and never behind
an earlier attempt, and an error where the attempt broke. After that come results, at most one for
each end; all of them are the right one for the number, and there is one exactly when the page has
closed the connection. If the connection never broke, the rows are the beginning of the story. -/
theorem page_shows
    (h : (system W B number).Run ((Registered ⊓ FreshBroadcasters).on cluster Label.cluster?) tr w)
    (hlen : (TaskStorage.posted (taken tr)).length ≤ 2 ^ 53) :
    w.click.rows = [] ∧ w.click.phase ≠ .closed ∨
      ∃ i t, w.click.rows = Tale.rows number i t ∧ t.Sound ∧ ⟨i, number⟩ ∈ answered (taken tr) ∧
        t.past.length = tr.countP Label.breaks ∧ t.results ≤ t.statuses.count .FINISHED ∧
        (resultRow number ∈ w.click.rows ↔ w.click.phase = .closed) ∧
        (tr.countP Label.breaks = 0 →
          ∃ started, w.click.rows <+: Tale.story number i started) := by
  have htold := Run.told h (posts_le hlen)
  obtain ⟨cluster, wire, click⟩ := w
  cases htold with
  | posting | posted | unanswered => exact .inl ⟨rfl, fun hc => by cases hc⟩
  | @tracks i t _ ht hc =>
    have hresults : t.results ≤ t.statuses.count .FINISHED := by
      have hasked := hc.asked
      omega
    refine .inr ⟨i, t, ht.rows, ht.sound, ht.answered, hc.breaks, hresults, ?_, fun hzero => ?_⟩
    · rw [ht.rows, Tale.resultRow_mem]
      exact ht.source.closed_iff.symm
    · have hpast := List.length_eq_zero_iff.1 (hc.breaks.trans hzero)
      obtain ⟨started, hrows, -⟩ := ht.sound.story number i hpast hresults
      exact ⟨started, by rwa [ht.rows]⟩

end

end

/-- A click on `2` whose connection broke and is open again. -/
theorem page_shows_two : ∃ (tr : List (Label Unit Bool)) (w : Session Unit Bool) (i : Long)
    (t : Tale), (system Unit Bool "2").Run
      ((Registered ⊓ FreshBroadcasters).on cluster Label.cluster?) tr w ∧
      w.click.rows.length = 4 ∧ w.click.rows = Tale.rows "2" i t ∧ t.past.length = 1 := by
  have h₀ : (system Unit Bool "2").Run
    ((Registered ⊓ FreshBroadcasters).on cluster Label.cluster?) [] _ := .init
  have h₁ := h₀.step (.post rfl (CreateTaskResource.validate_number ⟨"2", by decide⟩)
    (.request _ () _) rfl) fun m hm => by
      cases hm
      refine ⟨fun f i b h => ?_, fun f i b h => ?_⟩
      · cases h
      · cases h
  have h₂ := h₁.step (.posted rfl) fun m hm => by cases hm
  have h₃ := h₂.step (.subscribe (b := false) rfl (.request _ () _)) fun m hm => by
    cases hm
    refine ⟨?_, ?_⟩
    · rintro f i b ⟨⟩
      exact ⟨⟨1, "2"⟩, List.mem_singleton_self _, rfl⟩
    · rintro f i b ⟨⟩ r hr
      cases hr
  have h₄ := h₃.step (.opened rfl) fun m hm => by cases hm
  have h₅ := h₄.step (.interrupted rfl) fun m hm => by cases hm
  have h₆ := h₅.step (.subscribe (b := true) rfl (.request _ () _)) fun m hm => by
    cases hm
    refine ⟨?_, ?_⟩
    · rintro f i b ⟨⟩
      exact ⟨⟨1, "2"⟩, List.mem_singleton_self _, rfl⟩
    · rintro f i b ⟨⟩ r hr
      rw [List.mem_singleton.1 hr]
      exact Bool.false_ne_true
  have h₇ := h₆.step (.opened rfl) fun m hm => by cases hm
  rcases page_shows h₇ (by decide) with ⟨hrows, -⟩ | ⟨i, t, hrows, -, -, hpast, -⟩
  · cases hrows
  · exact ⟨_, _, i, t, h₇, rfl, hrows, hpast⟩

end PrimeTester.Cluster.Session
