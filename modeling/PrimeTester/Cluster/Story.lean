import PrimeTester.Cluster.Told

/-!
# The end of the story

Between two breaks of its connection a click takes a bounded number of steps and shows a bounded
number of rows (`click_ends`).

Where its page and its cluster have nothing left to do, nothing was lost, every request was answered
and no other page took its place, a click has been shown the end of its task, however often the
connection was interrupted; and each time it was shown the end it has shown the result, unless the
result storage was asked too early. That never happens if the end of a task reaches the result
storage first (`page_completes`).
-/

namespace PrimeTester.Cluster.Session

open Engine (Click Phase Ajax Tale resultRow)
open TaskStorage (event answered registrations)

section
variable {W B : Type} [DecidableEq W] [DecidableEq B]
variable {number : String} {tr : List (Label W B)} {w w' : Session W B}

/-! ## How long a click goes on -/

/-- **A click ends.** In every run, whatever else happens and whatever is lost, a click takes at
most nine steps and seven more for each time that its connection breaks, and shows at most five rows
and five more each time. -/
theorem click_ends
    (h : (system W B number).Run ((Registered ⊓ FreshBroadcasters).on cluster Label.cluster?) tr w)
    (hlen : (TaskStorage.posted (taken tr)).length ≤ 2 ^ 53) :
    tr.countP Label.own ≤ 9 + 7 * tr.countP Label.breaks ∧
      w.click.rows.length ≤ 5 + 5 * tr.countP Label.breaks := by
  have htold := Run.told h (posts_le hlen)
  generalize w.click = click at htold
  cases htold with
  | posting hc | posted hc =>
    rw [hc.own]
    exact ⟨by omega, Nat.zero_le _⟩
  | unanswered hc => exact ⟨by omega, Nat.zero_le _⟩
  | tracks ht hc =>
    obtain ⟨hbreaks, hasked, hsteps⟩ := hc
    obtain ⟨hevents, hends⟩ := ht.sound.length_le
    refine ⟨?_, ?_⟩
    · have hphase := phaseCost_le click.phase
      rw [cost] at hsteps
      omega
    · rw [ht.rows]
      refine Tale.length_rows_le.trans ?_
      omega

/-! ## At rest -/

/-- The click has no step to take, unless something goes wrong. -/
def Quiet (w : Session W B) : Prop := ∀ l w', Step w l w' → l.own = false

/-- Every request of the `FINISHED` handler is taken at some time, and its responses. -/
theorem Quiet.missing (hquiet : w.Quiet) {i : Long} {x : Ajax} (hmem : x ∈ w.click.ajax)
    (hx : Asks number i x) : x = .followed .notFound := by
  obtain ⟨pre, post, hajax⟩ := List.append_of_mem hmem
  cases hx with
  | requested => cases hquiet _ _ (.getStatus hajax (.request _ () _) rfl)
  | redirected => cases hquiet _ _ (.getResult hajax (.getResult _ () _) rfl)
  | found => cases hquiet _ _ (.success hajax rfl)
  | missing => rfl

/-- Every event of an open connection is taken at some time. -/
theorem Quiet.wire (hquiet : w.Quiet) {i : Long} {b : B} (hphase : w.click.phase = .listening i b) :
    w.wire b = [] := by
  cases hwire : w.wire b with
  | nil => rfl
  | cons e es =>
    have hclick : w.click = ⟨w.click.rows, .listening i b, w.click.ajax⟩ := by rw [← hphase]
    cases hquiet _ _ (.event hclick hwire)

/-- Once the click has registered for its id, no other page does, and no request that the click has
given up is taken. -/
def Undisturbed : Assumption (Session W B) (Label W B) := fun tr _ l =>
  ∀ i b, l = .other (.request () (.suspend i b)) → ∀ b', .subscribe i b' ∉ tr

/-- Every request is answered, and the browser never gives up connecting. -/
def Served : Assumption (Session W B) (Label W B) := fun _ _ l => l ≠ .unanswered ∧ l ≠ .failed

/-- The registration that the events of the current attempt to connect come from. -/
def registration? : Phase B → Option (RegisterForNotifications B)
  | .connecting i b | .listening i b => some ⟨i, b⟩
  | _ => none

/-- The click has registered for this id with this broadcaster, and nobody has later. -/
structure Current (tr : List (Label W B)) (r : RegisterForNotifications B) : Prop where
  registered : .subscribe r.taskId r.broadcaster ∈ tr
  last : ∃ pre post, taken tr = pre ++ .register r :: post ∧
    ∀ r' ∈ registrations post, r'.taskId ≠ r.taskId

variable {r : RegisterForNotifications B} {l : Label W B}

omit [DecidableEq W] [DecidableEq B] in
theorem Current.concat (h : Current tr r)
    (hl : ∀ r' ∈ registrations (taken [l]), r'.taskId ≠ r.taskId) : Current (tr ++ [l]) r := by
  obtain ⟨hmem, pre, post, htaken, hlast⟩ := h
  refine ⟨List.mem_append_left _ hmem, pre, post ++ taken [l], ?_, fun r' hr' => ?_⟩
  · rw [taken_append, htaken, List.append_assoc]
    rfl
  · rw [registrations, List.filterMap_append] at hr'
    rcases List.mem_append.1 hr' with hpost | hnew
    · exact hlast r' hpost
    · exact hl r' hnew

omit [DecidableEq W] [DecidableEq B] in
/-- Other clients do not come between. -/
theorem Current.other (h : Current tr r) {l' : Cluster.Label Unit Empty W B}
    (hl : ∀ i b, l' = .request () (.suspend i b) → ∀ b', .subscribe i b' ∉ tr) :
    Current (tr ++ [.other l']) r := by
  refine h.concat fun r' hr' hid => ?_
  obtain ⟨m, hm, hreg⟩ := List.mem_filterMap.1 hr'
  obtain ⟨l'', hl'', hm'⟩ := List.mem_filterMap.1 hm
  cases List.mem_singleton.1 hl''
  refine hl _ _ (registration_request hm' hreg) r.broadcaster ?_
  rw [hid]
  exact h.registered

/-- A click whose requests are answered is not given up. -/
theorem Run.served (h : (system W B number).Run Served tr w) :
    tr.countP Label.drops = 0 ∧ w.click.phase ≠ .unanswered ∧ w.click.phase ≠ .failed := by
  refine h.induct (I := fun tr w =>
    tr.countP Label.drops = 0 ∧ w.click.phase ≠ .unanswered ∧ w.click.phase ≠ .failed)
    ⟨rfl, ?_, ?_⟩ ?_
  · intro hc
    cases hc
  · intro hc
    cases hc
  rintro tr w l w' - ⟨hdrops, hphase⟩ hs ⟨hunanswered, hfailed⟩
  have hl : l.drops = false := by
    cases l with
    | unanswered => exact absurd rfl hunanswered
    | _ => rfl
  refine ⟨by rw [countP_concat, hdrops, hl]; rfl, ?_⟩
  cases hs with
  | other | getStatus | getResult => exact hphase
  | event => rwa [Engine.phase_dispatch]
  | post | posted | subscribe | opened | success | interrupted =>
    refine ⟨fun hc => ?_, fun hc => ?_⟩
    · cases hc
    · cases hc
  | unposted | dropped => exact absurd rfl hunanswered
  | failed => exact absurd rfl hfailed

/-- At rest a page that still has its connection has been told of the end of its task. -/
theorem Tracks.finished {A : Assumption (State Unit Empty W B) (Cluster.Label Unit Empty W B)}
    (hA : A ≤ (Registered ⊓ FreshBroadcasters) ⊓ NoLoss)
    (h : (Cluster.system Unit Empty W B).Run A (tr.filterMap Label.cluster?) w.cluster)
    (hlen : (TaskStorage.posted (taken tr)).length ≤ 2 ^ 64) (hrest : Rest w.cluster) {i : Long}
    {t : Tale} (ht : Tracks number (taken tr) w.wire i t w.click) {b : B}
    (hphase : w.click.phase = .listening i b) (hcurrent : Current tr ⟨i, b⟩)
    (hwire : w.wire b = []) : .FINISHED ∈ t.statuses := by
  have hreg := (h.mono hA).mono inf_le_left
  have hloss := (h.mono hA).mono inf_le_right
  obtain ⟨pre, post, hms, hlast⟩ := hcurrent.last
  obtain ⟨status, hstatus, hend⟩ := Run.current_shown hreg hlen
    (Run.subscription (hreg.mono inf_le_left) hlen (r := ⟨i, b⟩) hms hlast)
  obtain rfl := statuses_at_rest hloss hrest () i status hstatus
  have hsource := ht.source
  rw [hphase] at hsource
  cases hsource with
  | @listening _ seen hnow _ _ hsent =>
    rw [hwire, List.append_nil] at hsent
    have hmem : event i .FINISHED ∈ seen.map (event i) := by
      rw [← hsent]
      exact List.mem_of_getLast? hend
    obtain ⟨status, hseen, heq⟩ := List.mem_map.1 hmem
    rw [(TaskStorage.event_eq heq).2] at hseen
    refine Tale.mem_statuses.2 (.inr ?_)
    rw [hnow]
    exact hseen

/-! ## Results first -/

end

/-! ## One page -/

/-- A closed click without requests has no step to take. -/
theorem quiet_of_closed {W B : Type} [DecidableEq W] [DecidableEq B] {w : Session W B}
    (hphase : w.click.phase = .closed) (hajax : w.click.ajax = []) : w.Quiet := by
  intro l w' hs
  cases hs with
  | other | unposted | dropped | interrupted | failed => rfl
  | getStatus h | getResult h | success h => simp [hajax] at h
  | post h | posted h | subscribe h | opened h | event h =>
    rw [h] at hphase
    cases hphase

/-- The steps of the click itself disturb nobody. -/
theorem own_allowed {W B : Type} [DecidableEq W] [DecidableEq B] {tr : List (Label W B)}
    {w : Session W B} {l : Label W B} (hl : l.own) : (Undisturbed ⊓ Served) tr w l := by
  refine ⟨fun i b h => ?_, fun h => ?_, fun h => ?_⟩
  · rw [h] at hl
    cases hl
  · rw [h] at hl
    cases hl
  · rw [h] at hl
    cases hl

/-- The click can take its steps where the cluster can. -/
theorem Run.own {W B : Type} [DecidableEq W] [DecidableEq B] {number : String}
    {A : Assumption (State Unit Empty W B) (Cluster.Label Unit Empty W B)}
    {tr : List (Label W B)} {w w' : Session W B} {l : Label W B}
    (h : (system W B number).Run (A.on cluster Label.cluster? ⊓ (Undisturbed ⊓ Served)) tr w)
    (hs : Step w l w') (hl : l.own)
    (ha : ∀ m, l.cluster? = some m → A (tr.filterMap Label.cluster?) w.cluster m) :
    (system W B number).Run (A.on cluster Label.cluster? ⊓ (Undisturbed ⊓ Served))
      (tr ++ [l]) w' := h.step hs ⟨ha, own_allowed hl⟩

/-- A run of the cluster that begins with a POST is one of a click that posts the number. -/
theorem Run.lift {W B : Type} [DecidableEq W] [DecidableEq B]
    {A : Assumption (State Unit Empty W B) (Cluster.Label Unit Empty W B)}
    {r : CreateTaskResource} {tr ls : List (Cluster.Label Unit Empty W B)}
    {s : State Unit Empty W B} (h : (Cluster.system Unit Empty W B).Run A tr s)
    (htr : tr = .request () (.createTask r) :: ls) : ∃ wire, (system W B r.number).Run
      (A.on cluster Label.cluster? ⊓ (Undisturbed ⊓ Served)) (.post r :: ls.map .other)
      ⟨s, wire, ⟨[], .posted (.ok (.ok ⟨1, some r.number, .QUEUED⟩)), []⟩⟩ := by
  induction h generalizing ls with
  | init => cases htr
  | @step tr s s' l hrun hs ha ih =>
    cases tr with
    | nil =>
      obtain ⟨rfl, rfl⟩ := List.cons_eq_cons.1 htr
      obtain rfl := hrun.eq_init
      have h₀ : (system W B r.number).Run
        (A.on cluster Label.cluster? ⊓ (Undisturbed ⊓ Served)) [] _ := .init
      refine ⟨_, h₀.step (.post rfl r.validate_number hs rfl) ⟨fun m hm => ?_, own_allowed rfl⟩⟩
      cases hm
      exact ha
    | cons l₀ tr =>
      rw [List.cons_append] at htr
      obtain ⟨rfl, rfl⟩ := List.cons_eq_cons.1 htr
      obtain ⟨wire, hlift⟩ := ih rfl
      have hother : (tr.map Label.other : List (Label W B)).filterMap Label.cluster? = tr := by
        rw [List.filterMap_map]
        exact List.filterMap_some
      have hstep := hlift.step (.other hs) ⟨fun m hm => by
        cases hm
        show A (.request () (.createTask r) :: (tr.map Label.other).filterMap Label.cluster?) s l
        rwa [hother], fun i b _ b' hmem => by simp at hmem, by simp, by simp⟩
      rw [List.map_append]
      exact ⟨_, hstep⟩

/-- What the runs of one page assume. -/
abbrev Alone : Assumption (State Unit Empty Unit Bool) (Cluster.Label Unit Empty Unit Bool) :=
  ((Registered ⊓ FreshBroadcasters) ⊓ NoLoss) ⊓ ResultFirst

/-- A page that has the cluster to itself and connects again after its first connection broke, when
the task is finished. -/
structure Connected (r : CreateTaskResource) (tr : List (Label Unit Bool))
    (w : Session Unit Bool) : Prop where
  run : (system Unit Bool r.number).Run (Alone.on cluster Label.cluster? ⊓ (Undisturbed ⊓ Served))
    tr w
  posted : TaskStorage.posted (taken tr) = [r.number]
  breaks : tr.countP Label.breaks = 1
  rest : Rest w.cluster
  click : ∃ rows, w.click = ⟨rows, .connecting 1 true, []⟩
  wire : w.wire true = [event 1 .FINISHED]
  status : (w.cluster.taskStorage ()).statuses.get 1 = some .FINISHED
  number : (w.cluster.taskStorage ()).tasks.get 1 = some r.number
  result : (w.cluster.resultStorage ()).results.get r.number ≠ none

theorem alone_plain {tr : List (Cluster.Label Unit Empty Unit Bool)}
    {s : State Unit Empty Unit Bool} {l : Cluster.Label Unit Empty Unit Bool}
    (hreg : ∀ f i b, l ≠ .request f (.suspend i b)) (hlose : ∀ x, l ≠ .lose x)
    (hfirst : ResultFirst tr s l) : Alone tr s l :=
  ⟨⟨⟨fun f i b hl => absurd hl (hreg f i b), fun f i b hl => absurd hl (hreg f i b)⟩, hlose⟩,
    hfirst⟩

/-- A registration for the only task, with a new broadcaster. -/
theorem alone_suspend (number : String) {tr : List (Cluster.Label Unit Empty Unit Bool)}
    {s : State Unit Empty Unit Bool} {b : Bool}
    (ha : ⟨1, number⟩ ∈ answered (messages tr))
    (hnew : ∀ r ∈ registrations (messages tr), r.broadcaster ≠ b) :
    Alone tr s (.request () (.suspend 1 b)) := by
  refine ⟨⟨⟨?_, ?_⟩, fun x hl => ?_⟩, fun w e m hl => ?_⟩
  · rintro f i b ⟨⟩
    exact ⟨_, ha, rfl⟩
  · rintro f i b ⟨⟩
    exact hnew
  · cases hl
  · cases hl

theorem exists_connected (r : CreateTaskResource) : ∃ tr w, Connected r tr w := by
  have h₀ := run_oneTaskStored (B := Bool) (A := Alone) (r := r) fun tr s l hl => by
    obtain ⟨hreg, hlose⟩ := oneTaskStored_plain hl
    refine alone_plain hreg hlose ?_
    rintro w e m rfl
    simp [oneTaskStored, oneTask] at hl
  have h₁ := h₀.step (Step.statusEvent (f := ()) (w := ()) rfl) <|
    alone_plain (by simp) (by simp) fun w e m hl he => by
      cases hl
      cases he
  have h₂ := h₁.step (Step.statusEvent (f := ()) (w := ()) rfl) <|
    alone_plain (by simp) (by simp) fun w e m hl he => by
      cases hl
      cases he
      exact ⟨(), (firstTask r).finished (firstFinished r), _, by simp [oneTaskStored], rfl, rfl⟩
  obtain ⟨wire, h₃⟩ := Run.lift h₂ rfl
  have h₄ := Run.own h₃ (.posted rfl) rfl fun m hm => by cases hm
  have h₅ := Run.own h₄ (.subscribe (b := false) rfl (.request _ () _)) rfl fun m hm => by
    cases hm
    refine alone_suspend r.number (List.mem_singleton_self _) fun r hr => ?_
    cases hr
  have h₆ := h₅.step (.interrupted rfl) <| by
    refine ⟨fun m hm => ?_, fun i b h => ?_, fun h => ?_, fun h => ?_⟩
    · cases hm
    · cases h
    · cases h
    · cases h
  have h₇ := Run.own h₆ (.subscribe (b := true) rfl (.request _ () _)) rfl fun m hm => by
    cases hm
    refine alone_suspend r.number (List.mem_singleton_self _) fun r hr => ?_
    rw [List.mem_singleton.1 hr]
    exact Bool.false_ne_true
  refine ⟨_, _, h₇, rfl, rfl, ?_, ⟨_, rfl⟩, ?_, rfl, rfl, ?_⟩
  · refine ⟨fun p => ?_, fun _ => ?_, fun _ => ?_, fun _ _ => ?_, fun _ _ => ?_⟩
    · cases p with
      | inl => rfl
      | inr c => cases c
    · rfl
    · rfl
    · rfl
    · rfl
  · have htold := Run.told (h₇.mono (inf_le_left.trans (Assumption.on_mono
      (inf_le_left.trans inf_le_left)))) Nat.one_le_two_pow
    cases htold with
    | tracks ht =>
      cases ht.source with
      | connecting _ _ _ hwire => exact hwire.symm
  · intro hnone
    cases (HashMap.get_put_self _ _ _).symm.trans hnone

/-- It gets to its end. -/
theorem Connected.completes {r : CreateTaskResource} {tr : List (Label Unit Bool)}
    {w : Session Unit Bool} (h : Connected r tr w) : ∃ tr w, (system Unit Bool r.number).Run
      (Alone.on cluster Label.cluster? ⊓ (Undisturbed ⊓ Served)) tr w ∧
      TaskStorage.posted (taken tr) = [r.number] ∧ tr.countP Label.breaks = 1 ∧
      Rest w.cluster ∧ w.Quiet := by
  obtain ⟨h₀, hposted, hbreaks, hrest, ⟨rows, hclick⟩, hwire, hstatus, hnumber, hresult⟩ := h
  obtain ⟨s, wire, click⟩ := w
  obtain rfl : click = _ := hclick
  have hredirect : observe s (.request () (.getStatus 1)) =
      some (.status 1 (.ok (.seeOther ("/api/results/" ++ r.number)))) := by
    show some (Exchange.status 1 (TasksEndpoint.GetStatusCallback.onComplete
      (.ok ((s.taskStorage ()).handleGet ⟨1⟩)))) = _
    rw [TasksEndpoint.GetStatusCallback.onComplete_some hstatus, if_pos rfl, hnumber]
    rfl
  obtain ⟨-, hresponse⟩ := (Run.result_response (component.run (h₀.mono inf_le_left))
    r.number).resolve_left fun hnone => hresult hnone.1
  have h₁ := Run.own h₀ (.opened rfl) rfl fun m hm => by cases hm
  have h₂ := Run.own h₁ (.event rfl hwire) rfl fun m hm => by cases hm
  have h₃ := Run.own h₂ (.getStatus rfl (.request _ () _) hredirect) rfl fun m hm => by
    cases hm
    exact alone_plain (by simp) (by simp) fun w e m h => by cases h
  have h₄ := Run.own h₃ (.getResult rfl (.getResult _ () _) rfl) rfl fun m hm => by
    cases hm
    exact alone_plain (by simp) (by simp) fun w e m h => by cases h
  have hdata : Ajax.data? (.followed (ResultsEndpoint.ResultCallback.onComplete
      (.ok ((s.resultStorage ()).handleGet ⟨r.number⟩)))) =
        some (.result (Service.answer r.number)) := by
    rw [hresponse]
    rfl
  have h₅ := Run.own h₄ (.success rfl hdata) rfl fun m hm => by cases hm
  refine ⟨_, _, h₅, ?_, ?_, ?_, quiet_of_closed rfl rfl⟩
  · simp only [taken_append, TaskStorage.posted_append, hposted]
    rfl
  · simp only [countP_concat, hbreaks]
    rfl
  · refine ⟨fun p => ?_, hrest.mailbox, hrest.busy, hrest.statusMail, hrest.resultMail⟩
    show s.clusterProxy.send (.inl ()) [] p = []
    rw [Channels.send_apply, ite_self, List.append_nil]
    exact hrest.clusterProxy p

/-- One for `6` takes at most sixteen steps and shows at most ten rows. -/
theorem click_ends_six : ∃ (tr : List (Label Unit Bool)) (w : Session Unit Bool),
    (system Unit Bool "6").Run ((Registered ⊓ FreshBroadcasters).on cluster Label.cluster?) tr w ∧
      tr.countP Label.breaks = 1 ∧ w.Quiet ∧ tr.countP Label.own ≤ 16 ∧
      w.click.rows.length ≤ 10 := by
  obtain ⟨_, _, hconnected⟩ := exists_connected ⟨"6", by decide⟩
  obtain ⟨tr, w, h, hposted, hbreaks, -, hquiet⟩ := hconnected.completes
  have hrun := h.mono (inf_le_left.trans
    (Assumption.on_mono (inf_le_left.trans (inf_le_left (b := NoLoss)))))
  have hends := click_ends hrun (by rw [hposted]; exact Nat.one_le_two_pow)
  rw [hbreaks] at hends
  exact ⟨tr, w, hrun, hbreaks, hquiet, hends⟩

end PrimeTester.Cluster.Session
