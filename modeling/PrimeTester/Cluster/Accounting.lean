import PrimeTester.Cluster.OneFrontend
import PrimeTester.Lib.Total

/-!
# Accounts of what is in flight

A `Price` puts a weight on every message in flight and on every task a worker is busy with;
`Price.value` is what a state is worth. There is one lemma for each operation on states, stated
without subtraction, and `Step.value` is the balance of a step: a task that changes its place is
taken from the value at its old weight and added at its new one, and a published event is added at
its weight in all the mailboxes it goes to. `Run.balance` adds up the steps of a run.
-/

namespace PrimeTester.Cluster

/-- What a message is worth at each place. -/
structure Price (F C W : Type) where
  waiting : Task F C → ℕ
  queued : Task F C → ℕ
  busy : Task F C → ℕ
  status : F → W → Published F C → ℕ
  result : F → W → Published F C → ℕ

namespace Price

variable {F C W B : Type} [Fintype F] [Fintype C] [Fintype W]

/-- What all of them are worth in a state. -/
def value (φ : Price F C W) (s : State F C W B) : ℕ :=
  s.clusterProxy.total (fun p m => φ.waiting ⟨p, m⟩) + s.mailbox.total (fun _ => φ.queued) +
    ∑ w, (s.busy w).elim 0 φ.busy + ∑ f, (s.statusMail f).total (φ.status f) +
      ∑ f, (s.resultMail f).total (φ.result f)

/-- What an event is worth when it is published. -/
def published (φ : Price F C W) (w : W) (e : Published F C) : ℕ :=
  ∑ f, φ.status f w e + ∑ f, φ.result f w e

variable (φ : Price F C W) (s : State F C W B)

@[simp] theorem value_init : φ.value (State.init : State F C W B) = 0 := by
  simp [value, State.init]

variable [DecidableEq F] [DecidableEq C] [DecidableEq W]

omit [DecidableEq W] in
/-- The task storage sends on the task that a POST makes. -/
theorem value_deliver (f : F) (m : TaskStorage.Message B) :
    φ.value (s.deliver f m) = φ.value s + (m.number?.toList.map fun number =>
      φ.waiting ⟨.inl f, ⟨(s.taskStorage f).id + 1, number⟩⟩).sum := by
  simp only [value, State.deliver, Channels.total_send, (TaskStorage.process_assigned _ m).2,
    List.map_map, Function.comp_def]
  omega

omit [DecidableEq W] in
/-- No other message makes a task. -/
theorem value_deliver_of_none {f : F} {m : TaskStorage.Message B} (hm : m.number? = none) :
    φ.value (s.deliver f m) = φ.value s := by
  rw [value_deliver, hm]
  rfl

omit [DecidableEq C] [DecidableEq W] in
theorem value_store (f : F) (m : ResultStorage.Message) : φ.value (s.store f m) = φ.value s := rfl

omit [DecidableEq F] [DecidableEq C] in
/-- A published event goes to all the mailboxes. -/
theorem value_publish (w : W) (e : Published F C) :
    φ.value (s.publish w e) = φ.value s + φ.published w e := by
  simp only [value, published, State.publish, Channels.total_send, Finset.sum_add_distrib,
    List.map_singleton, List.sum_singleton]
  omega

omit [DecidableEq W] in
theorem value_client (c : C) :
    φ.value { s with clusterProxy := s.clusterProxy.send (.inr c) [ClusterClient.task] } =
      φ.value s + φ.waiting ⟨.inr c, ClusterClient.task⟩ := by
  simp only [value, Channels.total_send, List.map_singleton, List.sum_singleton]
  omega

variable {s}

/-- A task goes from a proxy to a worker. -/
theorem value_forward {p : F ⊕ C} {m : TaskIdAssignedMessage} {ms : List TaskIdAssignedMessage}
    (w : W) (hp : s.clusterProxy p = m :: ms) :
    φ.value { s with clusterProxy := s.clusterProxy.next p, mailbox := s.mailbox.send w [⟨p, m⟩] } +
      φ.waiting ⟨p, m⟩ = φ.value s + φ.queued ⟨p, m⟩ := by
  have hnext := Channels.total_next (fun p m => φ.waiting ⟨p, m⟩) hp
  simp only [value, Channels.total_send, List.map_singleton, List.sum_singleton]
  omega

omit [DecidableEq F] [DecidableEq C] in
/-- A worker takes a task. -/
theorem value_take {w : W} {t : Task F C} {ts : List (Task F C)} (hidle : s.busy w = none)
    (hw : s.mailbox w = t :: ts) :
    φ.value { s with mailbox := s.mailbox.next w, busy := Function.update s.busy w (some t) } +
      φ.queued t = φ.value s + φ.busy t := by
  have hnext := Channels.total_next (fun _ => φ.queued) hw
  have hbusy := sum_update s.busy w (some t) fun _ o => o.elim 0 φ.busy
  rw [hidle] at hbusy
  simp only [Option.elim_none, Option.elim_some] at hbusy
  simp only [value]
  omega

omit [DecidableEq F] [DecidableEq C] in
/-- A worker becomes idle. -/
theorem value_idle (w : W) :
    φ.value { s with busy := Function.update s.busy w none } + (s.busy w).elim 0 φ.busy =
      φ.value s := by
  have hbusy := sum_update s.busy w none fun _ o => o.elim 0 φ.busy
  simp only [Option.elim_none] at hbusy
  simp only [value]
  omega

omit [DecidableEq C] [DecidableEq W] in
/-- A mailbox of a task storage changes. -/
theorem value_statusMail (f : F) (q : Channels W (Published F C)) :
    φ.value { s with statusMail := Function.update s.statusMail f q } +
      (s.statusMail f).total (φ.status f) = φ.value s + q.total (φ.status f) := by
  have hmail := sum_update s.statusMail f q fun f' q => q.total (φ.status f')
  simp only [value]
  omega

omit [DecidableEq C] [DecidableEq W] in
/-- A mailbox of a result storage changes. -/
theorem value_resultMail (f : F) (q : Channels W (Published F C)) :
    φ.value { s with resultMail := Function.update s.resultMail f q } +
      (s.resultMail f).total (φ.result f) = φ.value s + q.total (φ.result f) := by
  have hmail := sum_update s.resultMail f q fun f' q => q.total (φ.result f')
  simp only [value]
  omega

/-- Losing a message adds nothing. -/
theorem value_lose_le (x : Loss F C W) : φ.value (s.lose x) ≤ φ.value s := by
  cases x with
  | assigned p n =>
    have hlose := Channels.total_lose_le (q := s.clusterProxy) (fun p m => φ.waiting ⟨p, m⟩) p n
    simp only [value, State.lose]
    omega
  | routed w n =>
    have hlose := Channels.total_lose_le (q := s.mailbox) (fun _ => φ.queued) w n
    simp only [value, State.lose]
    omega
  | crash w =>
    have hidle := φ.value_idle (s := s) w
    simp only [State.lose]
    omega
  | status f w n =>
    have hmail := φ.value_statusMail (s := s) f ((s.statusMail f).lose w n)
    have hlose := Channels.total_lose_le (q := s.statusMail f) (φ.status f) w n
    simp only [State.lose]
    omega
  | result f w n =>
    have hmail := φ.value_resultMail (s := s) f ((s.resultMail f).lose w n)
    have hlose := Channels.total_lose_le (q := s.resultMail f) (φ.result f) w n
    simp only [State.lose]
    omega

/-- The task storage takes an event. -/
theorem value_statusEvent {f : F} {w : W} {e : Published F C} {es : List (Published F C)}
    (hf : s.statusMail f w = e :: es) :
    φ.value (State.deliver { s with
        statusMail := Function.update s.statusMail f ((s.statusMail f).next w) }
        f (.ofEvent e.message)) + φ.status f w e = φ.value s := by
  have hmail := φ.value_statusMail (s := s) f ((s.statusMail f).next w)
  have hnext := Channels.total_next (φ.status f) hf
  rw [value_deliver_of_none _ _ (TaskStorage.number?_ofEvent _)]
  omega

omit [DecidableEq C] in
/-- The result storage takes an event. -/
theorem value_resultEvent {f : F} {w : W} {e : Published F C} {es : List (Published F C)}
    (hf : s.resultMail f w = e :: es) :
    φ.value (State.store { s with
        resultMail := Function.update s.resultMail f ((s.resultMail f).next w) }
        f (.ofEvent e.message)) + φ.result f w e = φ.value s := by
  have hmail := φ.value_resultMail (s := s) f ((s.resultMail f).next w)
  have hnext := Channels.total_next (φ.result f) hf
  rw [value_store]
  omega

/-! ## Steps -/

/-- What a step adds to the value of a state. -/
def credit (φ : Price F C W) (s : State F C W B) : Label F C W B → ℕ
  | .request f r => (r.toMessage.number?.toList.map fun number =>
      φ.waiting ⟨.inl f, ⟨(s.taskStorage f).id + 1, number⟩⟩).sum
  | .client c => φ.waiting ⟨.inr c, ClusterClient.task⟩
  | .forward p _ => ((s.clusterProxy p).head?.map fun m => φ.queued ⟨p, m⟩).getD 0
  | .begin w t => φ.busy t + φ.published w t.started
  | .complete w t m => φ.published w (t.finished m)
  | _ => 0

/-- What a step takes from it, but for losses. -/
def debit (φ : Price F C W) (s : State F C W B) : Label F C W B → ℕ
  | .forward p _ => ((s.clusterProxy p).head?.map fun m => φ.waiting ⟨p, m⟩).getD 0
  | .begin _ t => φ.queued t
  | .complete _ t _ => φ.busy t
  | .fail _ t => φ.busy t
  | .statusEvent f w e => φ.status f w e
  | .resultEvent f w e => φ.result f w e
  | _ => 0

end Price

variable {F C W B : Type} [Fintype F] [Fintype C] [Fintype W]
variable [DecidableEq F] [DecidableEq C] [DecidableEq W]
variable {s s' : State F C W B} {l : Label F C W B}

/-- **The balance of a step** in which nothing is lost. -/
theorem Step.value (hs : Step s l s') (hloss : ∀ x, l ≠ .lose x) (φ : Price F C W) :
    φ.value s' + φ.debit s l = φ.value s + φ.credit s l := by
  cases hs with
  | request f r => exact φ.value_deliver s f _
  | getResult f m => rfl
  | client c => exact φ.value_client s c
  | @forward p m ms w hp =>
    simp only [Price.credit, Price.debit, hp, List.head?_cons, Option.map_some, Option.getD_some]
    exact φ.value_forward w hp
  | @begin w t ts hidle hw =>
    have htake := φ.value_take hidle hw
    rw [Price.value_publish, Price.credit, Price.debit]
    omega
  | @complete w t m np fuel hnp hw hm =>
    have hidle := φ.value_idle (s := s) w
    rw [hw, Option.elim_some] at hidle
    rw [Price.value_publish, Price.credit, Price.debit]
    omega
  | @fail w t fault np fuel hnp hw hm hfault =>
    have hidle := φ.value_idle (s := s) w
    rw [hw, Option.elim_some] at hidle
    exact hidle
  | statusEvent hf => exact φ.value_statusEvent hf
  | resultEvent hf => exact φ.value_resultEvent hf
  | lose x => exact absurd rfl (hloss x)

/-- In any step no more comes in. -/
theorem Step.value_le (hs : Step s l s') (φ : Price F C W) :
    φ.value s' + φ.debit s l ≤ φ.value s + φ.credit s l := by
  by_cases hloss : ∀ x, l ≠ .lose x
  · exact (hs.value hloss φ).le
  · simp only [ne_eq, not_forall, not_not] at hloss
    obtain ⟨x, rfl⟩ := hloss
    cases hs with
    | lose x => exact φ.value_lose_le x

/-! ## Runs

What has come in by the end of a trace is `g`, and `out` is true of the steps in which one goes out.
-/

variable {tr : List (Label F C W B)} {φ : Price F C W} {out : Label F C W B → Bool}
variable {g : List (Label F C W B) → ℕ}

/-- **The balance of a run.** What is there and what went out has come in. -/
theorem Run.balance_le {A : Assumption (State F C W B) (Label F C W B)}
    (h : (system F C W B).Run A tr s) (hnil : g [] = 0)
    (hstep : ∀ tr s l s', (system F C W B).Run A tr s → Step s l s' →
      φ.credit s l + (if out l then 1 else 0) + g tr = φ.debit s l + g (tr ++ [l])) :
    φ.value s + tr.countP out ≤ g tr := by
  refine h.induct (I := fun tr s => φ.value s + tr.countP out ≤ g tr) (by simp [system, hnil]) ?_
  intro tr s l s' hrun ih hs _
  have hvalue := hs.value_le φ
  have hbalance := hstep tr s l s' hrun hs
  rw [List.countP_append, List.countP_singleton]
  omega

/-- Without loss, all that has come in is there or went out. -/
theorem Run.balance (h : (system F C W B).Run NoLoss tr s) (hnil : g [] = 0)
    (hstep : ∀ tr s l s', (system F C W B).Run NoLoss tr s → Step s l s' →
      φ.credit s l + (if out l then 1 else 0) + g tr = φ.debit s l + g (tr ++ [l])) :
    φ.value s + tr.countP out = g tr := by
  refine h.induct (I := fun tr s => φ.value s + tr.countP out = g tr) (by simp [system, hnil]) ?_
  intro tr s l s' hrun ih hs hloss
  have hvalue := hs.value hloss φ
  have hbalance := hstep tr s l s' hrun hs
  rw [List.countP_append, List.countP_singleton]
  omega

end PrimeTester.Cluster
