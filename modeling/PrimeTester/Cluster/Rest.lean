import PrimeTester.Cluster.Accounting
import PrimeTester.Cluster.Outcome
import PrimeTester.Lib.Progress

/-!
# The cluster comes to rest

What the actors do when no client asks for anything are the `internal` steps. `work` is the price at
which a message is worth the internal steps it still brings: a task costs one step of the router,
two of its worker, and every frontend takes its two events twice. The proof that the cluster comes
to rest has three parts:

* an internal step is worth exactly one (`work_step`), so a run of any length has done at most
  `3 + 4 * |F|` internal steps for each submitted task (`internal_steps`);
* while anything is in flight, some actor can go on (`Run.rest_of_stuck`), as every worker can
  complete its task;
* so by `LTS.Works` the internal steps lead from every state to rest, whatever was lost before
  (`comes_to_rest`).

With one frontend and no loss, rest is where the posted numbers have their `Outcome`
(`outcome_reached`).
-/

namespace PrimeTester.Cluster

section
variable {F C W B : Type}

/-- The steps that the actors take by themselves. -/
def Label.internal : Label F C W B → Bool
  | .forward .. | .begin .. | .complete .. | .fail .. | .statusEvent .. | .resultEvent .. => true
  | .request .. | .getResult .. | .client .. | .lose .. => false

/-- The steps that bring a task into the cluster. -/
def Label.submits : Label F C W B → Bool
  | .request _ (.createTask _) | .client _ => true
  | _ => false

theorem Label.submits_of_internal {l : Label F C W B} (hl : l.internal) : l.submits = false := by
  cases l with
  | request => cases hl
  | client => cases hl
  | _ => rfl

/-- A step that brings no task brings no number to a task storage. -/
theorem Label.number?_eq_none [DecidableEq F] (l : Label F C W B) (hl : l.submits = false) {f : F}
    {m : TaskStorage.Message B} (hm : l.taskMessage? f = some m) : m.number? = none := by
  cases l with
  | request f' r =>
    obtain ⟨-, hr⟩ := Option.ite_none_right_eq_some.1 hm
    cases hr
    cases r with
    | createTask r => cases hl
    | getStatus i => rfl
    | suspend i b => rfl
  | statusEvent f' w e =>
    obtain ⟨-, he⟩ := Option.ite_none_right_eq_some.1 hm
    cases he
    exact TaskStorage.number?_ofEvent _
  | _ => cases hm

/-- The internal steps from a state to another. -/
abbrev Internal [DecidableEq F] [DecidableEq C] [DecidableEq W] :
    State F C W B → List (Label F C W B) → State F C W B → Prop :=
  (system F C W B).Path fun l => l.internal

/-- No internal step is left. -/
def Stuck [DecidableEq F] [DecidableEq C] [DecidableEq W] (s : State F C W B) : Prop :=
  ∀ l s', Step s l s' → ¬ l.internal

/-- A message is worth the internal steps that it still brings. -/
def work (F C W : Type) [Fintype F] : Price F C W where
  waiting _ := 3 + 4 * Fintype.card F
  queued _ := 2 + 4 * Fintype.card F
  busy _ := 1 + 2 * Fintype.card F
  status _ _ _ := 1
  result _ _ _ := 1

/-- An event is worth a step of both storages of every frontend. -/
theorem work_published [Fintype F] (w : W) (e : Published F C) :
    (work F C W).published w e = 2 * Fintype.card F := by
  simp only [Price.published, work, ← Fintype.card_eq_sum_ones]
  omega

variable [Fintype F] [Fintype C] [Fintype W]

/-- No work is left exactly at rest. -/
theorem work_eq_zero {s : State F C W B} : (work F C W).value s = 0 ↔ Rest s := by
  refine ⟨fun h => ?_, fun h => ?_⟩
  · simp only [Price.value, work, Nat.add_eq_zero_iff, Finset.sum_eq_zero_iff, Finset.mem_univ,
      forall_const] at h
    obtain ⟨⟨⟨⟨hproxy, hmailbox⟩, hbusy⟩, hstatus⟩, hresult⟩ := h
    have empty {K α : Type} [Fintype K] {q : Channels K α} {n : ℕ} (hn : 0 < n)
        (hq : q.total (fun _ _ => n) = 0) (k : K) : q k = [] := by
      refine List.eq_nil_iff_forall_not_mem.2 fun a ha => ?_
      have hle := Channels.le_total ha fun _ _ => n
      omega
    refine ⟨empty (by omega) hproxy, empty (by omega) hmailbox, fun w => ?_,
      fun f => empty (by omega) (hstatus f), fun f => empty (by omega) (hresult f)⟩
    cases hb : s.busy w with
    | none => rfl
    | some t =>
      have hw := hbusy w
      rw [hb, Option.elim_some] at hw
      omega
  · simp [Price.value, Channels.total, h.clusterProxy, h.mailbox, h.busy, h.statusMail,
      h.resultMail]

variable [DecidableEq F] [DecidableEq C] [DecidableEq W]
variable {A : Assumption (State F C W B) (Label F C W B)}
variable {tr : List (Label F C W B)} {s s' : State F C W B} {l : Label F C W B}

/-! ## One unit of work a step -/

omit [Fintype C] [Fintype W] in
/-- What a step brings and takes at the price of work. -/
theorem work_balance (h : (system F C W B).Run A tr s) (hs : Step s l s') :
    (work F C W).credit s l + (if l.internal then 1 else 0) +
        (3 + 4 * Fintype.card F) * tr.countP Label.submits =
      (work F C W).debit s l + (3 + 4 * Fintype.card F) * (tr ++ [l]).countP Label.submits := by
  have hstep : (work F C W).credit s l + (if l.internal then 1 else 0) =
      (work F C W).debit s l + (3 + 4 * Fintype.card F) * (if l.submits then 1 else 0) := by
    cases hs with
    | request f r =>
      cases r <;> simp [Price.credit, Price.debit, work, Label.internal, Label.submits,
        Request.toMessage, TaskStorage.Message.number?]
    | getResult f m => rfl
    | client c => simp [Price.credit, Price.debit, work, Label.internal, Label.submits]
    | @forward p m ms w hp =>
      simp only [Price.credit, Price.debit, hp, work, List.head?_cons, Option.map_some,
        Option.getD_some, Label.internal, Label.submits, if_true, Bool.false_eq_true, if_false]
      omega
    | @begin w t ts hidle hw =>
      rw [Price.credit, work_published]
      simp only [Price.debit, work, Label.internal, Label.submits, if_true, Bool.false_eq_true,
        if_false]
      omega
    | @complete w t m np fuel hnp hw hm =>
      rw [Price.credit, work_published]
      simp only [Price.debit, work, Label.internal, Label.submits, if_true, Bool.false_eq_true,
        if_false]
      omega
    | fail hnp hw hm hfault => exact absurd (.fail hnp hw hm hfault) (Run.not_fail h)
    | statusEvent hf => rfl
    | resultEvent hf => rfl
    | lose x => rfl
  rw [List.countP_append, List.countP_singleton, Nat.mul_add]
  omega

/-- An internal step of a run does one unit of work. -/
theorem work_step (h : (system F C W B).Run A tr s) (hs : Step s l s') (hl : l.internal) :
    (work F C W).value s' + 1 = (work F C W).value s := by
  have hloss (x : Loss F C W) : l ≠ .lose x := by
    rintro rfl
    cases hl
  have hvalue := hs.value hloss (work F C W)
  have hbalance := work_balance h hs
  rw [if_pos hl, List.countP_append, List.countP_singleton, Label.submits_of_internal hl] at hbalance
  simp only [Bool.false_eq_true, if_false, Nat.add_zero] at hbalance
  omega

/-- The work that was submitted is done or left, or lost. -/
theorem Run.work_le (h : (system F C W B).Run A tr s) :
    (work F C W).value s + tr.countP Label.internal ≤
      (3 + 4 * Fintype.card F) * tr.countP Label.submits :=
  Run.balance_le (g := fun tr => (3 + 4 * Fintype.card F) * tr.countP Label.submits) h
    (Nat.mul_zero _) fun _ _ _ _ hrun hs => work_balance hrun hs

/-- Without loss, it is done or left. -/
theorem Run.work_eq (h : (system F C W B).Run NoLoss tr s) :
    (work F C W).value s + tr.countP Label.internal =
      (3 + 4 * Fintype.card F) * tr.countP Label.submits :=
  Run.balance (g := fun tr => (3 + 4 * Fintype.card F) * tr.countP Label.submits) h
    (Nat.mul_zero _) fun _ _ _ _ hrun hs => work_balance hrun hs

/-- **The actors never work for nothing.** In every run of any cluster, whatever is lost, the actors
take at most `3 + 4 * |F|` steps by themselves for each submitted task; and a run without loss that
has come to rest has taken exactly as many. -/
theorem internal_steps (tr : List (Label F C W B)) (s : State F C W B) :
    ((system F C W B).Run ⊤ tr s →
      tr.countP Label.internal ≤ (3 + 4 * Fintype.card F) * tr.countP Label.submits) ∧
    ((system F C W B).Run NoLoss tr s → Rest s →
      tr.countP Label.internal = (3 + 4 * Fintype.card F) * tr.countP Label.submits) := by
  refine ⟨fun h => ?_, fun h hrest => ?_⟩
  · have hle := Run.work_le h
    omega
  · have heq := Run.work_eq h
    rw [work_eq_zero.2 hrest, Nat.zero_add] at heq
    exact heq

/-- The only task of a cluster with one frontend takes seven steps. -/
theorem internal_steps_two : ∃ (tr : List (Label Unit Empty Unit Unit))
    (s : State Unit Empty Unit Unit), (system Unit Empty Unit Unit).Run NoLoss tr s ∧ Rest s ∧
      tr.countP Label.submits = 1 ∧ tr.countP Label.internal = 7 := by
  obtain ⟨s, hrun, hrest, -⟩ := rest_oneTaskFinished (A := NoLoss) ⟨"2", by decide⟩
    fun tr s l hl => (oneTaskFinished_plain hl).2
  have hsubmits : (oneTaskFinished ⟨"2", by decide⟩).countP Label.submits = 1 := rfl
  refine ⟨_, s, hrun, hrest, hsubmits, ?_⟩
  rw [(internal_steps _ s).2 hrun hrest, hsubmits]
  rfl

/-! ## Somebody can go on -/

omit [Fintype F] [Fintype C] [Fintype W] in
/-- Where no actor can take a step, nothing is in flight. -/
theorem Run.rest_of_stuck [Nonempty W] (h : (system F C W B).Run A tr s) (hstuck : Stuck s) :
    Rest s := by
  have hbusy (w : W) : s.busy w = none := by
    cases hb : s.busy w with
    | none => rfl
    | some t =>
      obtain ⟨m, s', hs⟩ := Run.can_complete h hb
      exact absurd rfl (hstuck _ _ hs)
  refine ⟨fun p => ?_, fun w => ?_, hbusy, fun f w => ?_, fun f w => ?_⟩
  · cases hp : s.clusterProxy p with
    | nil => rfl
    | cons m ms => exact absurd rfl (hstuck _ _ (.forward (Classical.arbitrary W) hp))
  · cases hw : s.mailbox w with
    | nil => rfl
    | cons t ts => exact absurd rfl (hstuck _ _ (.begin (hbusy w) hw))
  · cases hf : s.statusMail f w with
    | nil => rfl
    | cons e es => exact absurd rfl (hstuck _ _ (.statusEvent hf))
  · cases hf : s.resultMail f w with
    | nil => rfl
    | cons e es => exact absurd rfl (hstuck _ _ (.resultEvent hf))

/-- The internal steps do the work, from any state that a run reaches. -/
theorem internal_works [Nonempty W] : (system F C W B).Works (fun l => l.internal)
    (fun s => ∃ tr, (system F C W B).Run ⊤ tr s) (work F C W).value where
  keep := by
    rintro s l s' ⟨tr, h⟩ hs -
    exact ⟨_, h.step hs trivial⟩
  spend := by
    rintro s l s' ⟨tr, h⟩ hs hl
    exact work_step h hs hl
  go := by
    rintro s ⟨tr, h⟩ hwork
    by_contra hstuck
    push Not at hstuck
    exact hwork (work_eq_zero.2 (Run.rest_of_stuck h hstuck))

/-- **The cluster comes to rest.** From every state that a run of a cluster with a worker reaches,
whatever was lost before, no sequence of internal steps is longer than the work that is left; one
leads to rest; and whichever steps are taken, when none is left the cluster is at rest and has done
just that work. -/
theorem comes_to_rest [Nonempty W] (h : (system F C W B).Run ⊤ tr s) :
    (∃ ls s', Internal s ls s' ∧ Rest s') ∧
      ∀ ls s', Internal s ls s' → ls.length ≤ (work F C W).value s ∧
        (Stuck s' → Rest s' ∧ ls.length = (work F C W).value s) := by
  refine ⟨?_, fun ls s' hp => ?_⟩
  · obtain ⟨ls, s', hp, hzero⟩ := internal_works.exists_path ⟨tr, h⟩
    exact ⟨ls, s', hp, work_eq_zero.1 hzero⟩
  · have hlen := internal_works.length_add hp ⟨tr, h⟩
    refine ⟨by omega, fun hstuck => ?_⟩
    have hzero := (internal_works.stuck_iff (internal_works.keep_path hp ⟨tr, h⟩)).1 hstuck
    exact ⟨work_eq_zero.1 hzero, by omega⟩

end

/-- A task of a cluster with one frontend costs seven steps. -/
theorem comes_to_rest_two : ∃ (tr : List (Label Unit Empty Unit Unit))
    (s : State Unit Empty Unit Unit), (system Unit Empty Unit Unit).Run ⊤ tr s ∧
      ∀ ls s', Internal s ls s' → ls.length ≤ 7 := by
  have h₀ : (system Unit Empty Unit Unit).Run ⊤ [] State.init := .init
  have hrun := h₀.step (Step.request _ () (.createTask ⟨"2", by decide⟩)) trivial
  refine ⟨_, _, hrun, fun ls s' hp => ?_⟩
  exact ((comes_to_rest hrun).2 ls s' hp).1

/-! ## The outcome is reached -/

section
variable {F C W B : Type}

/-- The actors post nothing themselves. -/
theorem posted_internal [DecidableEq F] (f : F) {ls : List (Label F C W B)}
    (hls : ∀ l ∈ ls, l.internal) : TaskStorage.posted (taskMessages f ls) = [] := by
  refine List.filterMap_eq_nil_iff.2 fun m hm => ?_
  obtain ⟨l, hl, hlm⟩ := List.mem_filterMap.1 hm
  exact l.number?_eq_none (Label.submits_of_internal (hls l hl)) hlm

/-- Internal steps are no registrations, and nothing is lost in them. -/
theorem internal_plain [DecidableEq F] (tr : List (Label F C W B)) (s : State F C W B)
    (l : Label F C W B) (hl : l.internal) : (Registered ⊓ NoLoss) tr s l := by
  refine ⟨fun f i b hreg => ?_, fun x hloss => ?_⟩
  · rw [hreg] at hl
    cases hl
  · rw [hloss] at hl
    cases hl

end

section
variable {W B : Type} [Fintype W] [DecidableEq W] [Nonempty W]
variable {tr : List (Label Unit Empty W B)} {s : State Unit Empty W B}

/-- **Once the clients are done, the outcome is reached.** After any run of a cluster with one
frontend without loss, with registrations only for acknowledged ids and less than `2 ^ 63` POSTs,
the actors can only go on for a while, and wherever they come to a halt, the posted numbers have
their outcome. -/
theorem outcome_reached (h : (system Unit Empty W B).Run (Registered ⊓ NoLoss) tr s)
    (hlen : (TaskStorage.posted (messages tr)).length < 2 ^ 63) :
    (∃ n, ∀ ls s', Internal s ls s' → ls.length ≤ n) ∧ (∃ ls s', Internal s ls s' ∧ Stuck s') ∧
      ∀ ls s', Internal s ls s' → Stuck s' → Outcome (TaskStorage.posted (messages tr)) s' := by
  have hreach : ∃ tr, (system Unit Empty W B).Run ⊤ tr s := ⟨tr, h.free⟩
  refine ⟨⟨_, fun ls s' hp => Nat.le.intro (internal_works.length_add hp hreach)⟩, ?_,
    fun ls s' hp hstuck => ?_⟩
  · obtain ⟨ls, s', hp, hzero⟩ := internal_works.exists_path hreach
    exact ⟨ls, s', hp, (internal_works.stuck_iff (internal_works.keep_path hp hreach)).2 hzero⟩
  · have hrun := h.extend hp internal_plain
    have hrest' := work_eq_zero.1
      ((internal_works.stuck_iff (internal_works.keep_path hp hreach)).1 hstuck)
    have hposted : TaskStorage.posted (messages (tr ++ ls)) =
        TaskStorage.posted (messages tr) := by
      rw [messages, taskMessages_append, TaskStorage.posted_append, posted_internal () hp.labels,
        List.append_nil]
    rw [← hposted] at hlen ⊢
    exact Run.outcome hrun hlen hrest'

end

/-- Wherever the cluster halts after a POST of `2`, the task is finished. -/
theorem outcome_reached_two : ∃ (tr : List (Label Unit Empty Unit Unit))
    (s : State Unit Empty Unit Unit), (system Unit Empty Unit Unit).Run (Registered ⊓ NoLoss) tr s ∧
      ∀ ls s', Internal s ls s' → Stuck s' → Outcome ["2"] s' := by
  have h₀ : (system Unit Empty Unit Unit).Run (Registered ⊓ NoLoss) [] State.init := .init
  have hrun := h₀.step (Step.request _ () (.createTask ⟨"2", by decide⟩)) (by
    refine ⟨fun f i b h => ?_, fun x h => ?_⟩
    · cases h
    · cases h)
  exact ⟨_, _, hrun, (outcome_reached hrun (by decide)).2.2⟩

end PrimeTester.Cluster
