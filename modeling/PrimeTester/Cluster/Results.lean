import PrimeTester.Cluster.Flight

/-!
# The results that are served

Whatever a result storage holds under a number is the verdict on it, found by a worker for a task
that was submitted (`Run.result`). So the answer about a number is `NOT_FOUND` or
`answer number`, and once it is the latter it stays so (`Run.getResult`). `served_right` says that
these answers are right, and `results_stable` that results are never invented and never change.
-/

namespace PrimeTester.Cluster

/-- The answer about a number with a result. -/
def answer (number : String) : CalculationResultMessage where
  number := number
  isPrime := (Worker.verdict ⟨0, number⟩).isPrime
  divider := (Worker.verdict ⟨0, number⟩).divider

section
variable {F C W B : Type} [DecidableEq F] [DecidableEq C] [DecidableEq W]
variable {A : Assumption (State F C W B) (Label F C W B)}
variable {tr : List (Label F C W B)} {s : State F C W B} {f : F} {k : String}

omit [DecidableEq C] [DecidableEq W] in
/-- A result that a result storage has taken came with an event. -/
theorem mem_resultMessages {cf : CalculationFinished} :
    .finished cf ∈ resultMessages f tr ↔
      ∃ w e, .resultEvent f w e ∈ tr ∧ e.message = .finished cf := by
  rw [resultMessages, List.mem_filterMap]
  constructor
  · rintro ⟨l, hl, hm⟩
    cases l with
    | getResult f' m a => cases (Option.ite_none_right_eq_some.1 hm).2
    | resultEvent f' w e =>
      obtain ⟨rfl, he⟩ := Option.ite_none_right_eq_some.1 hm
      refine ⟨w, e, hl, ?_⟩
      obtain ⟨p, _ | _⟩ := e
      · cases he
      · cases he
        rfl
    | _ => cases hm
  · rintro ⟨w, e, hl, he⟩
    exact ⟨_, hl, by rw [Label.resultMessage?, if_pos rfl, he]; rfl⟩

/-- **Where a result comes from.** It is the verdict on a submitted task with the number it is
stored under, which a worker has completed. -/
theorem Run.result (h : (system F C W B).Run A tr s) {cf : CalculationFinished}
    (hcf : (s.resultStorage f).results.get k = some cf) :
    ∃ w t, t.message.number = k ∧ Submitted tr t.origin t.message ∧
      .complete w t cf ∈ tr ∧ cf = Worker.verdict t.message := by
  rw [Run.resultStorage_eq h f] at hcf
  obtain ⟨hmem, hk⟩ := ResultStorage.mem_of_get_results hcf
  obtain ⟨w, e, he, hm⟩ := mem_resultMessages.1 hmem
  obtain ⟨t, -, hsub, rfl | ⟨hdone, rfl⟩⟩ := Run.published h (Run.resultEvent h he)
  · cases hm
  · cases hm
    exact ⟨w, t, hk, hsub, hdone, rfl⟩

/-- The answer about a number, with and without a result. -/
theorem Run.getResult (h : (system F C W B).Run A tr s) (f : F) (k : String) :
    ((s.resultStorage f).results.get k = none ∧
      (s.resultStorage f).handleGet ⟨k⟩ = CalculationResultMessage.NOT_FOUND) ∨
    ((s.resultStorage f).results.get k ≠ none ∧
      (s.resultStorage f).handleGet ⟨k⟩ = answer k ∧
      answer k ≠ CalculationResultMessage.NOT_FOUND) := by
  cases hcf : (s.resultStorage f).results.get k with
  | none => exact .inl ⟨rfl, by rw [ResultStorage.handleGet]; simp only [hcf]⟩
  | some cf =>
    obtain ⟨w, t, hk, hsub, -, rfl⟩ := Run.result h hcf
    have hne : k ≠ "" := hk ▸ ne_empty_of_NUMBER_PATTERN hsub.number_matches
    obtain ⟨hget, hfound⟩ := ResultStorage.handleGet_of_get hcf hk hne
    have hanswer : (s.resultStorage f).handleGet ⟨k⟩ = answer k := by
      rw [hget, answer, Worker.verdict, Worker.verdict, hk]
    exact .inr ⟨Option.some_ne_none _, hanswer, hanswer ▸ hfound⟩

/-- A result stays. -/
theorem Run.result_stays {A' : Assumption (State F C W B) (Label F C W B)}
    {tr' : List (Label F C W B)} {s' : State F C W B} (h : (system F C W B).Run A tr s)
    (h' : (system F C W B).Run A' (tr ++ tr') s')
    (hk : (s.resultStorage f).results.get k ≠ none) :
    (s'.resultStorage f).results.get k ≠ none := by
  rw [Run.resultStorage_eq h f, ResultStorage.get_results_ne_none] at hk
  obtain ⟨cf, hcf, hnum⟩ := hk
  rw [Run.resultStorage_eq h' f, ResultStorage.get_results_ne_none]
  refine ⟨cf, ?_, hnum⟩
  rw [resultMessages, List.filterMap_append]
  exact List.mem_append_left _ hcf

/-- An answer that was given is the one that the storage held at that place of the run. -/
theorem Run.getResult_at (h : (system F C W B).Run A tr s) {f : F}
    {m : GetCalculationResultMessage} {a : CalculationResultMessage}
    (pre post : List (Label F C W B))
    (htr : tr = pre ++ .getResult f m a :: post) :
    ∃ s₁, (system F C W B).Run A pre s₁ ∧ a = (s₁.resultStorage f).handleGet m := by
  obtain ⟨s₁, s₂, hrun, hs, -⟩ := h.split htr
  cases hs with
  | getResult => exact ⟨s₁, hrun, rfl⟩

end

/-! ## One task -/

/-- The task of a run that begins with a POST of `r`. -/
def firstTask (r : CreateTaskResource) : Task Unit Empty := ⟨.inl (), ⟨1, r.number⟩⟩

/-- Its end. -/
def firstFinished (r : CreateTaskResource) : CalculationFinished :=
  Worker.verdict (firstTask r).message

section
variable {B : Type}

/-- A POST, and its task at the only worker. -/
def oneTask (r : CreateTaskResource) : List (Label Unit Empty Unit B) :=
  [.request () (.createTask r), .forward (.inl ()) (), .begin () (firstTask r),
    .complete () (firstTask r) (firstFinished r)]

/-- Both events are on their way to both storages. -/
def oneTaskDone (r : CreateTaskResource) : State Unit Empty Unit B where
  taskStorage _ := TaskStorage.after [.newNumber r.toMessage]
  resultStorage _ := ResultStorage.fresh
  clusterProxy _ := []
  mailbox _ := []
  busy _ := none
  statusMail _ _ := [(firstTask r).started, (firstTask r).finished (firstFinished r)]
  resultMail _ _ := [(firstTask r).started, (firstTask r).finished (firstFinished r)]

/-- Every accepted number gets that far. -/
theorem run_oneTask {A : Assumption (State Unit Empty Unit B) (Label Unit Empty Unit B)}
    {r : CreateTaskResource} (hA : ∀ tr s, ∀ l ∈ oneTask r, A tr s l) :
    (system Unit Empty Unit B).Run A (oneTask r) (oneTaskDone r) := by
  have hmatch : NUMBER_PATTERN (firstTask r).message.number := r.number_matches
  obtain ⟨m, hm⟩ :=
    Worker.checkIsPrime_total .exact (firstTask r).message hmatch (Nat.lt_succ_self _)
  have hverdict : m = firstFinished r :=
    Worker.checkIsPrime_sound NextProbablePrime.exact_skipsNoPrime hmatch hm
  subst hverdict
  have h₀ : (system Unit Empty Unit B).Run A [] State.init := .init
  have h₁ := h₀.step (Step.request _ () (.createTask r)) (hA _ _ _ (by simp [oneTask]))
  have h₂ := h₁.step (Step.forward (p := .inl ()) () rfl) (hA _ _ _ (by simp [oneTask]))
  have h₃ := h₂.step (Step.begin (w := ()) (t := firstTask r) rfl rfl)
    (hA _ _ _ (by simp [oneTask]))
  have h₄ := h₃.step
    (Step.complete (w := ()) (t := firstTask r) NextProbablePrime.exact_skipsNoPrime rfl hm)
    (hA _ _ _ (by simp [oneTask]))
  convert h₄ using 2
  · rfl
  · refine State.ext rfl rfl (funext fun p => ?_) rfl rfl rfl rfl
    cases p with
    | inl _ => rfl
    | inr c => cases c

/-- Its result storage takes both events. -/
def oneTaskStored (r : CreateTaskResource) : List (Label Unit Empty Unit B) :=
  oneTask r ++ [.resultEvent () () (firstTask r).started,
    .resultEvent () () ((firstTask r).finished (firstFinished r))]

/-- Every accepted number gets its result stored. -/
theorem run_oneTaskStored {A : Assumption (State Unit Empty Unit B) (Label Unit Empty Unit B)}
    {r : CreateTaskResource} (hA : ∀ tr s, ∀ l ∈ oneTaskStored r, A tr s l) :
    (system Unit Empty Unit B).Run A (oneTaskStored r)
      { oneTaskDone r with
        resultStorage := fun _ => ⟨HashMap.empty.put r.number (firstFinished r)⟩
        resultMail := fun _ _ => [] } := by
  have h₀ := run_oneTask (A := A) (r := r) fun tr s l hl =>
    hA tr s l (by rw [oneTaskStored]; exact List.mem_append_left _ hl)
  have h₁ := h₀.step (Step.resultEvent (f := ()) (w := ()) rfl)
    (hA _ _ _ (by simp [oneTaskStored]))
  have h₂ := h₁.step (Step.resultEvent (f := ()) (w := ()) rfl)
    (hA _ _ _ (by simp [oneTaskStored]))
  convert h₂ using 2
  · rw [oneTaskStored, List.append_assoc]
    rfl
  · rfl

/-- Nobody registers for notifications in it, and nothing is lost. -/
theorem oneTaskStored_plain {r : CreateTaskResource} {l : Label Unit Empty Unit B}
    (hl : l ∈ oneTaskStored r) :
    (∀ f i b, l ≠ .request f (.suspend i b)) ∧ ∀ x, l ≠ .lose x := by
  refine ⟨?_, ?_⟩
  · rintro f i b rfl
    simp [oneTaskStored, oneTask] at hl
  · rintro x rfl
    simp [oneTaskStored, oneTask] at hl

end

/-- Its task storage takes both events, too. -/
def oneTaskFinished (r : CreateTaskResource) : List (Label Unit Empty Unit Unit) :=
  oneTaskStored r ++ [.statusEvent () () (firstTask r).started,
    .statusEvent () () ((firstTask r).finished (firstFinished r))]

/-- Nobody registers for notifications in it, and nothing is lost. -/
theorem oneTaskFinished_plain {r : CreateTaskResource} {l : Label Unit Empty Unit Unit}
    (hl : l ∈ oneTaskFinished r) :
    (∀ f i b, l ≠ .request f (.suspend i b)) ∧ ∀ x, l ≠ .lose x := by
  rcases List.mem_append.1 hl with hstored | hstatus
  · exact oneTaskStored_plain hstored
  · refine ⟨?_, ?_⟩
    · rintro f i b rfl
      simp at hstatus
    · rintro x rfl
      simp at hstatus

/-- Every accepted number gets its task finished. -/
theorem run_oneTaskFinished
    {A : Assumption (State Unit Empty Unit Unit) (Label Unit Empty Unit Unit)}
    {r : CreateTaskResource} (hA : ∀ tr s, ∀ l ∈ oneTaskFinished r, A tr s l) :
    ∃ s, (system Unit Empty Unit Unit).Run A (oneTaskFinished r) s ∧
      s.taskStorage () = TaskStorage.after [.newNumber r.toMessage, .started ⟨1⟩,
        .finished (firstFinished r)] ∧
      s.resultStorage () = ⟨HashMap.empty.put r.number (firstFinished r)⟩ ∧
      s.clusterProxy (.inl ()) = [] ∧ s.mailbox () = [] ∧ s.busy () = none ∧
      s.statusMail () () = [] ∧ s.resultMail () () = [] := by
  have h₀ := run_oneTaskStored (A := A) (r := r) fun tr s l hl =>
    hA tr s l (by rw [oneTaskFinished]; exact List.mem_append_left _ hl)
  have h₁ := h₀.step (Step.statusEvent (f := ()) (w := ()) rfl)
    (hA _ _ _ (by simp [oneTaskFinished]))
  have h₂ := h₁.step (Step.statusEvent (f := ()) (w := ()) rfl)
    (hA _ _ _ (by simp [oneTaskFinished]))
  rw [List.append_assoc] at h₂
  exact ⟨_, h₂, rfl, rfl, rfl, rfl, rfl, rfl, rfl⟩

/-! ## The answers are right -/

section
variable {F C W B : Type} [DecidableEq F] [DecidableEq C] [DecidableEq W]
variable {tr : List (Label F C W B)} {s : State F C W B}

/-- **The answers users are served are right**, but for `0` and `1`. In every run, if
`GET /api/results/number` is answered `200 OK`, then `prime` is true exactly when the number is
`0`, `1` or a prime, and the divider of a composite is its least prime factor in decimal form. -/
theorem served_right (h : (system F C W B).Run ⊤ tr s) (f : F) (number : String)
    (resource : ResultResource)
    (hok : ResultsEndpoint.ResultCallback.onComplete
      (.ok ((s.resultStorage f).handleGet ⟨number⟩)) = .ok resource) :
    (resource.prime = true ↔ decimalValue number ≤ 1 ∨ (decimalValue number).Prime) ∧
      (2 ≤ decimalValue number → ¬ (decimalValue number).Prime →
        resource.divider = some (toString (decimalValue number).minFac)) := by
  rcases Run.getResult h f number with ⟨-, hget⟩ | ⟨-, hget, hfound⟩
  · rw [hget, ResultsEndpoint.ResultCallback.onComplete, if_pos rfl] at hok
    cases hok
  · rw [hget, ResultsEndpoint.ResultCallback.onComplete, if_neg hfound] at hok
    cases hok
    exact ⟨Worker.verdict_isPrime ⟨0, number⟩, Worker.verdict_divider ⟨0, number⟩⟩

end

/-- `1` is served as a prime. -/
theorem served_one : ∃ (tr : List (Label Unit Empty Unit Unit)) (s : State Unit Empty Unit Unit),
    (system Unit Empty Unit Unit).Run ⊤ tr s ∧ NUMBER_PATTERN "1" ∧
      ResultsEndpoint.ResultCallback.onComplete (.ok ((s.resultStorage ()).handleGet ⟨"1"⟩)) =
        .ok ⟨"1", true, none⟩ ∧ ¬ (decimalValue "1").Prime :=
  ⟨_, _, run_oneTaskStored (r := ⟨"1", by decide⟩) (fun _ _ _ _ => trivial), by decide,
    by decide, by decide⟩

/-- `6` is served with the divider `2`. -/
theorem served_six : ∃ (tr : List (Label Unit Empty Unit Unit)) (s : State Unit Empty Unit Unit)
    (resource : ResultResource), (system Unit Empty Unit Unit).Run ⊤ tr s ∧
      ResultsEndpoint.ResultCallback.onComplete (.ok ((s.resultStorage ()).handleGet ⟨"6"⟩)) =
        .ok resource ∧ resource.divider = some "2" := by
  have hrun := run_oneTaskStored (B := Unit) (A := ⊤) (r := ⟨"6", by decide⟩) fun _ _ _ _ => trivial
  refine ⟨_, _, ⟨"6", false, some "2"⟩, hrun, by decide, ?_⟩
  exact (served_right hrun () "6" _ (by decide)).2 (by decide) (by decide)

/-! ## Results are stable -/

/-- **Results are never invented, never change and never disappear.** When all numbers enter
through `POST /tasks`, every result is stored under its own number, which was posted, and is served
as it is stored; and an answer with a result is given again each time the number is asked for. -/
theorem results_stable {F W B : Type} [DecidableEq F] [DecidableEq W]
    {tr : List (Label F Empty W B)} {s : State F Empty W B}
    (h : (system F Empty W B).Run ⊤ tr s) (f : F) :
    (∀ k cf, (s.resultStorage f).results.get k = some cf →
      cf.number = k ∧
      (∃ g, ∃ r : CreateTaskResource, .request g (.createTask r) ∈ tr ∧ r.number = k) ∧
      (s.resultStorage f).handleGet ⟨k⟩ = ⟨cf.number, cf.isPrime, cf.divider⟩ ∧
      (s.resultStorage f).handleGet ⟨k⟩ ≠ CalculationResultMessage.NOT_FOUND) ∧
    ∀ k a a' pre mid post,
      tr = pre ++ .getResult f ⟨k⟩ a :: (mid ++ .getResult f ⟨k⟩ a' :: post) →
      a ≠ CalculationResultMessage.NOT_FOUND → a' = a := by
  constructor
  · intro k cf hcf
    obtain ⟨w, t, hk, hsub, -, rfl⟩ := Run.result h hcf
    have hposted : ∃ g, ∃ r : CreateTaskResource,
        .request g (.createTask r) ∈ tr ∧ r.number = k := by
      rcases horigin : t.origin with g | c
      · rw [horigin] at hsub
        refine ⟨g, mem_posted.1 ?_⟩
        rw [← hk, ← TaskStorage.answered_numbers]
        exact List.mem_map_of_mem hsub
      · cases c
    have hne : k ≠ "" := hk ▸ ne_empty_of_NUMBER_PATTERN hsub.number_matches
    obtain ⟨hget, hfound⟩ := ResultStorage.handleGet_of_get hcf hk hne
    exact ⟨hk, hposted, by rw [hget, ← hk]; rfl, hfound⟩
  · intro k a a' pre mid post htr hfound
    obtain ⟨s₁, hrun, ha⟩ := Run.getResult_at h pre _ htr
    obtain ⟨s₂, hrun', ha'⟩ := Run.getResult_at (m := ⟨k⟩) (a := a') h
      (pre ++ .getResult f ⟨k⟩ a :: mid) post (by rw [htr, List.append_assoc]; rfl)
    rw [ha] at hfound ⊢
    rw [ha']
    rcases Run.getResult hrun f k with ⟨-, hget⟩ | ⟨hk, hget, -⟩
    · exact absurd hget hfound
    · rcases Run.getResult hrun' f k with ⟨hk', -⟩ | ⟨-, hget', -⟩
      · exact absurd hk' (Run.result_stays hrun hrun' hk)
      · rw [hget, hget']

/-- The result of `6`, once stored, is answered twice. -/
theorem results_stable_six : ∃ (number : String) (tr : List (Label Unit Empty Unit Unit))
    (s : State Unit Empty Unit Unit) (a a' : CalculationResultMessage), number = "6" ∧
      (system Unit Empty Unit Unit).Run ⊤
        (tr ++ .getResult () ⟨number⟩ a :: ([] ++ [.getResult () ⟨number⟩ a'])) s ∧
      (∃ g, ∃ r : CreateTaskResource, .request g (.createTask r) ∈
        tr ++ .getResult () ⟨number⟩ a :: ([] ++ [.getResult () ⟨number⟩ a']) ∧
          r.number = number) ∧
      (s.resultStorage ()).handleGet ⟨number⟩ ≠ CalculationResultMessage.NOT_FOUND ∧
      a ≠ CalculationResultMessage.NOT_FOUND ∧ a' = a := by
  obtain ⟨r, hr⟩ : ∃ r : CreateTaskResource, r.number = "6" := ⟨⟨"6", by decide⟩, rfl⟩
  have hstored := run_oneTaskStored (B := Unit) (A := ⊤) (r := r) fun _ _ _ _ => trivial
  have hfirst := hstored.step (Step.getResult _ () ⟨r.number⟩) trivial
  have hrun := hfirst.step (Step.getResult _ () ⟨r.number⟩) trivial
  rw [List.append_assoc] at hrun
  obtain ⟨hheld, hagain⟩ := results_stable hrun ()
  obtain ⟨-, hposted, -, hfound⟩ := hheld r.number _ (HashMap.get_put_self _ _ _)
  exact ⟨r.number, _, _, _, _, hr, hrun, hposted, hfound, hfound,
    hagain r.number _ _ _ [] [] rfl hfound⟩

end PrimeTester.Cluster
