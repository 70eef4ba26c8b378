import PrimeTester.Lib.Run

/-!
# Paths and progress

A `Path` goes on from any state by steps with labels in `P`, those that a system takes by itself. A
run can be extended along a path (`Run.extend`). `Works` says that every such step does one unit of
the work that is left, and that there is a step as long as work is left. Then no path is longer than
the work at its start (`Works.length_add`), and every state has a path to the end of the work
(`Works.exists_path`), which is where a path cannot be continued (`Works.stuck_iff`).
-/

namespace LTS

variable {σ L : Type*} {S : LTS σ L} {P : L → Prop}

/-- Steps from one state to another with labels in `P`, and these labels. -/
inductive Path (S : LTS σ L) (P : L → Prop) : σ → List L → σ → Prop
  | nil {s : σ} : Path S P s [] s
  | cons {s s' s'' : σ} {l : L} {ls : List L} :
    S.step s l s' → P l → Path S P s' ls s'' → Path S P s (l :: ls) s''

/-- A run goes on along a path, under an assumption that allows the labels of the path. -/
theorem Run.extend {A : Assumption σ L} {tr ls : List L} {s s' : σ} (h : S.Run A tr s)
    (hp : S.Path P s ls s') (hA : ∀ tr s l, P l → A tr s l) : S.Run A (tr ++ ls) s' := by
  induction hp generalizing tr with
  | nil => rwa [List.append_nil]
  | @cons s s' s'' l ls hs hl _ ih =>
    have hrun := ih (h.step hs (hA tr s l hl))
    rwa [List.append_assoc] at hrun

/-- All the labels of a path are in `P`. -/
theorem Path.labels {ls : List L} {s s' : σ} (hp : S.Path P s ls s') : ∀ l ∈ ls, P l := by
  induction hp with
  | nil => exact fun l hl => absurd hl List.not_mem_nil
  | cons _ hl _ ih => exact List.forall_mem_cons.2 ⟨hl, ih⟩

/-- What a step takes over from its end to its start, a path does. -/
theorem Path.back {I G : σ → Prop} (hkeep : ∀ s l s', I s → S.step s l s' → I s')
    (hback : ∀ s l s', I s → S.step s l s' → P l → G s' → G s) {ls : List L} {s s' : σ}
    (hp : S.Path P s ls s') (hI : I s) (h : G s') : G s := by
  induction hp with
  | nil => exact h
  | cons hs hl _ ih => exact hback _ _ _ hI hs hl (ih (hkeep _ _ _ hI hs) h)

/-- A path along which `Q` does not last has a point at which `G` comes about. -/
theorem Path.point {I Q G : σ → Prop} (hkeep : ∀ s l s', I s → S.step s l s' → I s')
    (hstep : ∀ s l s', I s → S.step s l s' → P l → Q s → Q s' ∨ G s') {ls : List L} {s s' : σ}
    (hp : S.Path P s ls s') (hI : I s) (hQ : Q s) (hnot : ¬ Q s') :
    ∃ ls' s₁, S.Path P s ls' s₁ ∧ G s₁ := by
  induction hp with
  | nil => exact absurd hQ hnot
  | cons hs hl _ ih =>
    rcases hstep _ _ _ hI hs hl hQ with hQ' | hG
    · obtain ⟨ls', s₁, hp', hG⟩ := ih (hkeep _ _ _ hI hs) hQ' hnot
      exact ⟨_, s₁, .cons hs hl hp', hG⟩
    · exact ⟨_, _, .cons hs hl .nil, hG⟩

/-- Each step with a label in `P` does one unit of the work `μ`, and there is a step while work is
left, in all the states of `I`. -/
structure Works (S : LTS σ L) (P : L → Prop) (I : σ → Prop) (μ : σ → ℕ) : Prop where
  keep : ∀ s l s', I s → S.step s l s' → P l → I s'
  spend : ∀ s l s', I s → S.step s l s' → P l → μ s' + 1 = μ s
  go : ∀ s, I s → μ s ≠ 0 → ∃ l s', S.step s l s' ∧ P l

namespace Works

variable {I : σ → Prop} {μ : σ → ℕ} (hw : S.Works P I μ)
include hw

/-- What is kept by the steps holds at the end of a path. -/
theorem keep_path {ls : List L} {s s' : σ} (hp : S.Path P s ls s') (h : I s) : I s' := by
  induction hp with
  | nil => exact h
  | cons hs hl _ ih => exact ih (hw.keep _ _ _ h hs hl)

/-- A path has done as much work as it has steps. -/
theorem length_add {ls : List L} {s s' : σ} (hp : S.Path P s ls s') (h : I s) :
    ls.length + μ s' = μ s := by
  induction hp with
  | nil => exact Nat.zero_add _
  | @cons s s' s'' l ls hs hl _ ih =>
    have hspend := hw.spend _ _ _ h hs hl
    have hrest := ih (hw.keep _ _ _ h hs hl)
    rw [List.length_cons]
    omega

/-- There is a path to the end of the work. -/
theorem exists_path {s : σ} (h : I s) : ∃ ls s', S.Path P s ls s' ∧ μ s' = 0 := by
  induction hn : μ s generalizing s with
  | zero => exact ⟨[], s, .nil, hn⟩
  | succ n ih =>
    obtain ⟨l, s₁, hs, hl⟩ := hw.go s h (by omega)
    have hspend := hw.spend _ _ _ h hs hl
    obtain ⟨ls, s', hp, hzero⟩ := ih (hw.keep _ _ _ h hs hl) (by omega)
    exact ⟨l :: ls, s', .cons hs hl hp, hzero⟩

/-- No step is left exactly when no work is. -/
theorem stuck_iff {s : σ} (h : I s) : (∀ l s', S.step s l s' → ¬ P l) ↔ μ s = 0 := by
  refine ⟨fun hstuck => ?_, fun hzero l s' hs hl => ?_⟩
  · by_contra hne
    obtain ⟨l, s', hs, hl⟩ := hw.go s h hne
    exact hstuck l s' hs hl
  · have hspend := hw.spend _ _ _ h hs hl
    omega

end Works

end LTS
