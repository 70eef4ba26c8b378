import Mathlib.Data.List.Basic
import Mathlib.Order.CompleteBooleanAlgebra

/-!
# Runs of labelled transition systems

A system has an initial state and a labelled step relation. A `Run` is a finite run from the
initial state; it carries the trace of its labels, the oldest first. What the surroundings of a
system are assumed to do is an `Assumption`: it is asked at every step of the run, of the trace so
far, the state the step starts in and the label of the step. Assumptions are ordered pointwise, so
`A ⊓ B` is what both allow and `⊤` allows everything.

`Run.induct` proves an invariant of all runs from one step, and `Run.split` finds the step that a
given element of the trace comes from. `Always` is the corresponding notion on plain lists: every
element is allowed by what comes before it.
-/

/-! ## Lists whose elements are allowed one by one -/

/-- Every element of `l` is allowed by the elements before it. -/
def Always {α : Type*} (P : List α → α → Prop) (l : List α) : Prop :=
  ∀ pre a post, l = pre ++ a :: post → P pre a

namespace Always

variable {α : Type*} {P : List α → α → Prop} {l : List α} {a : α}

@[simp] theorem nil : Always P [] := by
  intro pre a post h
  exact absurd h (by simp)

/-- A list is allowed exactly when what is before its last element is, and the last element is
after that. -/
@[simp] theorem concat : Always P (l ++ [a]) ↔ Always P l ∧ P l a := by
  constructor
  · intro h
    refine ⟨fun pre b post hl => ?_, h l a [] rfl⟩
    exact h pre b (post ++ [a]) (by rw [hl]; simp)
  · rintro ⟨hl, ha⟩ pre b post h
    rcases List.eq_nil_or_concat post with rfl | ⟨post, c, rfl⟩
    · obtain ⟨rfl, hb⟩ := List.append_inj' h rfl
      cases hb
      exact ha
    · rw [List.concat_eq_append, ← List.cons_append, ← List.append_assoc] at h
      obtain ⟨rfl, -⟩ := List.append_inj' h rfl
      exact hl pre b post rfl

theorem left {l' : List α} (h : Always P (l ++ l')) : Always P l :=
  fun pre a post hl => h pre a (post ++ l') (by rw [hl]; simp)

/-- The elements can be checked one after the other. -/
theorem iff_getElem : Always P l ↔ ∀ i, ∀ h : i < l.length, P (l.take i) l[i] := by
  constructor
  · intro hl i h
    exact hl _ _ (l.drop (i + 1)) (by rw [List.getElem_cons_drop, List.take_append_drop])
  · rintro hl pre a post rfl
    have := hl pre.length (by simp)
    simpa using this

instance [∀ pre a, Decidable (P pre a)] : Decidable (Always P l) :=
  decidable_of_iff' _ iff_getElem

end Always

/-- At most one place of `l` satisfies `p`. -/
def AtMostOnce {α : Type*} (p : α → Prop) (l : List α) : Prop :=
  ∀ x a y a' z, l = x ++ a :: (y ++ a' :: z) → p a → ¬ p a'

/-- Two places that satisfy `p` are the same place. -/
theorem AtMostOnce.unique {α : Type*} {p : α → Prop} {l pre pre' post post' : List α} {a a' : α}
    (hone : AtMostOnce p l) (h : l = pre ++ a :: post) (h' : l = pre' ++ a' :: post') (ha : p a)
    (ha' : p a') : pre = pre' ∧ a = a' ∧ post = post' := by
  have key : pre ++ a :: post = pre' ++ a' :: post' := h.symm.trans h'
  rcases List.append_eq_append_iff.1 key with ⟨c, hc, hpost⟩ | ⟨c, hc, hpost⟩
  · cases c with
    | nil =>
      rw [List.append_nil] at hc
      cases hpost
      exact ⟨hc.symm, rfl, rfl⟩
    | cons b c =>
      cases hpost
      exact absurd ha' (hone pre a c a' post' h ha)
  · cases c with
    | nil =>
      rw [List.append_nil] at hc
      cases hpost
      exact ⟨hc, rfl, rfl⟩
    | cons b c =>
      cases hpost
      exact absurd ha (hone pre' a' c a post h' ha')

/-! ## Systems and their runs -/

/-- A labelled transition system with one initial state. -/
structure LTS (σ L : Type*) where
  init : σ
  step : σ → L → σ → Prop

/-- What the surroundings of a system do: a condition on a step, given the trace before it and the
state it starts in. -/
abbrev Assumption (σ L : Type*) := List L → σ → L → Prop

namespace LTS

variable {σ L : Type*} {S : LTS σ L} {A A' : Assumption σ L}

/-- A finite run of `S` whose steps all satisfy `A`, with its trace and its last state. -/
inductive Run (S : LTS σ L) (A : Assumption σ L) : List L → σ → Prop
  | init : Run S A [] S.init
  | step {tr : List L} {s s' : σ} {l : L} :
    Run S A tr s → S.step s l s' → A tr s l → Run S A (tr ++ [l]) s'

/-- A run under an assumption is a run under every weaker one. -/
theorem Run.mono {tr : List L} {s : σ} (hA : A ≤ A') (h : S.Run A tr s) : S.Run A' tr s := by
  induction h with
  | init => exact .init
  | step _ hstep ha ih => exact .step ih hstep (hA _ _ _ ha)

/-- Every run is a run under no assumption. -/
theorem Run.free {tr : List L} {s : σ} (h : S.Run A tr s) : S.Run ⊤ tr s := h.mono le_top

/-- **Invariants of runs.** What holds initially and is kept by every step of a run, given the
invariant before the step, holds in every state reached. -/
theorem Run.induct {I : List L → σ → Prop} (hinit : I [] S.init)
    (hstep : ∀ tr s l s', S.Run A tr s → I tr s → S.step s l s' → A tr s l → I (tr ++ [l]) s')
    {tr : List L} {s : σ} (h : S.Run A tr s) : I tr s := by
  induction h with
  | init => exact hinit
  | step hrun hs ha ih => exact hstep _ _ _ _ hrun ih hs ha

/-- Every element of the trace is the label of a step that was taken in a state that the trace
before it reaches. -/
theorem Run.split {tr pre post : List L} {l : L} {s : σ} (h : S.Run A tr s)
    (htr : tr = pre ++ l :: post) :
    ∃ s₁ s₂, S.Run A pre s₁ ∧ S.step s₁ l s₂ ∧ A pre s₁ l := by
  induction h generalizing post with
  | init => exact absurd htr (by simp)
  | @step tr s s' l' hrun hs ha ih =>
    rcases List.eq_nil_or_concat post with rfl | ⟨post, c, rfl⟩
    · obtain ⟨rfl, hl⟩ := List.append_inj' htr rfl
      cases hl
      exact ⟨s, s', hrun, hs, ha⟩
    · rw [List.concat_eq_append, ← List.cons_append, ← List.append_assoc] at htr
      obtain ⟨rfl, -⟩ := List.append_inj' htr rfl
      exact ih rfl

/-- A run has been through a state for every prefix of its trace. -/
theorem Run.before {pre post : List L} {s : σ} (h : S.Run A (pre ++ post) s) :
    ∃ s₁, S.Run A pre s₁ := by
  cases post with
  | nil => exact ⟨s, by rwa [List.append_nil] at h⟩
  | cons l post =>
    obtain ⟨s₁, -, hrun, -⟩ := h.split rfl
    exact ⟨s₁, hrun⟩

end LTS
