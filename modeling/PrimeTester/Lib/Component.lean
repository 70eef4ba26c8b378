import PrimeTester.Lib.Run

/-!
# Components

A system may have another one inside: `Component` says that each of its steps moves the inner
system by the label that `label` names, or leaves it where it is. So every run of the whole is a run
of the component (`Component.run`), under what the whole is assumed to do to it (`Assumption.on`).
-/

/-- What is assumed of a component, as an assumption about the whole. -/
def Assumption.on {σ τ L M : Type*} (state : σ → τ) (label : L → Option M) (A : Assumption τ M) :
    Assumption σ L := fun tr s l => ∀ m ∈ label l, A (tr.filterMap label) (state s) m

theorem Assumption.on_mono {σ τ L M : Type*} {state : σ → τ} {label : L → Option M}
    {A A' : Assumption τ M} (h : A ≤ A') : A.on state label ≤ A'.on state label :=
  fun _ _ _ ha m hm => h _ _ _ (ha m hm)

namespace LTS

variable {σ τ L M : Type*} {S : LTS σ L} {T : LTS τ M} {state : σ → τ} {label : L → Option M}

/-- `T` is a component of `S`, with its state and its labels in those of `S`. -/
structure Component (S : LTS σ L) (T : LTS τ M) (state : σ → τ) (label : L → Option M) : Prop where
  init : state S.init = T.init
  move : ∀ s l s' m, S.step s l s' → label l = some m → T.step (state s) m (state s')
  stay : ∀ s l s', S.step s l s' → label l = none → state s' = state s

theorem Run.eq_init {A : Assumption σ L} {s : σ} (h : S.Run A [] s) : s = S.init := by
  generalize htr : ([] : List L) = tr at h
  cases h with
  | init => rfl
  | step => simp at htr

/-- **A run of the whole is a run of its component.** -/
theorem Component.run (hc : Component S T state label) {A : Assumption τ M} {tr : List L} {s : σ}
    (h : S.Run (A.on state label) tr s) : T.Run A (tr.filterMap label) (state s) := by
  induction h with
  | init =>
    rw [hc.init]
    exact .init
  | @step tr s s' l _ hs ha ih =>
    rw [List.filterMap_append]
    cases hl : label l with
    | none =>
      rw [hc.stay s l s' hs hl, List.filterMap_cons_none hl, List.filterMap_nil, List.append_nil]
      exact ih
    | some m =>
      rw [List.filterMap_cons_some hl, List.filterMap_nil]
      exact ih.step (hc.move s l s' m hs hl) (ha m hl)

end LTS
