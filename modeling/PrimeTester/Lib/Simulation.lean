import PrimeTester.Lib.Run

/-!
# Observations and simulation

A specification is a transition system whose labels are what can be observed of a step, if
anything; `Shows` is what can be observed of its runs. An implementation is a system with a function
that says what is observed of a step, and `Observed` is a run of it with its observations.
`Simulation` matches every step of the implementation by at most one step of the specification with
the same observation, in related states. So whatever is observed of the implementation, the
specification shows (`Simulation.shows`), and what holds between all the observations of a
specification (`Shows.pairwise`) holds between those of its implementations, too.
-/

namespace LTS

variable {σ τ L O : Type*}

/-! ## What a specification shows -/

/-- A run of the specification to a state, with what is observed of it, in order. -/
inductive Shows (T : LTS τ (Option O)) : List O → τ → Prop
  | init : Shows T [] T.init
  | step {os : List O} {t t' : τ} {o : Option O} :
    Shows T os t → T.step t o t' → Shows T (os ++ o.toList) t'

section
variable {T : LTS τ (Option O)} {K : τ → O → Prop} {R : O → O → Prop}

/-- **Coherent observations.** When every observation leaves something behind that no later step
takes away, and it restricts what is observed in a state, then every observation restricts all the
later ones. -/
theorem Shows.pairwise (keep : ∀ t o' t' o, T.step t o' t' → K t o → K t' o)
    (gain : ∀ t o t', T.step t (some o) t' → K t' o)
    (restrict : ∀ t o' t' o, T.step t (some o') t' → K t o → R o o') {os : List O} {t : τ}
    (h : T.Shows os t) : os.Pairwise R ∧ ∀ o ∈ os, K t o := by
  induction h with
  | init => exact ⟨List.Pairwise.nil, fun o ho => absurd ho List.not_mem_nil⟩
  | @step os t t' o _ hs ih =>
    obtain ⟨hpairs, hknown⟩ := ih
    cases o with
    | none =>
      rw [Option.toList_none, List.append_nil]
      exact ⟨hpairs, fun o ho => keep _ _ _ _ hs (hknown o ho)⟩
    | some o =>
      rw [Option.toList_some]
      refine ⟨List.pairwise_append.2 ⟨hpairs, List.pairwise_singleton _ _, fun x hx y hy => ?_⟩,
        fun x hx => ?_⟩
      · rw [List.mem_singleton.1 hy]
        exact restrict _ _ _ _ hs (hknown x hx)
      · rcases List.mem_append.1 hx with hold | hnew
        · exact keep _ _ _ _ hs (hknown x hold)
        · rw [List.mem_singleton.1 hnew]
          exact gain _ _ _ hs

/-- What holds of every observation by the state in which it is made. -/
theorem Shows.all {I : List O → τ → Prop} {P : List O → O → Prop} (hinit : I [] T.init)
    (hstep : ∀ os t o t', T.Shows os t → I os t → T.step t o t' →
      I (os ++ o.toList) t' ∧ ∀ x, o = some x → P os x)
    {os : List O} {t : τ} (h : T.Shows os t) : I os t ∧ Always P os := by
  induction h with
  | init => exact ⟨hinit, Always.nil⟩
  | @step os t t' o hshows hs ih =>
    obtain ⟨hnext, hobs⟩ := hstep os t o t' hshows ih.1 hs
    refine ⟨hnext, ?_⟩
    cases o with
    | none =>
      rw [Option.toList_none, List.append_nil]
      exact ih.2
    | some x => exact Always.concat.2 ⟨ih.2, hobs x rfl⟩

end

/-! ## What is observed of an implementation -/

variable {S : LTS σ L} {A : Assumption σ L} {obs : σ → L → Option O}

/-- A run of the implementation, with what is observed of it, in order. -/
inductive Observed (S : LTS σ L) (A : Assumption σ L) (obs : σ → L → Option O) :
    List L → List O → σ → Prop
  | init : Observed S A obs [] [] S.init
  | step {tr : List L} {os : List O} {s s' : σ} {l : L} :
    Observed S A obs tr os s → S.step s l s' → A tr s l →
      Observed S A obs (tr ++ [l]) (os ++ (obs s l).toList) s'

theorem Observed.run {tr : List L} {os : List O} {s : σ} (h : S.Observed A obs tr os s) :
    S.Run A tr s := by
  induction h with
  | init => exact .init
  | step _ hs ha ih => exact ih.step hs ha

/-- When each label says whether something is observed, and which `q` belongs to it, all that is
observed belongs to the labels one by one. -/
theorem Observed.map_eq {Q : Type*} {p : O → Q} {q : L → Option Q}
    (hobs : ∀ s l, (obs s l).map p = q l) {tr : List L} {os : List O} {s : σ}
    (h : S.Observed A obs tr os s) : os.map p = tr.filterMap q := by
  induction h with
  | init => rfl
  | @step tr os s s' l _ _ _ ih =>
    have hlast : (obs s l).toList.map p = [l].filterMap q := by
      rw [← Option.toList_map, hobs]
      cases hl : q l with
      | none => rw [List.filterMap_cons_none hl]; rfl
      | some x => rw [List.filterMap_cons_some hl]; rfl
    rw [List.map_append, List.filterMap_append, ih, hlast]

/-- A forward simulation: the specification matches each step of a run of the implementation by a
step with the same observation, or stays where it is if there is nothing to observe. -/
structure Simulation (S : LTS σ L) (A : Assumption σ L) (obs : σ → L → Option O)
    (T : LTS τ (Option O)) (R : List L → σ → τ → Prop) : Prop where
  init : R [] S.init T.init
  step : ∀ tr s l s' t, S.Run A tr s → R tr s t → S.step s l s' → A tr s l →
    (∃ t', T.step t (obs s l) t' ∧ R (tr ++ [l]) s' t') ∨ obs s l = none ∧ R (tr ++ [l]) s' t

/-- **Simulation.** Whatever is observed of the implementation, the specification shows. -/
theorem Simulation.shows {T : LTS τ (Option O)} {R : List L → σ → τ → Prop}
    (h : Simulation S A obs T R) {tr : List L} {os : List O} {s : σ}
    (hobs : S.Observed A obs tr os s) : ∃ t, T.Shows os t ∧ R tr s t := by
  induction hobs with
  | init => exact ⟨_, .init, h.init⟩
  | @step tr os s s' l hrun hs ha ih =>
    obtain ⟨t, hshows, hR⟩ := ih
    rcases h.step tr s l s' t hrun.run hR hs ha with ⟨t', hstep, hR'⟩ | ⟨hnone, hR'⟩
    · exact ⟨t', hshows.step hstep, hR'⟩
    · rw [hnone, Option.toList_none, List.append_nil]
      exact ⟨t, hshows, hR'⟩

end LTS
