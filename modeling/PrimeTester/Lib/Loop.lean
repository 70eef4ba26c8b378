import Mathlib.Tactic.Common

/-!
# Loops with fuel

A loop is given by its body, which from a state either goes on with a new state or leaves the
loop with a result, and which may fail. `Loop.run` enters the body at most `fuel` times.
`Loop.run_of_invariant` is the rule of partial correctness: whatever a run returns satisfies what
the invariant gives at the exits. `Loop.run_of_variant` is the rule of total correctness: with a
measure that every round decreases, a fuel above the measure is enough and no round fails.
`Loop.run_of_no_failure` is for a fuel that may be too small, and by `Loop.run_mono` the result does
not depend on the fuel. `Loop.Reaches` says which states the body is entered in.
-/

/-- A sequence of two fallible computations returns what the second does on the first's result. -/
theorem Except.bind_eq_ok_iff.{u, v} {ε : Type u} {α β : Type v} {x : Except ε α}
    {f : α → Except ε β} {b : β} : (x >>= f) = .ok b ↔ ∃ a, x = .ok a ∧ f a = .ok b := by
  cases x with
  | error e =>
    constructor
    · intro h; cases h
    · rintro ⟨_, h, -⟩; cases h
  | ok a =>
    constructor
    · intro h; exact ⟨a, rfl, h⟩
    · rintro ⟨_, ha, h⟩; cases ha; exact h

/-- It fails when one of the two does. -/
theorem Except.bind_eq_error_iff.{u, v} {ε : Type u} {α β : Type v} {x : Except ε α}
    {f : α → Except ε β} {e : ε} :
    (x >>= f) = .error e ↔ x = .error e ∨ ∃ a, x = .ok a ∧ f a = .error e := by
  cases x with
  | error e' =>
    constructor
    · intro h; cases h; exact .inl rfl
    · rintro (h | ⟨_, h, -⟩) <;> cases h; rfl
  | ok a =>
    constructor
    · intro h; exact .inr ⟨a, rfl, h⟩
    · rintro (h | ⟨_, ha, h⟩)
      · cases h
      · cases ha; exact h

namespace Loop

/-- How one round of a loop ends: the next state, or the result the loop is left with. -/
inductive Flow (σ ρ : Type*) where
  | next (s : σ)
  | exit (r : ρ)
  deriving DecidableEq, Repr

section
variable {σ ρ ε : Type*}

/-- Run `body` from `s`, entering it at most `fuel` times; `stuck` reports that the fuel ran out
before the loop was left. -/
def run (body : σ → Except ε (Flow σ ρ)) (stuck : ε) : Nat → σ → Except ε ρ
  | 0, _ => .error stuck
  | fuel + 1, s =>
    match body s with
    | .error e => .error e
    | .ok (.next s') => run body stuck fuel s'
    | .ok (.exit r) => .ok r

variable {body : σ → Except ε (Flow σ ρ)} {stuck : ε}

theorem run_next {s s' : σ} (h : body s = .ok (.next s')) (fuel : Nat) :
    run body stuck (fuel + 1) s = run body stuck fuel s' := by
  rw [run, h]

theorem run_exit {s : σ} {r : ρ} (h : body s = .ok (.exit r)) (fuel : Nat) :
    run body stuck (fuel + 1) s = .ok r := by
  rw [run, h]

theorem run_error {s : σ} {e : ε} (h : body s = .error e) (fuel : Nat) :
    run body stuck (fuel + 1) s = .error e := by
  rw [run, h]

/-- A result does not depend on the fuel that was left over. -/
theorem run_mono : ∀ {fuel fuel' : Nat} {s : σ} {r : ρ}, fuel ≤ fuel' →
    run body stuck fuel s = .ok r → run body stuck fuel' s = .ok r := by
  intro fuel
  induction fuel with
  | zero => intro _ s r _ h; cases h
  | succ fuel ih =>
    intro fuel' s r hle h
    obtain ⟨fuel', rfl⟩ := Nat.exists_eq_add_of_le' (Nat.le_of_add_left_le hle)
    cases hb : body s with
    | error e => rw [run_error hb] at h; cases h
    | ok flow =>
      cases flow with
      | next s' =>
        rw [run_next hb] at h ⊢
        exact ih (Nat.le_of_succ_le_succ hle) h
      | exit r' =>
        rw [run_exit hb] at h ⊢
        exact h

/-- **Partial correctness.** An invariant that every round keeps, and that gives `Q` wherever the
loop is left, gives `Q` of whatever a run returns, on any fuel. -/
theorem run_of_invariant (I : σ → Prop) (Q : ρ → Prop)
    (hnext : ∀ s s', I s → body s = .ok (.next s') → I s')
    (hexit : ∀ s r, I s → body s = .ok (.exit r) → Q r) :
    ∀ fuel s r, I s → run body stuck fuel s = .ok r → Q r := by
  intro fuel
  induction fuel with
  | zero => intro s r _ h; cases h
  | succ fuel ih =>
    intro s r hI h
    cases hb : body s with
    | error e => rw [run_error hb] at h; cases h
    | ok flow =>
      cases flow with
      | next s' => rw [run_next hb] at h; exact ih s' r (hnext s s' hI hb) h
      | exit r' =>
        rw [run_exit hb] at h
        cases h
        exact hexit s r hI hb

/-- **Total correctness.** If under the invariant every round either leaves the loop with a result
in `Q` or keeps the invariant and decreases `μ`, a fuel above `μ` returns a result in `Q`. -/
theorem run_of_variant (I : σ → Prop) (Q : ρ → Prop) (μ : σ → Nat)
    (hround : ∀ s, I s → (∃ r, body s = .ok (.exit r) ∧ Q r) ∨
      ∃ s', body s = .ok (.next s') ∧ I s' ∧ μ s' < μ s) :
    ∀ fuel s, I s → μ s < fuel → ∃ r, run body stuck fuel s = .ok r ∧ Q r := by
  intro fuel
  induction fuel with
  | zero => intro s _ h; exact absurd h (Nat.not_lt_zero _)
  | succ fuel ih =>
    intro s hI hμ
    rcases hround s hI with ⟨r, hb, hQ⟩ | ⟨s', hb, hI', hlt⟩
    · exact ⟨r, run_exit hb fuel, hQ⟩
    · obtain ⟨r, hr, hQ⟩ := ih s' hI' (by omega)
      exact ⟨r, by rw [run_next hb, hr], hQ⟩

/-- **No failure.** If under the invariant no round fails and every round that goes on keeps it, a
run can only end without a result when its fuel is used up. -/
theorem run_of_no_failure (I : σ → Prop)
    (hround : ∀ s, I s → ∃ flow, body s = .ok flow ∧ ∀ s', flow = .next s' → I s') :
    ∀ fuel s e, I s → run body stuck fuel s = .error e → e = stuck := by
  intro fuel
  induction fuel with
  | zero => intro s e _ h; cases h; rfl
  | succ fuel ih =>
    intro s e hI h
    obtain ⟨flow, hb, hnext⟩ := hround s hI
    cases flow with
    | next s' => rw [run_next hb] at h; exact ih s' e (hnext s' rfl) h
    | exit r => rw [run_exit hb] at h; cases h

/-- **Divergence.** If under the invariant every round goes on and keeps it, no fuel is enough. -/
theorem run_of_no_exit (I : σ → Prop)
    (hround : ∀ s, I s → ∃ s', body s = .ok (.next s') ∧ I s') :
    ∀ fuel s, I s → run body stuck fuel s = .error stuck := by
  intro fuel
  induction fuel with
  | zero => intro s _; rfl
  | succ fuel ih =>
    intro s hI
    obtain ⟨s', hb, hI'⟩ := hround s hI
    rw [run_next hb]
    exact ih s' hI'

/-- The loop that starts in `s` enters its body in `s'`. -/
inductive Reaches (body : σ → Except ε (Flow σ ρ)) (s : σ) : σ → Prop
  | start : Reaches body s s
  | next {s' s'' : σ} : Reaches body s s' → body s' = .ok (.next s'') → Reaches body s s''

/-- An invariant that every round keeps holds wherever the body is entered. -/
theorem Reaches.invariant {I : σ → Prop} (hnext : ∀ s s', I s → body s = .ok (.next s') → I s')
    {s s' : σ} (h : Reaches body s s') (hI : I s) : I s' := by
  induction h with
  | start => exact hI
  | next _ hb ih => exact hnext _ _ ih hb

end

end Loop
