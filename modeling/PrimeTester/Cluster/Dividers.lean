import PrimeTester.Cluster.Results
import PrimeTester.Worker.Inputs

/-!
# Dividers as numbers

The divider of a composite comes back as a string, which a client may post in turn. `divider_served`
says that this works: the string is accepted, it denotes a proper prime divider of the number that it
was reported for, and whenever there is a result for it, anywhere, it says prime. The decimal form
that `checkIsPrime` writes is read back here as the integer it was written for.
-/

namespace PrimeTester.Cluster

/-- The answer about a number in terms of the integer that it denotes. -/
theorem answer_eq (k : String) : answer k =
    ⟨k, decide (decimalValue k ≤ 1 ∨ (decimalValue k).Prime),
      if decimalValue k ≤ 1 ∨ (decimalValue k).Prime then none
      else some (toString (decimalValue k).minFac)⟩ := by
  rw [answer, Worker.verdict_eq]

section
variable {F C W B : Type} [DecidableEq F] [DecidableEq C] [DecidableEq W]
variable {A : Assumption (State F C W B) (Label F C W B)}
variable {tr : List (Label F C W B)} {s : State F C W B} {f : F} {k d : String}

/-- An answer with a divider is about a composite, with its least prime factor. -/
theorem Run.divider (h : (system F C W B).Run A tr s)
    (hd : ((s.resultStorage f).handleGet ⟨k⟩).divider = some d) :
    2 ≤ decimalValue k ∧ ¬ (decimalValue k).Prime ∧ d = toString (decimalValue k).minFac := by
  rcases Run.getResult h f k with ⟨-, hget⟩ | ⟨-, hget, -⟩
  · rw [hget] at hd
    cases hd
  · rw [hget, answer_eq] at hd
    by_cases hprime : decimalValue k ≤ 1 ∨ (decimalValue k).Prime
    · rw [if_pos hprime] at hd
      cases hd
    · rw [if_neg hprime] at hd
      cases hd
      obtain ⟨hone, hn⟩ := not_or.1 hprime
      exact ⟨by omega, hn, rfl⟩

/-- **A divider can be posted, and is a prime.** In every run of any cluster, the divider that is
served for a number is accepted as the number of a task, and denotes a prime that divides the number
and is smaller; and every frontend of every cluster answers about it with that verdict, or has no
result yet. -/
theorem divider_served (h : (system F C W B).Run A tr s)
    (hd : ((s.resultStorage f).handleGet ⟨k⟩).divider = some d) :
    (∃ r, CreateTaskResource.validate (some d) = some r ∧ r.number = d) ∧
    (decimalValue d).Prime ∧ decimalValue d ∣ decimalValue k ∧ decimalValue d < decimalValue k ∧
    ∀ tr' s', (system F C W B).Run A tr' s' → ∀ g,
      (s'.resultStorage g).handleGet ⟨d⟩ = CalculationResultMessage.NOT_FOUND ∨
        (s'.resultStorage g).handleGet ⟨d⟩ = ⟨d, true, none⟩ := by
  obtain ⟨h2, hn, rfl⟩ := Run.divider h hd
  have hprime : (decimalValue k).minFac.Prime := Nat.minFac_prime (by omega)
  have hlt : (decimalValue k).minFac < decimalValue k := (Nat.not_prime_iff_minFac_lt h2).1 hn
  let r : CreateTaskResource := ⟨_, NUMBER_PATTERN_toString (decimalValue k).minFac⟩
  rw [decimalValue_toString]
  refine ⟨⟨r, r.validate_number, rfl⟩, hprime, Nat.minFac_dvd _, hlt, fun tr' s' h' g => ?_⟩
  rcases Run.getResult h' g (toString (decimalValue k).minFac) with ⟨-, hget⟩ | ⟨-, hget, -⟩
  · exact .inl hget
  · right
    rw [hget, answer_eq, decimalValue_toString]
    simp [hprime]

end

/-- The divider of `6`. -/
theorem divider_served_six : ∃ (tr : List (Label Unit Empty Unit Unit))
    (s : State Unit Empty Unit Unit), (system Unit Empty Unit Unit).Run ⊤ tr s ∧
      ∃ d r, ((s.resultStorage ()).handleGet ⟨"6"⟩).divider = some d ∧
        CreateTaskResource.validate (some d) = some r ∧ r.number = d := by
  have hrun := run_oneTaskStored (B := Unit) (A := ⊤) (r := ⟨"6", by decide⟩) fun _ _ _ _ => trivial
  obtain ⟨r, hr, hnumber⟩ := (divider_served (f := ()) (k := "6") (d := "2") hrun (by decide)).1
  exact ⟨_, _, hrun, "2", r, by decide, hr, hnumber⟩

end PrimeTester.Cluster
