import Mathlib.Data.Nat.Prime.Basic
import Mathlib.Tactic.Linarith
import Mathlib.Tactic.Ring

/-!
# Trial division

The number theory of a search for the least divisor of `n`. `naive` tries every integer from `2`
to `n - 1`. A faster search may skip candidates, as long as it skips no prime and does not stop
below the square root: `NoPrimeFactorBelow n d` is the invariant of such a search at the candidate
`d`, `minFac_eq` says what the first hit is, and `prime` what a search without a hit shows. The
candidates themselves need not be prime.

`Halved n h` is what halving from `n / 2` down to a square at most `n` gives, and
`Halved.sqrt_le`, `double_sq_le` and `double_lt` bracket the bound `2 * h` that it yields.
-/

namespace TrialDivision

/-! ## The search over every integer -/

/-- The first divisor of `n` among `2, 3, …, n - 1`, in this order. -/
def naive (n : ℕ) : Option ℕ :=
  (List.range' 2 (n - 2)).find? fun d => n % d = 0

/-- The naive search reports a divisor exactly when one lies strictly between `1` and `n`. -/
theorem naive_isSome {n : ℕ} : (naive n).isSome ↔ ∃ d, 1 < d ∧ d < n ∧ d ∣ n := by
  simp only [naive, List.find?_isSome, List.mem_range'_1, decide_eq_true_eq]
  constructor
  · rintro ⟨d, hd, hmod⟩
    exact ⟨d, by omega, by omega, Nat.dvd_of_mod_eq_zero hmod⟩
  · rintro ⟨d, h1, hn, hdvd⟩
    exact ⟨d, by omega, Nat.mod_eq_zero_of_dvd hdvd⟩

/-- A prime has no divisor for the naive search to report. -/
theorem naive_of_prime {n : ℕ} (hn : n.Prime) : naive n = none := by
  rw [← Option.not_isSome_iff_eq_none, naive_isSome]
  rintro ⟨d, h1, hlt, hdvd⟩
  rcases hn.eq_one_or_self_of_dvd d hdvd with rfl | rfl <;> omega

/-- On a composite the naive search reports the least factor. -/
theorem naive_of_not_prime {n : ℕ} (h2 : 2 ≤ n) (hn : ¬ n.Prime) : naive n = some n.minFac := by
  have hlt : n.minFac < n := (Nat.not_prime_iff_minFac_lt h2).1 hn
  have hge : 2 ≤ n.minFac := (Nat.minFac_prime (by omega)).two_le
  rw [naive, List.find?_range'_eq_some]
  refine ⟨by simpa using Nat.mod_eq_zero_of_dvd n.minFac_dvd,
    by rw [List.mem_range'_1]; omega, fun d hd hlt' => ?_⟩
  simp only [Bool.not_eq_true', decide_eq_false_iff_not]
  intro hmod
  exact absurd (Nat.minFac_le_of_dvd hd (Nat.dvd_of_mod_eq_zero hmod)) (by omega)

/-! ## The search that skips no prime -/

/-- `n` has no prime factor below `d`. -/
def NoPrimeFactorBelow (n d : ℕ) : Prop :=
  ∀ q, q.Prime → q < d → ¬ q ∣ n

theorem NoPrimeFactorBelow.two (n : ℕ) : NoPrimeFactorBelow n 2 := by
  intro q hq hlt
  exact absurd hq.two_le (by omega)

/-- Going on from a candidate that does not divide `n` to one that skips no prime. -/
theorem NoPrimeFactorBelow.next {n d d' : ℕ} (h : NoPrimeFactorBelow n d) (hd : ¬ d ∣ n)
    (hskip : ∀ q, q.Prime → d < q → ¬ q < d') : NoPrimeFactorBelow n d' := by
  intro q hq hlt
  rcases Nat.lt_trichotomy q d with hqd | rfl | hqd
  · exact h q hq hqd
  · exact hd
  · exact absurd hlt (hskip q hq hqd)

/-- The first candidate that divides `n` is its least factor, so it is prime even where the
candidates may be composite. -/
theorem NoPrimeFactorBelow.minFac_eq {n d : ℕ} (h : NoPrimeFactorBelow n d) (h2 : 2 ≤ d)
    (hdvd : d ∣ n) : n.minFac = d := by
  have hn : n ≠ 1 := by
    rintro rfl
    exact absurd (Nat.dvd_one.1 hdvd) (by omega)
  refine Nat.le_antisymm (Nat.minFac_le_of_dvd h2 hdvd) (Nat.le_of_not_lt fun hlt => ?_)
  exact h _ (Nat.minFac_prime hn) hlt n.minFac_dvd

/-- A search that passed every candidate up to the square root shows that `n` is prime. -/
theorem NoPrimeFactorBelow.prime {n d r : ℕ} (h : NoPrimeFactorBelow n d) (h2 : 2 ≤ n)
    (hr : n.sqrt ≤ r) (hd : r < d) : n.Prime := by
  by_contra hn
  have hsq : n.minFac * n.minFac ≤ n := by
    simpa [pow_two] using Nat.minFac_sq_le_self (by omega) hn
  have hle : n.minFac ≤ n.sqrt := Nat.le_sqrt.2 hsq
  exact h _ (Nat.minFac_prime (by omega)) (by omega) n.minFac_dvd

/-! ## The bound -/

/-- `h` is reached by halving from `n / 2`: it is `n / 2` itself or the half of a number whose
square exceeds `n`. -/
def Halved (n h : ℕ) : Prop :=
  h = n / 2 ∨ ∃ g, n < g * g ∧ h = g / 2

theorem Halved.start (n : ℕ) : Halved n (n / 2) := .inl rfl

theorem Halved.half {n h : ℕ} (hsq : n < h * h) : Halved n (h / 2) := .inr ⟨h, hsq, rfl⟩

/-- The doubled half reaches the square root: the last bit that doubling loses is made up for by
the square of the number before it being strictly above `n`. -/
theorem Halved.sqrt_le {n h : ℕ} (hh : Halved n h) (h2 : 2 ≤ n) : n.sqrt ≤ 2 * h := by
  rcases hh with rfl | ⟨g, hg, rfl⟩
  · have : n.sqrt < n := Nat.sqrt_lt_self (by omega)
    omega
  · have : n.sqrt < g := Nat.sqrt_lt.2 hg
    omega

theorem double_sq_le {n h : ℕ} (hsq : h * h ≤ n) : 2 * h * (2 * h) ≤ 4 * n := by
  calc 2 * h * (2 * h) = 4 * (h * h) := by ring
    _ ≤ 4 * n := by omega

/-- The bound stays below `n`, so that `n` is not tried as its own divisor, except at the prime `2`
and at the composite `4`. -/
theorem double_lt {n h : ℕ} (hsq : h * h ≤ n) (h2 : 2 ≤ n) (hne2 : n ≠ 2) (hne4 : n ≠ 4) :
    2 * h < n := by
  by_cases h3 : n = 3
  · subst h3
    have : h < 2 := by
      by_contra hc
      have := Nat.mul_le_mul (show 2 ≤ h by omega) (show 2 ≤ h by omega)
      omega
    omega
  · by_contra hc
    have h4 : n * n ≤ 4 * n := le_trans (Nat.mul_le_mul (by omega) (by omega)) (double_sq_le hsq)
    have : n ≤ 4 := Nat.le_of_mul_le_mul_right h4 (by omega)
    omega

end TrialDivision
