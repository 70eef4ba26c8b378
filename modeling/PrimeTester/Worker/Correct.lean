import Mathlib.Data.Int.Sqrt
import PrimeTester.Lib.TrialDivision
import PrimeTester.Resources
import PrimeTester.Worker

/-!
# Correctness of the worker's search

`findDivider` agrees with the naive trial division on every integer from `3` on
(`findDivider_eq_naive`): `approximateRoot` is the doubled end of a halving that stops at a square
at most `n` (`approximateRoot_total`), which brackets the square root (`approximateRoot_bracket`),
and the divider loop keeps `NoPrimeFactorBelow`. `Worker.verdict` is what `checkIsPrime` is for;
`checkIsPrime_sound` and `checkIsPrime_total` say that the worker returns it and nothing else.
-/

namespace PrimeTester.Worker

open TrialDivision

/-! ## The approximate root -/

/-- The halving keeps its value a natural number reached by halving. -/
def HalvingInv (n : ℕ) (half : Int) : Prop := ∃ h : ℕ, half = h ∧ Halved n h

/-- What the halving ends with. -/
def HalvingEnd (n : ℕ) (half : Int) : Prop := ∃ h : ℕ, half = h ∧ h * h ≤ n ∧ Halved n h

theorem shiftRight_one (h : ℕ) : BigInteger.shiftRight (h : Int) 1 = ((h / 2 : ℕ) : Int) := by
  simp [BigInteger.shiftRight]

/-- One round of the halving: it stops at a square at most `n`, and otherwise the half is smaller. -/
theorem halvingRound_cases {n h : ℕ} (hh : Halved n h) :
    (halvingRound n h = .ok (.exit (h : Int)) ∧ h * h ≤ n) ∨
      (halvingRound n h = .ok (.next ((h / 2 : ℕ) : Int)) ∧ Halved n (h / 2) ∧ h / 2 < h) := by
  by_cases hsq : n < h * h
  · have hpos : 0 < h := Nat.pos_of_ne_zero fun h0 => by subst h0; omega
    have hint : (h : Int) * h > n := by exact_mod_cast hsq
    refine .inr ⟨?_, .half hsq, by omega⟩
    rw [halvingRound, if_pos hint, shiftRight_one]
  · have hint : ¬ (h : Int) * h > n := by exact_mod_cast hsq
    exact .inl ⟨by rw [halvingRound, if_neg hint], by omega⟩

theorem HalvingInv.start (n : ℕ) : HalvingInv n (BigInteger.shiftRight n 1) :=
  ⟨n / 2, shiftRight_one n, .start n⟩

theorem HalvingInv.next {n : ℕ} {half half' : Int} (h : HalvingInv n half)
    (hb : halvingRound n half = .ok (.next half')) : HalvingInv n half' := by
  obtain ⟨h, rfl, hh⟩ := h
  rcases halvingRound_cases hh with ⟨he, -⟩ | ⟨he, hh', -⟩
  · rw [he] at hb
    cases hb
  · rw [he] at hb
    cases hb
    exact ⟨_, rfl, hh'⟩

/-- Any result of `approximateRoot` on a natural number is twice the end of the halving. -/
theorem approximateRoot_sound {n fuel : ℕ} {root : Int}
    (h : approximateRoot fuel n = .ok root) :
    ∃ half : ℕ, root = ((2 * half : ℕ) : Int) ∧ half * half ≤ n ∧ Halved n half := by
  obtain ⟨half, hrun, hroot⟩ := Except.bind_eq_ok_iff.1 h
  have hend : HalvingEnd n half := by
    refine Loop.run_of_invariant (HalvingInv n) (HalvingEnd n) (fun _ _ hI hb => hI.next hb) ?_
      fuel _ _ (.start n) hrun
    rintro _ r ⟨h, rfl, hh⟩ hb
    rcases halvingRound_cases hh with ⟨he, hsq⟩ | ⟨he, -⟩
    · rw [he] at hb; cases hb; exact ⟨h, rfl, hsq, hh⟩
    · rw [he] at hb; cases hb
  obtain ⟨k, rfl, hsq, hh⟩ := hend
  cases hroot
  exact ⟨k, by simp [BigInteger.shiftLeft, Int.mul_comm], hsq, hh⟩

/-- On a natural number `approximateRoot` ends: every round that goes on makes the half smaller. -/
theorem approximateRoot_total (n fuel : ℕ) (hf : n / 2 < fuel) :
    ∃ half : ℕ, approximateRoot fuel n = .ok ((2 * half : ℕ) : Int) ∧ half * half ≤ n ∧
      Halved n half := by
  have hrun : ∃ half, Loop.run (halvingRound n) .outOfFuel fuel (BigInteger.shiftRight n 1) =
      .ok half ∧ True := by
    refine Loop.run_of_variant (HalvingInv n) (fun _ => True) Int.toNat ?_ fuel _ (.start n) ?_
    · rintro _ ⟨h, rfl, hh⟩
      rcases halvingRound_cases hh with ⟨he, -⟩ | ⟨he, hh', hlt⟩
      · exact .inl ⟨_, he, trivial⟩
      · refine .inr ⟨_, he, ⟨_, rfl, hh'⟩, ?_⟩
        rwa [Int.toNat_natCast, Int.toNat_natCast]
    · rwa [shiftRight_one, Int.toNat_natCast]
  obtain ⟨half, hrun, -⟩ := hrun
  have hroot : approximateRoot fuel n = .ok (BigInteger.shiftLeft half 1) :=
    Except.bind_eq_ok_iff.2 ⟨half, hrun, rfl⟩
  obtain ⟨h, hh, hsq, hhalved⟩ := approximateRoot_sound hroot
  exact ⟨h, by rw [hroot, hh], hsq, hhalved⟩

/-- The root does not depend on the fuel. -/
theorem approximateRoot_mono {n root : Int} {fuel fuel' : ℕ} (hle : fuel ≤ fuel')
    (h : approximateRoot fuel n = .ok root) : approximateRoot fuel' n = .ok root := by
  obtain ⟨half, hrun, hroot⟩ := Except.bind_eq_ok_iff.1 h
  exact Except.bind_eq_ok_iff.2 ⟨half, Loop.run_mono hle hrun, hroot⟩

/-- **The root is bracketed.** From `2` on `approximateRoot` returns, and what it returns is not
below the square root, so that no `d` with `d * d ≤ n` is missed, and not above twice the square
root; but for `2` and `4` it is below `n`, so that a prime is not tried as its own divider. -/
theorem approximateRoot_bracket (n : Int) (hn : 2 ≤ n) :
    (∃ enough root, ∀ fuel, enough ≤ fuel → approximateRoot fuel n = .ok root) ∧
      ∀ fuel root, approximateRoot fuel n = .ok root →
        Int.sqrt n ≤ root ∧ (∀ d, d * d ≤ n → d ≤ root) ∧ root * root ≤ 4 * n ∧
          (n ≠ 2 → n ≠ 4 → root < n) := by
  obtain ⟨n, rfl⟩ := Int.eq_ofNat_of_zero_le (show 0 ≤ n by omega)
  have h2 : 2 ≤ n := by exact_mod_cast hn
  refine ⟨?_, fun fuel root h => ?_⟩
  · obtain ⟨half, hroot, -⟩ := approximateRoot_total n (n / 2 + 1) (Nat.lt_succ_self _)
    exact ⟨n / 2 + 1, _, fun fuel hfuel => approximateRoot_mono hfuel hroot⟩
  · obtain ⟨half, rfl, hsq, hhalved⟩ := approximateRoot_sound h
    have hsqrt : n.sqrt ≤ 2 * half := hhalved.sqrt_le h2
    refine ⟨by rw [Int.sqrt_natCast]; exact_mod_cast hsqrt, fun d hd => ?_,
      by exact_mod_cast double_sq_le hsq, fun hne2 hne4 => ?_⟩
    · have habs : d.natAbs * d.natAbs ≤ n := by
        rw [← Int.ofNat_le, Int.natAbs_mul_self]
        exact hd
      have : d.natAbs ≤ 2 * half := (Nat.le_sqrt.2 habs).trans hsqrt
      omega
    · have hlt : 2 * half < n := double_lt hsq h2 (by omega) (by omega)
      exact_mod_cast hlt

/-- At `9`, the square of a prime, the root is `4`. -/
theorem approximateRoot_bracket_nine : approximateRoot 3 9 = .ok 4 ∧ Int.sqrt 9 ≤ 4 := by
  have h : approximateRoot 3 9 = .ok 4 := by decide
  exact ⟨h, ((approximateRoot_bracket 9 (by decide)).2 3 4 h).1⟩

/-! ## The search for a divider -/

/-- One round of the divider loop: past the root it ends without a divider, at a divisor it ends
with it, and otherwise it goes on with a greater candidate. -/
theorem dividerRound_cases (np : NextProbablePrime) (n root : ℕ) {d : ℕ} (hd : 2 ≤ d) :
    (dividerRound np n root d = .ok (.exit none) ∧ root < d) ∨
      (dividerRound np n root d = .ok (.exit (some (d : Int))) ∧ d ≤ root ∧ d ∣ n) ∨
      ∃ d' : ℕ, dividerRound np n root d = .ok (.next (d' : Int)) ∧ d ≤ root ∧ ¬ d ∣ n ∧
        np.next d = d' ∧ d < d' := by
  by_cases hroot : d ≤ root
  · have hle : (d : Int) ≤ root := by exact_mod_cast hroot
    have hmod : BigInteger.mod n d = .ok ((n % d : ℕ) : Int) := by
      rw [BigInteger.mod, if_neg (by omega), Int.natCast_mod]
    by_cases hdvd : d ∣ n
    · refine .inr (.inl ⟨?_, hroot, hdvd⟩)
      rw [dividerRound, if_pos hle, hmod, Nat.mod_eq_zero_of_dvd hdvd]
      rfl
    · have hne : ((n % d : ℕ) : Int) ≠ 0 := by
        intro h
        exact hdvd (Nat.dvd_of_mod_eq_zero (by exact_mod_cast h))
      have hlt : (d : Int) < np.next d := np.lt_next d (by omega)
      obtain ⟨d', hd'⟩ : ∃ d' : ℕ, np.next d = d' := ⟨(np.next d).toNat, by omega⟩
      have hcall : np.call d = .ok (d' : Int) := by
        rw [NextProbablePrime.call, if_neg (by omega), hd']
      refine .inr (.inr ⟨d', ?_, hroot, hdvd, hd', by omega⟩)
      rw [dividerRound, if_pos hle, hmod]
      simp only [bind, Except.bind, if_neg hne, hcall]
      rfl
  · have hle : ¬ (d : Int) ≤ root := by exact_mod_cast hroot
    exact .inl ⟨by rw [dividerRound, if_neg hle], by omega⟩

/-- The candidates are natural numbers from `2` on. -/
def Candidate (divider : Int) : Prop := ∃ d : ℕ, divider = d ∧ 2 ≤ d

theorem Candidate.two : Candidate 2 := ⟨2, rfl, le_refl 2⟩

/-- The loop goes on with a candidate, since `nextProbablePrime` is greater than its argument. -/
theorem Candidate.next {np : NextProbablePrime} {n root : ℕ} {divider divider' : Int}
    (h : Candidate divider) (hb : dividerRound np n root divider = .ok (.next divider')) :
    Candidate divider' := by
  obtain ⟨d, rfl, hd⟩ := h
  rcases dividerRound_cases np n root hd with ⟨he, -⟩ | ⟨he, -⟩ | ⟨d', he, -, -, -, hlt⟩
  · rw [he] at hb
    cases hb
  · rw [he] at hb
    cases hb
  · rw [he] at hb
    cases hb
    exact ⟨d', rfl, by omega⟩

/-- The candidates stay natural numbers from `2` on, below which `n` has no prime factor. -/
def SearchInv (n : ℕ) (divider : Int) : Prop :=
  ∃ d : ℕ, divider = d ∧ 2 ≤ d ∧ NoPrimeFactorBelow n d

/-- The result of the naive search, as the loop reports it. -/
def naiveDivider (n : ℕ) : Option Int := (naive n).map fun d : ℕ => (d : Int)

/-- The loop is left with the result of the naive search, whatever composites were tried on the
way: a first hit is the least factor, and no hit up to the root shows that `n` is prime. -/
theorem dividerRound_exit (np : NextProbablePrime) {n half : ℕ} (hn : 3 ≤ n)
    (hsq : half * half ≤ n) (hhalved : Halved n half) {divider : Int}
    {r : Option Int} (hI : SearchInv n divider)
    (hb : dividerRound np n ((2 * half : ℕ) : Int) divider = .ok (.exit r)) :
    r = naiveDivider n := by
  obtain ⟨d, rfl, hd, hbelow⟩ := hI
  rcases dividerRound_cases np n (2 * half) hd with
    ⟨he, hlt⟩ | ⟨he, hle, hdvd⟩ | ⟨d', he, -⟩
  · rw [he] at hb
    cases hb
    have hprime : n.Prime := hbelow.prime (by omega) (hhalved.sqrt_le (by omega)) hlt
    rw [naiveDivider, naive_of_prime hprime]
    rfl
  · rw [he] at hb
    cases hb
    have hmin : n.minFac = d := hbelow.minFac_eq hd hdvd
    have hprime : ¬ n.Prime := by
      intro hp
      have hself : n.minFac = n := hp.minFac_eq
      by_cases h4 : n = 4
      · subst h4
        exact absurd hp (by decide)
      · have := double_lt hsq (by omega) (by omega) h4
        omega
    rw [naiveDivider, naive_of_not_prime (by omega) hprime, hmin]
    rfl
  · rw [he] at hb
    cases hb

/-- Whatever `findDivider` returns from `3` on is what the naive search returns. -/
theorem findDivider_sound {np : NextProbablePrime} (hnp : np.SkipsNoPrime) {n fuel : ℕ}
    (hn : 3 ≤ n) {r : Option Int} (h : findDivider np fuel n = .ok r) :
    r = naiveDivider n := by
  obtain ⟨root, hroot, hrun⟩ := Except.bind_eq_ok_iff.1 h
  obtain ⟨half, rfl, hsq, hhalved⟩ := approximateRoot_sound hroot
  refine Loop.run_of_invariant (SearchInv n) (· = naiveDivider n) ?_ ?_ fuel 2 r ?_ hrun
  · rintro _ s' ⟨d, rfl, hd, hbelow⟩ hb
    rcases dividerRound_cases np n (2 * half) hd with
      ⟨he, -⟩ | ⟨he, -⟩ | ⟨d', he, -, hdvd, hnext, hlt⟩
    · rw [he] at hb; cases hb
    · rw [he] at hb; cases hb
    · rw [he] at hb
      cases hb
      refine ⟨d', rfl, by omega, hbelow.next hdvd fun q hq hdq => ?_⟩
      have := hnp d (by omega) q hq (by omega)
      rw [hnext] at this
      omega
  · intro s r hI hb
    exact dividerRound_exit np hn hsq hhalved hI hb
  · exact ⟨2, rfl, le_refl 2, .two n⟩

/-- On a positive integer `findDivider` ends, whatever strictly greater numbers
`nextProbablePrime` returns: the distance to the root is the measure. -/
theorem findDivider_total (np : NextProbablePrime) (n fuel : ℕ) (hf : n + 1 < fuel) :
    ∃ r, findDivider np fuel n = .ok r := by
  obtain ⟨half, hroot, hsq, -⟩ := approximateRoot_total n fuel (by omega)
  have hle : 2 * half ≤ n + 1 := by
    rcases Nat.lt_or_ge half 2 with h | h
    · have : half ≤ half * half := Nat.le_mul_self half
      omega
    · have := Nat.mul_le_mul_right half h
      omega
  have hrun : ∃ r, Loop.run (dividerRound np n ((2 * half : ℕ) : Int)) .outOfFuel fuel 2 = .ok r ∧
      True := by
    refine Loop.run_of_variant Candidate (fun _ => True)
      (fun divider => 2 * half + 2 - divider.toNat) ?_ fuel 2 .two ?_
    · rintro _ ⟨d, rfl, hd⟩
      rcases dividerRound_cases np n (2 * half) hd with
        ⟨he, -⟩ | ⟨he, -⟩ | ⟨d', he, hroot, -, -, hlt⟩
      · exact .inl ⟨_, he, trivial⟩
      · exact .inl ⟨_, he, trivial⟩
      · refine .inr ⟨_, he, ⟨d', rfl, by omega⟩, ?_⟩
        rw [Int.toNat_natCast, Int.toNat_natCast]
        omega
    · show 2 * half + 2 - 2 < fuel
      omega
  obtain ⟨r, hr, -⟩ := hrun
  exact ⟨r, Except.bind_eq_ok_iff.2 ⟨_, hroot, hr⟩⟩

/-- On a natural number `findDivider` throws nothing: only its fuel can be too small. -/
theorem findDivider_fault {np : NextProbablePrime} {n fuel : ℕ} {fault : Fault}
    (h : findDivider np fuel n = .error fault) : fault = .outOfFuel := by
  rcases Except.bind_eq_error_iff.1 h with hroot | ⟨root, hroot, hrun⟩
  · rcases Except.bind_eq_error_iff.1 hroot with hhalf | ⟨_, -, hret⟩
    · refine Loop.run_of_no_failure (HalvingInv n) ?_ fuel _ _ (.start n) hhalf
      intro half hI
      have hb : ∃ flow, halvingRound n half = .ok flow := by
        obtain ⟨h, rfl, hh⟩ := hI
        rcases halvingRound_cases hh with ⟨he, -⟩ | ⟨he, -⟩
        · exact ⟨_, he⟩
        · exact ⟨_, he⟩
      obtain ⟨flow, hb⟩ := hb
      exact ⟨flow, hb, fun s' hs => hI.next (hs ▸ hb)⟩
    · cases hret
  · obtain ⟨half, rfl, -⟩ := approximateRoot_sound hroot
    refine Loop.run_of_no_failure Candidate ?_ fuel 2 _ .two hrun
    intro divider hI
    have hb : ∃ flow, dividerRound np n ((2 * half : ℕ) : Int) divider = .ok flow := by
      obtain ⟨d, rfl, hd⟩ := hI
      rcases dividerRound_cases np n (2 * half) hd with ⟨he, -⟩ | ⟨he, -⟩ | ⟨d', he, -⟩
      · exact ⟨_, he⟩
      · exact ⟨_, he⟩
      · exact ⟨_, he⟩
    obtain ⟨flow, hb⟩ := hb
    exact ⟨flow, hb, fun s' hs => hI.next (hs ▸ hb)⟩

/-- **The fast search is the naive one.** With enough fuel `findDivider` returns, and it returns
what trying `2, 3, …, n - 1` in order does: a divider exactly when there is one, and then the least
one, which is prime and is not `n`. -/
theorem findDivider_eq_naive (np : NextProbablePrime) (hnp : np.SkipsNoPrime) (n : Int)
    (hn : 3 ≤ n) :
    ∃ enough, ∀ fuel, enough ≤ fuel → ∃ r, findDivider np fuel n = .ok r ∧
      r = (naive n.toNat).map (fun d : ℕ => (d : Int)) ∧
      (r.isSome ↔ ∃ d, 1 < d ∧ d < n ∧ d ∣ n) ∧
      ∀ d, r = some d → 1 < d ∧ d < n ∧ d ∣ n ∧ d.toNat.Prime ∧ ∀ e, 1 < e → e ∣ n → d ≤ e := by
  obtain ⟨n, rfl⟩ := Int.eq_ofNat_of_zero_le (show 0 ≤ n by omega)
  have h3 : 3 ≤ n := by exact_mod_cast hn
  refine ⟨n + 2, fun fuel hfuel => ?_⟩
  obtain ⟨r, hr⟩ := findDivider_total np n fuel (by omega)
  have hnaive : r = naiveDivider n := findDivider_sound hnp h3 hr
  refine ⟨r, hr, hnaive, ?_, ?_⟩
  · rw [hnaive, naiveDivider, Option.isSome_map, naive_isSome]
    constructor
    · rintro ⟨d, h1, hlt, hdvd⟩
      exact ⟨d, by exact_mod_cast h1, by exact_mod_cast hlt, by exact_mod_cast hdvd⟩
    · rintro ⟨d, h1, hlt, hdvd⟩
      obtain ⟨d, rfl⟩ := Int.eq_ofNat_of_zero_le (show 0 ≤ d by omega)
      exact ⟨d, by exact_mod_cast h1, by exact_mod_cast hlt, by exact_mod_cast hdvd⟩
  · rintro d rfl
    have hcomposite : ¬ n.Prime := by
      intro hp
      rw [naiveDivider, naive_of_prime hp] at hnaive
      cases hnaive
    rw [naiveDivider, naive_of_not_prime (by omega) hcomposite, Option.map_some,
      Option.some_inj] at hnaive
    subst hnaive
    have hprime : n.minFac.Prime := Nat.minFac_prime (by omega)
    have hlt : n.minFac < n := (Nat.not_prime_iff_minFac_lt (by omega)).1 hcomposite
    refine ⟨by exact_mod_cast hprime.one_lt, by exact_mod_cast hlt,
      by exact_mod_cast n.minFac_dvd, by simpa using hprime, fun e he hdvd => ?_⟩
    obtain ⟨e, rfl⟩ := Int.eq_ofNat_of_zero_le (show 0 ≤ e by omega)
    exact_mod_cast Nat.minFac_le_of_dvd (by exact_mod_cast he) (by exact_mod_cast hdvd)

/-- The first number that `WorkerTest` submits as a composite. -/
theorem findDivider_459 :
    ∃ enough, ∀ fuel, enough ≤ fuel → findDivider .exact fuel 459 = .ok (some 3) := by
  obtain ⟨enough, h⟩ :=
    findDivider_eq_naive .exact NextProbablePrime.exact_skipsNoPrime 459 (by decide)
  refine ⟨enough, fun fuel hfuel => ?_⟩
  obtain ⟨r, hr, hnaive, -⟩ := h fuel hfuel
  rw [hr, hnaive]
  rfl

/-! ## `checkIsPrime` -/

/-- The divider that is reported for a number: none for `0`, `1`, `2` and the primes. -/
def verdictDivider (number : String) : Option String :=
  if decimalValue number ≤ 2 then none else (naive (decimalValue number)).map toString

/-- What `checkIsPrime` is for: the verdict on the number of a task. -/
def verdict (message : TaskIdAssignedMessage) : CalculationFinished where
  taskId := message.taskId
  number := message.number
  isPrime := (verdictDivider message.number).isNone
  divider := verdictDivider message.number

/-- `checkIsPrime` on an accepted number is the search for a divider from `3` on. -/
theorem checkIsPrime_eq {np : NextProbablePrime} {fuel : ℕ} {message : TaskIdAssignedMessage}
    (hnum : NUMBER_PATTERN message.number) : checkIsPrime np fuel message =
      if decimalValue message.number ≤ 2 then
        .ok ⟨message.taskId, message.number, true, none⟩
      else
        (findDivider np fuel (decimalValue message.number)).map fun r =>
          ⟨message.taskId, message.number, r.isNone, r.map toString⟩ := by
  rw [checkIsPrime, BigInteger.parse_eq hnum]
  simp only [bind, Except.bind]
  by_cases h2 : decimalValue message.number ≤ 2
  · rw [if_pos (by omega), if_pos h2]
    rfl
  · rw [if_neg (by omega), if_neg h2]
    cases findDivider np fuel (decimalValue message.number) with
    | error e => rfl
    | ok r => cases r <;> rfl

/-- Where a result of `checkIsPrime` on an accepted number comes from. -/
theorem checkIsPrime_cases {np : NextProbablePrime} {fuel : ℕ} {message : TaskIdAssignedMessage}
    (hnum : NUMBER_PATTERN message.number) {finished : CalculationFinished}
    (h : checkIsPrime np fuel message = .ok finished) :
    (decimalValue message.number ≤ 2 ∧ finished = ⟨message.taskId, message.number, true, none⟩) ∨
      ∃ r, 2 < decimalValue message.number ∧
        findDivider np fuel (decimalValue message.number) = .ok r ∧
        finished = ⟨message.taskId, message.number, r.isNone, r.map toString⟩ := by
  rw [checkIsPrime_eq hnum] at h
  split at h
  · rename_i h2
    cases h
    exact .inl ⟨h2, rfl⟩
  · rename_i h2
    cases hr : findDivider np fuel (decimalValue message.number) with
    | error e => rw [hr] at h; cases h
    | ok r =>
      rw [hr] at h
      cases h
      exact .inr ⟨r, by omega, rfl, rfl⟩

/-- Whatever `checkIsPrime` returns on an accepted number is the verdict on it. -/
theorem checkIsPrime_sound {np : NextProbablePrime} (hnp : np.SkipsNoPrime) {fuel : ℕ}
    {message : TaskIdAssignedMessage} (hnum : NUMBER_PATTERN message.number)
    {finished : CalculationFinished} (h : checkIsPrime np fuel message = .ok finished) :
    finished = verdict message := by
  rcases checkIsPrime_cases hnum h with ⟨h2, rfl⟩ | ⟨r, h2, hr, rfl⟩
  · simp [verdict, verdictDivider, h2]
  · have hdivider : r.map toString = verdictDivider message.number := by
      rw [findDivider_sound hnp (by omega) hr, verdictDivider, if_neg (by omega), naiveDivider,
        Option.map_map]
      rfl
    rw [verdict, ← hdivider, Option.isNone_map]

/-- On an accepted number `checkIsPrime` ends without an exception. -/
theorem checkIsPrime_total (np : NextProbablePrime) {fuel : ℕ} (message : TaskIdAssignedMessage)
    (hnum : NUMBER_PATTERN message.number) (hf : decimalValue message.number + 1 < fuel) :
    ∃ finished, checkIsPrime np fuel message = .ok finished := by
  rw [checkIsPrime_eq hnum]
  split
  · exact ⟨_, rfl⟩
  · obtain ⟨r, hr⟩ := findDivider_total np _ fuel hf
    rw [hr]
    exact ⟨_, rfl⟩

/-- On an accepted number `checkIsPrime` throws nothing: only its fuel can be too small. -/
theorem checkIsPrime_fault {np : NextProbablePrime} {fuel : ℕ} {message : TaskIdAssignedMessage}
    (hnum : NUMBER_PATTERN message.number) {fault : Fault}
    (h : checkIsPrime np fuel message = .error fault) : fault = .outOfFuel := by
  rw [checkIsPrime_eq hnum] at h
  split at h
  · cases h
  · cases hr : findDivider np fuel (decimalValue message.number) with
    | error e =>
      rw [hr] at h
      cases h
      exact findDivider_fault hr
    | ok r => rw [hr] at h; cases h

/-- The verdict is right, but for the special cases `0` and `1`, which count as prime. -/
theorem verdict_isPrime (message : TaskIdAssignedMessage) :
    (verdict message).isPrime ↔
      decimalValue message.number ≤ 1 ∨ (decimalValue message.number).Prime := by
  rw [verdict, verdictDivider]
  split
  · rename_i h2
    simp only [Option.isNone_none, true_iff]
    by_cases h1 : decimalValue message.number ≤ 1
    · exact .inl h1
    · exact .inr (by rw [show decimalValue message.number = 2 by omega]; exact Nat.prime_two)
  · rename_i h2
    rw [Option.isNone_map, Option.isNone_iff_eq_none]
    constructor
    · intro h
      refine .inr (by_contra fun hn => ?_)
      rw [naive_of_not_prime (by omega) hn] at h
      cases h
    · rintro (h | h)
      · omega
      · exact naive_of_prime h

/-- The reported divider of a composite is its least prime factor in decimal form. -/
theorem verdict_divider (message : TaskIdAssignedMessage)
    (h2 : 2 ≤ decimalValue message.number) (hn : ¬ (decimalValue message.number).Prime) :
    (verdict message).divider = some (toString (decimalValue message.number).minFac) := by
  have hne : decimalValue message.number ≠ 2 := by
    intro h
    rw [h] at hn
    exact hn Nat.prime_two
  rw [verdict, verdictDivider, if_neg (by omega), naive_of_not_prime h2 hn]
  rfl

end PrimeTester.Worker
