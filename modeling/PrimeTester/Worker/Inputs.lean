import PrimeTester.Decimal
import PrimeTester.Worker.Correct

/-!
# The worker on any string

What `calculate` does with the number of a task, whatever ASCII string it is (`calculate_any`). `Worker`
itself does not check it, so what keeps a worker alive is that `CreateTaskResource` accepts only
digits:

* a numeral of a number that is not negative, with or without a sign, gets its verdict;
* on a negative number the halving of `approximateRoot` never ends, as no square is negative, so the
  worker stays busy with the task for ever;
* anything else ends with a `NumberFormatException` after the start was published.
-/

namespace PrimeTester.Worker

variable {np : NextProbablePrime} {fuel : ℕ} {message : TaskIdAssignedMessage}

/-! ## Negative numbers -/

/-- No square is negative, so the halving goes on. -/
theorem halvingRound_negative {n : Int} (hn : n < 0) (half : Int) :
    halvingRound n half = .ok (.next (BigInteger.shiftRight half 1)) := by
  unfold halvingRound
  refine if_pos ?_
  have hsq := mul_self_nonneg half
  omega

/-- `approximateRoot` does not end on a negative number. -/
theorem approximateRoot_negative {n : Int} (hn : n < 0) (fuel : ℕ) :
    approximateRoot fuel n = .error .outOfFuel := by
  unfold approximateRoot
  rw [Loop.run_of_no_exit (fun _ => True) (fun half _ => ⟨_, halvingRound_negative hn half, trivial⟩)
    fuel _ trivial]
  rfl

/-- Nor does `checkIsPrime`. -/
theorem checkIsPrime_negative {n : Int} (hn : n < 0)
    (hnumber : BigInteger.parse message.number = .ok n) :
    checkIsPrime np fuel message = .error .outOfFuel := by
  have hsearch : findDivider np fuel n = .error .outOfFuel := by
    unfold findDivider
    rw [approximateRoot_negative hn fuel]
    rfl
  unfold checkIsPrime
  rw [hnumber]
  simp only [bind, Except.bind]
  rw [if_neg (by omega), hsearch]

/-! ## Other numbers -/

/-- The verdict in terms of the number: `0` and `1` count as primes, and a composite comes with its
least prime factor. -/
theorem verdict_eq (message : TaskIdAssignedMessage) : verdict message =
    ⟨message.taskId, message.number,
      decide (decimalValue message.number ≤ 1 ∨ (decimalValue message.number).Prime),
      if decimalValue message.number ≤ 1 ∨ (decimalValue message.number).Prime then none
      else some (toString (decimalValue message.number).minFac)⟩ := by
  have hprime := verdict_isPrime message
  by_cases h : decimalValue message.number ≤ 1 ∨ (decimalValue message.number).Prime
  · have hisPrime : (verdictDivider message.number).isNone = true := hprime.2 h
    have hdivider : verdictDivider message.number = none := Option.isNone_iff_eq_none.1 hisPrime
    simp only [verdict, hdivider, h, decide_true, if_true, Option.isNone_none]
  · have hisPrime : (verdictDivider message.number).isNone = false := by
      rw [← Bool.not_eq_true]
      exact mt hprime.1 h
    obtain ⟨hone, hn⟩ := not_or.1 h
    have hdivider := verdict_divider message (by omega) hn
    simp only [verdict, hisPrime, h, decide_false, if_false]
    rw [← hdivider, verdict]

/-- The result depends on the integer only that the number denotes. -/
theorem checkIsPrime_congr {t : String} (ht : NUMBER_PATTERN t)
    (hnumber : BigInteger.parse message.number = .ok (decimalValue t : Int)) :
    checkIsPrime np fuel message =
      (checkIsPrime np fuel ⟨message.taskId, t⟩).map fun finished =>
        { finished with number := message.number } := by
  unfold checkIsPrime
  rw [hnumber, BigInteger.parse_eq ht]
  simp only [bind, Except.bind]
  split
  · rfl
  · cases findDivider np fuel (decimalValue t) with
    | error fault => rfl
    | ok r => cases r <;> rfl

/-- A number that is not negative gets the verdict on the integer that it denotes. -/
theorem calculate_numeral (hnp : np.SkipsNoPrime) {n : ℕ}
    (hnumber : Numeral message.number n) (hf : n + 1 < fuel) :
    calculate np fuel message = ([.started ⟨message.taskId⟩, .finished
      ⟨message.taskId, message.number, decide (n ≤ 1 ∨ n.Prime),
        if n ≤ 1 ∨ n.Prime then none else some (toString n.minFac)⟩], none) := by
  have ht := NUMBER_PATTERN_toString n
  have hn := decimalValue_toString n
  have hparse : BigInteger.parse message.number = .ok (decimalValue (toString n) : Int) := by
    rw [hn]
    exact BigInteger.parse_eq_ok.2 hnumber
  obtain ⟨finished, hfinished⟩ := checkIsPrime_total np ⟨message.taskId, toString n⟩ ht
    (by rwa [hn])
  have hverdict := @checkIsPrime_sound np hnp fuel ⟨message.taskId, toString n⟩ ht finished hfinished
  rw [verdict_eq] at hverdict
  simp only [hn] at hverdict
  unfold calculate
  rw [checkIsPrime_congr ht hparse, hfinished, hverdict]
  rfl

/-! ## All strings -/

/-- **What a worker does with a task**, whatever ASCII string its number is: the start is published,
and then there is a result, and the right one, or the calculation never ends, or it throws. -/
theorem calculate_any (hnp : np.SkipsNoPrime) (taskId : Long) (number : AsciiString) :
    (∃ n : ℕ, Numeral number.1 n ∧ ∃ enough, ∀ fuel, enough ≤ fuel →
      calculate np fuel ⟨taskId, number.1⟩ = ([.started ⟨taskId⟩, .finished
        ⟨taskId, number.1, decide (n ≤ 1 ∨ n.Prime),
          if n ≤ 1 ∨ n.Prime then none else some (toString n.minFac)⟩], none)) ∨
    (∃ n < 0, Numeral number.1 n ∧ ∀ fuel,
      calculate np fuel ⟨taskId, number.1⟩ = ([.started ⟨taskId⟩], some .outOfFuel)) ∨
    ((∀ n, ¬ Numeral number.1 n) ∧ ∀ fuel,
      calculate np fuel ⟨taskId, number.1⟩ = ([.started ⟨taskId⟩], some .numberFormat)) := by
  obtain ⟨number, -⟩ := number
  cases hp : BigInteger.parse number with
  | error fault =>
    obtain ⟨rfl, hnone⟩ := BigInteger.parse_eq_error.1 hp
    refine .inr (.inr ⟨hnone, fun fuel => ?_⟩)
    unfold calculate checkIsPrime
    rw [hp]
    rfl
  | ok n =>
    have hnumber := BigInteger.parse_eq_ok.1 hp
    rcases lt_or_ge n 0 with hn | hn
    · refine .inr (.inl ⟨n, hn, hnumber, fun fuel => ?_⟩)
      unfold calculate
      rw [checkIsPrime_negative hn hp]
    · obtain ⟨n, rfl⟩ := Int.eq_ofNat_of_zero_le hn
      refine .inl ⟨n, hnumber, n + 2, fun fuel hfuel => ?_⟩
      exact calculate_numeral hnp hnumber (by omega)

/-- A number with a sign would keep a worker busy, here for `1000` rounds and more. -/
theorem calculate_any_negative :
    calculate .exact 1000 ⟨1, "-7"⟩ = ([.started ⟨1⟩], some .outOfFuel) := by
  have hnumber : Numeral "-7" (-7) := .minus (t := "7") (by decide)
  rcases calculate_any NextProbablePrime.exact_skipsNoPrime 1 ⟨"-7", by decide⟩ with
    ⟨n, hn, -⟩ | ⟨-, -, -, h⟩ | ⟨hnone, -⟩
  · have heq := (BigInteger.parse_eq_ok.2 hn).symm.trans (BigInteger.parse_eq_ok.2 hnumber)
    cases heq
  · exact h 1000
  · exact absurd hnumber (hnone _)

end PrimeTester.Worker
