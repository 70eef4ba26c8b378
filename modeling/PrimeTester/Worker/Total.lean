import PrimeTester.Worker.Correct

/-!
# The worker always answers

`calculate` on an accepted number ends without an exception and publishes the start and the end of
the calculation (`calculate_accepted`). Nothing is assumed of `nextProbablePrime` but that its result
is greater than its argument: with composites or missed primes the verdict may be wrong, but there
is one. More fuel than is enough changes nothing.
-/

namespace PrimeTester.Worker

/-! ## The result does not depend on the fuel -/

theorem findDivider_mono {np : NextProbablePrime} {n : Int} {r : Option Int} {fuel fuel' : ℕ}
    (hle : fuel ≤ fuel') (h : findDivider np fuel n = .ok r) : findDivider np fuel' n = .ok r := by
  obtain ⟨root, hroot, hrun⟩ := Except.bind_eq_ok_iff.1 h
  exact Except.bind_eq_ok_iff.2 ⟨root, approximateRoot_mono hle hroot, Loop.run_mono hle hrun⟩

theorem checkIsPrime_mono {np : NextProbablePrime} {message : TaskIdAssignedMessage}
    (hnum : NUMBER_PATTERN message.number) {finished : CalculationFinished} {fuel fuel' : ℕ}
    (hle : fuel ≤ fuel') (h : checkIsPrime np fuel message = .ok finished) :
    checkIsPrime np fuel' message = .ok finished := by
  rcases checkIsPrime_cases hnum h with ⟨h2, rfl⟩ | ⟨r, h2, hr, rfl⟩
  · rw [checkIsPrime_eq hnum, if_pos h2]
  · rw [checkIsPrime_eq hnum, if_neg (by omega), findDivider_mono hle hr]
    rfl

/-! ## What is published -/

/-- A result is about the task, with its number as it was posted. -/
theorem checkIsPrime_about {np : NextProbablePrime} {message : TaskIdAssignedMessage}
    (hnum : NUMBER_PATTERN message.number) {finished : CalculationFinished} {fuel : ℕ}
    (h : checkIsPrime np fuel message = .ok finished) :
    finished.taskId = message.taskId ∧ finished.number = message.number := by
  rcases checkIsPrime_cases hnum h with ⟨-, rfl⟩ | ⟨r, -, -, rfl⟩
  · exact ⟨rfl, rfl⟩
  · exact ⟨rfl, rfl⟩

/-- The candidates that the divider loop tries are positive: `n` is taken modulo positive numbers
only, and `nextProbablePrime` is called on these. -/
theorem divider_pos {np : NextProbablePrime} {n root : ℕ} {divider : Int}
    (h : Loop.Reaches (dividerRound np n root) 2 divider) : 0 < divider := by
  obtain ⟨d, rfl, hd⟩ := h.invariant (I := Candidate) (fun _ _ hI hb => hI.next hb) .two
  omega

/-- **No accepted request can hang or crash a worker.** The number of a task that matches
`NUMBER_PATTERN` denotes an integer that is not negative, the halving of `approximateRoot` and the
loop over the dividers end, the dividers are positive, and `calculate` publishes the start and then
the end of the calculation, with the id and the number of the task. -/
theorem calculate_accepted (np : NextProbablePrime) (taskId : Long) (number : String)
    (h : NUMBER_PATTERN number) :
    ∃ (n root : Int) (enough : ℕ) (finished : CalculationFinished),
      BigInteger.parse number = .ok n ∧ 0 ≤ n ∧
      (∀ divider, Loop.Reaches (dividerRound np n root) 2 divider → 0 < divider) ∧
      finished.taskId = taskId ∧ finished.number = number ∧
      ∀ fuel, enough ≤ fuel →
        approximateRoot fuel n = .ok root ∧
        (∃ r, Loop.run (dividerRound np n root) .outOfFuel fuel 2 = .ok r) ∧
        calculate np fuel ⟨taskId, number⟩ = ([.started ⟨taskId⟩, .finished finished], none) := by
  have hmatch : NUMBER_PATTERN (TaskIdAssignedMessage.mk taskId number).number := h
  obtain ⟨half, hroot, -⟩ :=
    approximateRoot_total (decimalValue number) (decimalValue number + 2) (by omega)
  obtain ⟨r, hr⟩ := findDivider_total np (decimalValue number) (decimalValue number + 2) (by omega)
  obtain ⟨finished, hfinished⟩ :=
    checkIsPrime_total np ⟨taskId, number⟩ hmatch (Nat.lt_succ_self (decimalValue number + 1))
  obtain ⟨hid, hnumber⟩ := checkIsPrime_about hmatch hfinished
  refine ⟨decimalValue number, ((2 * half : ℕ) : Int), decimalValue number + 2, finished,
    BigInteger.parse_eq h, Int.natCast_nonneg _, fun divider hd => divider_pos hd, hid, hnumber,
    fun fuel hfuel => ⟨approximateRoot_mono hfuel hroot, ⟨r, ?_⟩, ?_⟩⟩
  · obtain ⟨root, hroot', hrun⟩ := Except.bind_eq_ok_iff.1 hr
    rw [hroot] at hroot'
    cases hroot'
    exact Loop.run_mono hfuel hrun
  · rw [calculate, checkIsPrime_mono hmatch hfuel hfinished]

/-- A number with leading zeros comes back as it was posted. -/
theorem calculate_accepted_zeros : NUMBER_PATTERN "007" ∧
    ∃ (enough : ℕ) (finished : CalculationFinished), finished.number = "007" ∧
      ∀ fuel, enough ≤ fuel →
        calculate .exact fuel ⟨1, "007"⟩ = ([.started ⟨1⟩, .finished finished], none) := by
  have h : NUMBER_PATTERN "007" := by decide
  obtain ⟨n, root, enough, finished, -, -, -, -, hnumber, hrun⟩ :=
    calculate_accepted .exact 1 "007" h
  exact ⟨h, enough, finished, hnumber, fun fuel hfuel => (hrun fuel hfuel).2.2⟩

end PrimeTester.Worker
