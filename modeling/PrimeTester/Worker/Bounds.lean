import Mathlib.Data.Nat.Log
import PrimeTester.Decimal
import PrimeTester.Worker.Total

/-!
# How long the worker takes

Bounds for `calculate` that hold whatever `nextProbablePrime` answers, as long as it is greater than
its argument, so also when it misses primes. The halving of `approximateRoot` takes at most as many
rounds as `n` has bits (`approximateRoot_rounds`), and the loop over the dividers at most as many as
the doubled root of `n` (`findDivider_rounds`); and a divider that is reported divides
(`findDivider_divides`), so a number is never wrongly called composite.
-/

namespace PrimeTester.Worker

open TrialDivision

/-! ## Rounds -/

/-- A number is at most twice the root of the power of two that it is the exponent of, and one. -/
theorem log_le_sqrt {n k : ℕ} (hk : 2 ^ k ≤ n) : k ≤ 2 * n.sqrt + 1 := by
  have hsq : k * k ≤ 4 * 2 ^ k := by
    clear hk
    induction k with
    | zero => exact Nat.zero_le _
    | succ k ih =>
      have hlt : k < 2 ^ k := Nat.lt_two_pow_self
      rw [pow_succ]
      nlinarith
  have hhalf : k / 2 ≤ n.sqrt := by
    refine Nat.le_sqrt.2 (le_trans ?_ hk)
    have hle : 2 * (k / 2) ≤ k := Nat.mul_div_le k 2
    have hmul := Nat.mul_le_mul hle hle
    nlinarith
  omega

/-- On a positive number the halving goes on from `2` on only. -/
theorem halvingRound_next {n h : ℕ} {half : Int} (hn : 1 ≤ n)
    (h' : halvingRound n h = .ok (.next half)) : 2 ≤ h := by
  unfold halvingRound at h'
  split at h'
  · rename_i hsq
    have hlt : n < h * h := by exact_mod_cast hsq
    by_contra hc
    have hone : h * h ≤ 1 * 1 := Nat.mul_le_mul (by omega) (by omega)
    omega
  · cases h'

/-- The halving takes at most as many rounds as there are bits. -/
theorem approximateRoot_rounds {n fuel : ℕ} (hn : 1 ≤ n) (hf : Nat.log 2 (n / 2) < fuel) :
    ∃ half : ℕ, approximateRoot fuel n = .ok ((2 * half : ℕ) : Int) ∧ half * half ≤ n := by
  have hrun : ∃ half, Loop.run (halvingRound n) .outOfFuel fuel (BigInteger.shiftRight n 1) =
      .ok half ∧ True := by
    refine Loop.run_of_variant (HalvingInv n) (fun _ => True) (fun half => Nat.log 2 half.toNat)
      ?_ fuel _ (.start n) ?_
    · rintro _ ⟨h, rfl, hh⟩
      rcases halvingRound_cases hh with ⟨he, -⟩ | ⟨he, hh', hlt⟩
      · exact .inl ⟨_, he, trivial⟩
      · refine .inr ⟨_, he, ⟨_, rfl, hh'⟩, ?_⟩
        have htwo : 2 ≤ h := halvingRound_next hn he
        have hpos : 0 < Nat.log 2 h := Nat.log_pos Nat.one_lt_two htwo
        rw [Int.toNat_natCast, Int.toNat_natCast, Nat.log_div_base]
        exact Nat.sub_lt hpos Nat.one_pos
    · rwa [shiftRight_one, Int.toNat_natCast]
  obtain ⟨half, hrun, -⟩ := hrun
  have hroot : approximateRoot fuel n = .ok (BigInteger.shiftLeft half 1) :=
    Except.bind_eq_ok_iff.2 ⟨half, hrun, rfl⟩
  obtain ⟨h, hh, hsq, -⟩ := approximateRoot_sound hroot
  exact ⟨h, by rw [hroot, hh], hsq⟩

/-- The loop over the dividers goes through increasing candidates up to the root. -/
theorem dividerLoop_total (np : NextProbablePrime) (n root : ℕ) {fuel : ℕ} (hf : root < fuel) :
    ∃ r, Loop.run (dividerRound np n root) .outOfFuel fuel 2 = .ok r := by
  have hrun : ∃ r, Loop.run (dividerRound np n root) .outOfFuel fuel 2 = .ok r ∧ True := by
    refine Loop.run_of_variant Candidate (fun _ => True) (fun divider => root + 2 - divider.toNat)
      ?_ fuel 2 .two (by show root + 2 - 2 < fuel; omega)
    rintro _ ⟨d, rfl, hd⟩
    rcases dividerRound_cases np n root hd with ⟨he, -⟩ | ⟨he, -⟩ | ⟨d', he, hroot, -, -, hlt⟩
    · exact .inl ⟨_, he, trivial⟩
    · exact .inl ⟨_, he, trivial⟩
    · refine .inr ⟨_, he, ⟨d', rfl, by omega⟩, ?_⟩
      rw [Int.toNat_natCast, Int.toNat_natCast]
      omega
  obtain ⟨r, hr, -⟩ := hrun
  exact ⟨r, hr⟩

/-- The loop over the dividers takes at most as many rounds as the doubled root. -/
theorem findDivider_rounds (np : NextProbablePrime) {n fuel : ℕ} (hn : 1 ≤ n)
    (hf : 2 * n.sqrt + 3 ≤ fuel) : ∃ r, findDivider np fuel n = .ok r := by
  have hbits : Nat.log 2 (n / 2) < fuel := by
    have hle : Nat.log 2 (n / 2) ≤ Nat.log 2 n := Nat.log_mono_right (Nat.div_le_self n 2)
    have hlog := log_le_sqrt (Nat.pow_log_le_self 2 (show n ≠ 0 by omega))
    omega
  obtain ⟨half, hroot, hsq⟩ := approximateRoot_rounds hn hbits
  have hhalf : half ≤ n.sqrt := Nat.le_sqrt.2 hsq
  obtain ⟨r, hr⟩ := dividerLoop_total np n (2 * half) (show 2 * half < fuel by omega)
  exact ⟨r, Except.bind_eq_ok_iff.2 ⟨_, hroot, hr⟩⟩

/-! ## Dividers -/

/-- After the first candidate, which is `2`, only odd numbers are left. -/
def OddAfterTwo (n : ℕ) (divider : Int) : Prop :=
  ∃ d : ℕ, divider = d ∧ 2 ≤ d ∧ (d = 2 ∨ ¬ 2 ∣ n)

/-- A divider of `n` that is not `n`. -/
def Proper (n : ℕ) (divider : Int) : Prop := ∃ d : ℕ, divider = d ∧ 1 < d ∧ d < n ∧ d ∣ n

/-- What is reported divides, whatever `nextProbablePrime` answers. -/
theorem findDivider_divides {np : NextProbablePrime} {n fuel : ℕ} (hn : 3 ≤ n) {r : Option Int}
    (h : findDivider np fuel n = .ok r) : ∀ divider, r = some divider → Proper n divider := by
  obtain ⟨root, hroot, hrun⟩ := Except.bind_eq_ok_iff.1 h
  obtain ⟨half, rfl, hsq, -⟩ := approximateRoot_sound hroot
  refine Loop.run_of_invariant (OddAfterTwo n)
    (fun r => ∀ divider, r = some divider → Proper n divider) ?_ ?_ fuel 2 r
    ⟨2, rfl, le_refl 2, .inl rfl⟩ hrun
  · rintro _ s' ⟨d, rfl, hd, hodd⟩ hb
    rcases dividerRound_cases np n (2 * half) hd with ⟨he, -⟩ | ⟨he, -⟩ | ⟨d', he, -, hdvd, -, hlt⟩
    · rw [he] at hb; cases hb
    · rw [he] at hb; cases hb
    · rw [he] at hb
      cases hb
      refine ⟨d', rfl, by omega, .inr ?_⟩
      rcases hodd with rfl | hodd
      · exact hdvd
      · exact hodd
  · rintro _ r ⟨d, rfl, hd, hodd⟩ hb divider rfl
    rcases dividerRound_cases np n (2 * half) hd with ⟨he, -⟩ | ⟨he, hle, hdvd⟩ | ⟨d', he, -⟩
    · rw [he] at hb; cases hb
    · rw [he] at hb
      cases hb
      refine ⟨d, rfl, by omega, ?_, hdvd⟩
      rcases hodd with rfl | hodd
      · omega
      · have hfour : n ≠ 4 := by
          rintro rfl
          exact hodd (by decide)
        have := double_lt hsq (by omega) (by omega) hfour
        omega
    · rw [he] at hb; cases hb

/-! ## The whole calculation -/

/-- **How long an accepted task takes, and what is certain about its result.** Whatever numbers
`nextProbablePrime` returns, none of the loops of `calculate` takes more rounds than the doubled root
of the number and three, the start and the end are published, and a number that is called composite
is composite: the reported divider is a number that divides it, neither `1` nor itself. -/
theorem calculate_bounded (np : NextProbablePrime) (taskId : Long) (number : String)
    (h : NUMBER_PATTERN number) : ∃ finished : CalculationFinished,
      finished.taskId = taskId ∧ finished.number = number ∧
      (∀ fuel, 2 * (decimalValue number).sqrt + 3 ≤ fuel →
        calculate np fuel ⟨taskId, number⟩ = ([.started ⟨taskId⟩, .finished finished], none)) ∧
      finished.isPrime = finished.divider.isNone ∧
      ∀ d, finished.divider = some d → NUMBER_PATTERN d ∧ 1 < decimalValue d ∧
        decimalValue d < decimalValue number ∧ decimalValue d ∣ decimalValue number := by
  have hmatch : NUMBER_PATTERN (TaskIdAssignedMessage.mk taskId number).number := h
  by_cases h2 : decimalValue number ≤ 2
  · refine ⟨⟨taskId, number, true, none⟩, rfl, rfl, fun fuel _ => ?_, rfl, fun d hd => by cases hd⟩
    rw [calculate, checkIsPrime_eq hmatch, if_pos h2]
  · obtain ⟨r, hr⟩ := findDivider_rounds np (show 1 ≤ decimalValue number by omega) (le_refl _)
    refine ⟨⟨taskId, number, r.isNone, r.map toString⟩, rfl, rfl, fun fuel hfuel => ?_, ?_, ?_⟩
    · rw [calculate, checkIsPrime_eq hmatch, if_neg h2, findDivider_mono hfuel hr]
      rfl
    · exact Option.isNone_map.symm
    · intro d hd
      obtain ⟨divider, hdivider, rfl⟩ := Option.map_eq_some_iff.1 hd
      obtain ⟨e, rfl, hone, hlt, hdvd⟩ := findDivider_divides (by omega) hr divider hdivider
      have hvalue : decimalValue (toString (e : Int)) = e := decimalValue_toString e
      rw [hvalue]
      exact ⟨NUMBER_PATTERN_toString e, hone, hlt, hdvd⟩

/-- `459` takes at most `45` rounds of each loop. -/
theorem calculate_bounded_459 : ∃ finished : CalculationFinished, finished.number = "459" ∧
    calculate .exact 45 ⟨1, "459"⟩ = ([.started ⟨1⟩, .finished finished], none) := by
  obtain ⟨finished, -, hnumber, hrun, -⟩ := calculate_bounded .exact 1 "459" (by decide)
  refine ⟨finished, hnumber, hrun 45 ?_⟩
  have hvalue : decimalValue "459" = 459 := by decide
  have hroot : (decimalValue "459").sqrt < 22 := Nat.sqrt_lt.2 (by rw [hvalue]; decide)
  omega

end PrimeTester.Worker
