import PrimeTester.Resources

/-!
# Decimal strings, read and written

`BigInteger.parse_cases`: the strings that `new BigInteger` reads are those of `NUMBER_PATTERN` with
an optional sign before them, and what it reads is the integer that they denote. What
`BigInteger.toString` writes is read back as the same integer (`BigInteger.parse_toString`), and what
it writes of a number that is not negative is accepted by `CreateTaskResource` again.
-/

namespace PrimeTester

theorem NUMBER_PATTERN_iff {s : String} :
    NUMBER_PATTERN s ↔ s.toList ≠ [] ∧ ∀ c ∈ s.toList, '0' ≤ c ∧ c ≤ '9' := by
  simp only [NUMBER_PATTERN, Bool.and_eq_true, Bool.not_eq_true', List.isEmpty_eq_false_iff,
    List.all_eq_true, decide_eq_true_eq]

/-! ## Writing -/

/-- The value of a string of digits as the fold over its characters. -/
theorem decimalValue_eq (s : String) : decimalValue s = Nat.ofDigitChars 10 s.toList 0 := by
  rw [decimalValue]
  induction s.toList using List.reverseRecOn with
  | nil => rfl
  | append_singleton cs c ih =>
    rw [List.reverse_append, List.map_append, List.reverse_singleton, List.map_singleton,
      List.singleton_append, Nat.ofDigits_cons, ih, Nat.ofDigitChars_append,
      Nat.ofDigitChars_cons, Nat.ofDigitChars_nil, Nat.add_comm]

theorem toList_toString (n : ℕ) : (toString n).toList = Nat.toDigits 10 n := Nat.toList_repr

/-- The decimal form of a number denotes the number. -/
theorem decimalValue_toString (n : ℕ) : decimalValue (toString n) = n := by
  rw [decimalValue_eq, toList_toString]
  exact Nat.ofDigitChars_ten_toDigits

/-- The decimal form of a natural number is accepted as the number of a task. -/
theorem NUMBER_PATTERN_toString (n : ℕ) : NUMBER_PATTERN (toString n) := by
  rw [NUMBER_PATTERN_iff, toList_toString]
  refine ⟨Nat.toDigits_ne_nil, fun c hc => ?_⟩
  have hdigit := Nat.isDigit_of_mem_toDigits (by decide) (by decide) hc
  rw [Char.isDigit, Bool.and_eq_true, decide_eq_true_eq, decide_eq_true_eq] at hdigit
  exact hdigit

/-! ## Reading -/

/-- A string of digits with an optional sign, and the integer that it denotes. -/
inductive Numeral : String → Int → Prop
  | digits {t : String} (h : NUMBER_PATTERN t) : Numeral t (decimalValue t)
  | plus {t : String} (h : NUMBER_PATTERN t) : Numeral ("+" ++ t) (decimalValue t)
  | minus {t : String} (h : NUMBER_PATTERN t) : Numeral ("-" ++ t) (-(decimalValue t : Int))

namespace BigInteger

/-- A character that is no digit ends the reading. -/
theorem foldlM_appendDigit_error {cs : List Char} (h : ¬ ∀ c ∈ cs, '0' ≤ c ∧ c ≤ '9')
    (value : ℕ) : cs.foldlM appendDigit value = .error .numberFormat := by
  induction cs generalizing value with
  | nil => exact absurd (fun c hc => by cases hc) h
  | cons c cs ih =>
    rw [List.foldlM_cons]
    by_cases hc : '0' ≤ c ∧ c ≤ '9'
    · rw [appendDigit_of_digit hc]
      refine ih (fun hcs => h fun c' hc' => ?_) _
      rcases List.mem_cons.1 hc' with rfl | hc'
      · exact hc
      · exact hcs c' hc'
    · rw [appendDigit, Character.digit, if_neg hc]
      rfl

/-- Digits are read as what they denote, and nothing else is read. -/
theorem magnitude_eq (s : String) : magnitude s.toList =
    if NUMBER_PATTERN s then .ok (decimalValue s) else .error .numberFormat := by
  unfold magnitude
  by_cases hne : s.toList = []
  · rw [if_pos (by rw [hne]; rfl), if_neg]
    intro h
    exact (NUMBER_PATTERN_iff.1 h).1 hne
  · rw [if_neg (by simpa using hne)]
    by_cases hdigits : ∀ c ∈ s.toList, '0' ≤ c ∧ c ≤ '9'
    · rw [foldlM_appendDigit _ hdigits, if_pos (NUMBER_PATTERN_iff.2 ⟨hne, hdigits⟩), decimalValue]
    · rw [foldlM_appendDigit_error hdigits, if_neg]
      intro h
      exact hdigits (NUMBER_PATTERN_iff.1 h).2

theorem toList_minus (t : String) : ("-" ++ t).toList = '-' :: t.toList := String.toList_append

theorem toList_plus (t : String) : ("+" ++ t).toList = '+' :: t.toList := String.toList_append

theorem parse_minus (t : String) : parse ("-" ++ t) =
    if NUMBER_PATTERN t then .ok (-(decimalValue t : Int)) else .error .numberFormat := by
  rw [parse, toList_minus]
  show (magnitude t.toList).map (fun value => -(value : Int)) = _
  rw [magnitude_eq]
  split
  · rfl
  · rfl

theorem parse_plus (t : String) : parse ("+" ++ t) =
    if NUMBER_PATTERN t then .ok (decimalValue t : Int) else .error .numberFormat := by
  rw [parse, toList_plus]
  show (magnitude t.toList).map Int.ofNat = _
  rw [magnitude_eq]
  split
  · rfl
  · rfl

/-- Without a sign the whole string has to be digits. -/
theorem parse_cases (s : String) : (∃ t, s = "-" ++ t) ∨ (∃ t, s = "+" ++ t) ∨
    parse s = if NUMBER_PATTERN s then .ok (decimalValue s : Int) else .error .numberFormat := by
  have append {t : String} {cs : List Char} (h : s.toList = t.toList ++ cs) :
      s = t ++ String.ofList cs := by
    rw [← String.toList_inj, String.toList_append, String.toList_ofList, h]
  rw [parse]
  split
  · rename_i cs hs
    exact .inl ⟨_, append hs⟩
  · rename_i cs hs
    exact .inr (.inl ⟨_, append hs⟩)
  · rw [magnitude_eq]
    split
    · exact .inr (.inr rfl)
    · exact .inr (.inr rfl)

/-- **The strings that are read** are the numerals. -/
theorem parse_eq_ok {s : String} {n : Int} : parse s = .ok n ↔ Numeral s n := by
  constructor
  · intro h
    rcases parse_cases s with ⟨t, rfl⟩ | ⟨t, rfl⟩ | hs
    · rw [parse_minus] at h
      split at h
      · rename_i hdigits
        cases h
        exact .minus hdigits
      · cases h
    · rw [parse_plus] at h
      split at h
      · rename_i hdigits
        cases h
        exact .plus hdigits
      · cases h
    · rw [hs] at h
      split at h
      · rename_i hdigits
        cases h
        exact .digits hdigits
      · cases h
  · rintro (hs | hs | hs)
    · exact parse_eq hs
    · rw [parse_plus, if_pos hs]
    · rw [parse_minus, if_pos hs]

/-- Everything else is rejected in the same way. -/
theorem parse_eq_error {s : String} {fault : Fault} :
    parse s = .error fault ↔ fault = .numberFormat ∧ ∀ n, ¬ Numeral s n := by
  have hfault {p : Prop} [Decidable p] {n : Int} {fault : Fault}
      (h : (if p then .ok n else .error .numberFormat) = Except.error fault) :
      fault = .numberFormat := by
    split at h
    · cases h
    · cases h
      rfl
  constructor
  · intro h
    refine ⟨?_, fun n hn => ?_⟩
    · rcases parse_cases s with ⟨t, rfl⟩ | ⟨t, rfl⟩ | hs
      · exact hfault (parse_minus t ▸ h)
      · exact hfault (parse_plus t ▸ h)
      · exact hfault (hs ▸ h)
    · rw [parse_eq_ok.2 hn] at h
      cases h
  · rintro ⟨rfl, hnone⟩
    rcases parse_cases s with ⟨t, rfl⟩ | ⟨t, rfl⟩ | hs
    · rw [parse_minus, if_neg fun hdigits => hnone _ (.minus hdigits)]
    · rw [parse_plus, if_neg fun hdigits => hnone _ (.plus hdigits)]
    · rw [hs, if_neg fun hdigits => hnone _ (.digits hdigits)]

/-- **What is written is read back.** -/
theorem parse_toString (n : Int) : parse (toString n) = .ok n := by
  cases n with
  | ofNat n =>
    have h := parse_eq (NUMBER_PATTERN_toString n)
    rw [decimalValue_toString] at h
    exact h
  | negSucc n =>
    have h := parse_minus (toString (n + 1))
    rw [if_pos (NUMBER_PATTERN_toString _), decimalValue_toString] at h
    exact h

end BigInteger

end PrimeTester
