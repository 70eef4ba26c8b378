import Mathlib.Data.List.Induction
import Mathlib.Data.Nat.Digits.Defs
import Mathlib.Data.Nat.Prime.Infinite

/-!
# The Java library below the program

What the classes of `io.onqi.primetester` use of the JDK: `long` is `Int64`, whose addition wraps
as `AtomicLong.incrementAndGet` does; `HashMap` is a map seen through `get` and `put`, where `none`
is `null`; `BigInteger` is `Int`, without a bound. `BigInteger.nextProbablePrime` is known by its
documented contract only (`NextProbablePrime`, `SkipsNoPrime`): it may return composites.
-/

namespace PrimeTester

/-- The exceptions the modelled code can throw. `outOfFuel` is not one of them: it marks a loop of
the model that used up the number of rounds it was given. -/
inductive Fault where
  | numberFormat
  | arithmetic
  | nullPointer
  | illegalArgument
  | outOfFuel
  deriving DecidableEq, Repr

/-! ## `long` -/

abbrev Long := Int64

/-- `Long.MIN_VALUE`. -/
def Long.MIN_VALUE : Long := Int64.minValue

/-- `String.valueOf(long)`. -/
def Long.valueOf (l : Long) : String := toString l.toInt

/-- Counting up from `1` comes back to an earlier value only after all `2 ^ 64` of them. -/
theorem Long.ofNat_succ_inj {a b : Nat} (ha : a < 2 ^ 64) (hb : b < 2 ^ 64)
    (h : Int64.ofNat (a + 1) = Int64.ofNat (b + 1)) : a = b := by
  have hbv := congrArg Int64.toBitVec h
  rw [Int64.toBitVec_ofNat', Int64.toBitVec_ofNat'] at hbv
  have hn := congrArg BitVec.toNat hbv
  rw [BitVec.toNat_ofNat, BitVec.toNat_ofNat] at hn
  omega

/-- Below `2 ^ 63` the numbers counted up from `1` are those between `1` and the last one. -/
theorem Long.ofNat_succ_range {n : Nat} (hn : n < 2 ^ 63) (i : Long) :
    (∃ j < n, i = Int64.ofNat (j + 1)) ↔ 1 ≤ i ∧ i ≤ Int64.ofNat n := by
  have hone : (1 : Int64).toInt = 1 := rfl
  rw [Int64.le_iff_toInt_le, Int64.le_iff_toInt_le, Int64.toInt_ofNat_of_lt hn, hone]
  constructor
  · rintro ⟨j, hj, rfl⟩
    rw [Int64.toInt_ofNat_of_lt (by omega)]
    omega
  · rintro ⟨hlow, hhigh⟩
    refine ⟨i.toInt.toNat - 1, by omega, Int64.toInt_inj.1 ?_⟩
    rw [Int64.toInt_ofNat_of_lt (by omega)]
    omega

/-! ## `HashMap` -/

/-- A map as its `get`; `none` is `null`. -/
@[ext] structure HashMap (K V : Type) where
  get : K → Option V

namespace HashMap

variable {K V : Type}

/-- `new HashMap<>()`. -/
def empty : HashMap K V := ⟨fun _ => none⟩

def put [DecidableEq K] (m : HashMap K V) (k : K) (v : V) : HashMap K V :=
  ⟨fun k' => if k' = k then some v else m.get k'⟩

@[simp] theorem get_empty (k : K) : (empty : HashMap K V).get k = none := rfl

variable [DecidableEq K] (m : HashMap K V) (k : K) (v : V)

@[simp] theorem get_put_self : (m.put k v).get k = some v := if_pos rfl

theorem get_put (k' : K) : (m.put k v).get k' = if k' = k then some v else m.get k' := rfl

theorem get_put_ne {k' : K} (h : k' ≠ k) : (m.put k v).get k' = m.get k' := if_neg h

/-- A key that is there stays there. -/
theorem get_put_ne_none {k' : K} (h : m.get k' ≠ none) : (m.put k v).get k' ≠ none := by
  rw [get_put]
  split
  · exact Option.some_ne_none v
  · exact h

end HashMap

/-! ## `BigInteger`

The numbers themselves are `Int`; these are the methods that throw or that `Int` spells differently.
-/

/-- `Character.digit(c, 10)` on ASCII. It also knows the digits of other scripts, which no number
that passes `NUMBER_PATTERN` contains. -/
def Character.digit (c : Char) : Option Nat :=
  if '0' ≤ c ∧ c ≤ '9' then some (c.toNat - '0'.toNat) else none

/-- A string of ASCII characters, on which `Character.digit` is all that is said here. -/
abbrev AsciiString := {s : String // s.toList.all (·.toNat < 128)}

namespace BigInteger

/-- Append the digit `c` to the decimal number `value`. -/
def appendDigit (value : Nat) (c : Char) : Except Fault Nat :=
  match Character.digit c with
  | some d => .ok (10 * value + d)
  | none => .error .numberFormat

/-- The value of a nonempty sequence of digits. -/
def magnitude (cs : List Char) : Except Fault Nat :=
  if cs.isEmpty then .error .numberFormat else cs.foldlM appendDigit 0

/-- `new BigInteger(val)`: an optional sign before one or more digits. -/
def parse (val : String) : Except Fault Int :=
  match val.toList with
  | '-' :: cs => (magnitude cs).map fun value => -(value : Int)
  | '+' :: cs => (magnitude cs).map Int.ofNat
  | cs => (magnitude cs).map Int.ofNat

/-- `shiftRight(k)`: the floor of the division by `2 ^ k`, for negative numbers too. -/
def shiftRight (a : Int) (k : Nat) : Int := a / 2 ^ k

def shiftLeft (a : Int) (k : Nat) : Int := a * 2 ^ k

/-- `mod(m)`: never negative; throws when `m` is not positive. -/
def mod (a m : Int) : Except Fault Int :=
  if m ≤ 0 then .error .arithmetic else .ok (a % m)

end BigInteger

/-- What is known of `BigInteger.nextProbablePrime` on the arguments it accepts: its result is
strictly greater. The search behind it draws random numbers, so a `NextProbablePrime` stands for
the answers that one computation gets. -/
structure NextProbablePrime where
  next : Int → Int
  lt_next : ∀ a : Int, 0 ≤ a → a < next a

/-- The other half of the documented contract: no prime lies strictly between the argument and the
result. -/
def NextProbablePrime.SkipsNoPrime (np : NextProbablePrime) : Prop :=
  ∀ a : Int, 0 ≤ a → ∀ q : Nat, q.Prime → a < q → ¬ (q : Int) < np.next a

/-- `a.nextProbablePrime()`, which throws on a negative `a`. -/
def NextProbablePrime.call (np : NextProbablePrime) (a : Int) : Except Fault Int :=
  if a < 0 then .error .arithmetic else .ok (np.next a)

/-- A `nextProbablePrime` that is never wrong: the least prime above its argument. -/
def NextProbablePrime.exact : NextProbablePrime where
  next a := Nat.find (Nat.exists_infinite_primes (a.toNat + 1))
  lt_next a ha := by
    have := (Nat.find_spec (Nat.exists_infinite_primes (a.toNat + 1))).1
    omega

theorem NextProbablePrime.exact_skipsNoPrime : exact.SkipsNoPrime := by
  intro a ha q hq hlt hnext
  exact Nat.find_min (Nat.exists_infinite_primes (a.toNat + 1)) (Int.ofNat_lt.1 hnext)
    ⟨by omega, hq⟩

/-! ## Decimal strings -/

/-- The integer that a string of decimal digits denotes. -/
def decimalValue (s : String) : Nat :=
  Nat.ofDigits 10 (s.toList.reverse.map fun c => c.toNat - '0'.toNat)

namespace BigInteger

theorem appendDigit_of_digit {c : Char} (h : '0' ≤ c ∧ c ≤ '9') (value : Nat) :
    appendDigit value c = .ok (10 * value + (c.toNat - '0'.toNat)) := by
  rw [appendDigit, Character.digit, if_pos h]

/-- The fold over the digits, the most significant first, is the number they denote. -/
theorem foldlM_appendDigit (cs : List Char) (h : ∀ c ∈ cs, '0' ≤ c ∧ c ≤ '9') :
    cs.foldlM appendDigit 0 =
      .ok (Nat.ofDigits 10 (cs.reverse.map fun c => c.toNat - '0'.toNat)) := by
  induction cs using List.reverseRecOn with
  | nil => rfl
  | append_singleton cs c ih =>
    have hc := h c (by simp)
    have ih := ih fun c' hc' => h c' (by simp [hc'])
    rw [List.foldlM_append, ih, List.reverse_append, List.map_append, List.reverse_singleton,
      List.map_singleton, List.singleton_append, Nat.ofDigits_cons, Nat.add_comm]
    simp [appendDigit_of_digit hc, bind, Except.bind, pure, Except.pure]

/-- A nonempty string of ASCII digits is parsed as the integer it denotes. -/
theorem parse_digits {s : String} (hne : s.toList ≠ [])
    (h : ∀ c ∈ s.toList, '0' ≤ c ∧ c ≤ '9') : parse s = .ok (decimalValue s : Int) := by
  have hmag : magnitude s.toList = .ok (decimalValue s) := by
    rw [magnitude, if_neg (by simpa using hne), foldlM_appendDigit _ h, decimalValue]
  rw [parse]
  split
  · rename_i cs hs
    exact absurd (h '-' (by rw [hs]; simp)) (by decide)
  · rename_i cs hs
    exact absurd (h '+' (by rw [hs]; simp)) (by decide)
  · rw [hmag]
    rfl

end BigInteger

end PrimeTester
