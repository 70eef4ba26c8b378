import PrimeTester.Lib.Loop
import PrimeTester.Messages

/-!
# The worker

`Worker.calculate` and what it calls. Both loops are `Loop.run` of their body and take the same
fuel. The divider loop asks `BigInteger.nextProbablePrime` for the candidates, which is the
parameter `np`; its arguments increase strictly, so one function stands for all its calls in one
computation.
-/

namespace PrimeTester.Worker

/-- One round of `while (half.multiply(half).compareTo(n) > 0)`. -/
def halvingRound (n half : Int) : Except Fault (Loop.Flow Int Int) :=
  if half * half > n then .ok (.next (BigInteger.shiftRight half 1)) else .ok (.exit half)

def approximateRoot (fuel : Nat) (n : Int) : Except Fault Int := do
  let half ← Loop.run (halvingRound n) .outOfFuel fuel (BigInteger.shiftRight n 1)
  return BigInteger.shiftLeft half 1

/-- One round of the loop over the dividers: the test against the root, the body, the step to the
next divider. -/
def dividerRound (np : NextProbablePrime) (n root divider : Int) :
    Except Fault (Loop.Flow Int (Option Int)) :=
  if divider ≤ root then do
    if (← BigInteger.mod n divider) = 0 then
      return .exit (some divider)
    return .next (← np.call divider)
  else
    .ok (.exit none)

/-- The part of `checkIsPrime` after the special cases: the divider that is found, if any. -/
def findDivider (np : NextProbablePrime) (fuel : Nat) (n : Int) :
    Except Fault (Option Int) := do
  let root ← approximateRoot fuel n
  Loop.run (dividerRound np n root) .outOfFuel fuel 2

def checkIsPrime (np : NextProbablePrime) (fuel : Nat) (message : TaskIdAssignedMessage) :
    Except Fault CalculationFinished := do
  let n ← BigInteger.parse message.number
  if n = 0 ∨ n = 1 ∨ n = 2 then
    return ⟨message.taskId, message.number, true, none⟩
  match ← findDivider np fuel n with
  | some divider => return ⟨message.taskId, message.number, false, some (toString divider)⟩
  | none => return ⟨message.taskId, message.number, true, none⟩

/-- The events that `calculate` publishes, in order, and the exception that ends it, if any. -/
def calculate (np : NextProbablePrime) (fuel : Nat) (message : TaskIdAssignedMessage) :
    List Event × Option Fault :=
  let started : Event := .started ⟨message.taskId⟩
  match checkIsPrime np fuel message with
  | .ok finished => ([started, .finished finished], none)
  | .error fault => ([started], some fault)

end PrimeTester.Worker
