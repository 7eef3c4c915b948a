import Parlance.Word

namespace Parlance

/-- What a run may use up. A limit that is not positive is none. -/
structure Limits where
  callDepth : Int
  steps : Int
  /-- Milliseconds of wall-clock time. -/
  time : Int
  deriving DecidableEq, Repr

namespace Limits

def none : Limits := ⟨0, 0, 0⟩

def allowsSteps (limits : Limits) (steps : Nat) : Bool :=
  limits.steps ≤ 0 || (steps : Int) ≤ limits.steps

def allowsDepth (limits : Limits) (depth : Nat) : Bool :=
  limits.callDepth ≤ 0 || (depth : Int) ≤ limits.callDepth

/-- Time is kept in nanoseconds in a signed 64-bit word. A limit that
overflows it to the past is over before the run starts. -/
def isOverAtOnce (limits : Limits) : Bool :=
  0 < limits.time && Int.bmod (limits.time * 1000000) Word.count ≤ 0

/-- How many calls may be open at the same time. Without a depth limit the
step limit bounds them, since every open call has started a statement. With
neither limit only the machine's own capacity does. -/
def nesting (limits : Limits) (capacity : Nat) : Nat :=
  if 0 < limits.callDepth then limits.callDepth.toNat
  else if 0 < limits.steps then limits.steps.toNat
  else capacity

/-- The capacity of a machine of which nothing else is known. -/
def usualCapacity : Nat := 100000

end Limits

end Parlance
