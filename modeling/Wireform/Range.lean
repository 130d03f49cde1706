/-!
# Ranges of admissible lengths

A range has a lower and an upper bound, each of which may be missing, may admit
its own number or may exclude it. Nothing forbids a range that admits no number
at all; a configuration with such a range refuses every length.
-/

namespace Wireform

/-- One end of a range. -/
inductive Bound
  | unbounded
  | included (number : Int)
  | excluded (number : Int)
deriving DecidableEq, Repr

/-- The numbers between two bounds. -/
structure Range where
  lower : Bound := .unbounded
  upper : Bound := .unbounded
deriving DecidableEq, Repr

namespace Range

/-- Every number. -/
def full : Range := {}

/-- From `first` on, up to but not including `limit`. -/
def halfOpen (first limit : Int) : Range := ⟨.included first, .excluded limit⟩

/-- From `first` to `last`, both included. -/
def closed (first last : Int) : Range := ⟨.included first, .included last⟩

/-- From `first` on. -/
def startingAt (first : Int) : Range := ⟨.included first, .unbounded⟩

/-- Below `limit`. -/
def below (limit : Int) : Range := ⟨.unbounded, .excluded limit⟩

/-- Up to `last`, included. -/
def upTo (last : Int) : Range := ⟨.unbounded, .included last⟩

/-- The range with the given bounds, whatever their order. -/
def ofBounds (lower upper : Bound) : Range := ⟨lower, upper⟩

/-- Whether a number is at or above a lower bound. -/
def meetsLower (number : Int) : Bound → Bool
  | .unbounded => true
  | .included least => least ≤ number
  | .excluded least => least < number

/-- Whether a number is at or below an upper bound. -/
def meetsUpper (number : Int) : Bound → Bool
  | .unbounded => true
  | .included greatest => number ≤ greatest
  | .excluded greatest => number < greatest

/-- Whether the range admits a number. -/
def contains (range : Range) (number : Int) : Bool :=
  meetsLower number range.lower && meetsUpper number range.upper

end Range

end Wireform
