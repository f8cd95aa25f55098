import RespWire.SortedSet.Bound

/-!
# Intervals of a sorted set

Ranges with two ends and their arguments. An open end is written as the infinity of its place.
-/

namespace RespWire

/-- A range between two ends. -/
structure Interval where
  lower : Bound
  upper : Bound
  deriving DecidableEq, Repr

namespace Interval

def unbounded : Interval := ⟨.unbounded, .unbounded⟩

inductive Edit where
  | gt (value : Endpoint)
  | gte (value : Endpoint)
  | lt (value : Endpoint)
  | lte (value : Endpoint)
  | setLower (bound : Bound)
  | setUpper (bound : Bound)
  | swap
  | reset
  deriving DecidableEq, Repr

def edit (i : Interval) : Edit → Interval
  | .gt value => { i with lower := .exclusive value }
  | .gte value => { i with lower := .inclusive value }
  | .lt value => { i with upper := .exclusive value }
  | .lte value => { i with upper := .inclusive value }
  | .setLower bound => { i with lower := bound }
  | .setUpper bound => { i with upper := bound }
  | .swap => ⟨i.upper, i.lower⟩
  | .reset => unbounded

/-- The range after changes from the first to the last. -/
def run (i : Interval) (edits : List Edit) : Interval := edits.foldl edit i

/-- Equality of both ends by `Bound.same`. -/
def same (i j : Interval) : Bool := i.lower.same j.lower && i.upper.same j.upper

def scoreArguments (i : Interval) : Bytes × Bytes :=
  (Bound.scoreArgument i.lower Token.negativeInfinity.bytes,
    Bound.scoreArgument i.upper Token.positiveInfinity.bytes)

def lexArguments (i : Interval) : Bytes × Bytes :=
  (Bound.lexArgument i.lower Token.minus.bytes, Bound.lexArgument i.upper Token.plus.bytes)

end Interval

end RespWire
