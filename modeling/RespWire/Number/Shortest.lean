import RespWire.Number.Binary64

/-!
# Shortest decimal text of a double

Every finite double is a whole number of `10 ^ -1074`. Of the decimal grids with steps
`10 ^ (scale - 1074)` the coarsest is taken that has a point which reads back as the double, and on
it the nearest such point. Only the two points next to the value have to be tried, and the finest
grid has the value itself.
-/

namespace RespWire.Binary64

/-- The units of `10 ^ -1074` in a unit of `2 ^ -1074`, a number of 751 digits that proofs keep
folded. -/
@[irreducible] def unitSteps : Nat := Nat.pow 5 1074

/-- The absolute value of a finite magnitude, in units of `10 ^ -1074`. -/
def decimalUnits (magnitude : Nat) : Nat := units magnitude * unitSteps

/-- Is the magnitude nearest to a point of the grid? -/
def readsBack (magnitude scale point : Nat) : Bool :=
  nearest (point * Nat.pow 10 scale) unitSteps = magnitude

/-- The greatest point of the grid that does not exceed the value. -/
def pointBelow (magnitude scale : Nat) : Nat := decimalUnits magnitude / Nat.pow 10 scale

/-- Is the value nearer to that point than to the next one? -/
def isNearBelow (magnitude scale : Nat) : Bool :=
  2 * (decimalUnits magnitude % Nat.pow 10 scale) < Nat.pow 10 scale

/-- The point of the grid nearest to the value among those that read back, the greater of two that
are equally near. -/
def gridPoint? (magnitude scale : Nat) : Option Nat :=
  let below := pointBelow magnitude scale
  if readsBack magnitude scale below &&
      (isNearBelow magnitude scale || !readsBack magnitude scale (below + 1)) then some below
  else if readsBack magnitude scale (below + 1) then some (below + 1)
  else none

/-- The coarsest grid with a point that reads back, from the given one down to the finest. -/
def coarsestGrid (magnitude : Nat) : Nat → Nat
  | 0 => 0
  | scale + 1 =>
    if (gridPoint? magnitude (scale + 1)).isSome then scale + 1 else coarsestGrid magnitude scale

/-- The decimal number of fewest digits that reads back as a finite magnitude. The search starts on
a grid whose step exceeds the value; the finest grid has the value itself. -/
def shortest (magnitude : Nat) : Decimal :=
  if magnitude = 0 then ⟨0, 0⟩
  else
    let value := decimalUnits magnitude
    let scale := coarsestGrid magnitude (Numeral.ofNat value).length
    ⟨(gridPoint? magnitude scale).getD value, scale - 1074⟩

/-- The text of a double: shortest digits in positional notation, and names for what has none. -/
def toText (x : Binary64) : String :=
  if x.isNaN then "NaN"
  else
    let digits :=
      if x.magnitude = infinityMagnitude then "inf".toList else (shortest x.magnitude).positional
    String.ofList (if x.isNegative then '-' :: digits else digits)

example : toText ⟨0x3FB999999999999A⟩ = "0.1" := by decide +kernel

/-! The least magnitude has one digit, although its value starts with `4.9`. -/

example : shortest 1 = ⟨5, -324⟩ := by decide +kernel

/-! Of two points that are equally near the greater one is taken. -/

example : toText ⟨0x3E60000000000000⟩ = "0.000000029802322387695313" := by decide +kernel

end RespWire.Binary64
