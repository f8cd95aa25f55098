import RespWire.Number.Decimal

/-!
# Binary floating point

Doubles as words of 64 bits: a sign bit over a magnitude of 63 bits. Finite magnitudes are whole
numbers of `2 ^ -1074`, in the order of their bits, so rounding is done on natural numbers.
-/

namespace RespWire

/-- A double, given by its bits. -/
structure Binary64 where
  bits : UInt64
  deriving DecidableEq, Repr

namespace Binary64

/-- The magnitude of infinity. Greater ones belong to what is not a number. -/
def infinityMagnitude : Nat := 2047 <<< 52

/-- The double of a sign and a magnitude. -/
def ofMagnitude (negative : Bool) (magnitude : Nat) : Binary64 :=
  ⟨UInt64.ofNat (magnitude + if negative then 1 <<< 63 else 0)⟩

def zero (negative : Bool) : Binary64 := ofMagnitude negative 0

def infinity (negative : Bool) : Binary64 := ofMagnitude negative infinityMagnitude

/-- The quiet value that is not a number and carries no payload, of either sign. -/
def nan (negative : Bool) : Binary64 := ofMagnitude negative (infinityMagnitude + 1 <<< 51)

def isNegative (x : Binary64) : Bool := 1 <<< 63 ≤ x.bits.toNat

/-- The bits below the sign. -/
def magnitude (x : Binary64) : Nat := x.bits.toNat % (1 <<< 63)

def isNaN (x : Binary64) : Bool := infinityMagnitude < x.magnitude

/-- Equality of the numbers that two doubles stand for: zeros are equal whatever their signs, and
what is not a number equals nothing. -/
def sameNumber (x y : Binary64) : Bool :=
  !x.isNaN && !y.isNaN && (x == y || (x.magnitude == 0 && y.magnitude == 0))

/-- The absolute value of a finite magnitude, in units of `2 ^ -1074`. -/
def units (magnitude : Nat) : Nat :=
  let exponent := magnitude >>> 52
  let fraction := magnitude % (1 <<< 52)
  if exponent = 0 then fraction else (1 <<< 52 + fraction) <<< (exponent - 1)

/-- The quotient rounded to the nearest whole number, a half to the even one. -/
def roundHalfEven (num den : Nat) : Nat :=
  let quotient := num / den
  let rest := num % den
  if 2 * rest < den then quotient
  else if den < 2 * rest then quotient + 1
  else quotient + quotient % 2

/-- The magnitude nearest to `num / den` units. A significand that rounds up to a power of two
carries into the exponent by itself. -/
def nearest (num den : Nat) : Nat :=
  let shift := (num / den).log2 - 52
  min (roundHalfEven num (den <<< shift) + shift <<< 52) infinityMagnitude

def ofRatio (negative : Bool) (num den : Nat) : Binary64 :=
  ofMagnitude negative (nearest (num <<< 1074) den)

def ofInt (n : Int) : Binary64 := ofRatio (n < 0) n.natAbs 1

/-- The double nearest to a decimal number. Below `10 ^ -324` that is zero and from `10 ^ 309` on
infinity, so no greater power of ten is ever formed than the digits call for. -/
def ofDecimal (negative : Bool) (d : Decimal) : Binary64 :=
  let top := d.exponent + (Numeral.ofNat d.coefficient).length
  if d.coefficient = 0 ∨ top ≤ -324 then zero negative
  else if 310 ≤ top then infinity negative
  else ofRatio negative (d.coefficient * Nat.pow 10 d.exponent.toNat)
    (Nat.pow 10 (-d.exponent).toNat)

/-- Reads a number without its sign. The names of infinity and of what is not a number are read in
any case. -/
def unsigned? (negative : Bool) (cs : List Char) : Option Binary64 :=
  let name := cs.map Char.toLower
  if name = "inf".toList ∨ name = "infinity".toList then some (infinity negative)
  else if name = "nan".toList then some (nan negative)
  else (Decimal.read? cs).map (ofDecimal negative)

/-- Reads a number with an optional sign. -/
def read? : List Char → Option Binary64
  | '-' :: cs => unsigned? true cs
  | '+' :: cs => unsigned? false cs
  | cs => unsigned? false cs

example : read? "0.1".toList = some ⟨0x3FB999999999999A⟩ := by decide +kernel

/-! Halfway between two doubles the even one is read. -/

example : read? "9007199254740993".toList = some (ofInt 9007199254740992) := by decide +kernel

end Binary64

end RespWire
