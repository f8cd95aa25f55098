import RespWire.Number.Numeral

/-!
# Decimal notation

Nonnegative decimal numbers: reading them in positional or exponent notation, and writing them in
positional notation.
-/

namespace RespWire

/-- The number `coefficient * 10 ^ exponent`. -/
structure Decimal where
  coefficient : Nat
  exponent : Int
  deriving DecidableEq, Repr

namespace Decimal

/-- The exponent that ends a decimal number, zero where none is written. -/
def exponent? : List Char → Option Int
  | [] => some 0
  | c :: cs => if c = 'e' || c = 'E' then Numeral.signed? cs else none

/-- The digits after a point, and what follows them. -/
def fraction : List Char → List Char × List Char
  | '.' :: cs => cs.span Char.isDigit
  | cs => ([], cs)

/-- Reads digits with an optional point anywhere among them and an optional exponent. -/
def read? (cs : List Char) : Option Decimal :=
  let (whole, rest) := cs.span Char.isDigit
  let (places, rest) := fraction rest
  (Numeral.digits? (whole ++ places)).bind fun coefficient =>
    (exponent? rest).map fun e => ⟨coefficient, e - places.length⟩

/-- Positional notation. A number below one has one zero in front of the point. -/
def positional (d : Decimal) : List Char :=
  let digits := Numeral.ofNat d.coefficient
  match d.exponent with
  | .ofNat zeros => digits ++ List.replicate zeros '0'
  | .negSucc n =>
    let padded := List.replicate (n + 2 - digits.length) '0' ++ digits
    let point := padded.length - (n + 1)
    padded.take point ++ '.' :: padded.drop point

end Decimal

end RespWire
