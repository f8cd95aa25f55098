/-!
# Integer numerals

Decimal numerals of integers: writing them without leading zeros, and reading them with an optional
sign and any number of leading zeros, into machine words where the value fits.
-/

namespace RespWire.Numeral

/-- The digits of a natural number, the most significant first. -/
def ofNat (n : Nat) : List Char := Nat.toDigits 10 n

/-- The numeral of an integer; only a negative one has a sign. -/
def ofInt : Int → List Char
  | .ofNat n => ofNat n
  | .negSucc n => '-' :: ofNat (n + 1)

def text (n : Int) : String := String.ofList (ofInt n)

/-- The value of one or more digits. -/
def digits? (cs : List Char) : Option Nat :=
  if !cs.isEmpty && cs.all Char.isDigit then some (Nat.ofDigitChars 10 cs 0) else none

/-- The value of digits after an optional plus sign. -/
def unsigned? : List Char → Option Nat
  | '+' :: cs => digits? cs
  | cs => digits? cs

/-- The value of digits after an optional sign. -/
def signed? : List Char → Option Int
  | '-' :: cs => (digits? cs).map fun n => -(n : Int)
  | cs => (unsigned? cs).map Int.ofNat

/-- A numeral whose value fits a signed word of 64 bits. -/
def int64? (text : String) : Option Int64 :=
  (signed? text.toList).bind fun n =>
    if Int64.minValue.toInt ≤ n ∧ n ≤ Int64.maxValue.toInt then some (Int64.ofInt n) else none

/-- A numeral without minus sign whose value fits an unsigned word of 64 bits. -/
def uint64? (text : String) : Option UInt64 :=
  (unsigned? text.toList).bind fun n => if n < UInt64.size then some (UInt64.ofNat n) else none

/-- A numeral without minus sign whose value fits an unsigned word of 16 bits. -/
def uint16? (text : String) : Option UInt16 :=
  (unsigned? text.toList).bind fun n => if n < UInt16.size then some (UInt16.ofNat n) else none

end RespWire.Numeral
