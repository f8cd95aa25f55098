import RespWire.Command.Encoding
import RespWire.Command.Token

/-!
# Bounds of sorted-set ranges

One end of a range and its argument. In a range of scores an end belongs to the range unless it is
marked; in a lexicographic range every end is marked. An end without a value takes the default of
its place.
-/

namespace RespWire

inductive Endpoint where
  | bytes (data : Bytes)
  | double (value : Binary64)
  | long (value : Int64)
  | int (value : Int32)
  | text (value : String)
  deriving DecidableEq, Repr

namespace Endpoint

/-- The bytes of a value, without any mark. -/
def toBytes : Endpoint → Bytes
  | .bytes data => data
  | .double value => Encoding.double value
  | .long value => Encoding.integer value.toInt
  | .int value => Encoding.integer value.toInt
  | .text value => Utf8.encode value

/-- Equality of values of the same type; doubles compare as numbers. -/
def same : Endpoint → Endpoint → Bool
  | .double x, .double y => x.sameNumber y
  | x, y => x = y

end Endpoint

inductive Bound where
  | unbounded
  | inclusive (value : Endpoint)
  | exclusive (value : Endpoint)
  deriving DecidableEq, Repr

/-- An end is unbounded unless something else is asked for. -/
instance : Inhabited Bound := ⟨.unbounded⟩

namespace Bound

def value? : Bound → Option Endpoint
  | .unbounded => none
  | .inclusive value | .exclusive value => some value

/-- Does the end belong to the range? An open end does. -/
def isInclusive : Bound → Bool
  | .unbounded | .inclusive _ => true
  | .exclusive _ => false

def isBounded (b : Bound) : Bool := b.value?.isSome

/-- Equality of ends, with their values compared by `Endpoint.same`. -/
def same : Bound → Bound → Bool
  | .unbounded, .unbounded => true
  | .inclusive x, .inclusive y => x.same y
  | .exclusive x, .exclusive y => x.same y
  | _, _ => false

/-- The value behind the mark of its end, if there is a value. -/
def marked? (inclusiveMark exclusiveMark : Bytes) : Bound → Option Bytes
  | .unbounded => none
  | .inclusive value => some (inclusiveMark ++ value.toBytes)
  | .exclusive value => some (exclusiveMark ++ value.toBytes)

/-- The argument of an end of a score range. The default stands in for an end that is absent or has
no value. -/
def scoreArgument (bound : Option Bound) (default : Bytes) : Bytes :=
  (bound.bind (marked? [] Token.exclusiveMark.bytes)).getD default

/-- The argument of an end of a lexicographic range, with the same use of the default. -/
def lexArgument (bound : Option Bound) (default : Bytes) : Bytes :=
  (bound.bind (marked? Token.lexInclusiveMark.bytes Token.exclusiveMark.bytes)).getD default

end Bound

end RespWire
