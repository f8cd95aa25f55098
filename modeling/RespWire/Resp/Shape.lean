import RespWire.Number.Numeral
import RespWire.Resp.Basic

/-!
# Shapes of replies

The causes for which a reply is refused, their messages, and the checks for one kind of value.
-/

namespace RespWire

/-- What a reader wants in some place. -/
inductive Expected where
  | array
  | integer
  | string
  | bulkString
  | score
  deriving DecidableEq, Repr

def Expected.name : Expected → String
  | .array => "array"
  | .integer => "integer"
  | .string => "string"
  | .bulkString => "bulk string"
  | .score => "score"

/-- The numbers that have a range of their own. -/
inductive Field where
  | startSlot
  | endSlot
  | port
  | cursor
  deriving DecidableEq, Repr

def Field.name : Field → String
  | .startSlot => "start slot"
  | .endSlot => "end slot"
  | .port => "port"
  | .cursor => "cursor"

/-- Why a reply is refused. -/
inductive ReplyError where
  /-- A value of another kind stands where one is wanted. -/
  | unexpected (expected : Expected) (actual : Resp.Kind)
  /-- An array has too many or too few elements. -/
  | wrongCount (expected actual : Nat)
  /-- Pairs are wanted and the number of elements is odd. -/
  | unpaired (count : Nat)
  /-- A text is not a number. -/
  | invalidScore (text : String)
  /-- A text is not an integer of the wanted width. -/
  | invalidInteger (text : String)
  /-- A number lies outside the range of its field. -/
  | outOfRange (field : Field) (value : Int64)
  /-- A slot range ends before it starts. -/
  | inverted (start stop : Nat)
  deriving DecidableEq, Repr

def ReplyError.message : ReplyError → String
  | .unexpected expected actual =>
    "unexpected reply: expected " ++ expected.name ++ ", got " ++ actual.name
  | .wrongCount expected actual =>
    "wrong number of reply elements: expected " ++ Numeral.text expected ++ ", got " ++
      Numeral.text actual
  | .unpaired count => "reply has an odd number of elements: " ++ Numeral.text count
  | .invalidScore text => "invalid score: " ++ text
  | .invalidInteger text => "invalid integer: " ++ text
  | .outOfRange field value => field.name ++ " out of range: " ++ Numeral.text value.toInt
  | .inverted start stop =>
    "inverted slot range: start " ++ Numeral.text start ++ " > end " ++ Numeral.text stop

namespace Resp

/-- The elements of a value that has to be an array. -/
def requireArray : Resp → Except ReplyError (List Resp)
  | .array items => .ok items
  | reply => .error (.unexpected .array reply.kind)

/-- The value of what has to be an integer. -/
def requireInteger : Resp → Except ReplyError Int64
  | .integer value => .ok value
  | reply => .error (.unexpected .integer reply.kind)

/-- The text of what has to be a string of either kind, read lossily. -/
def requireText : Resp → Except ReplyError String
  | .simple text => .ok text
  | .bulk data => .ok (Utf8.decodeLossy data)
  | reply => .error (.unexpected .string reply.kind)

/-- The bytes of what has to be a bulk string. -/
def requireBulk : Resp → Except ReplyError Bytes
  | .bulk data => .ok data
  | reply => .error (.unexpected .bulkString reply.kind)

end Resp

end RespWire
