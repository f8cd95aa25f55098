import RespWire.Command.Token

/-!
# Choices that are one word

The operations of BITOP and the positions of LINSERT.
-/

namespace RespWire

inductive BitOp where
  | and
  | or
  | not
  | xor
  deriving DecidableEq, Repr

/-- The word for an operation. -/
def BitOp.token : BitOp → Token
  | .and => .and
  | .or => .or
  | .not => .not
  | .xor => .xor

/-- Where an element goes relative to one that is there. -/
inductive InsertSide where
  | before
  | after
  deriving DecidableEq, Repr

/-- The word for a position. -/
def InsertSide.token : InsertSide → Token
  | .before => .before
  | .after => .after

end RespWire
