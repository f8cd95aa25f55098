import RespWire.Text.Utf8

/-!
# Tokens

The fixed words and marks of the command grammar.
-/

namespace RespWire

/-- A word or mark of the command grammar. -/
inductive Token where
  /-- The open upper end of a lexicographic range. -/
  | plus
  /-- The open lower end of a lexicographic range. -/
  | minus
  /-- The open upper end of a score range. -/
  | positiveInfinity
  /-- The open lower end of a score range. -/
  | negativeInfinity
  /-- Marks an end that does not belong to its range. -/
  | exclusiveMark
  /-- Marks an end that belongs to its lexicographic range. -/
  | lexInclusiveMark
  | ex
  | px
  | nx
  | xx
  | and
  | or
  | not
  | xor
  | before
  | after
  | byWord
  | get
  | limit
  | desc
  | alpha
  | matchWord
  | count
  deriving DecidableEq, Repr

namespace Token

/-- The spelling of a token. -/
def text : Token → String
  | .plus => "+"
  | .minus => "-"
  | .positiveInfinity => "+inf"
  | .negativeInfinity => "-inf"
  | .exclusiveMark => "("
  | .lexInclusiveMark => "["
  | .ex => "EX"
  | .px => "PX"
  | .nx => "NX"
  | .xx => "XX"
  | .and => "AND"
  | .or => "OR"
  | .not => "NOT"
  | .xor => "XOR"
  | .before => "BEFORE"
  | .after => "AFTER"
  | .byWord => "BY"
  | .get => "GET"
  | .limit => "LIMIT"
  | .desc => "DESC"
  | .alpha => "ALPHA"
  | .matchWord => "MATCH"
  | .count => "COUNT"

def bytes (t : Token) : Bytes := Utf8.encode t.text

end Token

end RespWire
