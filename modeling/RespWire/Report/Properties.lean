import RespWire.Collection.Dictionary
import RespWire.Number.Numeral

/-!
# Properties

Named texts as servers report them, in the order of their names, some of which are read as integers.
-/

namespace RespWire

/-- Texts by name. -/
abbrev Properties := Dictionary String String

namespace Properties

/-- The integer that a text stands for. -/
def getInt64? (p : Properties) (name : String) : Option Int64 :=
  (p.get? name).bind Numeral.int64?

inductive Edit where
  | insert (name text : String)
  /-- Starts anew with some pairs. -/
  | collect (pairs : List (String × String))
  deriving DecidableEq, Repr

def edit (p : Properties) : Edit → Properties
  | .insert name text => p.insert name text
  | .collect pairs => .ofList pairs

/-- The properties after changes from the first to the last. -/
def run (p : Properties) (edits : List Edit) : Properties := edits.foldl edit p

end Properties

end RespWire
