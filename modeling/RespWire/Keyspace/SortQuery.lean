import RespWire.Command.Arguments
import RespWire.Command.Encoding

/-!
# SORT queries

The optional parts of a SORT command. A part that is absent adds nothing, and neither does one that
asks for what the server does anyway.
-/

namespace RespWire

inductive SortDirection where
  | ascending
  | descending
  deriving DecidableEq, Repr

/-- Sorts ascend unless something else is asked for. -/
instance : Inhabited SortDirection := ⟨.ascending⟩

/-- The part of the result that is returned. -/
structure SortWindow where
  offset : Int64
  count : Int64
  deriving DecidableEq, Repr

/-- The optional parts of a SORT command. -/
structure SortQuery where
  byPattern : Option Bytes
  getPatterns : Option (List Bytes)
  limit : Option SortWindow
  order : Option SortDirection
  alphabetic : Option Bool
  deriving DecidableEq, Repr

namespace SortQuery

def empty : SortQuery := ⟨none, none, none, none, none⟩

inductive Edit where
  | sortBy (pattern : Bytes)
  /-- Adds a pattern to those returned. -/
  | get (pattern : Bytes)
  | limit (offset count : Int64)
  | order (order : SortDirection)
  | alpha
  | numeric
  deriving DecidableEq, Repr

/-- The query after a change. Only the patterns to return accumulate. -/
def edit (q : SortQuery) : Edit → SortQuery
  | .sortBy pattern => { q with byPattern := some pattern }
  | .get pattern => { q with getPatterns := some (q.getPatterns.getD [] ++ [pattern]) }
  | .limit offset count => { q with limit := some ⟨offset, count⟩ }
  | .order order => { q with order := some order }
  | .alpha => { q with alphabetic := some true }
  | .numeric => { q with alphabetic := some false }

/-- The query after changes from the first to the last. -/
def run (q : SortQuery) (edits : List Edit) : SortQuery := edits.foldl edit q

def byArguments (q : SortQuery) : List Bytes :=
  match q.byPattern with
  | some pattern => [Token.byWord.bytes, pattern]
  | none => []

def getArguments (q : SortQuery) : List Bytes :=
  (q.getPatterns.getD []).flatMap fun pattern => [Token.get.bytes, pattern]

def limitArguments (q : SortQuery) : List Bytes :=
  match q.limit with
  | some l =>
    [Token.limit.bytes, Encoding.integer l.offset.toInt, Encoding.integer l.count.toInt]
  | none => []

def orderArguments (q : SortQuery) : List Bytes :=
  if q.order = some .descending then [Token.desc.bytes] else []

def alphaArguments (q : SortQuery) : List Bytes :=
  if q.alphabetic = some true then [Token.alpha.bytes] else []

/-- The arguments of SORT behind the key. -/
def arguments (q : SortQuery) : Arguments :=
  ⟨q.byArguments ++ q.getArguments ++ q.limitArguments ++ q.orderArguments ++ q.alphaArguments⟩

end SortQuery

end RespWire
