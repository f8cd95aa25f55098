import RespWire.Collection.Order

/-!
# Ordered sets

Finite sets as strictly ascending lists, so equal sets have equal lists.
-/

namespace RespWire

/-- Distinct elements in ascending order. -/
@[ext] structure OrderedSet (α : Type u) [LT α] where
  elements : List α
  ascending : elements.Pairwise (· < ·)
  deriving DecidableEq, Repr

namespace OrderedSet

variable {α : Type u} [LT α]

def empty : OrderedSet α := ⟨[], .nil⟩

variable [DecidableLT α] [StrictTotal α]

/-- Places an element among the others unless it is there. -/
def insert (s : OrderedSet α) (x : α) : OrderedSet α :=
  ⟨place (fun y => y) x s.elements, pairwise_place s.ascending⟩

/-- The set of the elements of a list. -/
def ofList (xs : List α) : OrderedSet α := xs.foldl insert empty

end OrderedSet

end RespWire
