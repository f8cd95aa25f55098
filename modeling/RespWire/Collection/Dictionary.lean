import RespWire.Collection.Order

/-!
# Dictionaries

Finite maps as entries in ascending order of their keys. Insertion keeps the order and replaces the
value of a key that is present, so equal maps have equal entries.
-/

namespace RespWire

/-- Keys with values, in strictly ascending order of the keys. -/
@[ext] structure Dictionary (κ : Type u) (ν : Type v) [LT κ] where
  entries : List (κ × ν)
  ascending : entries.Pairwise (·.1 < ·.1)
  deriving DecidableEq, Repr

namespace Dictionary

variable {κ : Type u} {ν : Type v} [LT κ]

def empty : Dictionary κ ν := ⟨[], .nil⟩

def size (d : Dictionary κ ν) : Nat := d.entries.length

def isEmpty (d : Dictionary κ ν) : Bool := d.entries.isEmpty

/-- The keys, in ascending order. -/
def keys (d : Dictionary κ ν) : List κ := d.entries.map (·.1)

def get? [DecidableEq κ] (d : Dictionary κ ν) (key : κ) : Option ν :=
  (d.entries.find? fun e => e.1 = key).map (·.2)

variable [DecidableLT κ] [StrictTotal κ]

/-- Places a key with a value among the others, or gives it a new value. -/
def insert (d : Dictionary κ ν) (key : κ) (value : ν) : Dictionary κ ν :=
  ⟨place Prod.fst (key, value) d.entries, pairwise_place d.ascending⟩

/-- Inserts pairs one after another. -/
def insertAll (d : Dictionary κ ν) (pairs : List (κ × ν)) : Dictionary κ ν :=
  pairs.foldl (fun d p => d.insert p.1 p.2) d

/-- The dictionary of a list of pairs, in which a later pair replaces an earlier one. -/
def ofList (pairs : List (κ × ν)) : Dictionary κ ν := empty.insertAll pairs

end Dictionary

end RespWire
