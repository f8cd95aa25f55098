import Mathlib.Data.Finset.Card
import Mathlib.Data.List.Sort
import RespWire.Collection.OrderedSet
import Std.Data.HashSet.Lemmas

/-!
# Elements of ordered sets

The set of a list has the elements of the list, each once. So two lists have the same set exactly if
they have the same elements, in any order and any number of times, and a map that keeps the order
can be done before or after.
-/

namespace RespWire.OrderedSet

variable {α : Type u} [LT α] {x y : α} {xs ys : List α} {s t : OrderedSet α}

omit [LT α] in
/-- Lists have the same elements if their images have, and an injective map tells all apart. -/
lemma forall_mem_map_iff {β : Type v} {f : α → β} (hf : Function.Injective f) :
    (∀ y, y ∈ xs.map f ↔ y ∈ ys.map f) ↔ ∀ x, x ∈ xs ↔ x ∈ ys := by
  constructor
  · intro h x
    rw [← List.mem_map_of_injective hf, h, List.mem_map_of_injective hf]
  · intro h y
    simp only [List.mem_map, h]

/-! ### Order -/

section Order

variable [StrictTotal α]

lemma nodup (s : OrderedSet α) : s.elements.Nodup := s.ascending.nodup

/-- Sets with the same elements are equal. -/
lemma eq_of_mem_iff (h : ∀ x, x ∈ s.elements ↔ x ∈ t.elements) : s = t :=
  OrderedSet.ext (s.ascending.eq_of_mem_iff t.ascending h)

end Order

/-! ### Insertion -/

variable [DecidableLT α] [StrictTotal α]

lemma mem_insert : y ∈ (s.insert x).elements ↔ y = x ∨ y ∈ s.elements :=
  mem_place_iff fun _ _ => id

lemma mem_foldl_insert : y ∈ (xs.foldl insert s).elements ↔ y ∈ s.elements ∨ y ∈ xs := by
  induction xs generalizing s with
  | nil => simp
  | cons x xs ih =>
    rw [List.foldl_cons, ih, mem_insert, or_assoc, or_left_comm, List.mem_cons]

@[simp] lemma mem_ofList : y ∈ (ofList xs).elements ↔ y ∈ xs := by
  rw [ofList, mem_foldl_insert]
  exact or_iff_right List.not_mem_nil

/-! ### Maps -/

section Map

variable {β : Type v} [LT β] [DecidableLT β] [StrictTotal β] {f : α → β}

lemma elements_foldl_insert_map (hf : ∀ a b, f a < f b ↔ a < b) {t : OrderedSet β}
    (h : t.elements = s.elements.map f) (xs : List α) :
    ((xs.map f).foldl insert t).elements = (xs.foldl insert s).elements.map f := by
  induction xs generalizing s t with
  | nil => exact h
  | cons x xs ih =>
    have hplace : place (fun y => y) (f x) t.elements =
        (place (fun y => y) x s.elements).map f := by
      rw [h]
      exact place_map hf
    exact ih hplace

/-- The elements of the mapped list are the mapped elements, if the map keeps the order. -/
lemma elements_ofList_map (hf : ∀ a b, f a < f b ↔ a < b) (xs : List α) :
    (ofList (xs.map f)).elements = (ofList xs).elements.map f :=
  elements_foldl_insert_map (s := empty) hf rfl xs

end Map

/-! ### Elements -/

/-- Lists have the same set exactly if they have the same elements. -/
theorem ofList_eq_iff : ofList xs = ofList ys ↔ ∀ x, x ∈ xs ↔ x ∈ ys := by
  constructor
  · intro h x
    rw [← mem_ofList, h, mem_ofList]
  · intro h
    apply eq_of_mem_iff
    simpa using h

/-- There are as many elements as different ones in the list. -/
lemma length_ofList [DecidableEq α] (xs : List α) :
    (ofList xs).elements.length = xs.toFinset.card := by
  have hset : (ofList xs).elements.toFinset = xs.toFinset := by
    ext x
    simp
  rw [← hset, List.toFinset_card_of_nodup (ofList xs).nodup]

/-- A table that looks for an element among those with the same hash has the same elements, in an
order of its own. -/
lemma toList_hashSet_perm [BEq α] [LawfulBEq α] [Hashable α] (xs : List α) :
    (Std.HashSet.ofList xs).toList.Perm (ofList xs).elements := by
  have hnodup : (Std.HashSet.ofList xs).toList.Nodup :=
    Std.HashSet.distinct_toList.imp ne_of_beq_false
  rw [List.perm_ext_iff_of_nodup hnodup (ofList xs).nodup]
  intro x
  rw [Std.HashSet.mem_toList, Std.HashSet.mem_ofList, List.contains_iff_mem, mem_ofList]

end RespWire.OrderedSet
