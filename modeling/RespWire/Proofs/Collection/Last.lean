import Mathlib.Data.List.Basic

/-!
# Last values

Changes may each have a value for a part of a state. If a change overwrites the part with its value
and leaves it alone if it has none, the part has the last of the values after any changes.
-/

namespace RespWire

variable {σ α β : Type}

/-- The last of the values that some elements have. -/
def last? (value : α → Option β) (xs : List α) : Option β := (xs.filterMap value).getLast?

lemma last?_cons (value : α → Option β) (x : α) (xs : List α) :
    last? value (x :: xs) = (last? value xs).or (value x) := by
  rw [last?, last?, List.filterMap_cons]
  cases value x with
  | none => exact Option.or_none.symm
  | some y =>
    rw [List.getLast?_cons]
    cases (xs.filterMap value).getLast? <;> rfl

/-- A part that each change overwrites or leaves alone has the last value in the end. -/
lemma foldl_eq_last? {change : σ → α → σ} {part : σ → Option β} {value : α → Option β}
    (h : ∀ s x, part (change s x) = (value x).or (part s)) (s : σ) (xs : List α) :
    part (xs.foldl change s) = (last? value xs).or (part s) := by
  induction xs generalizing s with
  | nil => rfl
  | cons x xs ih =>
    rw [List.foldl_cons, ih, h, last?_cons, Option.or_assoc]

lemma foldl_eq_last?_of_eq_none {change : σ → α → σ} {part : σ → Option β} {value : α → Option β}
    {s : σ} (h : ∀ s x, part (change s x) = (value x).or (part s)) (hs : part s = none)
    (xs : List α) : part (xs.foldl change s) = last? value xs := by
  rw [foldl_eq_last? h, hs, Option.or_none]

end RespWire
