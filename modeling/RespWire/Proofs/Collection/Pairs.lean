import Mathlib.Algebra.Group.Nat.Even

/-!
# Elements two by two

A list of even length as a list of pairs. Each pair has the element at an even place and the one
behind it.
-/

namespace RespWire

variable {α : Type} {xs : List α}

/-- The elements of a list, two by two. -/
def inPairs : List α → List (α × α)
  | x :: y :: rest => (x, y) :: inPairs rest
  | _ => []

lemma getElem?_inPairs {xs : List α} (h : Even xs.length) (i : Nat) :
    (inPairs xs)[i]?.map Prod.fst = xs[2 * i]? ∧
      (inPairs xs)[i]?.map Prod.snd = xs[2 * i + 1]? := by
  match xs, i with
  | [], _ => simp [inPairs]
  | [_], _ => exact absurd h (by simp)
  | x :: y :: rest, 0 => exact ⟨rfl, rfl⟩
  | x :: y :: rest, i + 1 =>
    have hrest : Even rest.length := by simpa [Nat.even_add_one] using h
    exact getElem?_inPairs hrest i

lemma getElem?_inPairs_eq_some_iff (h : Even xs.length) {i : Nat} {x y : α} :
    (inPairs xs)[i]? = some (x, y) ↔ xs[2 * i]? = some x ∧ xs[2 * i + 1]? = some y := by
  obtain ⟨hfst, hsnd⟩ := getElem?_inPairs h i
  rw [← hfst, ← hsnd]
  cases (inPairs xs)[i]? <;> simp [Prod.ext_iff]

lemma getElem?_two_mul_eq_some_iff (h : Even xs.length) {i : Nat} {x : α} :
    xs[2 * i]? = some x ↔ ∃ y, (inPairs xs)[i]? = some (x, y) := by
  rw [← (getElem?_inPairs h i).1, Option.map_eq_some_iff]
  simp [Prod.exists]

lemma getElem?_two_mul_add_one_eq_some_iff (h : Even xs.length) {i : Nat} {y : α} :
    xs[2 * i + 1]? = some y ↔ ∃ x, (inPairs xs)[i]? = some (x, y) := by
  rw [← (getElem?_inPairs h i).2, Option.map_eq_some_iff]
  simp [Prod.exists]

lemma length_inPairs {xs : List α} (h : Even xs.length) : xs.length = 2 * (inPairs xs).length := by
  match xs with
  | [] => rfl
  | [_] => exact absurd h (by simp)
  | x :: y :: rest =>
    have hrest : Even rest.length := by simpa [Nat.even_add_one] using h
    rw [inPairs, List.length_cons, List.length_cons, List.length_cons, length_inPairs hrest]
    omega

lemma inPairs_append {xs : List α} (h : Even xs.length) (ys : List α) :
    inPairs (xs ++ ys) = inPairs xs ++ inPairs ys := by
  match xs with
  | [] => rfl
  | [_] => exact absurd h (by simp)
  | x :: y :: rest =>
    have hrest : Even rest.length := by simpa [Nat.even_add_one] using h
    exact congrArg ((x, y) :: ·) (inPairs_append hrest ys)

lemma inPairs_map {β : Type} (f : α → β) (xs : List α) :
    inPairs (xs.map f) = (inPairs xs).map (Prod.map f f) := by
  match xs with
  | [] | [_] => rfl
  | x :: y :: rest => exact congrArg ((f x, f y) :: ·) (inPairs_map f rest)

end RespWire
