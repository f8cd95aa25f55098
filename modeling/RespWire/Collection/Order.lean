/-!
# Ascending lists

The order in which collections keep what is in them, and insertion that keeps the order.
-/

namespace RespWire

/-- A strict order in which any two elements compare. -/
class StrictTotal (α : Type u) [LT α] : Prop extends
    Std.Asymm fun a b : α => a < b, Std.Trichotomous fun a b : α => a < b where
  trans {a b c : α} : a < b → b < c → a < c

namespace StrictTotal

instance : StrictTotal String where
  trans := Std.lt_trans

instance : StrictTotal (List UInt8) where
  trans := Std.lt_trans

variable {α : Type u} [LT α] [StrictTotal α] {a b : α}

theorem eq_of_not_lt (h : ¬ a < b) (h' : ¬ b < a) : a = b :=
  Std.Trichotomous.trichotomous a b h h'

end StrictTotal

variable {α : Type u} [LT α] [DecidableLT α] {β : Type v} {key : β → α} {x y : β} {ys : List β}

/-- Places an item among others in the order of their keys, instead of one that has its key. -/
def place (key : β → α) (x : β) : List β → List β
  | [] => [x]
  | y :: ys =>
    if key x < key y then x :: y :: ys
    else if key y < key x then y :: place key x ys
    else x :: ys

theorem place_ne_nil : place key x ys ≠ [] := by
  cases ys with
  | nil => exact List.cons_ne_nil _ _
  | cons y ys =>
    rw [place]
    repeat' split
    all_goals exact List.cons_ne_nil _ _

/-- A map that keeps the order can be done before or after. -/
theorem place_map {α' : Type w} {β' : Type z} [LT α'] [DecidableLT α'] {key' : β' → α'}
    {f : β → β'} (hf : ∀ a b, key' (f a) < key' (f b) ↔ key a < key b) :
    place key' (f x) (ys.map f) = (place key x ys).map f := by
  induction ys with
  | nil => rfl
  | cons y ys ih =>
    rw [List.map_cons, place, place, ih]
    simp only [hf]
    repeat' split
    all_goals rfl

theorem mem_place (h : y ∈ place key x ys) : y = x ∨ y ∈ ys := by
  induction ys with
  | nil => exact .inl (List.mem_singleton.1 h)
  | cons z zs ih =>
    rw [place] at h
    split at h
    · exact List.mem_cons.1 h
    split at h
    · rcases List.mem_cons.1 h with rfl | h
      · exact .inr List.mem_cons_self
      · exact (ih h).imp_right (List.mem_cons_of_mem z)
    · exact (List.mem_cons.1 h).imp_right (List.mem_cons_of_mem z)

/-- If the keys tell all apart, nothing is lost. -/
theorem mem_place_iff [StrictTotal α] (hkey : ∀ a b, key a = key b → a = b) :
    y ∈ place key x ys ↔ y = x ∨ y ∈ ys := by
  refine ⟨mem_place, ?_⟩
  induction ys with
  | nil => simp [place]
  | cons z zs ih =>
    rw [place]
    split
    · exact List.mem_cons.2
    split
    · rw [List.mem_cons, List.mem_cons, or_left_comm]
      exact Or.imp_right ih
    · next hlt hgt =>
      have hx : x = z := hkey x z (StrictTotal.eq_of_not_lt hlt hgt)
      rw [hx, List.mem_cons, or_self_left]
      exact id

theorem pairwise_place [StrictTotal α] (h : ys.Pairwise fun a b => key a < key b) :
    (place key x ys).Pairwise fun a b => key a < key b := by
  induction ys with
  | nil => exact List.pairwise_singleton _ _
  | cons z zs ih =>
    obtain ⟨hhead, htail⟩ := List.pairwise_cons.1 h
    rw [place]
    split
    · next hlt =>
      refine List.pairwise_cons.2 ⟨fun y hy => ?_, h⟩
      rcases List.mem_cons.1 hy with rfl | hy
      · exact hlt
      · exact StrictTotal.trans hlt (hhead y hy)
    split
    · next hgt =>
      refine List.pairwise_cons.2 ⟨fun y hy => ?_, ih htail⟩
      rcases mem_place hy with rfl | hy
      · exact hgt
      · exact hhead y hy
    · -- the key is there and keeps its place
      next hlt hgt =>
      have hkey : key x = key z := StrictTotal.eq_of_not_lt hlt hgt
      exact List.pairwise_cons.2 ⟨fun y hy => hkey ▸ hhead y hy, htail⟩

end RespWire
