import Mathlib.Data.List.Forall2
import RespWire.Proofs.Text.Codec
import RespWire.Resp.Shape

/-!
# Accepted and refused shapes

What a value has to be for a check to accept it, and why it is refused otherwise.
-/

namespace RespWire

/-- Both parts of an accepted reading accept. -/
lemma bind_eq_ok_iff {ε α β : Type} {x : Except ε α} {f : α → Except ε β} {b : β} :
    x >>= f = .ok b ↔ ∃ a, x = .ok a ∧ f a = .ok b := by
  cases x with
  | error e => simp [bind, Except.bind]
  | ok a => simp [bind, Except.bind]

/-- A reading is refused by its first part, or by the second one if the first accepts. -/
lemma bind_eq_error_iff {ε α β : Type} {x : Except ε α} {f : α → Except ε β} {e : ε} :
    x >>= f = .error e ↔ x = .error e ∨ ∃ a, x = .ok a ∧ f a = .error e := by
  cases x with
  | error e => simp [bind, Except.bind]
  | ok a => simp [bind, Except.bind]

lemma mapM_eq_ok_iff {ε α β : Type} {f : α → Except ε β} {xs : List α} {ys : List β} :
    xs.mapM f = .ok ys ↔ List.Forall₂ (fun x y => f x = .ok y) xs ys := by
  induction xs generalizing ys with
  | nil => cases ys <;> simp [pure, Except.pure]
  | cons x xs ih =>
    simp only [List.mapM_cons, bind_eq_ok_iff, ih]
    cases ys <;> simp [pure, Except.pure]

lemma exists_mapM_eq_ok_iff {ε α β : Type} {f : α → Except ε β} {xs : List α} :
    (∃ ys, xs.mapM f = .ok ys) ↔ ∀ x ∈ xs, ∃ y, f x = .ok y := by
  induction xs with
  | nil => simp [pure, Except.pure]
  | cons x xs ih =>
    simp only [List.mapM_cons, bind_eq_ok_iff, List.forall_mem_cons, ← ih]
    constructor
    · rintro ⟨_, y, hy, ys, hys, -⟩
      exact ⟨⟨y, hy⟩, ys, hys⟩
    · rintro ⟨⟨y, hy⟩, ys, hys⟩
      exact ⟨_, y, hy, ys, hys, rfl⟩

/-- Whatever is read was read from an element. -/
lemma exists_of_mem_of_mapM {ε α β : Type} {f : α → Except ε β} {xs : List α} {ys : List β} {y : β}
    (h : xs.mapM f = .ok ys) (hy : y ∈ ys) : ∃ x ∈ xs, f x = .ok y := by
  rw [mapM_eq_ok_iff] at h
  induction h with
  | nil => cases hy
  | cons hx _ ih =>
    rcases List.mem_cons.1 hy with rfl | hy
    · exact ⟨_, List.mem_cons_self, hx⟩
    · obtain ⟨x, hmem, hx⟩ := ih hy
      exact ⟨x, List.mem_cons_of_mem _ hmem, hx⟩

/-- If a change of the elements is not noticed where they are accepted, neither is it in a list. -/
lemma mapM_map_eq_ok {ε α β : Type} {f : α → Except ε β} {change : α → α}
    (h : ∀ x y, f x = .ok y → f (change x) = .ok y) {xs : List α} {ys : List β}
    (hxs : xs.mapM f = .ok ys) : (xs.map change).mapM f = .ok ys := by
  rw [mapM_eq_ok_iff] at hxs
  rw [mapM_eq_ok_iff, List.forall₂_map_left_iff]
  exact hxs.imp h

/-- A list is refused for the first of its elements that is refused. -/
lemma mapM_eq_error_iff {ε α β : Type} {f : α → Except ε β} {xs : List α} {e : ε} :
    xs.mapM f = .error e ↔
      ∃ before x after, xs = before ++ x :: after ∧ (∀ y ∈ before, ∃ b, f y = .ok b) ∧
        f x = .error e := by
  induction xs with
  | nil => simp [pure, Except.pure]
  | cons x xs ih =>
    simp only [List.mapM_cons, bind_eq_error_iff, ih]
    constructor
    · rintro (h | ⟨b, hb, ⟨before, y, after, rfl, hbefore, hy⟩ | ⟨bs, -, h⟩⟩)
      · exact ⟨[], x, xs, rfl, by simp, h⟩
      · refine ⟨x :: before, y, after, rfl, ?_, hy⟩
        simp only [List.mem_cons, forall_eq_or_imp]
        exact ⟨⟨b, hb⟩, hbefore⟩
      · cases h
    · rintro ⟨before, y, after, heq, hbefore, hy⟩
      cases before with
      | nil =>
        obtain ⟨rfl, -⟩ := List.cons.inj heq
        exact .inl hy
      | cons z before =>
        obtain ⟨rfl, rfl⟩ := List.cons.inj heq
        obtain ⟨b, hb⟩ := hbefore x List.mem_cons_self
        exact .inr ⟨b, hb, .inl ⟨before, y, after, rfl,
          fun z hz => hbefore z (List.mem_cons_of_mem x hz), hy⟩⟩

/-- A list is read one element after the other. -/
lemma mapM_eq_ok_iff_getElem? {ε α β : Type} {f : α → Except ε β} {xs : List α} {ys : List β} :
    xs.mapM f = .ok ys ↔ xs.length = ys.length ∧
      ∀ (i : Nat) y, ys[i]? = some y → ∃ x, xs[i]? = some x ∧ f x = .ok y := by
  rw [mapM_eq_ok_iff, List.forall₂_iff_get]
  constructor
  · rintro ⟨hlength, h⟩
    refine ⟨hlength, fun i y hy => ?_⟩
    obtain ⟨hi, rfl⟩ := List.getElem?_eq_some_iff.1 hy
    have hi' : i < xs.length := hlength ▸ hi
    exact ⟨xs[i], List.getElem?_eq_getElem hi', h i hi' hi⟩
  · rintro ⟨hlength, h⟩
    refine ⟨hlength, fun i hi hi' => ?_⟩
    obtain ⟨x, hx, hread⟩ := h i _ (List.getElem?_eq_getElem hi')
    rw [List.getElem?_eq_getElem hi] at hx
    cases hx
    exact hread

/-- The first place with a refused element is where a list is refused. -/
lemma mapM_eq_error_iff_getElem? {ε α β : Type} {f : α → Except ε β} {xs : List α} {e : ε} :
    xs.mapM f = .error e ↔ ∃ (i : Nat) (x : α), xs[i]? = some x ∧ f x = .error e ∧
      ∀ j < i, ∃ y b, xs[j]? = some y ∧ f y = .ok b := by
  rw [mapM_eq_error_iff]
  constructor
  · rintro ⟨before, x, after, rfl, hbefore, hx⟩
    refine ⟨before.length, x, by simp, hx, fun j hj => ?_⟩
    obtain ⟨b, hb⟩ := hbefore _ (List.getElem_mem hj)
    exact ⟨before[j], b, by rw [List.getElem?_append_left hj, List.getElem?_eq_getElem hj], hb⟩
  · rintro ⟨i, x, hx, hread, hbefore⟩
    obtain ⟨hi, rfl⟩ := List.getElem?_eq_some_iff.1 hx
    refine ⟨xs.take i, xs[i], xs.drop (i + 1), ?_, fun y hy => ?_, hread⟩
    · rw [← List.drop_eq_getElem_cons, List.take_append_drop]
    · obtain ⟨j, hj, rfl⟩ := List.mem_take_iff_getElem.1 hy
      obtain ⟨y, b, hy, hb⟩ := hbefore j (by omega)
      rw [List.getElem?_eq_getElem (by omega)] at hy
      cases hy
      exact ⟨b, hb⟩

namespace Resp

variable {v : Resp}

lemma kind_eq_bulk_iff : v.kind = .bulk ↔ ∃ data, v = .bulk data := by
  cases v <;> simp [kind]

@[simp] lemma requireArray_eq_ok_iff {items : List Resp} :
    v.requireArray = .ok items ↔ v = .array items := by
  cases v <;> simp [requireArray]

@[simp] lemma requireArray_eq_error_iff {e : ReplyError} :
    v.requireArray = .error e ↔ v.kind ≠ .array ∧ .unexpected .array v.kind = e := by
  cases v <;> simp [requireArray, kind]

@[simp] lemma requireInteger_eq_ok_iff {value : Int64} :
    v.requireInteger = .ok value ↔ v = .integer value := by
  cases v <;> simp [requireInteger]

@[simp] lemma requireInteger_eq_error_iff {e : ReplyError} :
    v.requireInteger = .error e ↔ v.kind ≠ .integer ∧ .unexpected .integer v.kind = e := by
  cases v <;> simp [requireInteger, kind]

@[simp] lemma requireBulk_eq_ok_iff {data : Bytes} : v.requireBulk = .ok data ↔ v = .bulk data := by
  cases v <;> simp [requireBulk]

@[simp] lemma requireBulk_eq_error_iff {e : ReplyError} :
    v.requireBulk = .error e ↔ v.kind ≠ .bulk ∧ .unexpected .bulkString v.kind = e := by
  cases v <;> simp [requireBulk, kind]

lemma mapM_requireBulk_eq_ok_iff {vs : List Resp} {items : List Bytes} :
    vs.mapM requireBulk = .ok items ↔ vs = items.map .bulk := by
  simp only [mapM_eq_ok_iff, requireBulk_eq_ok_iff]
  rw [← List.forall₂_map_right_iff (f := Resp.bulk), List.forall₂_eq_eq_eq]

/-- A string of either kind is read as the text of its bytes. -/
lemma requireText_eq_ok_iff {text : String} :
    v.requireText = .ok text ↔ ∃ data, v.bytes? = some data ∧ Utf8.decodeLossy data = text := by
  cases v <;> simp [requireText, bytes?]

lemma requireText_eq_error_iff {e : ReplyError} :
    v.requireText = .error e ↔ v.bytes? = none ∧ .unexpected .string v.kind = e := by
  cases v <;> simp [requireText, bytes?]

/-- Strings of both kinds are read as the text whose bytes they have. -/
lemma requireText_of_bytes? {text : String} (h : v.bytes? = some (Utf8.encode text)) :
    v.requireText = .ok text := by
  exact requireText_eq_ok_iff.2 ⟨_, h, Utf8.decodeLossy_encode text⟩

end Resp

end RespWire
