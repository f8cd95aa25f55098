import Mathlib.Data.Finset.Card
import Mathlib.Data.List.Sort
import RespWire.Collection.Dictionary

/-!
# Entries of dictionaries

Insertion brings in nothing but its own entry. A dictionary is made of its entries in any order, and
is told apart from others by its values. Of the pairs it is made of, the last one with a key gives
the value, also after a map that keeps the order of the keys.
-/

namespace RespWire.Dictionary

variable {κ : Type u} {ν : Type v} {key : κ} {value : ν} {e : κ × ν} {es pairs : List (κ × ν)}

/-! ### Last pairs -/

section Lookup

variable [DecidableEq κ]

lemma lookup_cons_eq (e : κ × ν) (es : List (κ × ν)) (key : κ) :
    (e :: es).lookup key = if key = e.1 then some e.2 else es.lookup key := by
  rw [List.lookup_cons]
  split_ifs with h
  · rw [beq_iff_eq.2 h]
  · rw [beq_eq_false_iff_ne.2 h]

lemma get?_eq_lookup [LT κ] (d : Dictionary κ ν) (key : κ) : d.get? key = d.entries.lookup key := by
  rw [get?]
  induction d.entries with
  | nil => rfl
  | cons e es ih =>
    rw [List.find?_cons, lookup_cons_eq, ← ih]
    by_cases h : key = e.1
    · simp [h]
    · simp [h, Ne.symm h]

lemma lookup_reverse_cons (e : κ × ν) (es : List (κ × ν)) (key : κ) :
    (e :: es).reverse.lookup key =
      (es.reverse.lookup key).or (if key = e.1 then some e.2 else none) := by
  rw [List.reverse_cons, List.lookup_append, lookup_cons_eq]
  rfl

lemma lookup_reverse_eq_none_iff :
    pairs.reverse.lookup key = none ↔ ∀ i : Nat, pairs[i]?.map Prod.fst ≠ some key := by
  simp only [List.lookup_eq_none_iff, List.mem_reverse, bne_iff_ne, ← List.getElem?_map, ne_eq,
    ← not_exists, ← List.mem_iff_getElem?]
  simp [eq_comm]

lemma lookup_reverse_ne_none_iff :
    pairs.reverse.lookup key ≠ none ↔ key ∈ pairs.map Prod.fst := by
  rw [ne_eq, lookup_reverse_eq_none_iff, List.mem_iff_getElem?]
  simp only [List.getElem?_map, ne_eq, not_forall, not_not]

/-- From behind, the pair that is found is the last one with the key. -/
lemma lookup_reverse_eq_some_iff :
    pairs.reverse.lookup key = some value ↔
      ∃ i : Nat, pairs[i]? = some (key, value) ∧ ∀ j > i, pairs[j]?.map Prod.fst ≠ some key := by
  induction pairs with
  | nil => simp
  | cons e es ih =>
    rw [lookup_reverse_cons, Option.or_eq_some_iff, ih]
    constructor
    · rintro (⟨i, hi, hlast⟩ | ⟨hnone, he⟩)
      · refine ⟨i + 1, hi, fun j hj => ?_⟩
        obtain ⟨j, rfl⟩ := Nat.exists_eq_add_one_of_ne_zero (Nat.ne_zero_of_lt hj)
        exact hlast j (Nat.lt_of_succ_lt_succ hj)
      · rw [lookup_reverse_eq_none_iff] at hnone
        rw [Option.ite_none_right_eq_some] at he
        obtain ⟨rfl, hvalue⟩ := he
        cases hvalue
        refine ⟨0, rfl, fun j hj => ?_⟩
        obtain ⟨j, rfl⟩ := Nat.exists_eq_add_one_of_ne_zero (Nat.ne_zero_of_lt hj)
        exact hnone j
    · rintro ⟨_ | i, hi, hlast⟩
      · cases hi
        exact .inr ⟨lookup_reverse_eq_none_iff.2 fun j => hlast (j + 1) j.succ_pos, if_pos rfl⟩
      · exact .inl ⟨i, hi, fun j hj => hlast (j + 1) (Nat.succ_lt_succ hj)⟩

/-- Is a value that of the last pair with a key? -/
def IsLast (pairs : List (κ × ν)) (key : κ) (value : ν) : Prop :=
  ∃ before after, pairs = before ++ (key, value) :: after ∧ ∀ e ∈ after, e.1 ≠ key

/-- From behind, no pair with the key comes before the one that is found. -/
lemma lookup_reverse_eq_some_iff_isLast :
    pairs.reverse.lookup key = some value ↔ IsLast pairs key value := by
  rw [List.lookup_eq_some_iff, IsLast]
  constructor
  · rintro ⟨after, before, hpairs, hafter⟩
    refine ⟨before.reverse, after.reverse, ?_, fun e he => ?_⟩
    · rw [← List.reverse_reverse pairs, hpairs]
      simp
    · exact (bne_iff_ne.1 (hafter e (List.mem_reverse.1 he))).symm
  · rintro ⟨before, after, rfl, hafter⟩
    refine ⟨after.reverse, before.reverse, by simp, fun e he => bne_iff_ne.2 ?_⟩
    exact (hafter e (List.mem_reverse.1 he)).symm

end Lookup

/-! ### Order -/

section Order

variable [LT κ] [StrictTotal κ] {d d' : Dictionary κ ν}

omit [StrictTotal κ] in
lemma pairwise_keys (d : Dictionary κ ν) : d.keys.Pairwise (· < ·) :=
  List.pairwise_map.2 d.ascending

lemma nodup_keys (d : Dictionary κ ν) : d.keys.Nodup := d.pairwise_keys.nodup

/-- Dictionaries with the same entries are equal. -/
lemma eq_of_mem_iff (h : ∀ e, e ∈ d.entries ↔ e ∈ d'.entries) : d = d' := by
  have : Std.Asymm fun a b : κ × ν => a.1 < b.1 := ⟨fun a b => Std.Asymm.asymm a.1 b.1⟩
  exact Dictionary.ext (d.ascending.eq_of_mem_iff d'.ascending h)

variable [DecidableEq κ]

/-- The entries are the keys with their values. -/
lemma mem_entries_iff : (key, value) ∈ d.entries ↔ d.get? key = some value := by
  rw [get?_eq_lookup, List.lookup_eq_some_iff]
  constructor
  · intro hmem
    obtain ⟨before, after, heq⟩ := List.append_of_mem hmem
    refine ⟨before, after, heq, fun e he => bne_iff_ne.2 ?_⟩
    have hascending := d.ascending
    rw [heq, List.pairwise_append] at hascending
    exact (Std.ne_of_lt (hascending.2.2 e he _ List.mem_cons_self)).symm
  · rintro ⟨before, after, heq, -⟩
    rw [heq]
    exact List.mem_append_right before List.mem_cons_self

lemma mem_keys_iff : key ∈ d.keys ↔ d.get? key ≠ none := by
  rw [keys, List.mem_map, Option.ne_none_iff_exists']
  simp only [← mem_entries_iff]
  constructor
  · rintro ⟨⟨_, value⟩, hmem, rfl⟩
    exact ⟨value, hmem⟩
  · rintro ⟨value, hmem⟩
    exact ⟨_, hmem, rfl⟩

/-- There are as many entries as keys of pairs that give the values. -/
lemma size_eq (h : ∀ key, d.get? key = pairs.reverse.lookup key) :
    d.size = (pairs.map Prod.fst).toFinset.card := by
  have hkeys : d.keys.toFinset = (pairs.map Prod.fst).toFinset := by
    ext key
    rw [List.mem_toFinset, List.mem_toFinset, mem_keys_iff, h, lookup_reverse_ne_none_iff]
  rw [← hkeys, List.toFinset_card_of_nodup d.nodup_keys, keys, List.length_map, size]

/-- Dictionaries with the same values are equal. -/
lemma ext_get? (h : ∀ key, d.get? key = d'.get? key) : d = d' := by
  apply eq_of_mem_iff
  rintro ⟨key, value⟩
  rw [mem_entries_iff, mem_entries_iff, h]

end Order

/-! ### Places -/

variable [LT κ] [DecidableLT κ] [StrictTotal κ] {d : Dictionary κ ν}

lemma place_perm (h : key ∉ es.map (·.1)) :
    (place Prod.fst (key, value) es).Perm ((key, value) :: es) := by
  induction es with
  | nil => rfl
  | cons e es ih =>
    rw [List.map_cons, List.mem_cons, not_or] at h
    rw [place]
    split_ifs with hlt hgt
    · rfl
    · exact ((ih h.2).cons e).trans (.swap _ _ es)
    · exact absurd (StrictTotal.eq_of_not_lt hlt hgt) h.1

lemma lookup_place [DecidableEq κ] (key : κ) (value : ν) (es : List (κ × ν)) (k : κ) :
    (place Prod.fst (key, value) es).lookup k = if k = key then some value else es.lookup k := by
  induction es with
  | nil => rw [place, lookup_cons_eq]
  | cons e es ih =>
    rw [place]
    by_cases hlt : key < e.1
    · rw [if_pos hlt, lookup_cons_eq]
    by_cases hgt : e.1 < key
    · rw [if_neg hlt, if_pos hgt, lookup_cons_eq, lookup_cons_eq, ih]
      by_cases hk : k = e.1
      · have hne : k ≠ key := by
          rw [hk]
          exact Std.ne_of_lt hgt
        rw [if_pos hk, if_neg hne, if_pos hk]
      · rw [if_neg hk, if_neg hk]
    · have hkey : key = e.1 := StrictTotal.eq_of_not_lt hlt hgt
      rw [if_neg hlt, if_neg hgt, lookup_cons_eq, lookup_cons_eq, hkey]
      split_ifs <;> rfl

/-! ### Insertion -/

lemma mem_insertAll (h : e ∈ (d.insertAll pairs).entries) : e ∈ d.entries ∨ e ∈ pairs := by
  induction pairs generalizing d with
  | nil => exact .inl h
  | cons p pairs ih =>
    rcases ih h with h | h
    · rcases mem_place h with rfl | h
      · exact .inr List.mem_cons_self
      · exact .inl h
    · exact .inr (List.mem_cons_of_mem p h)

lemma insertAll_entries_ne_nil (h : d.entries ≠ [] ∨ pairs ≠ []) :
    (d.insertAll pairs).entries ≠ [] := by
  induction pairs generalizing d with
  | nil => exact h.resolve_right (absurd rfl)
  | cons p pairs ih => exact ih (.inl place_ne_nil)

lemma mem_ofList (h : e ∈ (ofList pairs).entries) : e ∈ pairs := by
  rcases mem_insertAll h with h | h
  · cases h
  · exact h

lemma ofList_entries_ne_nil (h : pairs ≠ []) : (ofList pairs).entries ≠ [] :=
  insertAll_entries_ne_nil (.inr h)

lemma ofList_append (pairs more : List (κ × ν)) :
    ofList (pairs ++ more) = (ofList pairs).insertAll more := List.foldl_append

lemma insertAll_perm (h : (d.keys ++ pairs.map (·.1)).Nodup) :
    (d.insertAll pairs).entries.Perm (d.entries ++ pairs) := by
  induction pairs generalizing d with
  | nil => simp [insertAll]
  | cons p pairs ih =>
    rw [List.map_cons, List.nodup_middle, List.nodup_cons, List.mem_append, not_or] at h
    obtain ⟨⟨hkey, hpairs⟩, hnodup⟩ := h
    have hplace : (d.insert p.1 p.2).entries.Perm (p :: d.entries) := place_perm hkey
    have hkeys : (d.insert p.1 p.2).keys.Perm (p.1 :: d.keys) := hplace.map Prod.fst
    have hrest : ((d.insert p.1 p.2).keys ++ pairs.map (·.1)).Nodup := by
      rw [(hkeys.append_right _).nodup_iff, List.cons_append, List.nodup_cons, List.mem_append,
        not_or]
      exact ⟨⟨hkey, hpairs⟩, hnodup⟩
    calc (d.insertAll (p :: pairs)).entries
        |>.Perm ((d.insert p.1 p.2).entries ++ pairs) := ih hrest
      _ |>.Perm (p :: d.entries ++ pairs) := hplace.append_right pairs
      _ |>.Perm (d.entries ++ p :: pairs) := List.perm_middle.symm

/-- Pairs with different keys are the entries. -/
lemma ofList_perm (h : (pairs.map (·.1)).Nodup) : (ofList pairs).entries.Perm pairs :=
  insertAll_perm (d := empty) h

/-! ### Maps -/

section Map

variable {κ' : Type w} {ν' : Type x} [LT κ'] [DecidableLT κ'] [StrictTotal κ'] {f : κ → κ'}
  (g : ν → ν')

lemma entries_insertAll_map (hf : ∀ a b, f a < f b ↔ a < b) {d' : Dictionary κ' ν'}
    (h : d'.entries = d.entries.map (Prod.map f g)) (pairs : List (κ × ν)) :
    (d'.insertAll (pairs.map (Prod.map f g))).entries =
      (d.insertAll pairs).entries.map (Prod.map f g) := by
  induction pairs generalizing d d' with
  | nil => exact h
  | cons p pairs ih =>
    have hplace : place Prod.fst (p.map f g) d'.entries =
        (place Prod.fst p d.entries).map (Prod.map f g) := by
      rw [h]
      exact place_map fun a b => hf a.1 b.1
    exact ih hplace

/-- The entries of mapped pairs are the mapped entries, if the map keeps the order of the keys. -/
lemma entries_ofList_map (hf : ∀ a b, f a < f b ↔ a < b) (pairs : List (κ × ν)) :
    (ofList (pairs.map (Prod.map f g))).entries = (ofList pairs).entries.map (Prod.map f g) :=
  entries_insertAll_map (d := empty) g hf rfl pairs

end Map

/-! ### Values -/

/-- A dictionary is made up of its entries in any order. -/
theorem ofList_eq_of_perm (h : pairs.Perm d.entries) : ofList pairs = d := by
  have hkeys : (pairs.map (·.1)).Perm d.keys := h.map Prod.fst
  have hnodup : (pairs.map (·.1)).Nodup := hkeys.nodup_iff.2 d.nodup_keys
  have hentries : (ofList pairs).entries.Perm d.entries := (ofList_perm hnodup).trans h
  exact eq_of_mem_iff fun _ => hentries.mem_iff

@[simp] lemma ofList_entries (d : Dictionary κ ν) : ofList d.entries = d :=
  ofList_eq_of_perm (.refl d.entries)

variable [DecidableEq κ]

/-- Insertion gives its key the value and leaves those of other keys. -/
lemma get?_insert (d : Dictionary κ ν) (key : κ) (value : ν) (k : κ) :
    (d.insert key value).get? k = if k = key then some value else d.get? k := by
  rw [get?_eq_lookup, get?_eq_lookup, insert, lookup_place]

lemma get?_insertAll (d : Dictionary κ ν) (pairs : List (κ × ν)) (k : κ) :
    (d.insertAll pairs).get? k = (pairs.reverse.lookup k).or (d.get? k) := by
  induction pairs generalizing d with
  | nil => rfl
  | cons p pairs ih =>
    have hp : (d.insert p.1 p.2).get? k = (if k = p.1 then some p.2 else none).or (d.get? k) := by
      rw [get?_insert]
      split_ifs <;> rfl
    calc (d.insertAll (p :: pairs)).get? k
        = (pairs.reverse.lookup k).or ((d.insert p.1 p.2).get? k) := ih _
      _ = ((p :: pairs).reverse.lookup k).or (d.get? k) := by
        rw [hp, lookup_reverse_cons, Option.or_assoc]

/-- Of some pairs the last one with a key gives the value. -/
theorem get?_ofList (pairs : List (κ × ν)) (k : κ) :
    (ofList pairs).get? k = pairs.reverse.lookup k := by
  rw [ofList, get?_insertAll]
  exact Option.or_none

lemma get?_ofList_eq_some_iff_isLast :
    (ofList pairs).get? key = some value ↔ IsLast pairs key value := by
  rw [get?_ofList, lookup_reverse_eq_some_iff_isLast]

/-- Pairs make the same dictionary exactly if the last pairs with each key have the same values. -/
theorem ofList_eq_iff {pairs' : List (κ × ν)} : ofList pairs = ofList pairs' ↔
    ∀ key value, IsLast pairs key value ↔ IsLast pairs' key value := by
  simp only [← get?_ofList_eq_some_iff_isLast]
  constructor
  · intro h key value
    rw [h]
  · intro h
    exact ext_get? fun key => Option.ext (h key)

/-- To insert the entries of a dictionary is to give its values to its keys. -/
lemma get?_insertAll_entries (d d' : Dictionary κ ν) (k : κ) :
    (d.insertAll d'.entries).get? k = (d'.get? k).or (d.get? k) := by
  rw [get?_insertAll, ← get?_ofList, ofList_entries]

/-- To insert pairs is to insert the entries of their dictionary. -/
lemma insertAll_entries_ofList (d : Dictionary κ ν) (pairs : List (κ × ν)) :
    d.insertAll (ofList pairs).entries = d.insertAll pairs := by
  apply ext_get?
  intro k
  rw [get?_insertAll_entries, get?_insertAll, get?_ofList]

end RespWire.Dictionary
