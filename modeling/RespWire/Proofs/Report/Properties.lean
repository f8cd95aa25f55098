import RespWire.Proofs.Collection.Dictionary
import RespWire.Proofs.Text.Order
import RespWire.Report.Properties

/-!
# Properties after changes

What properties hold after any changes: their names ascend, and each has the text that was inserted
last since the last fresh start. Nothing else of the changes is left, so properties with the same
texts are equal.
-/

namespace RespWire.Properties

variable {p q : Properties} {pairs : List (String × String)}

/-! ### Records of insertions -/

/-- The pairs inserted since the last fresh start, after one more change. -/
def Edit.record (pairs : List (String × String)) : Edit → List (String × String)
  | .insert name text => pairs ++ [(name, text)]
  | .collect fresh => fresh

/-- The pairs that some changes insert since the last fresh start among them. -/
def history (edits : List Edit) : List (String × String) := edits.foldl Edit.record []

/-- Do the names have the last texts that some pairs give them, and no other name one? -/
def Represents (p : Properties) (pairs : List (String × String)) : Prop :=
  ∀ name, p.get? name = pairs.reverse.lookup name

lemma represents_empty : Represents .empty [] := fun _ => rfl

/-- A change keeps properties with the record of what was inserted. -/
lemma Represents.edit (h : Represents p pairs) (e : Edit) :
    Represents (p.edit e) (e.record pairs) := by
  cases e with
  | insert name text =>
    intro k
    show (p.insert name text).get? k = (pairs ++ [(name, text)]).reverse.lookup k
    rw [Dictionary.get?_insert, List.reverse_append, List.reverse_singleton, List.singleton_append,
      Dictionary.lookup_cons_eq, h]
  | collect fresh => exact Dictionary.get?_ofList fresh

lemma Represents.run (h : Represents p pairs) (edits : List Edit) :
    Represents (p.run edits) (edits.foldl Edit.record pairs) := by
  induction edits generalizing p pairs with
  | nil => exact h
  | cons e edits ih => exact ih (h.edit e)

/-- The properties that are built from nothing by some changes. -/
def built (edits : List Edit) : Properties := run .empty edits

lemma represents_built (edits : List Edit) : Represents (built edits) (history edits) :=
  represents_empty.run edits

/-! ### What is represented -/

lemma pairwise_encode (p : Properties) :
    p.keys.Pairwise fun m n => Utf8.encode m < Utf8.encode n :=
  p.pairwise_keys.imp Utf8.encode_lt_encode

/-- There are as many entries as names that were inserted. -/
lemma Represents.size_eq (h : Represents p pairs) :
    p.size = (pairs.map Prod.fst).toFinset.card :=
  Dictionary.size_eq h

lemma eq_iff : p = q ↔ ∀ name, p.get? name = q.get? name := by
  constructor
  · rintro rfl name
    rfl
  · exact Dictionary.ext_get?

lemma isEmpty_iff : p.isEmpty = true ↔ p.size = 0 := by
  rw [Dictionary.isEmpty, Dictionary.size, List.isEmpty_iff, List.length_eq_zero_iff]

/-- After any changes the names strictly ascend as bytes, which is as code points. A name has the
text that it was last inserted with since the last fresh start, and none if it was not; the entries
are these names with their texts, and as many as there are different names. Properties are equal if
they agree on every name, whatever the changes were. -/
theorem properties_after_changes :
    (∀ edits,
      (built edits).keys.Pairwise (fun m n => Utf8.encode m < Utf8.encode n) ∧
      (built edits).keys.Nodup ∧
      (∀ name text, (built edits).get? name = some text ↔
        ∃ i : Nat, (history edits)[i]? = some (name, text) ∧
          ∀ j > i, (history edits)[j]?.map Prod.fst ≠ some name) ∧
      (∀ name, (built edits).get? name = none ↔
        ∀ i : Nat, (history edits)[i]?.map Prod.fst ≠ some name) ∧
      (∀ name text, (name, text) ∈ (built edits).entries ↔ (built edits).get? name = some text) ∧
      (built edits).size = ((history edits).map Prod.fst).toFinset.card ∧
      ((built edits).isEmpty = true ↔ (built edits).size = 0)) ∧
    (∀ edits edits',
      built edits = built edits' ↔ ∀ name, (built edits).get? name = (built edits').get? name) ∧
    ∀ m n : String, Utf8.encode m < Utf8.encode n ↔ m.toList < n.toList := by
  refine ⟨fun edits => ?_, fun edits edits' => ?_, fun m n => Utf8.encode_lt_encode_iff⟩
  · have h := represents_built edits
    refine ⟨pairwise_encode _, Dictionary.nodup_keys _, fun name text => ?_, fun name => ?_, ?_,
      h.size_eq, isEmpty_iff⟩
    · rw [h, Dictionary.lookup_reverse_eq_some_iff]
    · rw [h, Dictionary.lookup_reverse_eq_none_iff]
    · exact fun name text => Dictionary.mem_entries_iff
  · exact eq_iff

end RespWire.Properties
