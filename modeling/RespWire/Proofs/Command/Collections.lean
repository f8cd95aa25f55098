import RespWire.Command.Encoding
import RespWire.Proofs.Collection.Dictionary
import RespWire.Proofs.Collection.OrderedSet
import RespWire.Proofs.Text.Codec
import RespWire.Proofs.Text.Order

/-!
# Encoded collections

Different texts have different bytes, in the same order. So the set of some encoded texts is the set
of the texts, encoded, and a table of encoded texts is the table of the texts: none of them fall
together and none come apart, and what is read from the bytes are the texts again.
-/

namespace RespWire.Encoding

open Dictionary (IsLast)

variable {items items' : List String} {pairs pairs' : List (String × String)}

/-! ### Sets -/

lemma elements_textSet (items : List String) :
    (textSet items).elements = (OrderedSet.ofList items).elements.map Utf8.encode :=
  OrderedSet.elements_ofList_map (fun _ _ => Utf8.encode_lt_encode_iff) items

lemma mem_textSet_iff {data : Bytes} :
    data ∈ (textSet items).elements ↔ ∃ text ∈ items, Utf8.encode text = data := by
  rw [textSet, OrderedSet.mem_ofList, texts, List.mem_map]

lemma length_textSet (items : List String) :
    (textSet items).elements.length = items.toFinset.card := by
  rw [elements_textSet, List.length_map, OrderedSet.length_ofList]

lemma map_decodeLossy_textSet (items : List String) :
    (textSet items).elements.map Utf8.decodeLossy = (OrderedSet.ofList items).elements := by
  simp [elements_textSet, Function.comp_def]

lemma textSet_eq_iff : textSet items = textSet items' ↔ ∀ text, text ∈ items ↔ text ∈ items' := by
  rw [textSet, textSet, OrderedSet.ofList_eq_iff, texts, texts,
    OrderedSet.forall_mem_map_iff Utf8.encode_injective]

/-! ### Tables -/

lemma entries_textTable (pairs : List (String × String)) : (textTable pairs).entries =
    (Dictionary.ofList pairs).entries.map (Prod.map Utf8.encode Utf8.encode) :=
  Dictionary.entries_ofList_map Utf8.encode (fun _ _ => Utf8.encode_lt_encode_iff) pairs

lemma map_decodeLossy_textTable (pairs : List (String × String)) :
    (textTable pairs).entries.map (Prod.map Utf8.decodeLossy Utf8.decodeLossy) =
      (Dictionary.ofList pairs).entries := by
  have hdecode : Utf8.decodeLossy ∘ Utf8.encode = id := funext Utf8.decodeLossy_encode
  rw [entries_textTable, List.map_map, Prod.map_comp_map, hdecode, Prod.map_id, List.map_id]

/-- A key has the value of the last pair whose key it encodes. -/
lemma get?_textTable_eq_some_iff {key value : Bytes} :
    (textTable pairs).get? key = some value ↔
      ∃ name text, IsLast pairs name text ∧ Utf8.encode name = key ∧ Utf8.encode text = value := by
  rw [← Dictionary.mem_entries_iff, entries_textTable, List.mem_map, Prod.exists]
  simp only [Dictionary.mem_entries_iff, Dictionary.get?_ofList_eq_some_iff_isLast, Prod.map_apply,
    Prod.mk.injEq]

lemma size_textTable (pairs : List (String × String)) :
    (textTable pairs).size = (pairs.map Prod.fst).toFinset.card := by
  have hsize : (textTable pairs).size = (Dictionary.ofList pairs).size := by
    rw [Dictionary.size, entries_textTable, List.length_map, Dictionary.size]
  rw [hsize]
  exact Dictionary.size_eq (Dictionary.get?_ofList pairs)

lemma textTable_eq_iff : textTable pairs = textTable pairs' ↔
    ∀ name text, IsLast pairs name text ↔ IsLast pairs' name text := by
  rw [← Dictionary.ofList_eq_iff]
  constructor
  · intro h
    have hentries : (Dictionary.ofList pairs).entries = (Dictionary.ofList pairs').entries := by
      rw [← map_decodeLossy_textTable, h, map_decodeLossy_textTable]
    exact Dictionary.ext hentries
  · intro h
    have hentries : (textTable pairs).entries = (textTable pairs').entries := by
      rw [entries_textTable, h, ← entries_textTable]
    exact Dictionary.ext hentries

/-- The set of some texts has the encoding of each text once and nothing else. Their table has each
key once, with what the last pair with the key has; read back it is the table of the texts. Sets are
equal exactly if the texts are the same, and tables exactly if the last pairs with each key are. -/
theorem collections_keep_texts_apart :
    (∀ items, (textSet items).elements.length = items.toFinset.card ∧
      (∀ data, data ∈ (textSet items).elements ↔ ∃ text ∈ items, Utf8.encode text = data) ∧
      (textSet items).elements.map Utf8.decodeLossy = (OrderedSet.ofList items).elements) ∧
    (∀ pairs, (textTable pairs).size = (pairs.map Prod.fst).toFinset.card ∧
      (textTable pairs).keys.Nodup ∧
      (∀ key value, (textTable pairs).get? key = some value ↔
        ∃ name text, IsLast pairs name text ∧ Utf8.encode name = key ∧ Utf8.encode text = value) ∧
      (textTable pairs).entries.map (Prod.map Utf8.decodeLossy Utf8.decodeLossy) =
        (Dictionary.ofList pairs).entries ∧
      ∀ name text, (Dictionary.ofList pairs).get? name = some text ↔ IsLast pairs name text) ∧
    (∀ items items',
      textSet items = textSet items' ↔ ∀ text, text ∈ items ↔ text ∈ items') ∧
    ∀ pairs pairs', textTable pairs = textTable pairs' ↔
      ∀ name text, IsLast pairs name text ↔ IsLast pairs' name text := by
  refine ⟨fun items => ⟨length_textSet items, fun data => mem_textSet_iff, ?_⟩,
    fun pairs => ⟨size_textTable pairs, ?_, fun key value => get?_textTable_eq_some_iff, ?_, ?_⟩,
    fun items items' => textSet_eq_iff, fun pairs pairs' => textTable_eq_iff⟩
  · exact map_decodeLossy_textSet items
  · exact (textTable pairs).nodup_keys
  · exact map_decodeLossy_textTable pairs
  · exact fun name text => Dictionary.get?_ofList_eq_some_iff_isLast

end RespWire.Encoding
