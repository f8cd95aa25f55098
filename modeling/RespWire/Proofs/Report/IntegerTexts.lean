import RespWire.Proofs.Collection.Dictionary
import RespWire.Proofs.Command.Encoding
import RespWire.Proofs.Number.Signed
import RespWire.Report.Sentinel

/-!
# Integers among properties

The text of a property is read as an integer exactly if it spells one that fits the word it is read
as, so the port of a server and the integer of the same text agree. The text that is written for a
word is canonical and is read as that word.
-/

namespace RespWire

open Numeral

lemma exists_bind_eq_some_iff {α β : Type} {o : Option α} {f : α → Option β} {P : β → Prop} :
    (∃ y, o.bind f = some y ∧ P y) ↔ ∃ x, o = some x ∧ ∃ y, f x = some y ∧ P y := by
  simp only [Option.bind_eq_some_iff]
  constructor
  · rintro ⟨y, ⟨x, hx, hy⟩, hP⟩
    exact ⟨x, hx, y, hy, hP⟩
  · rintro ⟨x, hx, y, hy, hP⟩
    exact ⟨y, ⟨x, hx, hy⟩, hP⟩

lemma Properties.exists_getInt64?_iff {p : Properties} {name : String} {value : Int} :
    (∃ n, p.getInt64? name = some n ∧ n.toInt = value) ↔ ∃ text, p.get? name = some text ∧
      SpellsSigned text.toList value ∧ -2 ^ 63 ≤ value ∧ value < 2 ^ 63 := by
  simp only [getInt64?, exists_bind_eq_some_iff, exists_int64?_iff]

lemma Properties.getInt64?_insert_text (p : Properties) (name : String) (n : Int64) :
    getInt64? (p.insert name (Numeral.text n.toInt)) name = some n := by
  rw [getInt64?, Dictionary.get?_insert, if_pos rfl, Option.bind_some, int64?_text]

namespace ServerRecord

variable {s : ServerRecord} {text : String}

lemma exists_port_iff {value : Nat} : (∃ q, s.port = some q ∧ q.toNat = value) ↔
    ∃ text, s.get? "port" = some text ∧ Spells text.toList value ∧ value ≤ 65535 := by
  simp only [port, exists_bind_eq_some_iff, exists_uint16?_iff]

lemma port_of_get? (h : s.get? "port" = some text) : s.port = uint16? text := by
  rw [port, h, Option.bind_some]

lemma getInt64?_of_get? {name : String} (h : s.get? name = some text) :
    s.getInt64? name = int64? text := by
  rw [get?] at h
  rw [getInt64?, Properties.getInt64?, h, Option.bind_some]

lemma exists_getInt64?_of_port {q : UInt16} (h : s.port = some q) :
    ∃ n, s.getInt64? "port" = some n ∧ n.toInt = q.toNat := by
  obtain ⟨text, htext, hq⟩ := Option.bind_eq_some_iff.1 h
  rw [getInt64?_of_get? htext]
  exact exists_int64?_of_uint16? hq

end ServerRecord

/-- The text of a property is read as a signed word exactly if it is digits, with or without a sign,
whose value fits, and the port as an unsigned one exactly if there is no minus sign and the value
fits. So the two readers agree but for a minus sign in front of zero. For every word the text that
is written is canonical and is read as the word, and it is the same for words of other kinds. -/
theorem integer_texts_read_exactly :
    (∀ (p : Properties) name value, (∃ n, p.getInt64? name = some n ∧ n.toInt = value) ↔
      ∃ text, p.get? name = some text ∧ SpellsSigned text.toList value ∧
        -2 ^ 63 ≤ value ∧ value < 2 ^ 63) ∧
    (∀ (s : ServerRecord) value, (∃ q, s.port = some q ∧ q.toNat = value) ↔
      ∃ text, s.get? "port" = some text ∧ Spells text.toList value ∧ value ≤ 65535) ∧
    (∀ (s : ServerRecord) q, s.port = some q →
      ∃ n, s.getInt64? "port" = some n ∧ n.toInt = q.toNat) ∧
    (∀ (s : ServerRecord) n text, s.getInt64? "port" = some n → s.get? "port" = some text →
      0 ≤ n.toInt → n.toInt ≤ 65535 →
        (text.toList.head? ≠ some '-' → ∃ q, s.port = some q ∧ (q.toNat : Int) = n.toInt) ∧
        (text.toList.head? = some '-' → s.port = none ∧ n.toInt = 0)) ∧
    (∀ n : Int64, ∃ text, Encoding.integer n.toInt = Utf8.encode text ∧
      IsCanonicalSigned text.toList ∧
      (∀ (p : Properties) name, Properties.getInt64? (p.insert name text) name = some n) ∧
      (0 ≤ n.toInt → Encoding.natural n.toUInt64.toNat = Encoding.integer n.toInt)) ∧
    ∀ n : Int32, Encoding.integer n.toInt64.toInt = Encoding.integer n.toInt := by
  refine ⟨fun p name value => Properties.exists_getInt64?_iff,
    fun s value => ServerRecord.exists_port_iff,
    fun s q h => ServerRecord.exists_getInt64?_of_port h, fun s n text hn htext hlow hhigh => ?_,
    fun n => ⟨text n.toInt, rfl, ?_, fun p name => p.getInt64?_insert_text name n,
      Encoding.natural_toUInt64⟩, Encoding.integer_toInt64⟩
  · rw [ServerRecord.getInt64?_of_get? htext] at hn
    rw [ServerRecord.port_of_get? htext]
    exact ⟨exists_uint16?_of_int64? hn hhigh, fun hsign =>
      ⟨uint16?_of_minus hsign, (int64?_eq_some_iff.1 hn).eq_zero hsign hlow⟩⟩
  · rw [text, String.toList_ofList]
    exact isCanonicalSigned_ofInt n.toInt

/-- The record of a server whose port has some text. -/
def withPort (text : String) : ServerRecord := .ofPairs [("port", text)]

/-- Signs and zeros in front, the greatest port, a minus sign in front of zero, and the least and
the greatest word. -/
theorem integer_texts_read_exactly_edges :
    ((withPort "+0065535").port = some 65535 ∧
      ∃ n, (withPort "+0065535").getInt64? "port" = some n ∧ n.toInt = 65535) ∧
    ((withPort "007").getInt64? "port" = some 7 ∧
      ∃ q, (withPort "007").port = some q ∧ (q.toNat : Int) = 7) ∧
    ((withPort "-00").getInt64? "port" = some 0 ∧ (withPort "-00").port = none) ∧
    (¬ ∃ n, (withPort "9223372036854775808").getInt64? "port" = some n ∧
      n.toInt = 9223372036854775808) ∧
    (∃ text, Encoding.integer (-9223372036854775808) = Utf8.encode text ∧
      IsCanonicalSigned text.toList ∧
      Properties.getInt64? ((withPort "").properties.insert "port" text) "port" =
        some Int64.minValue) ∧
    Encoding.natural 9223372036854775807 = Encoding.integer 9223372036854775807 := by
  obtain ⟨hread, -, hport, hsigned, hwritten, -⟩ := integer_texts_read_exactly
  have hgreatest : (withPort "+0065535").port = some 65535 := by decide
  have hseven : (withPort "007").getInt64? "port" = some 7 := by decide
  have hzero : (withPort "-00").getInt64? "port" = some 0 := by decide
  obtain ⟨text, htext, hcanonical, hinsert, -⟩ := hwritten Int64.minValue
  obtain ⟨_, -, -, -, hnatural⟩ := hwritten Int64.maxValue
  refine ⟨⟨hgreatest, hport _ _ hgreatest⟩, ⟨hseven, ?_⟩, ⟨hzero, ?_⟩, ?_,
    ⟨text, htext, hcanonical, hinsert _ "port"⟩, hnatural (by decide)⟩
  · exact (hsigned _ _ "007" hseven rfl (by decide) (by decide)).1 (by decide)
  · exact ((hsigned _ _ "-00" hzero rfl (by decide) (by decide)).2 rfl).1
  · intro h
    obtain ⟨_, -, -, -, hlt⟩ := (hread _ _ _).1 h
    exact absurd hlt (by decide)

end RespWire
