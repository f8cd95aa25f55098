import RespWire.Command.Encoding
import RespWire.Proofs.Number.Numeral
import RespWire.Proofs.Text.Codec

/-!
# Encoded numbers

The bytes of a number are not empty, tell the number, and are those of no word. Words of different
widths and kinds are written alike.
-/

namespace RespWire.Encoding

variable {text : String} {n : Nat}

lemma natural_injective : Function.Injective natural := by
  intro m n h
  exact Int.ofNat_inj.1 (Numeral.text_injective (Utf8.encode_injective h))

/-- A text with a character that is not a digit is not what is written for a natural number. -/
lemma natural_ne_encode {c : Char} (hc : c ∈ text.toList) (hdigit : c.isDigit = false) :
    natural n ≠ Utf8.encode text := by
  intro h
  rw [← Utf8.encode_injective h, Numeral.text_natCast, String.toList_ofList] at hc
  rw [Numeral.isDigit_of_mem_ofNat hc] at hdigit
  cases hdigit

lemma natural_ne_nil (n : Nat) : natural n ≠ [] := by
  rw [natural, ne_eq, Utf8.encode_eq_nil_iff, Numeral.text_natCast]
  exact fun h => Numeral.ofNat_ne_nil _ (String.ofList_injective h)

lemma integer_toInt64 (n : Int32) : integer n.toInt64.toInt = integer n.toInt := by
  rw [Int32.toInt_toInt64]

lemma natural_toUInt64 {n : Int64} (h : 0 ≤ n.toInt) :
    natural n.toUInt64.toNat = integer n.toInt := by
  have hn : (n.toUInt64.toNat : Int) = n.toInt := by
    rw [Int64.toNat_toUInt64_of_le (Int64.le_iff_toInt_le.2 h)]
    exact Int.toNat_of_nonneg h
  rw [natural, hn, integer]

end RespWire.Encoding
