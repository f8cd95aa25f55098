import Mathlib.Data.List.Lex
import RespWire.Proofs.Text.Scan

/-!
# The order of written text

Text is in the same order as its bytes. The first byte of a character tells how many there are, so a
character with more of them is the greater one, and of two with equally many the first difference is
where their code points differ in base 64.
-/

namespace RespWire.Utf8

/-! ### Code points -/

/-- Numbers in order have quotients in order, or equal ones and remainders in order. -/
lemma div_lt_or_mod_lt {v w : Nat} (h : v < w) (b : Nat) :
    v / b < w / b ∨ v / b = w / b ∧ v % b < w % b := by
  rcases (Nat.div_le_div_right (c := b) (Nat.le_of_lt h)).lt_or_eq with hlt | heq
  · exact .inl hlt
  · have hv := Nat.div_add_mod v b
    rw [heq] at hv
    have hw := Nat.div_add_mod w b
    exact .inr ⟨heq, by omega⟩

lemma ofNat_lt_ofNat {v w : Nat} (h : v < w) (hw : w < 256) : UInt8.ofNat v < UInt8.ofNat w := by
  rw [UInt8.lt_iff_toNat_lt, UInt8.toNat_ofNat_of_lt' hw, UInt8.toNat_ofNat_of_lt' (h.trans hw)]
  exact h

lemma sextets_append_lt {n v w : Nat} (h : v % 64 ^ n < w % 64 ^ n) (xs ys : Bytes) :
    sextets n v ++ xs < sextets n w ++ ys := by
  induction n with
  | zero =>
    rw [Nat.pow_zero, Nat.mod_one, Nat.mod_one] at h
    exact absurd h (Nat.lt_irrefl 0)
  | succ n ih =>
    have hfirst (u : Nat) : u % 64 ^ (n + 1) / 64 ^ n = u / 64 ^ n % 64 := by
      rw [Nat.pow_succ, Nat.mod_mul_right_div_self]
    have hrest (u : Nat) : u % 64 ^ (n + 1) % 64 ^ n = u % 64 ^ n :=
      Nat.mod_mod_of_dvd u (Nat.pow_dvd_pow 64 n.le_succ)
    have hcases := div_lt_or_mod_lt h (64 ^ n)
    rw [hfirst, hfirst, hrest, hrest] at hcases
    rw [sextets, sextets, List.cons_append, List.cons_append]
    rcases hcases with hlt | ⟨heq, hlt⟩
    · exact .rel (ofNat_lt_ofNat (by omega) (by omega))
    · rw [heq]
      exact .cons (ih hlt)

/-! ### Characters -/

/-- How many bytes of a code point follow the first one. -/
def width (v : Nat) : Nat :=
  if v < 0x80 then 0 else if v < 0x800 then 1 else if v < 0x10000 then 2 else 3

/-- What marks a first byte that some others follow. -/
def mark : Nat → Nat
  | 0 => 0
  | 1 => 0xC0
  | 2 => 0xE0
  | _ => 0xF0

/-- The first byte of a code point. -/
def firstByte (v : Nat) : Nat := v / 64 ^ width v + mark (width v)

lemma utf8EncodeChar_eq (c : Char) :
    String.utf8EncodeChar c =
      UInt8.ofNat (firstByte c.toNat) :: sextets (width c.toNat) c.toNat := by
  rw [firstByte, width]
  split_ifs with h1 h2 h3
  · rw [utf8EncodeChar_one h1]
    simp [mark, sextets]
  · exact utf8EncodeChar_two (Nat.not_lt.1 h1) h2
  · exact utf8EncodeChar_three (Nat.not_lt.1 h2) h3
  · exact utf8EncodeChar_four (Nat.not_lt.1 h3)

lemma firstByte_lt {v : Nat} (h : v < 0x110000) : firstByte v < 256 := by
  rw [firstByte, width]
  split_ifs <;> simp only [mark] <;> omega

lemma firstByte_lt_of_width_ne {v w : Nat} (h : v < w) (hne : width v ≠ width w) :
    firstByte v < firstByte w := by
  revert hne
  simp only [firstByte, width]
  split_ifs <;> simp only [mark] <;> omega

lemma utf8EncodeChar_append_lt {c d : Char} (h : c < d) (xs ys : Bytes) :
    String.utf8EncodeChar c ++ xs < String.utf8EncodeChar d ++ ys := by
  have hlt : c.toNat < d.toNat := h
  have hd := firstByte_lt (toNat_lt d)
  rw [utf8EncodeChar_eq, utf8EncodeChar_eq, List.cons_append, List.cons_append]
  by_cases hwidth : width c.toNat = width d.toNat
  · rw [firstByte, hwidth]
    rw [firstByte] at hd ⊢
    rcases div_lt_or_mod_lt hlt (64 ^ width d.toNat) with hdiv | ⟨heq, hmod⟩
    · exact .rel (ofNat_lt_ofNat (Nat.add_lt_add_right hdiv _) hd)
    · rw [heq]
      exact .cons (sextets_append_lt hmod xs ys)
  · exact .rel (ofNat_lt_ofNat (firstByte_lt_of_width_ne hlt hwidth) hd)

/-! ### Text -/

variable {s t : String}

lemma flatMap_utf8EncodeChar_lt {cs ds : List Char} (h : cs < ds) :
    cs.flatMap String.utf8EncodeChar < ds.flatMap String.utf8EncodeChar := by
  induction h with
  | nil =>
    rw [List.flatMap_nil, List.flatMap_cons, utf8EncodeChar_eq]
    exact .nil
  | cons _ ih =>
    rw [List.flatMap_cons, List.flatMap_cons]
    exact List.Lex.append_left _ ih _
  | rel h =>
    rw [List.flatMap_cons, List.flatMap_cons]
    exact utf8EncodeChar_append_lt h _ _

lemma encode_lt_encode (h : s < t) : encode s < encode t := flatMap_utf8EncodeChar_lt h

/-- Texts are in the order of their bytes. -/
theorem encode_lt_encode_iff : encode s < encode t ↔ s < t := by
  constructor
  · intro h
    rcases Std.lt_trichotomy s t with hlt | rfl | hgt
    · exact hlt
    · exact absurd h (List.lt_irrefl _)
    · exact absurd (List.lt_trans h (encode_lt_encode hgt)) (List.lt_irrefl _)
  · exact encode_lt_encode

end RespWire.Utf8
