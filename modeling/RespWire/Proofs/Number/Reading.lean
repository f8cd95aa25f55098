import Mathlib.Tactic.Positivity
import RespWire.Proofs.Number.Decimal
import RespWire.Proofs.Number.Rounding

/-!
# Doubles read from decimal numbers

A decimal number is read as the double nearest to its value. The shortcuts for very small and very
large numbers do not change the result.
-/

namespace RespWire.Binary64

variable {negative : Bool} {cs : List Char}

/-! ### Signs and magnitudes -/

@[simp] lemma ofMagnitude_isNegative_magnitude (x : Binary64) :
    ofMagnitude x.isNegative x.magnitude = x := by
  obtain ⟨bits⟩ := x
  have hlt : bits.toNat < 2 ^ 64 := bits.toNat_lt
  simp only [ofMagnitude, isNegative, magnitude, Nat.shiftLeft_eq, decide_eq_true_eq, mk.injEq]
  apply UInt64.toNat_inj.1
  rw [UInt64.toNat_ofNat']
  split_ifs <;> omega

/-! ### The shortcuts -/

lemma lt_pow_length (n : Nat) : n < 10 ^ (Numeral.ofNat n).length :=
  (Nat.length_toDigits_le_iff (by decide) Nat.length_toDigits_pos).1 (Nat.le_refl _)

lemma pow_length_le {n : Nat} (hn : n ≠ 0) : 10 ^ ((Numeral.ofNat n).length - 1) ≤ n := by
  by_contra h
  rcases Nat.eq_zero_or_pos ((Numeral.ofNat n).length - 1) with h0 | hpos
  · rw [h0, Nat.pow_zero] at h
    omega
  · have hlen : (Numeral.ofNat n).length ≤ (Numeral.ofNat n).length - 1 :=
      (Nat.length_toDigits_le_iff (by decide) hpos).2 (Nat.lt_of_not_le h)
    omega

lemma nearest_of_small {c p q len shift : Nat} (hshift : 2 * 2 ^ shift ≤ 10 ^ 324)
    (hc : c < 10 ^ len) (h : len + p + 324 ≤ q) : nearest ((c * 10 ^ p) <<< shift) (10 ^ q) = 0 := by
  have hpos : 0 < 10 ^ p * 10 ^ 324 := by positivity
  apply nearest_eq_zero
  rw [Nat.shiftLeft_eq]
  calc 2 * (c * 10 ^ p * 2 ^ shift)
      = c * 10 ^ p * (2 * 2 ^ shift) := Nat.mul_left_comm 2 _ _
    _ ≤ c * 10 ^ p * 10 ^ 324 := Nat.mul_le_mul_left _ hshift
    _ = c * (10 ^ p * 10 ^ 324) := Nat.mul_assoc c _ _
    _ < 10 ^ len * (10 ^ p * 10 ^ 324) := Nat.mul_lt_mul_of_pos_right hc hpos
    _ = 10 ^ (len + p + 324) := by rw [← Nat.mul_assoc, ← Nat.pow_add, ← Nat.pow_add]
    _ ≤ 10 ^ q := Nat.pow_le_pow_right (by decide) h

lemma nearest_of_large {c p q k shift : Nat} (hshift : 2 ^ 2098 ≤ 10 ^ 309 * 2 ^ shift)
    (hc : 10 ^ k ≤ c) (h : q + 309 ≤ k + p) :
    nearest ((c * 10 ^ p) <<< shift) (10 ^ q) = infinityMagnitude := by
  apply nearest_eq_infinityMagnitude (Nat.pow_pos (by decide))
  rw [Nat.shiftLeft_eq]
  calc 2 ^ 2098 * 10 ^ q
      ≤ 10 ^ 309 * 2 ^ shift * 10 ^ q := Nat.mul_le_mul_right _ hshift
    _ = 10 ^ (q + 309) * 2 ^ shift := by
        rw [Nat.pow_add, Nat.mul_right_comm, Nat.mul_comm (10 ^ 309)]
    _ ≤ 10 ^ (k + p) * 2 ^ shift := Nat.mul_le_mul_right _ (Nat.pow_le_pow_right (by decide) h)
    _ = 10 ^ k * 10 ^ p * 2 ^ shift := by rw [Nat.pow_add]
    _ ≤ c * 10 ^ p * 2 ^ shift := by gcongr

/-- The magnitude nearest to the value of a decimal number. -/
def magnitudeOf (d : Decimal) : Nat :=
  nearest ((d.coefficient * 10 ^ d.exponent.toNat) <<< 1074) (10 ^ (-d.exponent).toNat)

lemma ofDecimal_eq (negative : Bool) (d : Decimal) :
    ofDecimal negative d = ofMagnitude negative (magnitudeOf d) := by
  have hsmall : 2 * 2 ^ 1074 ≤ 10 ^ 324 := by decide +kernel
  have hlarge : 2 ^ 2098 ≤ 10 ^ 309 * 2 ^ 1074 := by decide +kernel
  simp only [ofDecimal, ofRatio, Nat.pow_eq, zero, infinity, magnitudeOf]
  split_ifs with h1 h2
  · by_cases h0 : d.coefficient = 0
    · rw [h0, Nat.zero_mul, Nat.zero_shiftLeft, nearest_eq_zero (Nat.pow_pos (by decide))]
    · rw [nearest_of_small hsmall (lt_pow_length d.coefficient) (by omega)]
  · have h0 : d.coefficient ≠ 0 := by omega
    rw [nearest_of_large hlarge (pow_length_le h0) (by omega)]
  · rfl

lemma shiftLeft_mul_le {a b a' b' : Nat} (h : a * b ≤ a' * b') (n : Nat) :
    a <<< n * b ≤ a' <<< n * b' := by
  rw [Nat.shiftLeft_eq, Nat.shiftLeft_eq, Nat.mul_right_comm, Nat.mul_right_comm a']
  exact Nat.mul_le_mul_right _ h

/-- Decimal numbers are read in their order. -/
lemma magnitudeOf_le {d d' : Decimal}
    (h : d.coefficient * 10 ^ d.exponent.toNat * 10 ^ (-d'.exponent).toNat ≤
      d'.coefficient * 10 ^ d'.exponent.toNat * 10 ^ (-d.exponent).toNat) :
    magnitudeOf d ≤ magnitudeOf d' := by
  apply nearest_le_nearest (Nat.pow_pos (by decide)) (Nat.pow_pos (by decide))
  exact shiftLeft_mul_le h 1074

/-! ### Signs and names -/

lemma read?_of_notMem_sign (negative : Bool) (hminus : '-' ∉ cs) (hplus : '+' ∉ cs) :
    read? (if negative then '-' :: cs else cs) = unsigned? negative cs := by
  cases negative with
  | true => rfl
  | false =>
      cases cs with
      | nil => rfl
      | cons c cs =>
          rw [List.mem_cons, not_or] at hminus hplus
          simp only [Bool.false_eq_true, ↓reduceIte, read?]
          split
          · simp_all
          · simp_all
          · rfl

lemma toLower_of_isDigit {c : Char} (h : c.isDigit = true) : c.toLower = c := by
  simp only [Char.isDigit, Bool.and_eq_true, decide_eq_true_eq] at h
  have hupper : ¬ (c.val ≥ 'A'.val ∧ c.val ≤ 'Z'.val) := by
    rintro ⟨hlow, -⟩
    exact absurd (UInt32.le_trans hlow h.2) (by decide)
  exact dif_neg hupper

/-- What is made of digits and points is no name. -/
lemma unsigned?_of_digits (h : ∀ c ∈ cs, c.isDigit = true ∨ c = '.') :
    unsigned? negative cs = (Decimal.read? cs).map (ofDecimal negative) := by
  have hmap : cs.map Char.toLower = cs := by
    rw [List.map_congr_left (g := id), List.map_id]
    intro c hc
    rcases h c hc with hc | rfl
    · exact toLower_of_isDigit hc
    · rfl
  have hname : ∀ {name : List Char}, 'n' ∈ name → cs ≠ name := by
    rintro name hn rfl
    rcases h 'n' hn with hn | hn <;> cases hn
  rw [unsigned?, hmap, if_neg, if_neg (hname (by decide))]
  rintro (h | h)
  · exact hname (by decide) h
  · exact hname (by decide) h

end RespWire.Binary64
