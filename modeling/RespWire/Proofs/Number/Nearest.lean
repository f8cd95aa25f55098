import Mathlib.Tactic.Ring
import RespWire.Number.Binary64

/-!
# Nearest magnitudes

Rounding to a magnitude depends on the value and not on the fraction that gives it, and leaves the
value of a finite magnitude as it is.
-/

namespace RespWire.Binary64

variable {num den num' den' : Nat}

lemma infinityMagnitude_eq : infinityMagnitude = 2047 * 2 ^ 52 := rfl

lemma units_eq (magnitude : Nat) :
    units magnitude = if magnitude / 2 ^ 52 = 0 then magnitude % 2 ^ 52
      else (2 ^ 52 + magnitude % 2 ^ 52) * 2 ^ (magnitude / 2 ^ 52 - 1) := by
  simp only [units, Nat.shiftLeft_eq, Nat.shiftRight_eq_div_pow, Nat.one_mul]

lemma nearest_eq (num den : Nat) :
    nearest num den =
      min (roundHalfEven num (den * 2 ^ ((num / den).log2 - 52)) + ((num / den).log2 - 52) * 2 ^ 52)
        infinityMagnitude := by
  simp only [nearest, Nat.shiftLeft_eq]

/-! ### Fractions of one value -/

lemma roundHalfEven_mul (num den : Nat) {k : Nat} (hk : 0 < k) :
    roundHalfEven (k * num) (k * den) = roundHalfEven num den := by
  have h1 : 2 * (k * (num % den)) < k * den ↔ 2 * (num % den) < den := by
    rw [Nat.mul_left_comm]
    exact Nat.mul_lt_mul_left hk
  have h2 : k * den < 2 * (k * (num % den)) ↔ den < 2 * (num % den) := by
    rw [Nat.mul_left_comm]
    exact Nat.mul_lt_mul_left hk
  simp only [roundHalfEven, Nat.mul_div_mul_left _ _ hk, Nat.mul_mod_mul_left, h1, h2]

lemma nearest_mul (num den : Nat) {k : Nat} (hk : 0 < k) :
    nearest (k * num) (k * den) = nearest num den := by
  simp only [nearest_eq, Nat.mul_div_mul_left _ _ hk, Nat.mul_assoc, roundHalfEven_mul _ _ hk]

/-- Equal fractions have the same nearest magnitude. -/
lemma nearest_congr (hden : 0 < den) (hden' : 0 < den') (h : num * den' = num' * den) :
    nearest num den = nearest num' den' := by
  calc nearest num den
      = nearest (den' * num) (den' * den) := (nearest_mul num den hden').symm
    _ = nearest (den * num') (den * den') := by
        rw [Nat.mul_comm den' num, h, Nat.mul_comm num' den, Nat.mul_comm den' den]
    _ = nearest num' den' := nearest_mul num' den' hden

/-! ### Values of magnitudes -/

lemma roundHalfEven_mul_self (n : Nat) {d : Nat} (hd : 0 < d) : roundHalfEven (n * d) d = n := by
  simp [roundHalfEven, Nat.mul_div_cancel _ hd, hd]

lemma log2_mul_two_pow {n : Nat} (hn : n ≠ 0) (k : Nat) : (n * 2 ^ k).log2 = n.log2 + k := by
  induction k with
  | zero => simp
  | succ k ih =>
      have hk : n * 2 ^ k ≠ 0 := Nat.mul_ne_zero hn (Nat.two_pow_pos k).ne'
      rw [Nat.pow_succ, ← Nat.mul_assoc, Nat.mul_comm, Nat.log2_two_mul hk, ih, Nat.add_assoc]

lemma ne_zero_of_two_pow_le {n k : Nat} (h : 2 ^ k ≤ n) : n ≠ 0 :=
  (Nat.lt_of_lt_of_le (Nat.two_pow_pos k) h).ne'

lemma le_log2_of_two_pow_le {n k : Nat} (h : 2 ^ k ≤ n) : k ≤ n.log2 :=
  (Nat.le_log2 (ne_zero_of_two_pow_le h)).2 h

lemma log2_eq_of_lt {n k : Nat} (h : 2 ^ k ≤ n) (h' : n < 2 ^ (k + 1)) : n.log2 = k := by
  have hlt : n.log2 < k + 1 := (Nat.log2_lt (ne_zero_of_two_pow_le h)).2 h'
  exact Nat.le_antisymm (Nat.le_of_lt_succ hlt) (le_log2_of_two_pow_le h)

/-- A finite magnitude is the nearest one to its own value. -/
lemma nearest_units {m : Nat} (h : m < infinityMagnitude) : nearest (units m) 1 = m := by
  have hd : 2 ^ 52 * (m / 2 ^ 52) + m % 2 ^ 52 = m := Nat.div_add_mod m (2 ^ 52)
  have hf : m % 2 ^ 52 < 2 ^ 52 := Nat.mod_lt m (by decide)
  rw [nearest_eq, units_eq, infinityMagnitude_eq]
  rw [infinityMagnitude_eq] at h
  generalize m / 2 ^ 52 = e at *
  generalize m % 2 ^ 52 = f at *
  cases e with
  | zero =>
      have hl : f.log2 - 52 = 0 := by
        by_cases h0 : f = 0
        · simp [h0]
        · exact Nat.sub_eq_zero_of_le (Nat.le_of_lt ((Nat.log2_lt h0).2 hf))
      have hr : roundHalfEven f 1 = f := by
        have := roundHalfEven_mul_self f Nat.one_pos
        rwa [Nat.mul_one] at this
      simp only [↓reduceIte, Nat.div_one, hl, Nat.pow_zero, Nat.mul_one, hr]
      omega
  | succ e =>
      have hl : ((2 ^ 52 + f) * 2 ^ e).log2 - 52 = e := by
        rw [log2_mul_two_pow (by omega), log2_eq_of_lt (k := 52) (by omega) (by omega)]
        omega
      simp only [Nat.add_one_ne_zero, ↓reduceIte, Nat.add_sub_cancel, Nat.div_one, hl, Nat.one_mul,
        roundHalfEven_mul_self _ (Nat.two_pow_pos e)]
      omega

/-! ### Values beyond the finite ones -/

/-- Less than half a unit is rounded to zero. -/
lemma nearest_eq_zero (h : 2 * num < den) : nearest num den = 0 := by
  have hq : num / den = 0 := Nat.div_eq_of_lt (by omega)
  have hm : num % den = num := Nat.mod_eq_of_lt (by omega)
  simp [nearest_eq, roundHalfEven, hq, hm, h]

lemma div_le_roundHalfEven (num den : Nat) : num / den ≤ roundHalfEven num den := by
  simp only [roundHalfEven]
  split_ifs <;> omega

/-- From `2 ^ 1024` on, which is `2 ^ 2098` units, infinity is nearest. -/
lemma nearest_eq_infinityMagnitude (hden : 0 < den) (h : 2 ^ 2098 * den ≤ num) :
    nearest num den = infinityMagnitude := by
  have hq : 2 ^ 2098 ≤ num / den := (Nat.le_div_iff_mul_le hden).2 h
  have hq0 : num / den ≠ 0 := ne_zero_of_two_pow_le hq
  have hl : 2098 ≤ (num / den).log2 := le_log2_of_two_pow_le hq
  obtain ⟨s, hs⟩ : ∃ s, (num / den).log2 = s + 52 := ⟨(num / den).log2 - 52, by omega⟩
  have hr : 2 ^ 52 ≤ roundHalfEven num (den * 2 ^ s) := by
    refine le_trans ?_ (div_le_roundHalfEven num (den * 2 ^ s))
    rw [← Nat.div_div_eq_div_mul, Nat.le_div_iff_mul_le (Nat.two_pow_pos s), ← Nat.pow_add,
      Nat.add_comm, ← hs]
    exact Nat.log2_self_le hq0
  rw [nearest_eq, hs, Nat.add_sub_cancel, infinityMagnitude_eq]
  apply Nat.min_eq_right
  have : 2046 * 2 ^ 52 ≤ s * 2 ^ 52 := Nat.mul_le_mul_right _ (by omega)
  omega

end RespWire.Binary64
