import Mathlib.Data.Nat.Dist
import RespWire.Proofs.Number.Nearest

/-!
# Correct rounding

No magnitude has a value closer to a fraction than the nearest one, and of two equally close ones
the even one is nearest. Rounding keeps the order.
-/

namespace RespWire.Binary64

variable {num den : Nat}

/-! ### Whole numbers -/

/-- A whole number at most a half away from a fraction, and even where it is a half away. -/
structure Rounds (num den r : Nat) : Prop where
  le : 2 * (r * den) ≤ 2 * num + den
  ge : 2 * num ≤ 2 * (r * den) + den
  even : 2 * (r * den) = 2 * num + den ∨ 2 * num = 2 * (r * den) + den → r % 2 = 0

lemma roundHalfEven_rounds (num : Nat) (hden : 0 < den) :
    Rounds num den (roundHalfEven num den) := by
  have hdiv : num / den * den + num % den = num := Nat.div_add_mod' num den
  have hmod : num % den < den := Nat.mod_lt num hden
  have hsucc : (num / den + 1) * den = num / den * den + den := Nat.succ_mul _ _
  simp only [roundHalfEven]
  split_ifs with hbelow habove
  · constructor <;> omega
  · constructor <;> rw [hsucc] <;> omega
  · rcases Nat.mod_two_eq_zero_or_one (num / den) with h | h
    · rw [h, Nat.add_zero]
      constructor <;> omega
    · rw [h]
      constructor <;> rw [hsucc] <;> omega

namespace Rounds

variable {r k : Nat}

/-- No whole number is closer. -/
lemma dist_le (h : Rounds num den r) (k : Nat) :
    Nat.dist num (r * den) ≤ Nat.dist num (k * den) := by
  obtain ⟨hle, hge, -⟩ := h
  unfold Nat.dist
  rcases Nat.lt_trichotomy k r with hlt | rfl | hgt
  · have := Nat.mul_le_mul_right den (Nat.succ_le_of_lt hlt)
    rw [Nat.succ_mul] at this
    omega
  · exact Nat.le_refl _
  · have := Nat.mul_le_mul_right den (Nat.succ_le_of_lt hgt)
    rw [Nat.succ_mul] at this
    omega

/-- Only next to an even number there is one equally close. -/
lemma even_of_dist_eq (h : Rounds num den r) (hden : 0 < den) (hk : k ≠ r)
    (heq : Nat.dist num (r * den) = Nat.dist num (k * den)) : r % 2 = 0 := by
  obtain ⟨hle, hge, heven⟩ := h
  apply heven
  unfold Nat.dist at heq
  rcases Nat.lt_or_gt_of_ne hk with hlt | hgt
  · have := Nat.mul_le_mul_right den (Nat.succ_le_of_lt hlt)
    rw [Nat.succ_mul] at this
    omega
  · have := Nat.mul_le_mul_right den (Nat.succ_le_of_lt hgt)
    rw [Nat.succ_mul] at this
    omega

/-- Greater fractions have greater whole numbers next to them. -/
lemma mono {num' r' : Nat} (h : Rounds num den r) (h' : Rounds num' den r') (hden : 0 < den)
    (hnum : num ≤ num') : r ≤ r' := by
  by_contra hlt
  have hmul := Nat.mul_le_mul_right den (Nat.succ_le_of_lt (Nat.lt_of_not_le hlt))
  rw [Nat.succ_mul] at hmul
  obtain ⟨hle, -, heven⟩ := h
  obtain ⟨-, hge', heven'⟩ := h'
  -- both are a half away from one fraction between them, so both are even and next to each other
  have hr := heven (by omega)
  have hr' := heven' (by omega)
  have hskip : r' + 2 ≤ r := by omega
  have hmul' := Nat.mul_le_mul_right den hskip
  rw [Nat.add_mul] at hmul'
  omega

end Rounds

/-! ### Magnitudes -/

/-- The exponent of two up to which significands are cut off in rounding. -/
def binade (num den : Nat) : Nat := (num / den).log2 - 52

/-- A significand of a fraction at an exponent of two, with the bounds that rounding leaves. -/
structure RoundsAt (num den exponent r : Nat) : Prop extends Rounds num (den * 2 ^ exponent) r where
  le_two_pow : r ≤ 2 ^ 53
  normal : exponent = 0 ∨ 2 ^ 52 ≤ r ∧ 2 ^ 52 * (den * 2 ^ exponent) ≤ num

lemma lt_two_pow_binade (num : Nat) (hden : 0 < den) :
    num < 2 ^ 53 * (den * 2 ^ binade num den) := by
  have hlog : num / den < 2 ^ ((num / den).log2 + 1) := Nat.lt_log2_self
  have hpow : 2 ^ ((num / den).log2 + 1) ≤ 2 ^ (53 + binade num den) :=
    Nat.pow_le_pow_right (by decide) (by unfold binade; omega)
  calc num < 2 ^ (53 + binade num den) * den :=
        (Nat.div_lt_iff_lt_mul hden).1 (Nat.lt_of_lt_of_le hlog hpow)
    _ = 2 ^ 53 * (den * 2 ^ binade num den) := by ring

lemma two_pow_binade_le (hden : 0 < den) (h : binade num den ≠ 0) :
    2 ^ 52 * (den * 2 ^ binade num den) ≤ num := by
  have hq : num / den ≠ 0 := by
    intro h0
    rw [binade, h0, Nat.log2_zero, Nat.zero_sub] at h
    exact h rfl
  have hlog : 52 + binade num den = (num / den).log2 := by
    unfold binade at *
    omega
  calc 2 ^ 52 * (den * 2 ^ binade num den)
      = 2 ^ (num / den).log2 * den := by rw [← hlog]; ring
    _ ≤ num := (Nat.le_div_iff_mul_le hden).1 (Nat.log2_self_le hq)

lemma roundHalfEven_roundsAt (num : Nat) (hden : 0 < den) :
    RoundsAt num den (binade num den) (roundHalfEven num (den * 2 ^ binade num den)) := by
  have hstep : 0 < den * 2 ^ binade num den := Nat.mul_pos hden (Nat.two_pow_pos _)
  have hrounds := roundHalfEven_rounds num hstep
  have hlt := lt_two_pow_binade num hden
  refine ⟨hrounds, ?_, ?_⟩
  · by_contra hgt
    have := Nat.mul_le_mul_right (den * 2 ^ binade num den) (Nat.succ_le_of_lt (Nat.lt_of_not_le hgt))
    rw [Nat.succ_mul] at this
    have := hrounds.le
    omega
  · by_cases hzero : binade num den = 0
    · exact .inl hzero
    · have hle := two_pow_binade_le hden hzero
      refine .inr ⟨?_, hle⟩
      by_contra hgt
      have := Nat.mul_le_mul_right (den * 2 ^ binade num den)
        (Nat.succ_le_of_lt (Nat.lt_of_not_le hgt))
      rw [Nat.succ_mul] at this
      have := hrounds.ge
      omega

/-- A significand and its exponent are put together to a magnitude, also where the significand is a
power of two too large. -/
lemma units_add_mul {r exponent : Nat} (hr : r ≤ 2 ^ 53) (hnormal : exponent = 0 ∨ 2 ^ 52 ≤ r) :
    units (r + exponent * 2 ^ 52) = r * 2 ^ exponent := by
  rw [units_eq]
  rcases Nat.lt_or_ge r (2 ^ 52) with hlt | hge
  · have hzero : exponent = 0 := by omega
    subst hzero
    rw [if_pos (by omega)]
    omega
  · rcases Nat.lt_or_ge r (2 ^ 53) with hlt | hge'
    · have hexp : (r + exponent * 2 ^ 52) / 2 ^ 52 = exponent + 1 := by omega
      rw [if_neg (by omega), hexp, Nat.add_sub_cancel]
      congr 1
      omega
    · have hr' : r = 2 ^ 53 := by omega
      subst hr'
      have hexp : (2 ^ 53 + exponent * 2 ^ 52) / 2 ^ 52 = exponent + 2 := by omega
      have hfrac : (2 ^ 53 + exponent * 2 ^ 52) % 2 ^ 52 = 0 := by omega
      have hsub : exponent + 2 - 1 = exponent + 1 := rfl
      rw [if_neg (by omega), hexp, hfrac, hsub, Nat.pow_succ]
      ring

lemma exists_units_eq (m : Nat) :
    ∃ r exponent, r < 2 ^ 53 ∧ (exponent = 0 ∨ 2 ^ 52 ≤ r) ∧ units m = r * 2 ^ exponent := by
  have hf : m % 2 ^ 52 < 2 ^ 52 := Nat.mod_lt m (by decide)
  rw [units_eq]
  split_ifs
  · exact ⟨m % 2 ^ 52, 0, by omega, .inl rfl, by rw [Nat.pow_zero, Nat.mul_one]⟩
  · exact ⟨2 ^ 52 + m % 2 ^ 52, m / 2 ^ 52 - 1, by omega, .inr (Nat.le_add_right _ _), rfl⟩

/-- A magnitude has a whole number of steps of the significand, or is smaller than where the
significands begin. -/
lemma units_cases (m exponent : Nat) :
    (∃ k, units m = k * 2 ^ exponent) ∨ exponent ≠ 0 ∧ units m < 2 ^ 52 * 2 ^ exponent := by
  obtain ⟨r, e, hr, -, heq⟩ := exists_units_eq m
  rw [heq]
  rcases Nat.lt_or_ge e exponent with hlt | hge
  · refine .inr ⟨by omega, ?_⟩
    calc r * 2 ^ e
        < 2 ^ 53 * 2 ^ e := Nat.mul_lt_mul_of_pos_right hr (Nat.two_pow_pos e)
      _ = 2 ^ 52 * 2 ^ (e + 1) := by ring
      _ ≤ 2 ^ 52 * 2 ^ exponent := Nat.mul_le_mul_left _ (Nat.pow_le_pow_right (by decide) hlt)
  · obtain ⟨d, rfl⟩ := Nat.exists_eq_add_of_le hge
    exact .inl ⟨r * 2 ^ d, by ring⟩

lemma units_mul_lt {m exponent : Nat} (hden : 0 < den) (h : units m < 2 ^ 52 * 2 ^ exponent) :
    units m * den < 2 ^ 52 * (den * 2 ^ exponent) := by
  calc units m * den
      < 2 ^ 52 * 2 ^ exponent * den := Nat.mul_lt_mul_of_pos_right h hden
    _ = 2 ^ 52 * (den * 2 ^ exponent) := by ring

namespace RoundsAt

variable {exponent r : Nat}

/-- No magnitude is closer to the fraction than its significand. -/
lemma dist_units_le (h : RoundsAt num den exponent r) (hden : 0 < den) (m : Nat) :
    Nat.dist num (r * (den * 2 ^ exponent)) ≤ Nat.dist num (units m * den) := by
  rcases units_cases m exponent with ⟨k, hk⟩ | ⟨hexp, hlt⟩
  · have hmul : units m * den = k * (den * 2 ^ exponent) := by rw [hk]; ring
    rw [hmul]
    exact h.dist_le k
  · obtain ⟨-, hnum⟩ := h.normal.resolve_left hexp
    have hmul := units_mul_lt hden hlt
    refine le_trans (h.dist_le (2 ^ 52)) ?_
    unfold Nat.dist
    omega

/-- Only next to an even significand there is a magnitude equally close. -/
lemma even_of_dist_units_eq (h : RoundsAt num den exponent r) (hden : 0 < den) {m : Nat}
    (hm : units m ≠ r * 2 ^ exponent)
    (heq : Nat.dist num (r * (den * 2 ^ exponent)) = Nat.dist num (units m * den)) : r % 2 = 0 := by
  have hstep : 0 < den * 2 ^ exponent := Nat.mul_pos hden (Nat.two_pow_pos _)
  rcases units_cases m exponent with ⟨k, hk⟩ | ⟨hexp, hlt⟩
  · have hmul : units m * den = k * (den * 2 ^ exponent) := by rw [hk]; ring
    have hne : k ≠ r := by
      rintro rfl
      exact hm hk
    rw [hmul] at heq
    exact h.even_of_dist_eq hstep hne heq
  · obtain ⟨-, hnum⟩ := h.normal.resolve_left hexp
    have hmul := units_mul_lt hden hlt
    have hclose := h.dist_le (2 ^ 52)
    unfold Nat.dist at *
    omega

end RoundsAt

lemma nearest_eq_min (num den : Nat) :
    nearest num den =
      min (roundHalfEven num (den * 2 ^ binade num den) + binade num den * 2 ^ 52)
        infinityMagnitude :=
  nearest_eq num den

lemma units_nearest (hden : 0 < den) (h : nearest num den < infinityMagnitude) :
    units (nearest num den) =
      roundHalfEven num (den * 2 ^ binade num den) * 2 ^ binade num den := by
  have hr := roundHalfEven_roundsAt num hden
  rw [nearest_eq_min] at h ⊢
  rw [Nat.min_eq_left (by omega)]
  apply units_add_mul hr.le_two_pow
  rcases hr.normal with hzero | ⟨hge, -⟩
  · exact .inl hzero
  · exact .inr hge

/-- The nearest magnitude, where it is finite, is the one whose value is closest to the fraction. -/
theorem nearest_closest (hden : 0 < den) (h : nearest num den < infinityMagnitude) (m : Nat) :
    Nat.dist num (units (nearest num den) * den) ≤ Nat.dist num (units m * den) := by
  have hr := roundHalfEven_roundsAt num hden
  rw [units_nearest hden h, Nat.mul_assoc, Nat.mul_comm (2 ^ _) den]
  exact hr.dist_units_le hden m

/-- Of two magnitudes that are equally close to the fraction the even one is nearest. -/
theorem nearest_even_of_tie (hden : 0 < den) (h : nearest num den < infinityMagnitude) {m : Nat}
    (hm : units m ≠ units (nearest num den))
    (heq : Nat.dist num (units (nearest num den) * den) = Nat.dist num (units m * den)) :
    nearest num den % 2 = 0 := by
  have hr := roundHalfEven_roundsAt num hden
  rw [units_nearest hden h] at hm heq
  rw [Nat.mul_assoc, Nat.mul_comm (2 ^ _) den] at heq
  have heven := hr.even_of_dist_units_eq hden hm heq
  rw [nearest_eq_min] at h ⊢
  rw [Nat.min_eq_left (by omega)]
  omega

/-- Rounding keeps the order of fractions. -/
theorem nearest_mono {num' : Nat} (hden : 0 < den) (h : num ≤ num') :
    nearest num den ≤ nearest num' den := by
  have hr := roundHalfEven_roundsAt num hden
  have hr' := roundHalfEven_roundsAt num' hden
  have hbinade : binade num den ≤ binade num' den := by
    by_cases hzero : num / den = 0
    · simp [binade, hzero]
    · have hq : num / den ≤ num' / den := Nat.div_le_div_right h
      have hlog := le_log2_of_two_pow_le (le_trans (Nat.log2_self_le hzero) hq)
      exact Nat.sub_le_sub_right hlog 52
  rw [nearest_eq_min, nearest_eq_min]
  apply min_le_min_right
  rcases Nat.lt_or_eq_of_le hbinade with hlt | heq
  · -- a significand that carries comes at most to the begin of the next binade
    have hle := hr.le_two_pow
    obtain ⟨hge, -⟩ := hr'.normal.resolve_left (by omega)
    have hmul := Nat.mul_le_mul_right (2 ^ 52) (Nat.succ_le_of_lt hlt)
    omega
  · rw [← heq] at hr' ⊢
    have hstep : 0 < den * 2 ^ binade num den := Nat.mul_pos hden (Nat.two_pow_pos _)
    exact Nat.add_le_add_right (hr.mono hr'.toRounds hstep h) _

lemma nearest_le_nearest {num' den' : Nat} (hden : 0 < den) (hden' : 0 < den')
    (h : num * den' ≤ num' * den) : nearest num den ≤ nearest num' den' := by
  calc nearest num den
      = nearest (den' * num) (den' * den) := (nearest_mul num den hden').symm
    _ ≤ nearest (den * num') (den' * den) := by
        apply nearest_mono (Nat.mul_pos hden' hden)
        rwa [Nat.mul_comm den' num, Nat.mul_comm den num']
    _ = nearest num' den' := by rw [Nat.mul_comm den' den, nearest_mul num' den' hden]

end RespWire.Binary64
