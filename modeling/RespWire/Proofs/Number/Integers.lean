import RespWire.Proofs.Number.FewestDigits

/-!
# Integers as doubles

An integer becomes the double nearest to it, whether it is converted or its numeral is read. Up to
`2 ^ 53` that double has the value of the integer, and the numeral of the integer for its text.
-/

namespace RespWire.Binary64

variable {i j k m r : Nat} {n : Int}

/-! ### Signs and magnitudes -/

lemma magnitude_ofMagnitude (negative : Bool) (h : m < infinityMagnitude) :
    (ofMagnitude negative m).magnitude = m := by
  rw [infinityMagnitude_eq] at h
  simp only [ofMagnitude, magnitude, Nat.shiftLeft_eq, UInt64.toNat_ofNat']
  split_ifs <;> omega

lemma isNegative_ofMagnitude (negative : Bool) (h : m < infinityMagnitude) :
    (ofMagnitude negative m).isNegative = negative := by
  rw [infinityMagnitude_eq] at h
  rw [isNegative, ofMagnitude, UInt64.toNat_ofNat', Nat.shiftLeft_eq]
  cases negative with
  | true =>
    simp only [↓reduceIte, decide_eq_true_eq]
    omega
  | false =>
    simp only [Bool.false_eq_true, ↓reduceIte, decide_eq_false_iff_not]
    omega

lemma magnitudeOf_natCast (k : Nat) : magnitudeOf ⟨k, 0⟩ = nearest (k <<< 1074) 1 := by
  rw [magnitudeOf, Int.toNat_zero, Int.neg_zero, Int.toNat_zero, Nat.pow_zero, Nat.mul_one]

lemma ofInt_eq_ofMagnitude (n : Int) :
    ofInt n = ofMagnitude (n < 0) (magnitudeOf ⟨n.natAbs, 0⟩) := by
  rw [ofInt, ofRatio, magnitudeOf_natCast]

lemma magnitudeOf_mono (h : j ≤ k) : magnitudeOf ⟨j, 0⟩ ≤ magnitudeOf ⟨k, 0⟩ :=
  magnitudeOf_le_of_coefficient_le 0 h

/-! ### Integers that are values -/

/-- Has a finite double the value of an integer? -/
structure IsExact (k : Nat) : Prop where
  finite : magnitudeOf ⟨k, 0⟩ < infinityMagnitude
  units_eq : units (magnitudeOf ⟨k, 0⟩) = k <<< 1074

/-- A number of at most 53 bits is shifted until it is a normal significand. -/
lemma exists_normal_mul (h0 : r ≠ 0) (hr : r ≤ 2 ^ 53) :
    ∃ t ≤ 52, 2 ^ 52 ≤ r * 2 ^ t ∧ r * 2 ^ t ≤ 2 ^ 53 := by
  rcases Nat.lt_or_ge r (2 ^ 52) with hlt | hge
  · have hlog : r.log2 < 52 := (Nat.log2_lt h0).2 hlt
    have hshift : r.log2 + (52 - r.log2) = 52 := by omega
    have hshift' : r.log2 + 1 + (52 - r.log2) = 53 := by omega
    refine ⟨52 - r.log2, Nat.sub_le _ _, ?_, ?_⟩
    · calc 2 ^ 52
          = 2 ^ r.log2 * 2 ^ (52 - r.log2) := by rw [← Nat.pow_add, hshift]
        _ ≤ r * 2 ^ (52 - r.log2) := Nat.mul_le_mul_right _ (Nat.log2_self_le h0)
    · calc r * 2 ^ (52 - r.log2)
          ≤ 2 ^ (r.log2 + 1) * 2 ^ (52 - r.log2) :=
            Nat.mul_le_mul_right _ (Nat.le_of_lt Nat.lt_log2_self)
        _ = 2 ^ 53 := by rw [← Nat.pow_add, hshift']
  · exact ⟨0, Nat.zero_le _, by rwa [Nat.pow_zero, Nat.mul_one], by rwa [Nat.pow_zero, Nat.mul_one]⟩

lemma exists_units_eq_mul {s : Nat} (hr : r ≤ 2 ^ 53) (hs : 52 ≤ s) (hs' : s ≤ 1138) :
    ∃ m < infinityMagnitude, units m = r * 2 ^ s := by
  rw [infinityMagnitude_eq]
  by_cases h0 : r = 0
  · exact ⟨0, by decide, by rw [h0, Nat.zero_mul]; rfl⟩
  · obtain ⟨t, ht, hlow, hhigh⟩ := exists_normal_mul h0 hr
    refine ⟨r * 2 ^ t + (s - t) * 2 ^ 52, ?_, ?_⟩
    · have hexp : (s - t) * 2 ^ 52 ≤ 1138 * 2 ^ 52 := Nat.mul_le_mul_right _ (by omega)
      omega
    · rw [units_add_mul hhigh (.inr hlow), Nat.mul_assoc, ← Nat.pow_add, Nat.add_sub_cancel' (by omega)]

/-- An integer with few enough significant bits is the value of a double. -/
lemma isExact_mul {e : Nat} (hr : r ≤ 2 ^ 53) (he : e ≤ 64) : IsExact (r * 2 ^ e) := by
  obtain ⟨m, hm, hunits⟩ := exists_units_eq_mul hr (s := e + 1074) (by omega) (by omega)
  have hshift : (r * 2 ^ e) <<< 1074 = units m := by
    rw [hunits, Nat.shiftLeft_eq, Nat.mul_assoc, Nat.pow_add]
  have hmag : magnitudeOf ⟨r * 2 ^ e, 0⟩ = m := by
    rw [magnitudeOf_natCast, hshift, nearest_units hm]
  exact ⟨by rwa [hmag], by rw [hmag, hshift]⟩

lemma isExact_of_le (hk : k ≤ 2 ^ 53) : IsExact k := by
  have h := isExact_mul (e := 0) hk (Nat.zero_le _)
  rwa [Nat.pow_zero, Nat.mul_one] at h

lemma magnitudeOf_lt (hk : k ≤ 2 ^ 64) : magnitudeOf ⟨k, 0⟩ < infinityMagnitude := by
  have hexact := isExact_mul (r := 1) (e := 64) (by decide) (Nat.le_refl _)
  rw [Nat.one_mul] at hexact
  exact Nat.lt_of_le_of_lt (magnitudeOf_mono hk) hexact.finite

namespace IsExact

/-- Values are told apart by their magnitudes. -/
lemma eq_of_magnitudeOf_eq (hj : IsExact j) (hk : IsExact k)
    (h : magnitudeOf ⟨j, 0⟩ = magnitudeOf ⟨k, 0⟩) : j = k := by
  have hunits := hj.units_eq
  rw [h, hk.units_eq, Nat.shiftLeft_eq, Nat.shiftLeft_eq] at hunits
  exact (Nat.eq_of_mul_eq_mul_right (Nat.two_pow_pos 1074) hunits).symm

/-- No other value lies between two integers of one magnitude. -/
lemma eq_of_between (hi : IsExact i) (hk : IsExact k) (hki : k ≤ i) (hij : i ≤ j)
    (h : magnitudeOf ⟨j, 0⟩ = magnitudeOf ⟨k, 0⟩) : i = k := by
  apply hi.eq_of_magnitudeOf_eq hk
  apply Nat.le_antisymm
  · rw [← h]
    exact magnitudeOf_mono hij
  · exact magnitudeOf_mono hki

end IsExact

/-- Up to `2 ^ 53` integers are told apart by their magnitudes; only the next one is rounded to
`2 ^ 53` too. -/
lemma eq_or_of_magnitudeOf_eq (hk : k ≤ 2 ^ 53)
    (h : magnitudeOf ⟨j, 0⟩ = magnitudeOf ⟨k, 0⟩) : j = k ∨ k = 2 ^ 53 ∧ j = 2 ^ 53 + 1 := by
  have hexact := isExact_of_le hk
  rcases Nat.lt_or_ge (2 ^ 53) j with hlt | hge
  · right
    have htop := (isExact_of_le (Nat.le_refl _)).eq_of_between hexact hk (Nat.le_of_lt hlt) h
    refine ⟨htop.symm, ?_⟩
    by_contra hne
    have hnext : IsExact ((2 ^ 52 + 1) * 2 ^ 1) := isExact_mul (by decide) (by decide)
    have := hnext.eq_of_between hexact (by omega) (by omega) h
    omega
  · exact .inl ((isExact_of_le hge).eq_of_magnitudeOf_eq hexact h)

/-! ### Rounded integers -/

/-- Is a double finite, of the sign of an integer, and as close to it as any double, with an even
magnitude where another one is equally close? -/
structure IsNearest (n : Int) (x : Binary64) : Prop where
  finite : x.magnitude < infinityMagnitude
  sign : x.isNegative = decide (n < 0)
  closest : ∀ y, Nat.dist (n.natAbs <<< 1074) (units x.magnitude) ≤
    Nat.dist (n.natAbs <<< 1074) (units y)
  even : ∀ y, units y ≠ units x.magnitude →
    Nat.dist (n.natAbs <<< 1074) (units x.magnitude) = Nat.dist (n.natAbs <<< 1074) (units y) →
    x.magnitude % 2 = 0

lemma isNearest_ofInt (h : n.natAbs ≤ 2 ^ 64) : IsNearest n (ofInt n) := by
  have hlt := magnitudeOf_lt h
  have hmag : (ofInt n).magnitude = magnitudeOf ⟨n.natAbs, 0⟩ := by
    rw [ofInt_eq_ofMagnitude, magnitude_ofMagnitude _ hlt]
  have hsign : (ofInt n).isNegative = decide (n < 0) := by
    rw [ofInt_eq_ofMagnitude, isNegative_ofMagnitude _ hlt]
  rw [magnitudeOf_natCast] at hlt hmag
  have hclosest (y : Nat) := nearest_closest Nat.one_pos hlt y
  have heven (y : Nat) := nearest_even_of_tie Nat.one_pos hlt (m := y)
  simp only [Nat.mul_one] at hclosest heven
  constructor
  · rwa [hmag]
  · exact hsign
  · rwa [hmag]
  · rwa [hmag]

/-! ### Numerals read -/

lemma unsigned?_ofNat (negative : Bool) (k : Nat) :
    unsigned? negative (Numeral.ofNat k) = some (ofMagnitude negative (magnitudeOf ⟨k, 0⟩)) := by
  have hread := unsigned?_positional negative ⟨k, .ofNat 0⟩
  rwa [Decimal.positional_ofNat, List.replicate_zero, List.append_nil] at hread

/-- The numeral of an integer is read as the double that the integer is converted to. -/
lemma read?_ofInt (n : Int) : read? (Numeral.ofInt n) = some (ofInt n) := by
  have hminus : '-' ∉ Numeral.ofNat n.natAbs := fun h => by cases Numeral.isDigit_of_mem_ofNat h
  have hplus : '+' ∉ Numeral.ofNat n.natAbs := fun h => by cases Numeral.isDigit_of_mem_ofNat h
  have hread := read?_of_notMem_sign (decide (n < 0)) hminus hplus
  simp only [decide_eq_true_eq] at hread
  rw [Numeral.ofInt_eq, hread, unsigned?_ofNat, ofInt_eq_ofMagnitude]

/-! ### Numerals written -/

/-- On a grid that has the value itself no other point is taken. -/
lemma gridPoint?_of_eq_mul {s : Nat} (h : m < infinityMagnitude)
    (hk : decimalUnits m = k * 10 ^ s) : gridPoint? m s = some k := by
  have hpos : 0 < 10 ^ s := Nat.pow_pos (by decide)
  have hbelow : pointBelow m s = k := by
    rw [pointBelow, Nat.pow_eq, hk, Nat.mul_div_cancel _ hpos]
  have hnear : isNearBelow m s = true := by
    rw [isNearBelow, Nat.pow_eq, hk, Nat.mul_mod_left, decide_eq_true_eq]
    exact hpos
  have hreads : readsBack m s k = true := by
    rw [readsBack_iff, ← hk]
    exact nearest_decimalUnits h
  simp only [gridPoint?, hbelow, hnear, hreads, Bool.true_or, Bool.and_true, ↓reduceIte]

lemma coefficient_shortest {s : Nat} (hm : m ≠ 0) (h : m < infinityMagnitude)
    (hexp : (shortest m).exponent = s - (1074 : Int))
    (hk : decimalUnits m = k * 10 ^ s) : (shortest m).coefficient = k := by
  rw [shortest_exponent hm] at hexp
  have hgrid : coarsestGrid m (Numeral.ofNat (decimalUnits m)).length = s := by omega
  rw [shortest, if_neg hm]
  dsimp only
  rw [hgrid, gridPoint?_of_eq_mul h hk, Option.getD_some]

lemma shiftLeft_mul_steps {s steps : Nat} (hsteps : steps = 5 ^ s) :
    k <<< s * steps = k * 10 ^ s := by
  rw [hsteps, Nat.shiftLeft_eq, Nat.mul_assoc, ← Nat.mul_pow]

lemma IsExact.decimalUnits_eq (hk : IsExact k) :
    decimalUnits (magnitudeOf ⟨k, 0⟩) = k * 10 ^ 1074 := by
  rw [decimalUnits, hk.units_eq, shiftLeft_mul_steps unitSteps_eq]

lemma magnitudeOf_zero : magnitudeOf ⟨0, 0⟩ = 0 := by
  rw [magnitudeOf_natCast, Nat.zero_shiftLeft, nearest_eq_zero Nat.one_pos]

/-- The shortest decimal number of an integer up to `2 ^ 53` has the integer for its value. -/
lemma exists_shortest_eq (h0 : k ≠ 0) (hk : k ≤ 2 ^ 53) :
    ∃ c e : Nat, shortest (magnitudeOf ⟨k, 0⟩) = ⟨c, e⟩ ∧ c * 10 ^ e = k := by
  have hexact := isExact_of_le hk
  have hm : magnitudeOf ⟨k, 0⟩ ≠ 0 := by
    rw [← magnitudeOf_zero]
    exact fun h => h0 (hexact.eq_of_magnitudeOf_eq (isExact_of_le (Nat.zero_le _)) h)
  have hpoint := coefficient_shortest hm hexact.finite (k := k) (s := 1074)
  have hexp : 0 ≤ (shortest (magnitudeOf ⟨k, 0⟩)).exponent :=
    exponent_le_shortest (d := ⟨k, 0⟩) hm hexact.finite rfl
  have hread := magnitudeOf_shortest hexact.finite
  generalize shortest (magnitudeOf ⟨k, 0⟩) = d at *
  obtain ⟨c, e⟩ := d
  obtain ⟨e, rfl⟩ := Int.eq_ofNat_of_zero_le hexp
  refine ⟨c, e, rfl, ?_⟩
  have hvalue := magnitudeOf_mul_pow ⟨c, e⟩
  rw [hread, Int.toNat_natCast, min_eq_right (Int.natCast_nonneg e)] at hvalue
  rcases eq_or_of_magnitudeOf_eq hk hvalue with heq | ⟨-, htie⟩
  · exact heq
  · -- `2 ^ 53 + 1` is no multiple of ten, and on the grid of the integers `2 ^ 53` itself is taken
    cases e with
    | zero =>
      rw [Nat.pow_zero, Nat.mul_one]
      exact hpoint rfl hexact.decimalUnits_eq
    | succ e =>
      rw [Nat.pow_succ, ← Nat.mul_assoc] at htie
      omega

lemma positional_shortest (hk : k ≤ 2 ^ 53) :
    (shortest (magnitudeOf ⟨k, 0⟩)).positional = Numeral.ofNat k := by
  by_cases h0 : k = 0
  · rw [h0, magnitudeOf_zero]
    rfl
  · obtain ⟨c, e, hshortest, hvalue⟩ := exists_shortest_eq h0 hk
    have hc : c ≠ 0 := by
      rintro rfl
      exact h0 (by rw [← hvalue, Nat.zero_mul])
    rw [hshortest, ← hvalue, Numeral.ofNat_mul_ten_pow hc]
    exact Decimal.positional_ofNat c e

/-- The shortest text of an integer up to `2 ^ 53` is its numeral. -/
lemma toText_ofInt (h : n.natAbs ≤ 2 ^ 53) : (ofInt n).toText = Numeral.text n := by
  have hlt := (isExact_of_le h).finite
  have hnan : ¬ infinityMagnitude < magnitudeOf ⟨n.natAbs, 0⟩ := Nat.not_lt_of_lt hlt
  simp only [ofInt_eq_ofMagnitude, toText, isNaN, magnitude_ofMagnitude _ hlt,
    isNegative_ofMagnitude _ hlt, hnan, Nat.ne_of_lt hlt, positional_shortest h, decide_false,
    Bool.false_eq_true, ↓reduceIte, decide_eq_true_eq]
  rw [Numeral.text, Numeral.ofInt_eq]

end RespWire.Binary64
