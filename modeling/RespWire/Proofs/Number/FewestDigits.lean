import RespWire.Proofs.Number.Shortest

/-!
# Fewest digits

Among the decimal numbers that read back as a magnitude, the one that is found has the greatest
exponent and the fewest digits.
-/

namespace RespWire.Binary64

variable {m scale point : Nat} {d : Decimal}

/-! ### Grids with a point -/

lemma nearest_decimalUnits (h : m < infinityMagnitude) :
    nearest (decimalUnits m) unitSteps = m := by
  have hreads := readsBack_iff.1 (readsBack_decimalUnits h)
  rwa [Nat.pow_zero, Nat.mul_one] at hreads

lemma isSome_gridPoint?_of_readsBack
    (h : readsBack m scale (pointBelow m scale) = true ∨
      readsBack m scale (pointBelow m scale + 1) = true) :
    (gridPoint? m scale).isSome = true := by
  rw [gridPoint?]
  split_ifs with hbelow habove
  · rfl
  · rfl
  · simp_all

/-- If any point of a grid reads back, then one of the two next to the value does. -/
lemma isSome_gridPoint?_iff (h : m < infinityMagnitude) :
    (gridPoint? m scale).isSome = true ↔ ∃ point, readsBack m scale point = true := by
  have hvalue := nearest_decimalUnits h
  have hdiv : pointBelow m scale * 10 ^ scale + decimalUnits m % 10 ^ scale = decimalUnits m := by
    rw [pointBelow, Nat.pow_eq, Nat.div_add_mod']
  have hmod : decimalUnits m % 10 ^ scale < 10 ^ scale := Nat.mod_lt _ (Nat.pow_pos (by decide))
  constructor
  · intro hsome
    obtain ⟨point, hpoint⟩ := Option.isSome_iff_exists.1 hsome
    exact ⟨point, readsBack_of_gridPoint?_eq_some hpoint⟩
  · rintro ⟨point, hpoint⟩
    apply isSome_gridPoint?_of_readsBack
    rw [readsBack_iff] at hpoint ⊢
    rw [readsBack_iff]
    rcases Nat.lt_or_ge (pointBelow m scale) point with hlt | hge
    · right
      have habove : pointBelow m scale + 1 ≤ point := hlt
      have hle : decimalUnits m ≤ (pointBelow m scale + 1) * 10 ^ scale := by
        rw [Nat.succ_mul]
        omega
      have hlow := nearest_mono unitSteps_pos hle
      have hhigh := nearest_mono unitSteps_pos (Nat.mul_le_mul_right (10 ^ scale) habove)
      omega
    · left
      have hle : pointBelow m scale * 10 ^ scale ≤ decimalUnits m := by omega
      have hlow := nearest_mono unitSteps_pos (Nat.mul_le_mul_right (10 ^ scale) hge)
      have hhigh := nearest_mono unitSteps_pos hle
      omega

lemma le_coarsestGrid {start : Nat} (hsome : (gridPoint? m scale).isSome = true)
    (hstart : scale ≤ start) : scale ≤ coarsestGrid m start := by
  induction start with
  | zero => exact Nat.le_trans hstart (Nat.zero_le _)
  | succ start ih =>
      rw [coarsestGrid]
      split_ifs with hgrid
      · exact hstart
      · apply ih
        rcases Nat.lt_or_eq_of_le hstart with hlt | rfl
        · exact Nat.le_of_lt_succ hlt
        · exact absurd hsome hgrid

/-! ### Grids beyond the value -/

lemma exists_units_eq_double (m : Nat) : ∃ m', units m' = 2 * units m := by
  obtain ⟨r, exponent, hr, hnormal, heq⟩ := exists_units_eq m
  rcases Nat.lt_or_ge r (2 ^ 52) with hlt | hge
  · have hzero : exponent = 0 := hnormal.resolve_right (Nat.not_le_of_lt hlt)
    subst hzero
    refine ⟨2 * r + 0 * 2 ^ 52, ?_⟩
    rw [units_add_mul (by omega) (.inl rfl), heq]
    ring
  · refine ⟨r + (exponent + 1) * 2 ^ 52, ?_⟩
    rw [units_add_mul (Nat.le_of_lt hr) (.inr hge), heq]
    ring

lemma units_pos (hm : m ≠ 0) (h : m < infinityMagnitude) : 0 < units m := by
  by_contra hzero
  have hnearest := nearest_units h
  rw [Nat.eq_zero_of_not_pos hzero, nearest_eq_zero Nat.one_pos] at hnearest
  exact hm hnearest.symm

/-- Twice the value of a magnitude is read as a greater one. -/
lemma nearest_double_ne (hm : m ≠ 0) (h : m < infinityMagnitude) :
    nearest (2 * units m) 1 ≠ m := by
  intro heq
  obtain ⟨m', hm'⟩ := exists_units_eq_double m
  have hfinite : nearest (2 * units m) 1 < infinityMagnitude := by rwa [heq]
  have hclosest := nearest_closest Nat.one_pos hfinite m'
  have hpos := units_pos hm h
  rw [heq, hm', Nat.mul_one, Nat.mul_one, Nat.dist_self] at hclosest
  unfold Nat.dist at hclosest
  omega

lemma lt_double_of_readsBack (hm : m ≠ 0) (h : m < infinityMagnitude)
    (hpoint : readsBack m scale point = true) : 10 ^ scale < 2 * decimalUnits m := by
  rw [readsBack_iff] at hpoint
  have hpos : 0 < point := by
    by_contra hzero
    rw [Nat.eq_zero_of_not_pos hzero, Nat.zero_mul, nearest_eq_zero unitSteps_pos] at hpoint
    exact hm hpoint.symm
  by_contra hge
  have hle : 2 * decimalUnits m ≤ point * 10 ^ scale :=
    Nat.le_trans (Nat.le_of_not_lt hge) (Nat.le_mul_of_pos_left _ hpos)
  have hhigh := nearest_mono unitSteps_pos hle
  have hlow := nearest_mono unitSteps_pos (Nat.le_mul_of_pos_left (decimalUnits m) Nat.two_pos)
  have hdouble : nearest (2 * decimalUnits m) unitSteps = nearest (2 * units m) 1 := by
    apply nearest_congr unitSteps_pos Nat.one_pos
    rw [decimalUnits, Nat.mul_one, Nat.mul_assoc]
  have hvalue := nearest_decimalUnits h
  apply nearest_double_ne hm h
  omega

/-- The search starts beyond every grid that has a point. -/
lemma le_length_of_readsBack (hm : m ≠ 0) (h : m < infinityMagnitude)
    (hpoint : readsBack m scale point = true) :
    scale ≤ (Numeral.ofNat (decimalUnits m)).length := by
  by_contra hlt
  have hlen := lt_pow_length (decimalUnits m)
  have hdouble := lt_double_of_readsBack hm h hpoint
  have hpow : 10 ^ ((Numeral.ofNat (decimalUnits m)).length + 1) ≤ 10 ^ scale :=
    Nat.pow_le_pow_right (by decide) (Nat.lt_of_not_le hlt)
  rw [Nat.pow_succ] at hpow
  omega

/-! ### The shortest number -/

lemma shortest_exponent (hm : m ≠ 0) :
    (shortest m).exponent =
      coarsestGrid m (Numeral.ofNat (decimalUnits m)).length - (1074 : Int) := by
  rw [shortest, if_neg hm]

/-- No decimal number with a greater exponent is read as the magnitude. -/
theorem exponent_le_shortest (hm : m ≠ 0) (h : m < infinityMagnitude) (hd : magnitudeOf d = m) :
    d.exponent ≤ (shortest m).exponent := by
  rw [shortest_exponent hm]
  rcases lt_or_ge d.exponent (-1074) with hlt | hge
  · omega
  · obtain ⟨scale, hscale⟩ : ∃ scale : Nat, d.exponent = scale - 1074 :=
      ⟨(d.exponent + 1074).toNat, by omega⟩
    have hpoint : readsBack m scale d.coefficient = true := by
      rw [readsBack_iff_magnitudeOf, ← hscale]
      exact hd
    have hsome := (isSome_gridPoint?_iff h).2 ⟨d.coefficient, hpoint⟩
    have hle := le_coarsestGrid hsome (le_length_of_readsBack hm h hpoint)
    omega

lemma magnitudeOf_le_of_coefficient_le {c c' : Nat} (e : Int) (h : c ≤ c') :
    magnitudeOf ⟨c, e⟩ ≤ magnitudeOf ⟨c', e⟩ :=
  magnitudeOf_le (Nat.mul_le_mul_right _ (Nat.mul_le_mul_right _ h))

lemma magnitudeOf_le_of_exponent_le (c : Nat) {e e' : Int} (h : e ≤ e') :
    magnitudeOf ⟨c, e⟩ ≤ magnitudeOf ⟨c, e'⟩ := by
  apply magnitudeOf_le
  rw [Nat.mul_assoc, Nat.mul_assoc, ← Nat.pow_add, ← Nat.pow_add]
  apply Nat.mul_le_mul_left
  apply Nat.pow_le_pow_right (by decide)
  dsimp only
  omega

/-- A power of ten in the coefficient is one in the exponent. -/
lemma magnitudeOf_pow (n : Nat) (e : Int) : magnitudeOf ⟨10 ^ n, e⟩ = magnitudeOf ⟨1, e + n⟩ := by
  have heq : 10 ^ n * 10 ^ e.toNat * 10 ^ (-(e + n)).toNat =
      1 * 10 ^ (e + n).toNat * 10 ^ (-e).toNat := by
    rw [Nat.one_mul, ← Nat.pow_add, ← Nat.pow_add, ← Nat.pow_add]
    congr 1
    omega
  exact Nat.le_antisymm (magnitudeOf_le (Nat.le_of_eq heq)) (magnitudeOf_le (Nat.le_of_eq heq.symm))

/-- A power of ten lies between a number with few digits and one with more digits that do not reach
further down, so it is read as what both are read as. -/
lemma magnitudeOf_pow_of_length_lt {s : Decimal} (hs : magnitudeOf s = m) (hd : magnitudeOf d = m)
    (hexp : d.exponent ≤ s.exponent)
    (hlen : (Numeral.ofNat d.coefficient).length < (Numeral.ofNat s.coefficient).length) :
    magnitudeOf ⟨1, s.exponent + (Numeral.ofNat d.coefficient).length⟩ = m := by
  obtain ⟨c, e⟩ := d
  obtain ⟨c', e'⟩ := s
  dsimp only at hexp hlen ⊢
  have hn : 0 < (Numeral.ofNat c).length := Nat.length_toDigits_pos
  have hc' : c' ≠ 0 := by
    rintro rfl
    exact absurd hlen (Nat.not_lt_of_le hn)
  have hlow : c ≤ 10 ^ (Numeral.ofNat c).length := Nat.le_of_lt (lt_pow_length c)
  have hhigh : 10 ^ (Numeral.ofNat c).length ≤ c' :=
    le_trans (Nat.pow_le_pow_right (by decide) (by omega)) (pow_length_le hc')
  rw [← magnitudeOf_pow]
  apply le_antisymm
  · calc magnitudeOf ⟨10 ^ (Numeral.ofNat c).length, e'⟩
        ≤ magnitudeOf ⟨c', e'⟩ := magnitudeOf_le_of_coefficient_le e' hhigh
      _ = m := hs
  · calc m
        = magnitudeOf ⟨c, e⟩ := hd.symm
      _ ≤ magnitudeOf ⟨c, e'⟩ := magnitudeOf_le_of_exponent_le c hexp
      _ ≤ magnitudeOf ⟨10 ^ (Numeral.ofNat c).length, e'⟩ := magnitudeOf_le_of_coefficient_le e' hlow

/-- No decimal number with fewer digits is read as the magnitude. -/
theorem shortest_length_le (hm : m ≠ 0) (h : m < infinityMagnitude) (hd : magnitudeOf d = m) :
    (Numeral.ofNat (shortest m).coefficient).length ≤ (Numeral.ofNat d.coefficient).length := by
  by_contra hlt
  have hn : 0 < (Numeral.ofNat d.coefficient).length := Nat.length_toDigits_pos
  have hpow := magnitudeOf_pow_of_length_lt (magnitudeOf_shortest h) hd
    (exponent_le_shortest hm h hd) (Nat.lt_of_not_le hlt)
  have hexp := exponent_le_shortest hm h hpow
  dsimp only at hexp
  omega

end RespWire.Binary64
