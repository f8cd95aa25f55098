import RespWire.Number.Shortest
import RespWire.Proofs.Number.Reading

/-!
# Text of a double read back

The decimal number found for a finite magnitude reads back as it on whatever grid the search stops,
so the text of a double reads back as the double. Values that are no number lose sign and payload.
-/

namespace RespWire.Binary64

variable {m scale point : Nat}

/-! ### The search -/

lemma unitSteps_eq : unitSteps = 5 ^ 1074 := by decide +kernel

lemma unitSteps_pos : 0 < unitSteps := by decide +kernel

lemma readsBack_iff :
    readsBack m scale point = true ↔ nearest (point * 10 ^ scale) unitSteps = m := by
  rw [readsBack, decide_eq_true_eq, Nat.pow_eq]

/-- The finest grid has the value itself. -/
lemma readsBack_decimalUnits (h : m < infinityMagnitude) : readsBack m 0 (decimalUnits m) = true := by
  rw [readsBack_iff, decimalUnits, Nat.pow_zero, Nat.mul_one]
  calc nearest (units m * unitSteps) unitSteps
      = nearest (units m) 1 := nearest_congr unitSteps_pos Nat.one_pos (Nat.mul_one _)
    _ = m := nearest_units h

lemma readsBack_of_gridPoint?_eq_some (h : gridPoint? m scale = some point) :
    readsBack m scale point = true := by
  rw [gridPoint?] at h
  split_ifs at h with hbelow habove
  · have hpoint := Option.some.inj h
    rw [← hpoint]
    exact (Bool.and_eq_true_iff.1 hbelow).1
  · have hpoint := Option.some.inj h
    rw [← hpoint]
    exact habove

lemma coarsestGrid_cases (m start : Nat) :
    coarsestGrid m start = 0 ∨ (gridPoint? m (coarsestGrid m start)).isSome = true := by
  induction start with
  | zero => exact .inl rfl
  | succ start ih =>
      rw [coarsestGrid]
      split_ifs with h
      · exact .inr h
      · exact ih

/-- On whatever grid the search stops, its point reads back. -/
lemma readsBack_getD_gridPoint? (h : m < infinityMagnitude) (start : Nat) :
    readsBack m (coarsestGrid m start)
      ((gridPoint? m (coarsestGrid m start)).getD (decimalUnits m)) = true := by
  cases hgrid : gridPoint? m (coarsestGrid m start) with
  | some point => exact readsBack_of_gridPoint?_eq_some hgrid
  | none =>
      rcases coarsestGrid_cases m start with hzero | hsome
      · rw [hzero]
        exact readsBack_decimalUnits h
      · rw [hgrid] at hsome
        cases hsome

/-! ### Reading the result -/

/-- A fraction of powers of ten and its units of `2 ^ -n` against a grid of steps `10 ^ -n`. -/
lemma nearest_shiftLeft {a b n steps : Nat} (hsteps : steps = 5 ^ n) (h : a + n = scale + b) :
    nearest ((point * 10 ^ a) <<< n) (10 ^ b) = nearest (point * 10 ^ scale) steps := by
  have hpos : 0 < steps := by
    rw [hsteps]
    exact Nat.pow_pos (by decide)
  apply nearest_congr (Nat.pow_pos (by decide)) hpos
  rw [Nat.shiftLeft_eq, hsteps, Nat.mul_assoc, ← Nat.mul_pow, Nat.mul_assoc, ← Nat.pow_add, h,
    Nat.pow_add, Nat.mul_assoc]

lemma readsBack_iff_magnitudeOf :
    readsBack m scale point = true ↔ magnitudeOf ⟨point, scale - 1074⟩ = m := by
  have hexp : ((scale : Int) - 1074).toNat + 1074 = scale + (-((scale : Int) - 1074)).toNat := by
    omega
  rw [readsBack_iff, magnitudeOf, nearest_shiftLeft unitSteps_eq hexp]

/-- The shortest decimal number is read as the magnitude it was found for. -/
lemma magnitudeOf_shortest (h : m < infinityMagnitude) : magnitudeOf (shortest m) = m := by
  rw [shortest]
  split_ifs with h0
  · rw [h0, magnitudeOf, Nat.zero_mul, Nat.zero_shiftLeft,
      nearest_eq_zero (Nat.pow_pos (by decide))]
  · exact readsBack_iff_magnitudeOf.1 (readsBack_getD_gridPoint? h _)

lemma magnitudeOf_mul_pow (d : Decimal) :
    magnitudeOf ⟨d.coefficient * 10 ^ d.exponent.toNat, min d.exponent 0⟩ = magnitudeOf d := by
  have hzero : (min d.exponent 0).toNat = 0 := by omega
  have hneg : (-min d.exponent 0).toNat = (-d.exponent).toNat := by omega
  rw [magnitudeOf, magnitudeOf, hzero, hneg, Nat.pow_zero, Nat.mul_one]

lemma unsigned?_positional (negative : Bool) (d : Decimal) :
    unsigned? negative d.positional = some (ofMagnitude negative (magnitudeOf d)) := by
  rw [unsigned?_of_digits fun c hc => Decimal.isDigit_or_eq_point_of_mem_positional hc,
    Decimal.read?_positional, Option.map_some, ofDecimal_eq, magnitudeOf_mul_pow]

/-! ### Text -/

lemma unsigned?_inf (negative : Bool) :
    unsigned? negative "inf".toList = some (infinity negative) := rfl

/-- The text of a number is a sign and characters that read as the number with that sign. -/
lemma exists_toText_eq {x : Binary64} (hx : x.isNaN = false) :
    ∃ cs, x.toText.toList = (if x.isNegative then '-' :: cs else cs) ∧
      (∀ c ∈ cs, c.isDigit = true ∨ c ∈ ['.', 'i', 'n', 'f']) ∧
      unsigned? x.isNegative cs = some x := by
  by_cases hinf : x.magnitude = infinityMagnitude
  · refine ⟨"inf".toList, ?_, ?_, ?_⟩
    · simp only [toText, hx, hinf, Bool.false_eq_true, ↓reduceIte, String.toList_ofList]
    · intro c hc
      exact .inr (List.mem_cons_of_mem _ hc)
    · rw [unsigned?_inf, infinity, ← hinf, ofMagnitude_isNegative_magnitude]
  · have hlt : x.magnitude < infinityMagnitude := by
      simp only [isNaN, decide_eq_false_iff_not, Nat.not_lt] at hx
      exact Nat.lt_of_le_of_ne hx hinf
    refine ⟨(shortest x.magnitude).positional, ?_, ?_, ?_⟩
    · simp only [toText, hx, hinf, Bool.false_eq_true, ↓reduceIte, String.toList_ofList]
    · intro c hc
      rcases Decimal.isDigit_or_eq_point_of_mem_positional hc with h | rfl
      · exact .inl h
      · exact .inr List.mem_cons_self
    · rw [unsigned?_positional, magnitudeOf_shortest hlt, ofMagnitude_isNegative_magnitude]

/-- A double without the sign and payload of what is not a number. -/
def canonical (x : Binary64) : Binary64 := if x.isNaN then ⟨0x7FF8000000000000⟩ else x

lemma canonical_of_not_isNaN {x : Binary64} (h : x.isNaN = false) : x.canonical = x := by
  simp [canonical, h]

lemma read?_toText (x : Binary64) : read? x.toText.toList = some x.canonical := by
  cases hx : x.isNaN with
  | true =>
      rw [toText, canonical, if_pos hx, if_pos hx]
      rfl
  | false =>
      obtain ⟨cs, htext, hcs, hread⟩ := exists_toText_eq hx
      have hminus : '-' ∉ cs := fun h => by rcases hcs _ h with h | h <;> revert h <;> decide
      have hplus : '+' ∉ cs := fun h => by rcases hcs _ h with h | h <;> revert h <;> decide
      rw [htext, read?_of_notMem_sign _ hminus hplus, hread, canonical_of_not_isNaN hx]

/-- A visible character of ASCII. -/
def IsGraphic (c : Char) : Prop := 0x20 < c.toNat ∧ c.toNat < 0x7F

lemma isGraphic_of_isDigit {c : Char} (h : c.isDigit = true) : IsGraphic c := by
  simp only [Char.isDigit, Bool.and_eq_true, decide_eq_true_eq, ge_iff_le, UInt32.le_iff_toNat_le]
    at h
  have hlow : '0'.val.toNat = 0x30 := rfl
  have hhigh : '9'.val.toNat = 0x39 := rfl
  have hval : c.val.toNat = c.toNat := rfl
  constructor <;> omega

/-- The characters of texts of doubles that are not digits. -/
def marks : List Char := ['-', '.', 'i', 'n', 'f', 'N', 'a']

lemma isGraphic_of_mem_marks {c : Char} (h : c ∈ marks) : IsGraphic c := by
  simp only [marks, List.mem_cons, List.not_mem_nil, or_false] at h
  rcases h with rfl | rfl | rfl | rfl | rfl | rfl | rfl <;> exact ⟨by decide, by decide⟩

lemma isDigit_or_mem_marks_of_mem_toText {x : Binary64} {c : Char} (h : c ∈ x.toText.toList) :
    c.isDigit = true ∨ c ∈ marks := by
  cases hx : x.isNaN with
  | true =>
      rw [toText, if_pos hx] at h
      have hname : "NaN".toList ⊆ marks := by decide
      exact .inr (hname h)
  | false =>
      obtain ⟨cs, htext, hcs, -⟩ := exists_toText_eq hx
      have hmem : c = '-' ∨ c ∈ cs := by
        rw [htext] at h
        split_ifs at h
        · exact List.mem_cons.1 h
        · exact .inr h
      rcases hmem with rfl | hmem
      · exact .inr List.mem_cons_self
      · have hmarks : ['.', 'i', 'n', 'f'] ⊆ marks := by decide
        exact (hcs c hmem).imp_right (@hmarks c)

/-- The text of a double has no blanks and nothing beyond ASCII. -/
lemma isGraphic_of_mem_toText {x : Binary64} {c : Char} (h : c ∈ x.toText.toList) :
    IsGraphic c := by
  rcases isDigit_or_mem_marks_of_mem_toText h with h | h
  · exact isGraphic_of_isDigit h
  · exact isGraphic_of_mem_marks h

end RespWire.Binary64
