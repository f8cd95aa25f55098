import RespWire.Proofs.Number.Numeral

/-!
# Numerals with a sign

A text is read as a signed word if it is digits, with or without a sign, whose value fits. So the
readers of signed and of unsigned words agree, except that only the former reads a minus sign, also
in front of zero. What is written for an integer has a sign only where it is needed.
-/

namespace RespWire.Numeral

variable {cs : List Char} {k : Nat} {value : Int} {t : String}

/-! ### Numerals that are read -/

/-- Digits, with or without a sign in front. -/
inductive SpellsSigned : List Char → Int → Prop where
  | unsigned {cs : List Char} {n : Nat} (h : Spells cs n) : SpellsSigned cs n
  | minus {cs : List Char} {n : Nat} (h : Denotes cs n) : SpellsSigned ('-' :: cs) (-n)

lemma Spells.head?_ne (h : Spells cs k) : cs.head? ≠ some '-' := by
  intro hhead
  rcases h.isDigit_or_eq_plus _ (List.mem_of_head? hhead) with hdigit | hplus
  · exact absurd hdigit (by decide)
  · exact absurd hplus (by decide)

lemma signed?_of_head?_ne (h : cs.head? ≠ some '-') :
    signed? cs = (unsigned? cs).map Int.ofNat := by
  rw [signed?]
  rintro ds rfl
  exact h rfl

lemma signed?_minus (cs : List Char) :
    signed? ('-' :: cs) = (digits? cs).map fun n : Nat => -(n : Int) := by
  rw [signed?]
  cases digits? cs <;> rfl

lemma signed?_eq_some_iff : signed? cs = some value ↔ SpellsSigned cs value := by
  constructor
  · intro h
    by_cases hsign : cs.head? = some '-'
    · obtain ⟨ds, rfl⟩ := List.head?_eq_some_iff.1 hsign
      rw [signed?_minus] at h
      obtain ⟨n, hn, rfl⟩ := Option.map_eq_some_iff.1 h
      exact .minus (digits?_eq_some_iff.1 hn)
    · rw [signed?_of_head?_ne hsign] at h
      obtain ⟨n, hn, rfl⟩ := Option.map_eq_some_iff.1 h
      exact .unsigned (unsigned?_eq_some_iff.1 hn)
  · rintro (h | h)
    · rw [signed?_of_head?_ne h.head?_ne, unsigned?_eq_some_iff.2 h]
      rfl
    · rw [signed?_minus, digits?_eq_some_iff.2 h]
      rfl

lemma SpellsSigned.exists_spells (h : SpellsSigned cs value) (hsign : cs.head? ≠ some '-') :
    ∃ n : Nat, Spells cs n ∧ value = n := by
  cases h with
  | unsigned h => exact ⟨_, h, rfl⟩
  | minus h => exact absurd rfl hsign

/-- Behind a minus sign the only value that is not negative is zero. -/
lemma SpellsSigned.eq_zero (h : SpellsSigned cs value) (hsign : cs.head? = some '-')
    (hvalue : 0 ≤ value) : value = 0 := by
  cases h with
  | unsigned h => exact absurd hsign h.head?_ne
  | minus h => omega

lemma int64?_eq_some_iff {n : Int64} : int64? t = some n ↔ SpellsSigned t.toList n.toInt := by
  rw [int64?, Option.bind_eq_some_iff]
  constructor
  · rintro ⟨m, hm, hn⟩
    rw [Option.ite_none_right_eq_some] at hn
    obtain ⟨⟨hlow, hhigh⟩, hn⟩ := hn
    rw [← Option.some.inj hn, Int64.toInt_ofInt_of_le hlow (Int.lt_of_le_of_lt hhigh (by decide))]
    exact signed?_eq_some_iff.1 hm
  · intro h
    refine ⟨_, signed?_eq_some_iff.2 h, ?_⟩
    rw [if_pos ⟨n.minValue_le_toInt, n.toInt_le⟩, Int64.ofInt_toInt]

/-! ### Values that fit -/

lemma exists_int64?_iff : (∃ n, int64? t = some n ∧ n.toInt = value) ↔
    SpellsSigned t.toList value ∧ -2 ^ 63 ≤ value ∧ value < 2 ^ 63 := by
  simp only [int64?_eq_some_iff]
  constructor
  · rintro ⟨n, h, rfl⟩
    exact ⟨h, n.le_toInt, n.toInt_lt⟩
  · rintro ⟨h, hlow, hhigh⟩
    have hvalue : (Int64.ofInt value).toInt = value := Int64.toInt_ofInt_of_le hlow hhigh
    exact ⟨.ofInt value, by rwa [hvalue], hvalue⟩

lemma exists_uint16?_iff : (∃ n, uint16? t = some n ∧ n.toNat = k) ↔
    Spells t.toList k ∧ k ≤ 65535 := by
  simp only [uint16?_eq_some_iff]
  constructor
  · rintro ⟨n, h, rfl⟩
    exact ⟨h, Nat.le_of_lt_succ n.toNat_lt⟩
  · rintro ⟨h, hk⟩
    have hvalue : (UInt16.ofNat k).toNat = k := UInt16.toNat_ofNat_of_lt' (Nat.lt_succ_of_le hk)
    exact ⟨.ofNat k, by rwa [hvalue], hvalue⟩

/-- What is read as an unsigned word is read as the signed word of the same value. -/
lemma exists_int64?_of_uint16? {n : UInt16} (h : uint16? t = some n) :
    ∃ m, int64? t = some m ∧ m.toInt = n.toNat := by
  have hlt : n.toNat < 2 ^ 16 := n.toNat_lt
  exact exists_int64?_iff.2 ⟨.unsigned (uint16?_eq_some_iff.1 h), by omega, by omega⟩

/-- Without a minus sign a small enough value is read as an unsigned word too. -/
lemma exists_uint16?_of_int64? {n : Int64} (h : int64? t = some n) (hle : n.toInt ≤ 65535)
    (hsign : t.toList.head? ≠ some '-') : ∃ m, uint16? t = some m ∧ (m.toNat : Int) = n.toInt := by
  obtain ⟨k, hk, hvalue⟩ := (int64?_eq_some_iff.1 h).exists_spells hsign
  obtain ⟨m, hm, rfl⟩ := exists_uint16?_iff.2 ⟨hk, by omega⟩
  exact ⟨m, hm, hvalue.symm⟩

lemma uint16?_of_minus (hsign : t.toList.head? = some '-') : uint16? t = none := by
  rw [Option.eq_none_iff_forall_ne_some]
  intro n h
  exact (uint16?_eq_some_iff.1 h).head?_ne hsign

/-! ### Canonical numerals -/

/-- A canonical numeral of digits, with a minus sign in front only if it is not zero. -/
inductive IsCanonicalSigned : List Char → Prop where
  | unsigned {cs : List Char} (h : IsCanonical cs) : IsCanonicalSigned cs
  | minus {cs : List Char} (h : IsCanonical cs) (hzero : cs ≠ ['0']) : IsCanonicalSigned ('-' :: cs)

lemma isCanonicalSigned_ofInt (n : Int) : IsCanonicalSigned (ofInt n) := by
  cases n with
  | ofNat n => exact .unsigned (isCanonical_ofNat n)
  | negSucc n =>
    refine .minus (isCanonical_ofNat (n + 1)) fun hzero => ?_
    have hread := digits?_ofNat (n + 1)
    rw [hzero] at hread
    cases hread

lemma spellsSigned_ofInt (n : Int) : SpellsSigned (ofInt n) n :=
  signed?_eq_some_iff.1 (signed?_ofInt n)

/-- A canonical numeral is the one that is written for the integer it spells. -/
lemma eq_ofInt_of_spellsSigned (hcs : IsCanonicalSigned cs) (h : SpellsSigned cs value) :
    cs = ofInt value := by
  cases h with
  | unsigned h =>
    cases hcs with
    | unsigned hcs => exact ((h.denotes hcs.isDigit).ofNat_eq hcs).symm
    | minus => exact absurd rfl h.head?_ne
  | @minus ds n h =>
    cases hcs with
    | unsigned hcs => exact absurd (hcs.isDigit '-' List.mem_cons_self) (by decide)
    | minus hds hzero =>
      have hdigits := h.ofNat_eq hds
      have hn : n ≠ 0 := by
        rintro rfl
        exact hzero hdigits.symm
      rw [ofInt_eq, if_pos (by omega), Int.natAbs_neg, Int.natAbs_natCast, hdigits]

end RespWire.Numeral
