import Mathlib.Data.List.Basic
import Mathlib.Data.List.Induction
import Mathlib.Tactic.Ring
import RespWire.Number.Numeral

/-!
# Numerals read back

A numeral is made of digits with at most one sign in front, and reading it gives the integer again,
so different integers have different numerals. Digits without superfluous zeros are the numeral of
their value. A text is read as an unsigned word if it is digits, with or without a plus sign, whose
value fits.
-/

namespace RespWire.Numeral

lemma isDigit_of_mem_ofNat {n : Nat} {c : Char} (h : c ∈ ofNat n) : c.isDigit = true :=
  Nat.isDigit_of_mem_toDigits (by decide) (by decide) h

lemma ofNat_ne_nil (n : Nat) : ofNat n ≠ [] := Nat.toDigits_ne_nil

lemma mem_ofInt {n : Int} {c : Char} (h : c ∈ ofInt n) : c.isDigit = true ∨ c = '-' := by
  cases n with
  | ofNat n => exact .inl (isDigit_of_mem_ofNat h)
  | negSucc n =>
    rcases List.mem_cons.1 h with rfl | h
    · exact .inr rfl
    · exact .inl (isDigit_of_mem_ofNat h)

lemma digits?_of_all {cs : List Char} (hne : cs ≠ []) (h : ∀ c ∈ cs, c.isDigit = true) :
    digits? cs = some (Nat.ofDigitChars 10 cs 0) := by
  have hall : (!cs.isEmpty && cs.all Char.isDigit) = true := by
    simp only [Bool.and_eq_true, Bool.not_eq_true', List.isEmpty_eq_false_iff, List.all_eq_true]
    exact ⟨hne, h⟩
  rw [digits?, if_pos hall]

@[simp] lemma digits?_ofNat (n : Nat) : digits? (ofNat n) = some n := by
  rw [digits?_of_all (ofNat_ne_nil n) fun c hc => isDigit_of_mem_ofNat hc, ofNat,
    Nat.ofDigitChars_ten_toDigits]

/-- Digits are read without a look for signs. -/
lemma unsigned?_of_isDigit {cs : List Char} (h : ∀ c ∈ cs, c.isDigit = true) :
    unsigned? cs = digits? cs := by
  rw [unsigned?]
  rintro cs rfl
  cases h '+' List.mem_cons_self

lemma signed?_of_isDigit {cs : List Char} (h : ∀ c ∈ cs, c.isDigit = true) :
    signed? cs = (digits? cs).map Int.ofNat := by
  rw [signed?, unsigned?_of_isDigit h]
  rintro cs rfl
  cases h '-' List.mem_cons_self

lemma signed?_ofNat (n : Nat) : signed? (ofNat n) = some (n : Int) := by
  rw [signed?_of_isDigit fun c hc => isDigit_of_mem_ofNat hc, digits?_ofNat]
  rfl

lemma signed?_ofInt (n : Int) : signed? (ofInt n) = some n := by
  cases n with
  | ofNat n => exact signed?_ofNat n
  | negSucc n =>
    rw [ofInt, signed?, digits?_ofNat]
    rfl

lemma text_injective : Function.Injective text := by
  intro m n h
  have hd : ofInt m = ofInt n := String.ofList_injective h
  have hs := signed?_ofInt m
  rw [hd, signed?_ofInt] at hs
  exact (Option.some.inj hs).symm

lemma int64?_text (n : Int64) : int64? (text n.toInt) = some n := by
  rw [int64?, text, String.toList_ofList, signed?_ofInt, Option.bind_some,
    if_pos ⟨n.minValue_le_toInt, n.toInt_le⟩, Int64.ofInt_toInt]

lemma text_natCast (n : Nat) : text n = String.ofList (ofNat n) := rfl

lemma ofInt_eq (n : Int) : ofInt n = if n < 0 then '-' :: ofNat n.natAbs else ofNat n.natAbs := by
  cases n with
  | ofNat n => exact (if_neg (Int.not_lt.2 (Int.natCast_nonneg n))).symm
  | negSucc n => exact (if_pos (Int.negSucc_lt_zero n)).symm

lemma ofInt_ne_nil (n : Int) : ofInt n ≠ [] := by
  rw [ofInt_eq]
  split_ifs
  · exact List.cons_ne_nil _ _
  · exact ofNat_ne_nil _

/-! ### Digits one after another -/

lemma ofNat_ten_mul_add {n d : Nat} (hn : n ≠ 0) (hd : d < 10) :
    ofNat (10 * n + d) = ofNat n ++ [d.digitChar] := by
  rw [ofNat, ofNat, ← Nat.toDigits_append_toDigits (by decide) (Nat.pos_of_ne_zero hn) hd,
    Nat.toDigits_of_lt_base hd]

lemma ofNat_mul_ten_pow {n : Nat} (hn : n ≠ 0) (e : Nat) :
    ofNat (n * 10 ^ e) = ofNat n ++ List.replicate e '0' := by
  induction e with
  | zero => simp
  | succ e ih =>
    have hne : n * 10 ^ e ≠ 0 := Nat.mul_ne_zero hn (Nat.ne_of_gt (Nat.pow_pos (by decide)))
    have hmul : n * 10 ^ (e + 1) = 10 * (n * 10 ^ e) + 0 := by
      rw [Nat.pow_succ, ← Nat.mul_assoc, Nat.mul_comm, Nat.add_zero]
    rw [hmul, ofNat_ten_mul_add hne (by decide), ih, List.append_assoc, List.replicate_succ']
    rfl

/-! ### Numerals that are read -/

/-- Digits, one or more of them, and the number that they stand for. -/
inductive Denotes : List Char → Nat → Prop where
  | digit {d : Nat} (h : d < 10) : Denotes [d.digitChar] d
  | append {cs : List Char} {n d : Nat} (h : Denotes cs n) (hd : d < 10) :
    Denotes (cs ++ [d.digitChar]) (10 * n + d)

/-- Digits, with or without a plus sign in front. -/
inductive Spells : List Char → Nat → Prop where
  | plain {cs : List Char} {n : Nat} (h : Denotes cs n) : Spells cs n
  | plus {cs : List Char} {n : Nat} (h : Denotes cs n) : Spells ('+' :: cs) n

variable {cs : List Char} {n : Nat}

lemma Denotes.ne_nil (h : Denotes cs n) : cs ≠ [] := by
  cases h <;> simp

lemma Denotes.isDigit (h : Denotes cs n) : ∀ c ∈ cs, c.isDigit = true := by
  have hchar : ∀ d < 10, d.digitChar.isDigit = true := by decide
  induction h with
  | digit hd => simpa using hchar _ hd
  | append _ hd ih =>
    intro c hc
    rcases List.mem_append.1 hc with hc | hc
    · exact ih c hc
    · rw [List.mem_singleton.1 hc]
      exact hchar _ hd

lemma Denotes.ofDigitChars_eq (h : Denotes cs n) : Nat.ofDigitChars 10 cs 0 = n := by
  induction h with
  | digit hd =>
    rw [Nat.ofDigitChars_cons_digitChar_of_lt_ten hd, Nat.ofDigitChars_nil]
    exact Nat.zero_add _
  | append _ hd ih =>
    rw [Nat.ofDigitChars_append, ih, Nat.ofDigitChars_cons_digitChar_of_lt_ten hd,
      Nat.ofDigitChars_nil]

lemma exists_digitChar_eq {c : Char} (h : c.isDigit = true) : ∃ d < 10, d.digitChar = c := by
  obtain ⟨hlow, hhigh⟩ : 48 ≤ c.toNat ∧ c.toNat ≤ 57 := by
    simpa [Char.isDigit, UInt32.le_iff_toNat_le] using h
  have hd : ∀ d < 10, d.digitChar = Char.ofNat (d + 48) := by decide
  refine ⟨c.toNat - 48, by omega, ?_⟩
  rw [hd _ (by omega), Nat.sub_add_cancel hlow, Char.ofNat_toNat]

lemma denotes_ofDigitChars (hne : cs ≠ []) (h : ∀ c ∈ cs, c.isDigit = true) :
    Denotes cs (Nat.ofDigitChars 10 cs 0) := by
  induction cs using List.reverseRecOn with
  | nil => exact absurd rfl hne
  | append_singleton ds c ih =>
    obtain ⟨d, hd, rfl⟩ := exists_digitChar_eq (h c (by simp))
    rw [Nat.ofDigitChars_append, Nat.ofDigitChars_cons_digitChar_of_lt_ten hd,
      Nat.ofDigitChars_nil]
    by_cases hds : ds = []
    · subst hds
      simpa using Denotes.digit hd
    · exact .append (ih hds fun c hc => h c (by simp [hc])) hd

lemma digits?_eq_some_iff : digits? cs = some n ↔ Denotes cs n := by
  constructor
  · intro h
    rw [digits?, Option.ite_none_right_eq_some] at h
    obtain ⟨hall, hn⟩ := h
    simp only [Bool.and_eq_true, Bool.not_eq_true', List.isEmpty_eq_false_iff,
      List.all_eq_true] at hall
    rw [← Option.some.inj hn]
    exact denotes_ofDigitChars hall.1 hall.2
  · intro h
    rw [digits?_of_all h.ne_nil h.isDigit, h.ofDigitChars_eq]

/-- What is written for a number stands for it. -/
lemma denotes_ofNat (n : Nat) : Denotes (ofNat n) n := digits?_eq_some_iff.1 (digits?_ofNat n)

lemma Spells.denotes (h : Spells cs n) (hdigits : ∀ c ∈ cs, c.isDigit = true) : Denotes cs n := by
  cases h with
  | plain h => exact h
  | plus h => exact absurd (hdigits '+' List.mem_cons_self) (by decide)

lemma unsigned?_eq_some_iff : unsigned? cs = some n ↔ Spells cs n := by
  constructor
  · intro h
    unfold unsigned? at h
    split at h
    · exact .plus (digits?_eq_some_iff.1 h)
    · exact .plain (digits?_eq_some_iff.1 h)
  · rintro (h | h)
    · rw [unsigned?_of_isDigit h.isDigit, digits?_eq_some_iff]
      exact h
    · exact digits?_eq_some_iff.2 h

/-- Digits are read as a word if their value is not too great for it. -/
lemma bind_unsigned?_eq_some_iff {ω : Type} {size : Nat} {ofNat : Nat → ω} {toNat : ω → Nat}
    (hof : ∀ n < size, toNat (ofNat n) = n) (hto : ∀ w, ofNat (toNat w) = w)
    (hlt : ∀ w, toNat w < size) {w : ω} :
    ((unsigned? cs).bind fun n => if n < size then some (ofNat n) else none) = some w ↔
      Spells cs (toNat w) := by
  rw [Option.bind_eq_some_iff]
  constructor
  · rintro ⟨m, hm, hw⟩
    rw [Option.ite_none_right_eq_some] at hw
    rw [← Option.some.inj hw.2, hof m hw.1]
    exact unsigned?_eq_some_iff.1 hm
  · intro h
    refine ⟨_, unsigned?_eq_some_iff.2 h, ?_⟩
    rw [if_pos (hlt w), hto]

/-- A text is read as a word if it spells its value, which is then not too great for a word. -/
lemma uint64?_eq_some_iff {t : String} {n : UInt64} :
    uint64? t = some n ↔ Spells t.toList n.toNat :=
  bind_unsigned?_eq_some_iff (fun _ h => UInt64.toNat_ofNat_of_lt' h) (fun _ => UInt64.ofNat_toNat)
    UInt64.toNat_lt

lemma uint16?_eq_some_iff {t : String} {n : UInt16} :
    uint16? t = some n ↔ Spells t.toList n.toNat :=
  bind_unsigned?_eq_some_iff (fun _ h => UInt16.toNat_ofNat_of_lt' h) (fun _ => UInt16.ofNat_toNat)
    UInt16.toNat_lt

/-- What is written for a word is read as the word again. -/
lemma uint16?_text (n : UInt16) : uint16? (text n.toNat) = some n := by
  rw [uint16?_eq_some_iff, text_natCast, String.toList_ofList]
  exact .plain (denotes_ofNat n.toNat)

lemma Spells.isDigit_or_eq_plus (h : Spells cs n) : ∀ c ∈ cs, c.isDigit = true ∨ c = '+' := by
  cases h with
  | plain h => exact fun c hc => .inl (h.isDigit c hc)
  | plus h =>
    intro c hc
    rcases List.mem_cons.1 hc with rfl | hc
    · exact .inr rfl
    · exact .inl (h.isDigit c hc)

/-! ### Canonical numerals -/

/-- One or more digits without a zero in front of others. -/
structure IsCanonical (cs : List Char) : Prop where
  ne_nil : cs ≠ []
  isDigit : ∀ c ∈ cs, c.isDigit = true
  head : cs.head? = some '0' → cs = ['0']

/-- What is written for a natural number is canonical. -/
lemma isCanonical_ofNat (n : Nat) : IsCanonical (ofNat n) := by
  refine ⟨ofNat_ne_nil n, fun c hc => isDigit_of_mem_ofNat hc, ?_⟩
  induction n using Nat.strongRecOn with
  | ind n ih =>
    rcases Nat.lt_or_ge n 10 with hlt | hge
    · have hone : ofNat n = [n.digitChar] := Nat.toDigits_of_lt_base hlt
      rw [hone]
      intro hzero
      rw [Option.some.inj hzero]
    · have hq : n / 10 ≠ 0 := by omega
      have hn : ofNat n = ofNat (n / 10) ++ [(n % 10).digitChar] := by
        rw [← ofNat_ten_mul_add hq (Nat.mod_lt n (by decide)), Nat.div_add_mod]
      rw [hn, List.head?_append_of_ne_nil _ (ofNat_ne_nil _)]
      intro hzero
      have hvalue := digits?_ofNat (n / 10)
      rw [ih (n / 10) (by omega) hzero] at hvalue
      exact absurd (Option.some.inj hvalue).symm hq

/-- A canonical numeral is the one that is written for the number it stands for. -/
lemma Denotes.ofNat_eq (h : Denotes cs n) (hcs : IsCanonical cs) : ofNat n = cs := by
  induction h with
  | digit hd => exact Nat.toDigits_of_lt_base hd
  | @append ds n d h hd ih =>
    have hhead : ds.head? ≠ some '0' := by
      intro hzero
      have hone := hcs.head (by simp [hzero])
      simp [List.append_eq_singleton_iff, h.ne_nil] at hone
    have hds : ofNat n = ds := ih ⟨h.ne_nil, h.isDigit, fun hzero => absurd hzero hhead⟩
    have hn : n ≠ 0 := by
      rintro rfl
      rw [← hds] at hhead
      exact hhead rfl
    rw [ofNat_ten_mul_add hn hd, hds]

lemma text_of_uint64?_eq_some {t : String} {n : UInt64} (h : IsCanonical t.toList)
    (hread : uint64? t = some n) : text n.toNat = t := by
  have hdenotes := (uint64?_eq_some_iff.1 hread).denotes h.isDigit
  rw [text_natCast, hdenotes.ofNat_eq h, String.ofList_toList]

end RespWire.Numeral
