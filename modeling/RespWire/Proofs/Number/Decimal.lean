import Mathlib.Data.List.TakeDrop
import Mathlib.Tactic.Ring
import RespWire.Number.Decimal
import RespWire.Proofs.Number.Numeral

/-!
# Positional notation read back

Positional notation is made of digits and at most one point, and reading it gives the number again,
with its zeros in front of the point counted into the coefficient.
-/

namespace RespWire.Decimal

open Numeral

variable {cs whole places : List Char}

/-! ### Reading digits -/

lemma span_isDigit_append (rest : List Char) (h : ∀ c ∈ cs, c.isDigit = true)
    (hrest : ∀ c ∈ rest.head?, c.isDigit = false) :
    (cs ++ rest).span Char.isDigit = (cs, rest) := by
  rw [List.span_eq_takeWhile_dropWhile, List.takeWhile_append_of_pos h,
    List.dropWhile_append_of_pos h]
  cases rest with
  | nil => simp
  | cons c rest =>
      have hc : c.isDigit = false := hrest c rfl
      simp [hc]

lemma read?_digits (hne : cs ≠ []) (h : ∀ c ∈ cs, c.isDigit = true) :
    read? cs = some ⟨Nat.ofDigitChars 10 cs 0, 0⟩ := by
  have hspan := span_isDigit_append [] h (by simp)
  rw [List.append_nil] at hspan
  simp only [read?, hspan, fraction, exponent?, List.append_nil, digits?_of_all hne h,
    Option.bind_some, Option.map_some]
  rfl

lemma read?_point (hne : whole ≠ []) (hwhole : ∀ c ∈ whole, c.isDigit = true)
    (hplaces : ∀ c ∈ places, c.isDigit = true) :
    read? (whole ++ '.' :: places) =
      some ⟨Nat.ofDigitChars 10 (whole ++ places) 0, -places.length⟩ := by
  have hspan := span_isDigit_append ('.' :: places) hwhole (by simp)
  have hspan' := span_isDigit_append [] hplaces (by simp)
  rw [List.append_nil] at hspan'
  have hdigits : ∀ c ∈ whole ++ places, c.isDigit = true := by
    intro c hc
    rcases List.mem_append.1 hc with hc | hc
    · exact hwhole c hc
    · exact hplaces c hc
  have hne' : whole ++ places ≠ [] := by simp [hne]
  simp only [read?, hspan, hspan', fraction, exponent?, digits?_of_all hne' hdigits,
    Option.bind_some, Option.map_some, Int.zero_sub]

/-! ### Writing digits -/

lemma isDigit_of_mem_zeros_or {zeros n : Nat} {c : Char}
    (h : c ∈ List.replicate zeros '0' ∨ c ∈ Numeral.ofNat n) : c.isDigit = true := by
  rcases h with h | h
  · rw [List.eq_of_mem_replicate h]
    rfl
  · exact isDigit_of_mem_ofNat h

lemma positional_ofNat (coefficient zeros : Nat) :
    positional ⟨coefficient, .ofNat zeros⟩ =
      Numeral.ofNat coefficient ++ List.replicate zeros '0' := rfl

/-- A number with places has its digits, behind some zeros, on both sides of a point. -/
lemma positional_negSucc (coefficient n : Nat) :
    ∃ whole places zeros, positional ⟨coefficient, .negSucc n⟩ = whole ++ '.' :: places ∧
      whole ++ places = List.replicate zeros '0' ++ Numeral.ofNat coefficient ∧
      whole ≠ [] ∧ places.length = n + 1 := by
  let digits := Numeral.ofNat coefficient
  let padded := List.replicate (n + 2 - digits.length) '0' ++ digits
  have hlen : n + 2 ≤ padded.length := by
    simp only [padded, List.length_append, List.length_replicate]
    omega
  refine ⟨padded.take (padded.length - (n + 1)), padded.drop (padded.length - (n + 1)), _, rfl,
    List.take_append_drop _ _, ?_, ?_⟩
  · intro h
    have := congrArg List.length h
    rw [List.length_take, List.length_nil] at this
    omega
  · rw [List.length_drop]
    omega

lemma ofDigitChars_zeros_append (zeros n : Nat) :
    Nat.ofDigitChars 10 (List.replicate zeros '0' ++ Numeral.ofNat n) 0 = n := by
  rw [Nat.ofDigitChars_append, Nat.ofDigitChars_replicate_zero, Nat.mul_zero, Numeral.ofNat,
    Nat.ofDigitChars_ten_toDigits]

lemma isDigit_or_eq_point_of_mem_positional {d : Decimal} {c : Char} (h : c ∈ d.positional) :
    c.isDigit = true ∨ c = '.' := by
  obtain ⟨coefficient, zeros | n⟩ := d
  · rw [positional_ofNat] at h
    exact .inl (isDigit_of_mem_zeros_or (List.mem_append.1 h).symm)
  · obtain ⟨whole, places, zeros, heq, happ, -, -⟩ := positional_negSucc coefficient n
    rw [heq, List.mem_append, List.mem_cons] at h
    by_cases hc : c = '.'
    · exact .inr hc
    · have hmem : c ∈ whole ++ places := by
        rcases h with h | h | h
        · exact List.mem_append_left places h
        · exact absurd h hc
        · exact List.mem_append_right whole h
      rw [happ] at hmem
      exact .inl (isDigit_of_mem_zeros_or (List.mem_append.1 hmem))

lemma read?_positional (d : Decimal) :
    read? d.positional = some ⟨d.coefficient * 10 ^ d.exponent.toNat, min d.exponent 0⟩ := by
  obtain ⟨coefficient, zeros | n⟩ := d
  · have hne : Numeral.ofNat coefficient ++ List.replicate zeros '0' ≠ [] := by
      simp [ofNat_ne_nil]
    rw [positional_ofNat, read?_digits hne, Nat.ofDigitChars_append,
      Nat.ofDigitChars_replicate_zero, Numeral.ofNat, Nat.ofDigitChars_ten_toDigits, Nat.mul_comm]
    · simp
    · intro c hc
      exact isDigit_of_mem_zeros_or (List.mem_append.1 hc).symm
  · obtain ⟨whole, places, zeros, heq, happ, hne, hlen⟩ := positional_negSucc coefficient n
    have hdigits : ∀ c ∈ whole ++ places, c.isDigit = true := by
      intro c hc
      rw [happ] at hc
      exact isDigit_of_mem_zeros_or (List.mem_append.1 hc)
    rw [heq, read?_point hne (fun c hc => hdigits c (List.mem_append_left places hc))
      (fun c hc => hdigits c (List.mem_append_right whole hc)), happ, hlen,
      ofDigitChars_zeros_append]
    have hzero : (Int.negSucc n).toNat = 0 := rfl
    have hmin : min (Int.negSucc n) 0 = Int.negSucc n := min_eq_left (Int.negSucc_lt_zero n).le
    rw [hzero, hmin, Nat.pow_zero, Nat.mul_one]
    rfl

end RespWire.Decimal
