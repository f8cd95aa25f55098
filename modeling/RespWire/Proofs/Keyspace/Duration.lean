import RespWire.Proofs.Keyspace.Expiry

/-!
# Rounded durations

A duration that becomes an expiry is rounded. Rounding it once more changes nothing, though the unit
may change, and a longer duration is not rounded to a shorter one. The exception is a duration that
needs milliseconds and has more of them than a word holds: one in whole seconds is never cut.
-/

namespace RespWire.Duration

open Expiry (ofDuration)

variable {d e : Duration}

/-! ### Order -/

/-- Durations are compared by their seconds, and by the nanoseconds beyond them if those agree. -/
instance : LT Duration :=
  ⟨fun d e => d.seconds < e.seconds ∨ d.seconds = e.seconds ∧ d.nanos < e.nanos⟩

instance : LE Duration := ⟨fun d e => ¬ e < d⟩

lemma lt_iff : d < e ↔ d.totalNanos < e.totalNanos := by
  have hd := d.nanos_lt
  have he := e.nanos_lt
  show d.seconds < e.seconds ∨ d.seconds = e.seconds ∧ d.nanos < e.nanos ↔ _
  rw [UInt64.lt_iff_toNat_lt, ← UInt64.toNat_inj, totalNanos, totalNanos]
  omega

lemma le_iff : d ≤ e ↔ d.totalNanos ≤ e.totalNanos := by
  show ¬ e < d ↔ _
  rw [lt_iff, Nat.not_lt]

lemma seconds_le (h : d ≤ e) : d.seconds.toNat ≤ e.seconds.toNat := by
  have hd := d.nanos_lt
  have he := e.nanos_lt
  rw [le_iff, totalNanos, totalNanos] at h
  omega

lemma totalNanos_ofSeconds (seconds : UInt64) :
    (ofSeconds seconds).totalNanos = seconds.toNat * 1_000_000_000 := by
  rw [totalNanos, ofSeconds, Nat.add_zero]

lemma ofSeconds_seconds_le (d : Duration) : ofSeconds d.seconds ≤ d := by
  rw [le_iff, totalNanos_ofSeconds, totalNanos]
  exact Nat.le_add_right _ _

lemma ceilMillis_mono (h : d ≤ e) : d.ceilMillis ≤ e.ceilMillis := by
  rw [ceilMillis_le_iff]
  exact (le_iff.1 h).trans le_ceilMillis_mul

lemma ceilMillis_ofMilliseconds (milliseconds : UInt64) :
    (ofMilliseconds milliseconds).ceilMillis = milliseconds.toNat := by
  apply eq_of_forall_ge_iff
  intro k
  rw [ceilMillis_le_iff, totalNanos_ofMilliseconds]
  exact Nat.mul_le_mul_right_iff (by decide)

/-! ### Rounding -/

lemma isSome_duration? (d : Duration) : (ofDuration d).duration?.isSome = true := by
  obtain ⟨amount, hamount, -⟩ := Expiry.exists_amount d
  rw [Expiry.duration?, hamount]
  rfl

/-- How long a key lives that is written with the expiry after a duration. -/
def rounded (d : Duration) : Duration := (ofDuration d).duration?.get d.isSome_duration?

lemma duration?_ofDuration (d : Duration) : (ofDuration d).duration? = some d.rounded :=
  (Option.some_get _).symm

lemma rounded_eq_iff : d.rounded = e ↔ (ofDuration d).duration? = some e := by
  rw [duration?_ofDuration, Option.some_inj]

lemma rounded_of_nanos_eq (h : d.nanos = 0) : d.rounded = d := by
  rw [rounded_eq_iff, Expiry.ofDuration_of_nanos_eq h]
  exact congrArg some (ofSeconds_seconds h)

lemma exists_rounded_eq (h : d.nanos ≠ 0) :
    ∃ amount : UInt64, d.rounded = ofMilliseconds amount ∧
      amount.toNat = min d.ceilMillis (2 ^ 64 - 1) := by
  obtain ⟨amount, hexpiry, hamount⟩ := Expiry.ofDuration_of_nanos_ne h
  refine ⟨amount, ?_, hamount⟩
  rw [rounded_eq_iff, hexpiry]
  rfl

lemma totalNanos_rounded_of_nanos_ne (h : d.nanos ≠ 0) :
    d.rounded.totalNanos = min d.ceilMillis (2 ^ 64 - 1) * 1_000_000 := by
  obtain ⟨amount, hrounded, hamount⟩ := exists_rounded_eq h
  rw [hrounded, totalNanos_ofMilliseconds, hamount]

/-- Does a duration need milliseconds, and more of them than a word holds? -/
def IsCut (d : Duration) : Prop := d.nanos ≠ 0 ∧ 2 ^ 64 - 1 < d.ceilMillis

lemma totalNanos_rounded_of_isCut (h : d.IsCut) :
    d.rounded.totalNanos = (2 ^ 64 - 1) * 1_000_000 := by
  rw [totalNanos_rounded_of_nanos_ne h.1, min_eq_right (Nat.le_of_lt h.2)]

lemma totalNanos_rounded_of_not_isCut (h : ¬ d.IsCut) :
    d.rounded.totalNanos = d.ceilMillis * 1_000_000 := by
  by_cases hd : d.nanos = 0
  · rw [rounded_of_nanos_eq hd, ceilMillis_mul_eq_iff.2]
    rw [hd]
    exact dvd_zero _
  · have hfits : d.ceilMillis ≤ 2 ^ 64 - 1 := Nat.not_lt.1 fun hlong => h ⟨hd, hlong⟩
    rw [totalNanos_rounded_of_nanos_ne hd, min_eq_left hfits]

lemma totalNanos_rounded_le (d : Duration) : d.rounded.totalNanos ≤ d.ceilMillis * 1_000_000 := by
  by_cases h : d.IsCut
  · rw [totalNanos_rounded_of_isCut h]
    exact Nat.mul_le_mul_right _ (Nat.le_of_lt h.2)
  · exact (totalNanos_rounded_of_not_isCut h).le

/-! ### Rounding twice -/

lemma rounded_ofMilliseconds (milliseconds : UInt64) :
    (ofMilliseconds milliseconds).rounded = ofMilliseconds milliseconds := by
  have hfits : ¬ (ofMilliseconds milliseconds).IsCut := by
    rintro ⟨-, hlong⟩
    rw [ceilMillis_ofMilliseconds] at hlong
    exact absurd milliseconds.toNat_lt (Nat.not_lt.2 hlong)
  apply totalNanos_injective
  rw [totalNanos_rounded_of_not_isCut hfits, ceilMillis_ofMilliseconds, totalNanos_ofMilliseconds]

lemma rounded_rounded (d : Duration) : d.rounded.rounded = d.rounded := by
  by_cases h : d.nanos = 0
  · rw [rounded_of_nanos_eq h, rounded_of_nanos_eq h]
  · obtain ⟨amount, hrounded, -⟩ := exists_rounded_eq h
    rw [hrounded, rounded_ofMilliseconds]

lemma unit_ofDuration_eq_seconds_iff : (ofDuration d).unit = .seconds ↔ d.nanos = 0 := by
  constructor
  · intro h
    by_contra hd
    obtain ⟨amount, hexpiry, -⟩ := Expiry.ofDuration_of_nanos_ne hd
    rw [hexpiry] at h
    cases h
  · intro h
    rw [Expiry.ofDuration_of_nanos_eq h]
    rfl

lemma nanos_ofMilliseconds_eq_zero_iff {milliseconds : UInt64} :
    (ofMilliseconds milliseconds).nanos = 0 ↔ 1000 ∣ milliseconds.toNat := by
  rw [ofMilliseconds, Nat.dvd_iff_mod_eq_zero]
  exact Nat.mul_eq_zero.trans (or_iff_left (by decide))

/-- The unit changes where milliseconds were rounded up to whole seconds. -/
lemma unit_rounded_ne_iff :
    (ofDuration d.rounded).unit ≠ (ofDuration d).unit ↔
      d.nanos ≠ 0 ∧ d.ceilMillis ≤ 2 ^ 64 - 1 ∧ 1000 ∣ d.ceilMillis := by
  by_cases h : d.nanos = 0
  · rw [rounded_of_nanos_eq h]
    exact iff_of_false (absurd rfl) fun hd => hd.1 h
  · obtain ⟨amount, hrounded, hamount⟩ := exists_rounded_eq h
    have hd : (ofDuration d).unit = .milliseconds := by
      cases hunit : (ofDuration d).unit with
      | seconds => exact absurd (unit_ofDuration_eq_seconds_iff.1 hunit) h
      | milliseconds => rfl
    have hunit : (ofDuration d.rounded).unit ≠ .milliseconds ↔ 1000 ∣ amount.toNat := by
      rw [← nanos_ofMilliseconds_eq_zero_iff, ← hrounded, ← unit_ofDuration_eq_seconds_iff]
      cases (ofDuration d.rounded).unit <;> decide
    rw [hd, hunit, hamount]
    -- as many milliseconds as a word holds are not whole seconds
    omega

/-! ### Rounding in order -/

lemma rounded_le_rounded (h : d ≤ e) (he : ¬ e.IsCut) : d.rounded ≤ e.rounded := by
  rw [le_iff]
  calc d.rounded.totalNanos
      ≤ d.ceilMillis * 1_000_000 := totalNanos_rounded_le d
    _ ≤ e.ceilMillis * 1_000_000 := Nat.mul_le_mul_right _ (ceilMillis_mono h)
    _ = e.rounded.totalNanos := (totalNanos_rounded_of_not_isCut he).symm

/-- Of two durations the longer one gets the shorter lifetime only if it is cut, and the other one,
in whole seconds and so not rounded, is longer than what is left. -/
lemma rounded_lt_rounded_iff (h : d ≤ e) :
    e.rounded < d.rounded ↔
      e.IsCut ∧ d.nanos = 0 ∧ (2 ^ 64 - 1) * 1_000_000 < d.totalNanos := by
  constructor
  · intro hlt
    rw [lt_iff] at hlt
    have he : e.IsCut := by
      by_contra he
      exact absurd (le_iff.1 (rounded_le_rounded h he)) (Nat.not_le.2 hlt)
    rw [totalNanos_rounded_of_isCut he] at hlt
    by_cases hd : d.nanos = 0
    · rw [rounded_of_nanos_eq hd] at hlt
      exact ⟨he, hd, hlt⟩
    · rw [totalNanos_rounded_of_nanos_ne hd] at hlt
      exact absurd (Nat.mul_le_mul_right _ (min_le_right _ _)) (Nat.not_le.2 hlt)
  · rintro ⟨he, hd, hlong⟩
    rw [lt_iff, totalNanos_rounded_of_isCut he, rounded_of_nanos_eq hd]
    exact hlong

/-- Whole seconds within a duration outlive it if they are more than milliseconds can count. -/
lemma exists_rounded_lt_iff :
    (∃ d ≤ e, e.rounded < d.rounded) ↔
      e.nanos ≠ 0 ∧ (2 ^ 64 - 1) * 1_000_000 < e.seconds.toNat * 1_000_000_000 := by
  constructor
  · rintro ⟨d, h, hlt⟩
    obtain ⟨he, hd, hlong⟩ := (rounded_lt_rounded_iff h).1 hlt
    refine ⟨he.1, hlong.trans_le ?_⟩
    rw [totalNanos, hd, Nat.add_zero]
    exact Nat.mul_le_mul_right _ (seconds_le h)
  · rintro ⟨he, hlong⟩
    rw [← totalNanos_ofSeconds] at hlong
    have hle : ofSeconds e.seconds ≤ e := ofSeconds_seconds_le e
    have hcut : e.IsCut := ⟨he, lt_ceilMillis_iff.2 (hlong.trans_le (le_iff.1 hle))⟩
    exact ⟨_, hle, (rounded_lt_rounded_iff hle).2 ⟨hcut, rfl, hlong⟩⟩

/-- Every duration is rounded to a lifetime, which is not rounded again, even where it is given in
another unit. A longer duration gets a lifetime at least as long, unless it needs milliseconds and
more of them than a word holds; and a shorter one then outlives it if the whole seconds of the
longer one are too many milliseconds already. -/
theorem rounding_stable_and_ordered :
    (∀ d : Duration, (ofDuration d).duration? = some d.rounded ∧ d.rounded.rounded = d.rounded ∧
      ((ofDuration d.rounded).unit ≠ (ofDuration d).unit ↔
        d.nanos ≠ 0 ∧ d.ceilMillis ≤ 2 ^ 64 - 1 ∧ 1000 ∣ d.ceilMillis)) ∧
    (∀ d e : Duration, d ≤ e → ¬ (e.nanos ≠ 0 ∧ 2 ^ 64 - 1 < e.ceilMillis) →
      d.rounded ≤ e.rounded) ∧
    ∀ e : Duration, (∃ d ≤ e, e.rounded < d.rounded) ↔
      e.nanos ≠ 0 ∧ (2 ^ 64 - 1) * 1_000_000 < e.seconds.toNat * 1_000_000_000 := by
  refine ⟨fun d => ⟨d.duration?_ofDuration, d.rounded_rounded, unit_rounded_ne_iff⟩, ?_, ?_⟩
  · intro d e h he
    exact rounded_le_rounded h he
  · intro e
    exact exists_rounded_lt_iff

/-- A little less than a second becomes a thousand milliseconds, and then one second. The longest
durations that are not in whole seconds are cut below their whole seconds. -/
theorem rounding_stable_and_ordered_limits :
    (ofDuration (rounded ⟨0, 999_999_900, by decide⟩)).unit ≠
        (ofDuration ⟨0, 999_999_900, by decide⟩).unit ∧
      rounded ⟨0, 1, by decide⟩ ≤ rounded ⟨0, 999_999_900, by decide⟩ ∧
      ∃ d ≤ (⟨18446744073709551615, 1, by decide⟩ : Duration),
        rounded ⟨18446744073709551615, 1, by decide⟩ < d.rounded := by
  obtain ⟨hstable, hordered, hcut⟩ := rounding_stable_and_ordered
  have hceil : ceilMillis ⟨0, 999_999_900, by decide⟩ = 1000 := by
    rw [ceilMillis_eq]
    rfl
  refine ⟨?_, ?_, (hcut _).2 ⟨by decide, by decide⟩⟩
  · refine (hstable _).2.2.2 ⟨by decide, ?_⟩
    rw [hceil]
    decide
  · refine hordered _ _ (le_iff.2 (by decide)) fun hlong => ?_
    rw [hceil] at hlong
    exact absurd hlong.2 (by decide)

end RespWire.Duration
