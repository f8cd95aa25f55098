import Mathlib.Data.Rat.Floor
import Mathlib.Tactic.NormNum
import RespWire.Keyspace.Expiry

/-!
# Lifetimes of keys

A duration that becomes an expiry is kept if it is in whole milliseconds and prolonged by less than
a millisecond otherwise. It is shortened only where its milliseconds exceed a word.
-/

namespace RespWire

namespace Duration

variable {d : Duration} {k : Nat}

/-! ### Nanoseconds and milliseconds -/

/-- Durations are told apart by their nanoseconds. -/
lemma totalNanos_injective : Function.Injective totalNanos := by
  rintro ⟨seconds, nanos, hnanos⟩ ⟨seconds', nanos', hnanos'⟩ h
  simp only [totalNanos] at h
  have hseconds : seconds = seconds' := UInt64.toNat_inj.1 (by omega)
  have hbeyond : nanos = nanos' := by omega
  subst hseconds hbeyond
  rfl

lemma totalNanos_ofMilliseconds (milliseconds : UInt64) :
    (ofMilliseconds milliseconds).totalNanos = milliseconds.toNat * 1_000_000 := by
  simp only [totalNanos, ofMilliseconds, UInt64.toNat_div, UInt64.reduceToNat]
  omega

lemma ofSeconds_seconds (h : d.nanos = 0) : ofSeconds d.seconds = d := by
  apply totalNanos_injective
  rw [totalNanos, totalNanos, h]
  rfl

/-- The milliseconds of a duration, rounded up to an integer. -/
def ceilMillis (d : Duration) : Nat := ⌈(d.totalNanos : ℚ) / 1_000_000⌉₊

lemma ceilMillis_le_iff : d.ceilMillis ≤ k ↔ d.totalNanos ≤ k * 1_000_000 := by
  rw [ceilMillis, Nat.ceil_le, div_le_iff₀ (by norm_num)]
  norm_cast

lemma lt_ceilMillis_iff : k < d.ceilMillis ↔ k * 1_000_000 < d.totalNanos := by
  rw [← not_le, ceilMillis_le_iff, not_le]

lemma ceilMillis_eq (d : Duration) : d.ceilMillis = (d.totalNanos + 999_999) / 1_000_000 := by
  -- both sides are at most `k` for the same `k`
  apply eq_of_forall_ge_iff
  intro k
  rw [ceilMillis_le_iff]
  omega

lemma le_ceilMillis_mul : d.totalNanos ≤ d.ceilMillis * 1_000_000 :=
  ceilMillis_le_iff.1 (Nat.le_refl _)

lemma ceilMillis_mul_lt : d.ceilMillis * 1_000_000 < d.totalNanos + 1_000_000 := by
  rw [ceilMillis_eq]
  omega

lemma ceilMillis_mul_eq_iff : d.ceilMillis * 1_000_000 = d.totalNanos ↔ 1_000_000 ∣ d.nanos := by
  rw [ceilMillis_eq, totalNanos]
  omega

/-- Milliseconds that are rounded up prolong a duration by less than one of them. -/
lemma rounded_up {milliseconds : UInt64} (h : milliseconds.toNat = d.ceilMillis) :
    d.totalNanos ≤ (ofMilliseconds milliseconds).totalNanos ∧
      (ofMilliseconds milliseconds).totalNanos < d.totalNanos + 1_000_000 ∧
      (ofMilliseconds milliseconds = d ↔ 1_000_000 ∣ d.nanos) := by
  rw [← totalNanos_injective.eq_iff, totalNanos_ofMilliseconds, h]
  exact ⟨le_ceilMillis_mul, ceilMillis_mul_lt, ceilMillis_mul_eq_iff⟩

lemma totalNanos_lt (d : Duration) : d.totalNanos < 2 ^ 64 * 1_000_000_000 := by
  have hseconds := d.seconds.toNat_lt
  have hnanos := d.nanos_lt
  rw [totalNanos]
  omega

/-! ### Words of 128 bits -/

/-- The whole seconds of a duration in a wide word. -/
def secondsWord (d : Duration) : BitVec 128 := d.seconds.toBitVec.setWidth 128

/-- The nanoseconds beyond the seconds in a wide word. -/
def beyondWord (d : Duration) : BitVec 128 := .ofNat 128 d.nanos

def nanosPerSecond : BitVec 128 := 1_000_000_000

def nanosPerMilli : BitVec 128 := 1_000_000

/-- All nanoseconds, counted in wide words. -/
def nanosWord (d : Duration) : BitVec 128 := d.secondsWord * nanosPerSecond + d.beyondWord

/-- The milliseconds, rounded up in wide words: the quotient, and one more if something remains. -/
def millisWord (d : Duration) : BitVec 128 :=
  if 0#128 < d.nanosWord % nanosPerMilli then d.nanosWord / nanosPerMilli + 1#128
  else d.nanosWord / nanosPerMilli

/-- Does no step of counting milliseconds in wide words exceed such a word? -/
structure FitsWords (d : Duration) : Prop where
  scaled : d.secondsWord.umulOverflow nanosPerSecond = false
  added : (d.secondsWord * nanosPerSecond).uaddOverflow d.beyondWord = false
  raised : (d.nanosWord / nanosPerMilli).uaddOverflow 1#128 = false

lemma toNat_secondsWord (d : Duration) : d.secondsWord.toNat = d.seconds.toNat := by
  have hlt := d.seconds.toNat_lt
  rw [secondsWord, BitVec.toNat_setWidth, UInt64.toNat_toBitVec]
  omega

lemma toNat_beyondWord (d : Duration) : d.beyondWord.toNat = d.nanos := by
  have hlt := d.nanos_lt
  rw [beyondWord, BitVec.toNat_ofNat]
  omega

lemma toNat_nanosPerSecond : nanosPerSecond.toNat = 1_000_000_000 := by decide

lemma toNat_nanosPerMilli : nanosPerMilli.toNat = 1_000_000 := by decide

lemma toNat_secondsWord_mul (d : Duration) :
    (d.secondsWord * nanosPerSecond).toNat = d.seconds.toNat * 1_000_000_000 := by
  have hlt := d.seconds.toNat_lt
  rw [BitVec.toNat_mul, toNat_secondsWord, toNat_nanosPerSecond]
  exact Nat.mod_eq_of_lt (by omega)

lemma toNat_nanosWord (d : Duration) : d.nanosWord.toNat = d.totalNanos := by
  have hlt := d.totalNanos_lt
  rw [nanosWord, BitVec.toNat_add, toNat_secondsWord_mul, toNat_beyondWord, ← totalNanos]
  exact Nat.mod_eq_of_lt (by omega)

lemma toNat_nanosWord_div (d : Duration) :
    (d.nanosWord / nanosPerMilli).toNat = d.totalNanos / 1_000_000 := by
  rw [BitVec.toNat_udiv, toNat_nanosWord, toNat_nanosPerMilli]

lemma nanosWord_mod_pos_iff :
    0#128 < d.nanosWord % nanosPerMilli ↔ 0 < d.totalNanos % 1_000_000 := by
  rw [BitVec.lt_def, BitVec.toNat_zero, BitVec.toNat_umod, toNat_nanosWord, toNat_nanosPerMilli]

lemma fitsWords (d : Duration) : d.FitsWords := by
  have hseconds := d.seconds.toNat_lt
  have htotal := d.totalNanos_lt
  constructor
  · rw [BitVec.umulOverflow, toNat_secondsWord, toNat_nanosPerSecond, decide_eq_false_iff_not]
    omega
  · rw [BitVec.uaddOverflow, toNat_secondsWord_mul, toNat_beyondWord, ← totalNanos,
      decide_eq_false_iff_not]
    omega
  · rw [BitVec.uaddOverflow, toNat_nanosWord_div, BitVec.toNat_one (by decide),
      decide_eq_false_iff_not]
    omega

lemma toNat_millisWord (d : Duration) : d.millisWord.toNat = d.ceilMillis := by
  rw [millisWord, ceilMillis_eq]
  -- adding almost a millisecond before the division raises the quotient if anything remains
  split_ifs with h
  · rw [nanosWord_mod_pos_iff] at h
    rw [BitVec.toNat_add_of_not_uaddOverflow (Bool.eq_false_iff.1 d.fitsWords.raised),
      toNat_nanosWord_div, BitVec.toNat_one (by decide)]
    omega
  · rw [nanosWord_mod_pos_iff] at h
    rw [toNat_nanosWord_div]
    omega

end Duration

/-! ### Arguments -/

/-- The word that is sent in front of a number of units. -/
def Duration.Unit.word : Duration.Unit → Bytes
  | .seconds => Utf8.encode "EX"
  | .milliseconds => Utf8.encode "PX"

/-- What a condition adds to the arguments. -/
def WriteCondition.words : WriteCondition → List Bytes
  | .always => []
  | .ifAbsent => [Utf8.encode "NX"]
  | .ifPresent => [Utf8.encode "XX"]

/-- The flag is the word for the unit that counts. -/
lemma Expiry.flag_after (amount : UInt64) (unit : Option Duration.Unit) :
    flag (some (.after amount unit)) = (Expiry.after amount unit).unit.word := by
  match unit with
  | none | some .seconds | some .milliseconds => rfl

lemma setArguments_of_amount? {e : Expiry} {amount : UInt64} (h : e.amount? = some amount)
    (condition : WriteCondition) :
    (setArguments (some e) condition).items =
      e.unit.word :: Encoding.natural amount.toNat :: condition.words := by
  cases e with
  | never => cases h
  | after amount' unit =>
    cases h
    rw [← Expiry.flag_after]
    cases condition <;> rfl

/-! ### Expiries -/

namespace Expiry

variable {d : Duration}

lemma ofDuration_of_nanos_eq (h : d.nanos = 0) : ofDuration d = seconds d.seconds := if_pos h

lemma ofDuration_of_nanos_ne (h : d.nanos ≠ 0) :
    ∃ amount : UInt64, ofDuration d = milliseconds amount ∧
      amount.toNat = min d.ceilMillis (2 ^ 64 - 1) := by
  refine ⟨_, if_neg h, ?_⟩
  rw [Duration.ceilMillis_eq, UInt64.toNat_ofNat_of_lt']
  · rfl
  · simp only [UInt64.size]
    omega

lemma exists_amount (d : Duration) :
    ∃ amount, (ofDuration d).amount? = some amount ∧ (amount = 0 ↔ d.totalNanos = 0) := by
  by_cases h : d.nanos = 0
  · refine ⟨d.seconds, by rw [ofDuration_of_nanos_eq h]; rfl, ?_⟩
    rw [← UInt64.toNat_inj, Duration.totalNanos, h, UInt64.toNat_zero]
    omega
  · obtain ⟨amount, hexpiry, hamount⟩ := ofDuration_of_nanos_ne h
    refine ⟨amount, by rw [hexpiry]; rfl, ?_⟩
    have hround := d.ceilMillis_eq
    rw [← UInt64.toNat_inj, UInt64.toNat_zero]
    omega

/-- Whole seconds stay seconds and are kept; other durations become milliseconds, rounded up, as
many as a word holds, and are shortened only where a word does not hold them. Only the zero duration
has a zero amount, nothing is lost while milliseconds are counted, and the amount is sent behind the
word for its unit. -/
theorem lifetime_kept (d : Duration) :
    (d.nanos = 0 →
      (ofDuration d).unit = .seconds ∧ (ofDuration d).amount? = some d.seconds ∧
        (ofDuration d).duration? = some d) ∧
    (d.nanos ≠ 0 → ∃ amount lifetime,
      (ofDuration d).unit = .milliseconds ∧ (ofDuration d).amount? = some amount ∧
      (ofDuration d).duration? = some lifetime ∧
      amount.toNat = min d.ceilMillis (2 ^ 64 - 1) ∧
      (d.ceilMillis ≤ 2 ^ 64 - 1 → d.totalNanos ≤ lifetime.totalNanos ∧
        lifetime.totalNanos < d.totalNanos + 1_000_000 ∧
        (lifetime = d ↔ 1_000_000 ∣ d.nanos)) ∧
      (2 ^ 64 - 1 < d.ceilMillis → lifetime.totalNanos = (2 ^ 64 - 1) * 1_000_000 ∧
        lifetime.totalNanos < d.totalNanos)) ∧
    (∃ amount, (ofDuration d).amount? = some amount ∧ (amount = 0 ↔ d.totalNanos = 0) ∧
      ∀ condition, (setArguments (some (ofDuration d)) condition).items =
        (ofDuration d).unit.word :: Encoding.natural amount.toNat :: condition.words) ∧
    d.FitsWords ∧ d.nanosWord.toNat = d.totalNanos ∧ d.millisWord.toNat = d.ceilMillis := by
  refine ⟨fun h => ?_, fun h => ?_, ?_, d.fitsWords, d.toNat_nanosWord, d.toNat_millisWord⟩
  · rw [ofDuration_of_nanos_eq h]
    exact ⟨rfl, rfl, congrArg some (Duration.ofSeconds_seconds h)⟩
  · obtain ⟨amount, hexpiry, hamount⟩ := ofDuration_of_nanos_ne h
    rw [hexpiry]
    refine ⟨amount, .ofMilliseconds amount, rfl, rfl, rfl, hamount, fun hfits => ?_, fun hlong => ?_⟩
    · exact Duration.rounded_up (hamount.trans (min_eq_left hfits))
    · have htop : amount.toNat = 2 ^ 64 - 1 := hamount.trans (min_eq_right (Nat.le_of_lt hlong))
      rw [Duration.totalNanos_ofMilliseconds, htop]
      exact ⟨rfl, Duration.lt_ceilMillis_iff.1 hlong⟩
  · obtain ⟨amount, hamount, hzero⟩ := exists_amount d
    exact ⟨amount, hamount, hzero, setArguments_of_amount? hamount⟩

/-- A little less than a second is carried into the next one, and of the longest durations only the
milliseconds of a word are left. -/
theorem lifetime_kept_limits :
    (∃ lifetime, (ofDuration ⟨0, 999_999_900, by decide⟩).duration? = some lifetime ∧
      999_999_900 ≤ lifetime.totalNanos ∧ lifetime.totalNanos < 1_000_999_900) ∧
    ∃ lifetime, (ofDuration ⟨18446744073709551615, 1, by decide⟩).duration? = some lifetime ∧
      lifetime.totalNanos = 18446744073709551615000000 := by
  obtain ⟨-, hcarry, -⟩ := lifetime_kept ⟨0, 999_999_900, by decide⟩
  obtain ⟨-, hlong, -⟩ := lifetime_kept ⟨18446744073709551615, 1, by decide⟩
  constructor
  · obtain ⟨_, lifetime, -, -, hlifetime, -, hfits, -⟩ := hcarry (by decide)
    obtain ⟨hlow, hhigh, -⟩ := hfits (Duration.ceilMillis_le_iff.2 (by decide))
    exact ⟨lifetime, hlifetime, hlow, hhigh⟩
  · obtain ⟨_, lifetime, -, -, hlifetime, -, -, hcut⟩ := hlong (by decide)
    exact ⟨lifetime, hlifetime, (hcut (Duration.lt_ceilMillis_iff.2 (by decide))).1⟩

end Expiry

end RespWire
