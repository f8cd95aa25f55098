import RespWire.Proofs.Command.Encoding
import RespWire.Proofs.Keyspace.Expiry

/-!
# Arguments of a write

The arguments of SET behind the value tell how long the key lives and under which condition it is
written, and nothing else. A flag is there exactly if an amount is, and the condition stands behind
both.
-/

namespace RespWire

variable {e e' : Option Expiry} {c c' : WriteCondition}

/-! ### Terms -/

namespace Expiry

/-- Does a key live until it is deleted? -/
inductive IsEndless : Option Expiry → Prop where
  | absent : IsEndless none
  | never : IsEndless (some .never)

/-- Do two expiries set the same term: none, or as many of the same unit? Seconds are meant where no
unit is given. -/
inductive SameTerm : Option Expiry → Option Expiry → Prop where
  | endless {e e' : Option Expiry} (h : IsEndless e) (h' : IsEndless e') : SameTerm e e'
  | after (amount : UInt64) {unit unit' : Option Duration.Unit}
      (h : unit.getD .seconds = unit'.getD .seconds) :
    SameTerm (some (.after amount unit)) (some (.after amount unit'))

/-- Does a key live for some number of a unit? -/
def LastsIn (unit : Duration.Unit) (e : Option Expiry) : Prop :=
  ∃ amount given, e = some (.after amount given) ∧ given.getD .seconds = unit

lemma isEndless_or (e : Option Expiry) :
    IsEndless e ∨ ∃ amount unit, e = some (.after amount unit) := by
  match e with
  | none => exact .inl .absent
  | some .never => exact .inl .never
  | some (.after amount unit) => exact .inr ⟨amount, unit, rfl⟩

lemma IsEndless.not_lastsIn (h : IsEndless e) (unit : Duration.Unit) : ¬ LastsIn unit e := by
  rintro ⟨amount, given, rfl, -⟩
  cases h

lemma lastsIn_after_iff {amount : UInt64} {given : Option Duration.Unit} {unit : Duration.Unit} :
    LastsIn unit (some (.after amount given)) ↔ given.getD .seconds = unit := by
  constructor
  · rintro ⟨_, _, heq, h⟩
    cases heq
    exact h
  · exact fun h => ⟨amount, given, rfl, h⟩

end Expiry

/-! ### Words -/

lemma Duration.Unit.word_injective : Function.Injective word := by
  intro unit unit' h
  cases unit <;> cases unit' <;> first | rfl | exact absurd h (by decide)

lemma Duration.Unit.word_ne_nil (unit : Duration.Unit) : unit.word ≠ [] := by
  cases unit <;> decide

lemma Duration.Unit.word_notMem_words (unit : Duration.Unit) (c : WriteCondition) :
    unit.word ∉ c.words := by
  cases unit <;> cases c <;> decide

lemma Duration.Unit.natural_ne_word (n : Nat) (unit : Duration.Unit) :
    Encoding.natural n ≠ unit.word := by
  cases unit with
  | seconds => exact Encoding.natural_ne_encode (c := 'E') (by decide) rfl
  | milliseconds => exact Encoding.natural_ne_encode (c := 'P') (by decide) rfl

lemma WriteCondition.words_injective : Function.Injective words := by
  intro c c' h
  cases c <;> cases c' <;> first | rfl | exact absurd h (by decide)

lemma WriteCondition.nil_notMem_words (c : WriteCondition) : [] ∉ c.words := by
  cases c <;> decide

lemma WriteCondition.length_words_le (c : WriteCondition) : c.words.length ≤ 1 := by
  cases c <;> decide

/-! ### Flags -/

namespace Expiry

lemma flag_eq_nil_iff (e : Option Expiry) : flag e = [] ↔ e.bind amount? = none := by
  match e with
  | none | some .never => exact iff_of_true rfl rfl
  | some (.after amount unit) =>
    rw [flag_after]
    exact iff_of_false (Duration.Unit.word_ne_nil _) nofun

lemma flag_eq_px_iff (e : Expiry) : flag (some e) = Utf8.encode "PX" ↔ e.unit = .milliseconds := by
  cases e with
  | never => exact iff_of_false nofun nofun
  | after amount unit =>
    rw [flag_after]
    exact Duration.Unit.word_injective.eq_iff (b := .milliseconds)

end Expiry

/-! ### Arguments -/

lemma setArguments_of_isEndless (h : Expiry.IsEndless e) (c : WriteCondition) :
    (setArguments e c).items = c.words := by
  cases h <;> cases c <;> rfl

lemma setArguments_after (amount : UInt64) (unit : Option Duration.Unit) (c : WriteCondition) :
    (setArguments (some (.after amount unit)) c).items =
      (unit.getD .seconds).word :: Encoding.natural amount.toNat :: c.words :=
  setArguments_of_amount? rfl c

/-- A condition alone is shorter than an expiry. -/
lemma items_after_ne (h : Expiry.IsEndless e) (amount : UInt64) (unit : Option Duration.Unit) :
    (setArguments (some (.after amount unit)) c').items ≠ (setArguments e c).items := by
  intro heq
  rw [setArguments_after, setArguments_of_isEndless h] at heq
  have hlength := congrArg List.length heq
  simp only [List.length_cons] at hlength
  have hle := c.length_words_le
  omega

lemma items_eq_iff : (setArguments e c).items = (setArguments e' c').items ↔
    Expiry.SameTerm e e' ∧ c = c' := by
  constructor
  · intro heq
    obtain h | ⟨amount, unit, rfl⟩ := Expiry.isEndless_or e <;>
      obtain h' | ⟨amount', unit', rfl⟩ := Expiry.isEndless_or e'
    · rw [setArguments_of_isEndless h, setArguments_of_isEndless h'] at heq
      exact ⟨.endless h h', WriteCondition.words_injective heq⟩
    · exact absurd heq.symm (items_after_ne h amount' unit')
    · exact absurd heq (items_after_ne h' amount unit)
    · rw [setArguments_after, setArguments_after, List.cons.injEq, List.cons.injEq] at heq
      obtain ⟨hword, hamount, hwords⟩ := heq
      obtain rfl := UInt64.toNat_inj.1 (Encoding.natural_injective hamount)
      exact ⟨.after amount (Duration.Unit.word_injective hword),
        WriteCondition.words_injective hwords⟩
  · rintro ⟨h | ⟨amount, hunit⟩, rfl⟩
    · rw [setArguments_of_isEndless ‹_›, setArguments_of_isEndless ‹_›]
    · rw [setArguments_after, setArguments_after, hunit]

lemma nil_notMem_items (e : Option Expiry) (c : WriteCondition) :
    [] ∉ (setArguments e c).items := by
  obtain h | ⟨amount, unit, rfl⟩ := Expiry.isEndless_or e
  · rw [setArguments_of_isEndless h]
    exact c.nil_notMem_words
  · rw [setArguments_after, List.mem_cons, List.mem_cons, not_or, not_or]
    exact ⟨(Duration.Unit.word_ne_nil _).symm, (Encoding.natural_ne_nil _).symm,
      c.nil_notMem_words⟩

lemma word_mem_items_iff (unit : Duration.Unit) (e : Option Expiry) (c : WriteCondition) :
    unit.word ∈ (setArguments e c).items ↔ Expiry.LastsIn unit e := by
  obtain h | ⟨amount, given, rfl⟩ := Expiry.isEndless_or e
  · rw [setArguments_of_isEndless h]
    exact iff_of_false (unit.word_notMem_words c) (h.not_lastsIn unit)
  · rw [setArguments_after, Expiry.lastsIn_after_iff, List.mem_cons, List.mem_cons,
      or_iff_left (not_or.2 ⟨(unit.natural_ne_word _).symm, unit.word_notMem_words c⟩),
      Duration.Unit.word_injective.eq_iff, eq_comm]

/-- The arguments tell the term and the condition: they are equal exactly if both are the same. They
are the word for a unit and the amount if the key expires, then the word for a condition if there is
one; none of them is empty, and the word for a unit is there exactly if the key lives for some
number of that unit. A flag stands exactly where an amount does, and it is the one for milliseconds
exactly if they are the unit that counts. -/
theorem set_arguments_unambiguous :
    (∀ e e' c c', setArguments e c = setArguments e' c' ↔ Expiry.SameTerm e e' ∧ c = c') ∧
    (∀ e c, Expiry.IsEndless e ∧ (setArguments e c).items = c.words ∨
      ∃ amount unit, e = some (.after amount unit) ∧ (setArguments e c).items =
        (unit.getD .seconds).word :: Encoding.natural amount.toNat :: c.words) ∧
    (∀ e c, [] ∉ (setArguments e c).items ∧
      ∀ unit : Duration.Unit, unit.word ∈ (setArguments e c).items ↔ Expiry.LastsIn unit e) ∧
    (∀ e : Option Expiry, Expiry.flag e = [] ↔ e.bind Expiry.amount? = none) ∧
    ∀ e : Expiry, Expiry.flag (some e) = Utf8.encode "PX" ↔ e.unit = .milliseconds := by
  refine ⟨fun e e' c c' => ?_, fun e c => ?_,
    fun e c => ⟨nil_notMem_items e c, fun unit => word_mem_items_iff unit e c⟩,
    Expiry.flag_eq_nil_iff, Expiry.flag_eq_px_iff⟩
  · rw [← items_eq_iff]
    exact ⟨congrArg Arguments.items, fun h => congrArg Arguments.mk h⟩
  · obtain h | ⟨amount, unit, rfl⟩ := Expiry.isEndless_or e
    · exact .inl ⟨h, setArguments_of_isEndless h c⟩
    · exact .inr ⟨amount, unit, rfl, setArguments_after amount unit c⟩

/-- A second and a thousand milliseconds are told apart. -/
example : setArguments (some (.seconds 1)) .always ≠
    setArguments (some (.milliseconds 1000)) .always := by
  decide

end RespWire
