import RespWire.Proofs.Number.Shortest
import RespWire.Proofs.Text.Codec
import RespWire.SortedSet.Interval

/-!
# Ends of ranges told apart

The arguments of a lexicographic range tell its ends apart. Those of a score range do too, except
that a value that starts with the mark of an exclusive end looks like such an end; no number does.
-/

namespace RespWire

/-- A byte of ASCII in front of the bytes of a text is a character of it. -/
lemma Utf8.mem_toList_of_encode_eq_cons {text : String} {b : UInt8} {rest : Bytes}
    (hb : b.toNat < 0x80) (h : encode text = b :: rest) : Char.ofNat b.toNat ∈ text.toList := by
  have hscan := scan_encode text
  rw [h, scan_cons, lead_one hb] at hscan
  have hmem : some (Char.ofNat b.toNat) ∈ text.toList.map some := by
    rw [← hscan]
    exact List.mem_cons_self
  simpa using hmem

namespace Endpoint

variable {x : Endpoint}

/-- Is a value a number? -/
def IsNumeric : Endpoint → Prop
  | .double _ | .long _ | .int _ => True
  | .bytes _ | .text _ => False

lemma exists_toBytes_eq_encode (h : x.IsNumeric) :
    ∃ text, x.toBytes = Utf8.encode text ∧ '(' ∉ text.toList := by
  have hint (n : Int) : '(' ∉ (Numeral.text n).toList := by
    intro hmem
    rw [Numeral.text, String.toList_ofList] at hmem
    rcases Numeral.mem_ofInt hmem with h | h <;> cases h
  cases x with
  | double value =>
    refine ⟨value.toText, rfl, fun hmem => ?_⟩
    rcases Binary64.isDigit_or_mem_marks_of_mem_toText hmem with h | h <;> revert h <;> decide
  | long value => exact ⟨_, rfl, hint _⟩
  | int value => exact ⟨_, rfl, hint _⟩
  | bytes | text => cases h

/-- No number starts with the mark of an exclusive end. -/
lemma head?_toBytes_ne (h : x.IsNumeric) : x.toBytes.head? ≠ some 0x28 := by
  obtain ⟨text, htext, hmark⟩ := exists_toBytes_eq_encode h
  intro hhead
  obtain ⟨rest, hrest⟩ := List.head?_eq_some_iff.1 hhead
  rw [htext] at hrest
  exact hmark (Utf8.mem_toList_of_encode_eq_cons (by decide) hrest)

end Endpoint

namespace Bound

variable {b c : Bound} {default default' : Bytes}

/-- Are two ends the same, apart from how their values are given? -/
inductive SameEnd : Bound → Bound → Prop where
  | unbounded : SameEnd .unbounded .unbounded
  | inclusive {x y : Endpoint} (h : x.toBytes = y.toBytes) : SameEnd (.inclusive x) (.inclusive y)
  | exclusive {x y : Endpoint} (h : x.toBytes = y.toBytes) : SameEnd (.exclusive x) (.exclusive y)

/-- Does the value of an inclusive end look like an exclusive end? -/
inductive Mimics : Bound → Bound → Prop where
  | mk {x y : Endpoint} (h : x.toBytes = 0x28 :: y.toBytes) : Mimics (.inclusive x) (.exclusive y)

/-! ### Lexicographic ranges -/

lemma lexArgument_inclusive (x : Endpoint) (default : Bytes) :
    lexArgument (some (.inclusive x)) default = 0x5B :: x.toBytes := rfl

lemma lexArgument_exclusive (x : Endpoint) (default : Bytes) :
    lexArgument (some (.exclusive x)) default = 0x28 :: x.toBytes := rfl

/-- Does an argument start with neither mark? -/
def Unmarked (arg : Bytes) : Prop := arg.head? ≠ some 0x5B ∧ arg.head? ≠ some 0x28

lemma unmarked_minus : Unmarked Token.minus.bytes := ⟨by decide, by decide⟩

lemma unmarked_plus : Unmarked Token.plus.bytes := ⟨by decide, by decide⟩

lemma lexArgument_ne (h : b.isBounded = true) {other : Bytes} (hother : Unmarked other) :
    lexArgument (some b) default ≠ other := by
  rintro rfl
  cases b with
  | unbounded => cases h
  | inclusive x => exact hother.1 rfl
  | exclusive x => exact hother.2 rfl

lemma lexArgument_eq_iff (hdefault : Unmarked default) :
    lexArgument (some b) default = lexArgument (some c) default ↔ SameEnd b c := by
  constructor
  · intro h
    cases b with
    | unbounded =>
      cases c with
      | unbounded => exact .unbounded
      | inclusive | exclusive => exact absurd h.symm (lexArgument_ne rfl hdefault)
    | inclusive x =>
      cases c with
      | unbounded => exact absurd h (lexArgument_ne rfl hdefault)
      | inclusive y => exact .inclusive (List.cons.inj h).2
      | exclusive y => cases (List.cons.inj h).1
    | exclusive x =>
      cases c with
      | unbounded => exact absurd h (lexArgument_ne rfl hdefault)
      | inclusive y => cases (List.cons.inj h).1
      | exclusive y => exact .exclusive (List.cons.inj h).2
  · intro h
    cases h with
    | unbounded => rfl
    | inclusive h | exclusive h => exact congrArg _ h

/-! ### Score ranges -/

lemma scoreArgument_inclusive (x : Endpoint) (default : Bytes) :
    scoreArgument (some (.inclusive x)) default = x.toBytes := rfl

lemma scoreArgument_exclusive (x : Endpoint) (default : Bytes) :
    scoreArgument (some (.exclusive x)) default = 0x28 :: x.toBytes := rfl

lemma scoreArgument_eq_iff (hb : b.isBounded = true) (hc : c.isBounded = true) :
    scoreArgument (some b) default = scoreArgument (some c) default' ↔
      SameEnd b c ∨ Mimics b c ∨ Mimics c b := by
  constructor
  · intro h
    cases b with
    | unbounded => cases hb
    | inclusive x =>
      cases c with
      | unbounded => cases hc
      | inclusive y => exact .inl (.inclusive h)
      | exclusive y => exact .inr (.inl (.mk h))
    | exclusive x =>
      cases c with
      | unbounded => cases hc
      | inclusive y => exact .inr (.inr (.mk h.symm))
      | exclusive y => exact .inl (.exclusive (List.cons.inj h).2)
  · rintro (h | h | h)
    · cases h with
      | unbounded => cases hb
      | inclusive h => exact h
      | exclusive h => exact congrArg _ h
    · obtain ⟨h⟩ := h
      exact h
    · obtain ⟨h⟩ := h
      exact h.symm

lemma not_mimics_of_isNumeric {x : Endpoint} (h : x.IsNumeric) : ¬ Mimics (.inclusive x) c := by
  rintro ⟨hx⟩
  exact x.head?_toBytes_ne h (by rw [hx]; rfl)

lemma head?_scoreArgument {x : Endpoint} (hvalue : b.value? = some x) (h : x.IsNumeric) :
    (scoreArgument (some b) default).head? = some 0x28 ↔ b.isInclusive = false := by
  cases b with
  | unbounded => cases hvalue
  | inclusive x =>
    cases hvalue
    exact iff_of_false (Endpoint.head?_toBytes_ne h) nofun
  | exclusive x => exact iff_of_true rfl rfl

end Bound

/-- Lexicographic ranges have the same arguments only if they are the same. Ends of score ranges
have the same argument only if they are the same, or if the value of the inclusive one starts with
the mark and goes on as the exclusive one. A number does not start with the mark. -/
theorem bound_arguments_unambiguous :
    (∀ i j : Interval, i.lexArguments = j.lexArguments ↔
      Bound.SameEnd i.lower j.lower ∧ Bound.SameEnd i.upper j.upper) ∧
    (∀ (b : Bound) (default : Bytes), b.isBounded = true →
      Bound.lexArgument (some b) default ≠ Utf8.encode "-" ∧
        Bound.lexArgument (some b) default ≠ Utf8.encode "+") ∧
    (∀ (b c : Bound) (default default' : Bytes), b.isBounded = true → c.isBounded = true →
      (Bound.scoreArgument (some b) default = Bound.scoreArgument (some c) default' ↔
        Bound.SameEnd b c ∨ Bound.Mimics b c ∨ Bound.Mimics c b)) ∧
    (∀ (x : Endpoint) (c : Bound), x.IsNumeric → ¬ Bound.Mimics (.inclusive x) c) ∧
    ∀ (b : Bound) (x : Endpoint) (default : Bytes), b.value? = some x → x.IsNumeric →
      ((Bound.scoreArgument (some b) default).head? = some 0x28 ↔ b.isInclusive = false) := by
  refine ⟨fun i j => ?_, fun b default h => ?_, fun b c default default' hb hc =>
    Bound.scoreArgument_eq_iff hb hc, fun x c h => Bound.not_mimics_of_isNumeric h,
    fun b x default => Bound.head?_scoreArgument⟩
  · rw [Interval.lexArguments, Interval.lexArguments, Prod.mk.injEq,
      Bound.lexArgument_eq_iff Bound.unmarked_minus, Bound.lexArgument_eq_iff Bound.unmarked_plus]
  · exact ⟨Bound.lexArgument_ne h Bound.unmarked_minus, Bound.lexArgument_ne h Bound.unmarked_plus⟩

/-- An inclusive end at `(a` and an exclusive one at `a` have the same argument in a score range,
but not in a lexicographic one. -/
theorem bound_arguments_unambiguous_mark :
    Bound.scoreArgument (some (.inclusive (.text "(a"))) [] =
        Bound.scoreArgument (some (.exclusive (.bytes [0x61]))) [] ∧
      Interval.lexArguments ⟨.inclusive (.text "(a"), .unbounded⟩ ≠
        Interval.lexArguments ⟨.exclusive (.bytes [0x61]), .unbounded⟩ ∧
      Bound.lexArgument (some (.inclusive (.text "+"))) [] ≠ Utf8.encode "+" ∧
      (Bound.scoreArgument (some (.exclusive (.double ⟨1⟩))) []).head? = some 0x28 ∧
      ¬ Bound.Mimics (.inclusive (.long (-5))) (.exclusive (.int 5)) := by
  obtain ⟨hlex, hbounded, hscore, hmimics, hnumeric⟩ := bound_arguments_unambiguous
  refine ⟨(hscore _ _ _ _ rfl rfl).2 (.inr (.inl (.mk (by decide)))), ?_, (hbounded _ _ rfl).2,
    (hnumeric _ (.double ⟨1⟩) _ rfl trivial).2 rfl, hmimics _ _ trivial⟩
  intro h
  cases ((hlex _ _).1 h).1

end RespWire
