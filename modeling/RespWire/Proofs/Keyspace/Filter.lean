import RespWire.Keyspace.Scan
import RespWire.Proofs.Collection.Last
import RespWire.Proofs.Command.Encoding
import RespWire.Proofs.Command.Options

/-!
# Arguments of a filter

The arguments of a filter tell its count and its pattern, unless the pattern is white space alone,
and nothing else. They are written part by part, and that an unrestricted filter is not looked at
does not show. Of many changes to a filter the last ones count.
-/

namespace RespWire

namespace ScanFilter

variable {f g : ScanFilter}

/-- The pattern of a filter, if it has one with a character that is not white space. -/
def effectivePattern (f : ScanFilter) : Option String :=
  f.pattern.filter fun pattern => pattern.toList.any fun c => !isBlank c

/-- The argument for a pattern. -/
def patternArgument (f : ScanFilter) : Option Bytes := f.effectivePattern.map Utf8.encode

/-- The argument for a count. -/
def countArgument (f : ScanFilter) : Option Bytes :=
  f.count.map fun count => Encoding.natural count.toNat

/-! ### Written arguments -/

lemma isBlankText_eq (text : String) : isBlankText text = !text.toList.any fun c => !isBlank c := by
  simp [isBlankText, List.not_any_eq_all_not]

lemma patternArguments_eq (f : ScanFilter) :
    f.patternArguments = Encoding.option "MATCH" f.patternArgument := by
  rw [patternArguments, patternArgument, effectivePattern]
  cases f.pattern with
  | none => rfl
  | some pattern =>
    simp only [isBlankText_eq, Option.filter_some]
    cases pattern.toList.any fun c => !isBlank c <;> rfl

lemma countArguments_eq (f : ScanFilter) :
    f.countArguments = Encoding.option "COUNT" f.countArgument := by
  rw [countArguments, countArgument]
  cases f.count <;> rfl

/-- The short cut for unrestricted filters does not show. -/
lemma arguments_eq (f : ScanFilter) : f.arguments = ⟨f.patternArguments ++ f.countArguments⟩ := by
  rw [arguments]
  split_ifs with h
  · rw [isUnrestricted, decide_eq_true_eq] at h
    rw [h]
    rfl
  · rfl

lemma arguments_eq_options (f : ScanFilter) : f.arguments =
    ⟨Encoding.option "MATCH" f.patternArgument ++ Encoding.option "COUNT" f.countArgument⟩ := by
  rw [arguments_eq, patternArguments_eq, countArguments_eq]

/-! ### Equal arguments -/

lemma patternArgument_inj :
    f.patternArgument = g.patternArgument ↔ f.effectivePattern = g.effectivePattern :=
  (Option.map_injective Utf8.encode_injective).eq_iff

lemma countArgument_inj : f.countArgument = g.countArgument ↔ f.count = g.count := by
  have hinj : Function.Injective fun count : UInt64 => Encoding.natural count.toNat :=
    fun m n h => UInt64.toNat_inj.1 (Encoding.natural_injective h)
  exact (Option.map_injective hinj).eq_iff

lemma arguments_eq_iff :
    f.arguments = g.arguments ↔ f.count = g.count ∧ f.effectivePattern = g.effectivePattern := by
  have hwords : "COUNT" ≠ "MATCH" := by decide
  rw [arguments_eq_options, arguments_eq_options, Arguments.mk.injEq,
    Encoding.option_append_inj (Encoding.head?_option_ne hwords) (Encoding.head?_option_ne hwords),
    Encoding.option_inj, patternArgument_inj, countArgument_inj, and_comm]

/-! ### Sizes -/

lemma size_arguments (f : ScanFilter) :
    f.arguments.size = 0 ∨ f.arguments.size = 2 ∨ f.arguments.size = 4 := by
  have hpattern := Encoding.length_option "MATCH" f.patternArgument
  have hcount := Encoding.length_option "COUNT" f.countArgument
  rw [arguments_eq_options, Arguments.size, List.length_append]
  omega

lemma patternArgument_ne (f : ScanFilter) : f.patternArgument ≠ some [] := by
  rw [patternArgument, effectivePattern, ne_eq, Option.map_eq_some_iff]
  rintro ⟨pattern, hpattern, hencode⟩
  rw [Utf8.encode_eq_nil_iff.1 hencode, Option.filter_eq_some_iff] at hpattern
  cases hpattern.2

lemma countArgument_ne (f : ScanFilter) : f.countArgument ≠ some [] := by
  rw [countArgument, ne_eq, Option.map_eq_some_iff]
  rintro ⟨count, -, hencode⟩
  exact Encoding.natural_ne_nil _ hencode

lemma nil_notMem_arguments (f : ScanFilter) : [] ∉ f.arguments.items := by
  rw [arguments_eq_options, List.mem_append, not_or]
  exact ⟨Encoding.nil_notMem_option (by decide) f.patternArgument_ne,
    Encoding.nil_notMem_option (by decide) f.countArgument_ne⟩

/-! ### Changes -/

/-- The count that a change sets. -/
def Edit.count? : Edit → Option UInt64
  | .count n => some n
  | .pattern _ => none

/-- The pattern that a change sets. -/
def Edit.pattern? : Edit → Option String
  | .count _ => none
  | .pattern text => some text

lemma count_edit (f : ScanFilter) (e : Edit) : (f.edit e).count = e.count?.or f.count := by
  cases e <;> rfl

lemma pattern_edit (f : ScanFilter) (e : Edit) : (f.edit e).pattern = e.pattern?.or f.pattern := by
  cases e <;> rfl

/-- A filter that is made by changes has the last count and the last pattern. -/
lemma run_unrestricted (edits : List Edit) :
    run unrestricted edits = ⟨last? Edit.count? edits, last? Edit.pattern? edits⟩ := by
  have hcount : (run unrestricted edits).count = last? Edit.count? edits :=
    foldl_eq_last?_of_eq_none count_edit rfl edits
  have hpattern : (run unrestricted edits).pattern = last? Edit.pattern? edits :=
    foldl_eq_last?_of_eq_none pattern_edit rfl edits
  rw [← hcount, ← hpattern]

/-- Arguments of a filter tell its count and its pattern, where one of white space alone is none.
They are MATCH with the pattern as it is, then COUNT with the count, and none of them is empty. The
filter that asks for nothing is written by the same rule, and a filter that is made by changes has
the last count and the last pattern. -/
theorem scan_arguments_unambiguous :
    (∀ f g : ScanFilter, f.arguments = g.arguments ↔
      f.count = g.count ∧ f.effectivePattern = g.effectivePattern) ∧
    (∀ f : ScanFilter, f.arguments =
      ⟨Encoding.option "MATCH" (f.effectivePattern.map Utf8.encode) ++
        Encoding.option "COUNT" (f.count.map fun count => Encoding.natural count.toNat)⟩) ∧
    (∀ f : ScanFilter, (f.arguments.size = 0 ∨ f.arguments.size = 2 ∨ f.arguments.size = 4) ∧
      [] ∉ f.arguments.items) ∧
    (∀ f : ScanFilter, f.arguments = ⟨f.patternArguments ++ f.countArguments⟩) ∧
    ∀ edits, run unrestricted edits = ⟨last? Edit.count? edits, last? Edit.pattern? edits⟩ := by
  refine ⟨fun f g => arguments_eq_iff, arguments_eq_options, fun f => ⟨?_, ?_⟩, arguments_eq,
    run_unrestricted⟩
  · exact f.size_arguments
  · exact f.nil_notMem_arguments

/-! A pattern may be spelled like a word and keeps its blanks, unless it has nothing else. -/

example : (ScanFilter.arguments ⟨some 7, some "COUNT "⟩).items =
    [Utf8.encode "MATCH", Utf8.encode "COUNT ", Utf8.encode "COUNT", [0x37]] := by decide

example : (run unrestricted [.pattern "a*", .count 7, .pattern "\u2003 "]).arguments.items =
    [Utf8.encode "COUNT", [0x37]] := by decide

end ScanFilter

end RespWire
