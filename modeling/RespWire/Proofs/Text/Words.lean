import Mathlib.Data.List.Basic
import RespWire.Text.Blank
import RespWire.Text.Lines

/-!
# Words and lines

White space between words only keeps them apart. It does not matter to the words of a line whether
the line has lost a return at its end.
-/

namespace RespWire

variable {cs ds gap : List Char} {c : Char}

/-! ### Words -/

lemma words_append_cons (hc : isBlank c = true) : words (cs ++ c :: ds) = words cs ++ words ds := by
  rw [words, List.splitOnP_append_cons cs ds hc, List.filter_append]
  rfl

lemma words_append_gap_append (hne : gap ≠ []) (h : ∀ c ∈ gap, isBlank c = true) :
    words (cs ++ (gap ++ ds)) = words cs ++ words ds := by
  induction gap generalizing cs with
  | nil => exact absurd rfl hne
  | cons c gap ih =>
    rw [List.cons_append, words_append_cons (h c List.mem_cons_self)]
    by_cases hgap : gap = []
    · rw [hgap, List.nil_append]
    · rw [← List.nil_append (gap ++ ds), ih hgap fun d hd => h d (List.mem_cons_of_mem c hd)]
      rfl

lemma words_gap_append (h : ∀ c ∈ gap, isBlank c = true) : words (gap ++ cs) = words cs := by
  by_cases hne : gap = []
  · rw [hne, List.nil_append]
  · rw [← List.nil_append (gap ++ cs), words_append_gap_append hne h]
    rfl

lemma words_append_gap (h : ∀ c ∈ gap, isBlank c = true) : words (cs ++ gap) = words cs := by
  by_cases hne : gap = []
  · rw [hne, List.append_nil]
  · rw [← List.append_nil gap, words_append_gap_append hne h]
    simp [words]

/-- A return at the end belongs to no word. -/
lemma words_append_return (cs : List Char) : words (cs ++ ['\r']) = words cs := by
  rw [words_append_cons (by decide)]
  exact List.append_nil _

lemma words_eq_singleton (hne : cs ≠ []) (h : ∀ c ∈ cs, isBlank c = false) : words cs = [cs] := by
  rw [words, List.splitOnP_eq_singleton h]
  simp [hne]

lemma flatten_splitOnP (p : Char → Bool) (cs : List Char) :
    (cs.splitOnP p).flatten = cs.filter fun c => !p c := by
  induction cs with
  | nil => simp
  | cons c cs ih =>
    rw [List.splitOnP_cons_eq_if_modifyHead]
    obtain ⟨piece, pieces, hpieces⟩ := List.exists_cons_of_ne_nil (List.splitOnP_ne_nil p cs)
    rw [hpieces] at ih ⊢
    split_ifs with hc
    · simpa [hc] using ih
    · simpa [hc] using ih

/-- Words keep all that is not white space. -/
lemma flatten_words (cs : List Char) : (words cs).flatten = cs.filter fun c => !isBlank c := by
  rw [words, List.flatten_filter_not_isEmpty, flatten_splitOnP]

lemma words_eq_nil_iff : words cs = [] ↔ ∀ c ∈ cs, isBlank c = true := by
  constructor
  · intro h
    have hflat := flatten_words cs
    rw [h, List.flatten_nil, eq_comm, List.filter_eq_nil_iff] at hflat
    simpa using hflat
  · intro h
    rw [← List.append_nil cs, words_gap_append h]
    rfl

lemma isBlank_of_mem_words {word : List Char} (h : word ∈ words cs) (hc : c ∈ word) :
    isBlank c = false := by
  have hflat : c ∈ (words cs).flatten := List.mem_flatten.2 ⟨word, h, hc⟩
  rw [flatten_words, List.mem_filter] at hflat
  simpa using hflat.2

lemma all_isBlank_eq (cs : List Char) : cs.all isBlank = (words cs).isEmpty := by
  rw [Bool.eq_iff_iff, List.isEmpty_iff, words_eq_nil_iff, List.all_eq_true]

/-! ### Lines -/

lemma eq_dropReturn_or (line : List Char) :
    line = dropReturn line ∨ line = dropReturn line ++ ['\r'] := by
  rw [dropReturn]
  split_ifs with h
  · exact .inr (List.dropLast_append_getLast? _ h).symm
  · exact .inl rfl

lemma words_dropReturn (line : List Char) : words (dropReturn line) = words line := by
  rcases eq_dropReturn_or line with h | h
  · rw [← h]
  · conv_rhs => rw [h, words_append_return]

/-- A text is a line, or a line in front of a text. -/
@[elab_as_elim]
lemma lineInduction {P : List Char → Prop} (last : ∀ line, '\n' ∉ line → P line)
    (more : ∀ line cs, '\n' ∉ line → P cs → P (line ++ '\n' :: cs)) (cs : List Char) : P cs := by
  by_cases h : '\n' ∈ cs
  · obtain ⟨line, rest, hcs, hline⟩ := List.eq_append_cons_of_mem h
    rw [hcs]
    exact more line rest hline (lineInduction last more rest)
  · exact last cs h
termination_by cs.length
decreasing_by
  rw [hcs, List.length_append, List.length_cons]
  omega

end RespWire
