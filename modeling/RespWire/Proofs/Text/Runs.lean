import Mathlib.Data.List.TakeWhile
import RespWire.Proofs.Text.Words

/-!
# Words as maximal runs

The words of a line are its maximal runs of characters that are not white space, in the order in
which they stand. A run divides the other words into those of what is before it and those of what is
behind it.
-/

namespace RespWire

variable {cs ds line before word after mid : List Char}

/-- A maximal run of characters of a line that are not white space, with what is around it. -/
structure IsRun (line before word after : List Char) : Prop where
  cut : line = before ++ (word ++ after)
  ne_nil : word ≠ []
  letters : ∀ c ∈ word, isBlank c = false
  blank_before : ∀ c ∈ before.getLast?, isBlank c = true
  blank_after : ∀ c ∈ after.head?, isBlank c = true

/-! ### Cuts beside white space -/

lemma words_append_of_getLast? (h : ∀ c ∈ cs.getLast?, isBlank c = true) (ds : List Char) :
    words (cs ++ ds) = words cs ++ words ds := by
  rcases List.eq_nil_or_concat cs with rfl | ⟨front, c, rfl⟩
  · rfl
  · have hc : isBlank c = true := h c (by simp)
    rw [List.concat_eq_append, List.append_assoc, List.singleton_append, words_append_cons hc,
      words_append_gap (by simpa using hc)]

lemma words_append_of_head? (h : ∀ d ∈ ds.head?, isBlank d = true) (cs : List Char) :
    words (cs ++ ds) = words cs ++ words ds := by
  cases ds with
  | nil =>
    rw [List.append_nil]
    exact (List.append_nil _).symm
  | cons d ds =>
    have hd : isBlank d = true := h d rfl
    rw [words_append_cons hd, ← List.singleton_append, words_gap_append (by simpa using hd)]

namespace IsRun

variable {before' word' after' : List Char}

lemma words_eq (h : IsRun line before word after) :
    words line = words before ++ word :: words after := by
  rw [h.cut, words_append_of_getLast? h.blank_before, words_append_of_head? h.blank_after,
    words_eq_singleton h.ne_nil h.letters, List.singleton_append]

lemma exists_letter (h : IsRun line before word after) : ∃ c ∈ word.head?, isBlank c = false := by
  obtain ⟨c, rest, rfl⟩ := List.exists_cons_of_ne_nil h.ne_nil
  exact ⟨c, rfl, h.letters c List.mem_cons_self⟩

/-- A run of what is behind a run does not begin there at once. -/
lemma mid_ne_nil (h : IsRun line before word after) (h' : IsRun after mid word' after') :
    mid ≠ [] := by
  rintro rfl
  obtain ⟨c, hc, hletter⟩ := h'.exists_letter
  have hblank : isBlank c = true := by
    apply h.blank_after
    rw [h'.cut, List.nil_append, List.head?_append_of_ne_nil _ h'.ne_nil]
    exact hc
  rw [hletter] at hblank
  cases hblank

/-- A run of what is behind a run is a run of the line. -/
lemma behind (h : IsRun line before word after) (h' : IsRun after mid word' after') :
    IsRun line (before ++ (word ++ mid)) word' after' := by
  refine ⟨?_, h'.ne_nil, h'.letters, ?_, h'.blank_after⟩
  · rw [h.cut, h'.cut]
    simp only [List.append_assoc]
  · rw [← List.append_assoc, List.getLast?_append_of_ne_nil _ (h.mid_ne_nil h')]
    exact h'.blank_before

/-- A run that begins later is a run of what is behind the earlier one. -/
lemma later (h : IsRun line before word after) (h' : IsRun line before' word' after')
    (hlt : before.length < before'.length) : ∃ mid, IsRun after mid word' after' := by
  have hcut : before ++ (word ++ after) = before' ++ (word' ++ after') := h.cut.symm.trans h'.cut
  rcases List.append_eq_append_iff.1 hcut with ⟨skipped, rfl, hrest⟩ | ⟨extra, rfl, -⟩
  · have hskipped : skipped ≠ [] := by
      rintro rfl
      simp at hlt
    have hblank : ∀ c ∈ skipped.getLast?, isBlank c = true := by
      rw [← List.getLast?_append_of_ne_nil before hskipped]
      exact h'.blank_before
    rcases List.append_eq_append_iff.1 hrest with ⟨mid, rfl, hafter⟩ | ⟨rest, rfl, -⟩
    · refine ⟨mid, hafter, h'.ne_nil, h'.letters, fun c hc => hblank c ?_, h'.blank_after⟩
      rw [List.getLast?_append, hc]
      rfl
    · -- the later run would begin within the earlier one, behind a letter of it
      have hletter : isBlank (skipped.getLast hskipped) = false :=
        h.letters _ (List.mem_append_left rest (List.getLast_mem hskipped))
      rw [hblank _ (List.getLast?_eq_some_getLast hskipped)] at hletter
      cases hletter
  · rw [List.length_append] at hlt
    omega

end IsRun

/-! ### Words and runs -/

/-- Words begin with the run behind the white space at the front. -/
lemma exists_first_run (h : words line ≠ []) :
    ∃ gap word after, IsRun line gap word after ∧ words gap = [] := by
  have hgap : ∀ c ∈ line.takeWhile isBlank, isBlank c = true := fun c => List.mem_takeWhile_imp
  have hline : line.takeWhile isBlank ++ line.dropWhile isBlank = line :=
    List.takeWhile_append_dropWhile
  have hrest : line.dropWhile isBlank ≠ [] := by
    intro hnil
    rw [hnil, List.append_nil] at hline
    rw [hline] at hgap
    exact h (words_eq_nil_iff.2 hgap)
  have hfirst := List.head_dropWhile_not isBlank hrest
  obtain ⟨c, rest, hcons⟩ := List.exists_cons_of_ne_nil hrest
  simp only [hcons, List.head_cons] at hfirst
  refine ⟨line.takeWhile isBlank, c :: rest.takeWhile (!isBlank ·), rest.dropWhile (!isBlank ·),
    ⟨?_, List.cons_ne_nil _ _, ?_, ?_, ?_⟩, words_eq_nil_iff.2 hgap⟩
  · rw [List.cons_append, List.takeWhile_append_dropWhile, ← hcons, hline]
  · intro d hd
    rcases List.mem_cons.1 hd with rfl | hd
    · exact hfirst
    · simpa using List.mem_takeWhile_imp hd
  · exact fun d hd => hgap d (List.mem_of_getLast? hd)
  · intro d hd
    have hstop := List.head?_dropWhile_not (!isBlank ·) rest
    rw [Option.mem_def.1 hd] at hstop
    simpa using hstop

lemma exists_run_of_words_eq_cons {ys : List (List Char)} (h : words line = word :: ys) :
    ∃ before after, IsRun line before word after ∧ words after = ys := by
  have hne : words line ≠ [] := by
    rw [h]
    exact List.cons_ne_nil _ _
  obtain ⟨gap, first, after, hrun, hgap⟩ := exists_first_run hne
  rw [hrun.words_eq, hgap, List.nil_append, List.cons.injEq] at h
  obtain ⟨rfl, hafter⟩ := h
  exact ⟨gap, after, hrun, hafter⟩

/-- Each word is a run, with the words that follow it behind. -/
lemma exists_run_of_words_eq {xs ys : List (List Char)} (h : words line = xs ++ word :: ys) :
    ∃ before after, IsRun line before word after ∧ words after = ys := by
  induction xs generalizing line with
  | nil => exact exists_run_of_words_eq_cons h
  | cons x xs ih =>
    obtain ⟨gap, rest, hrun, hrest⟩ := exists_run_of_words_eq_cons h
    obtain ⟨mid, after, hrun', hafter⟩ := ih hrest
    exact ⟨_, after, hrun.behind hrun', hafter⟩

lemma mem_words_iff : word ∈ words line ↔ ∃ before after, IsRun line before word after := by
  constructor
  · intro h
    obtain ⟨xs, ys, hwords⟩ := List.append_of_mem h
    obtain ⟨before, after, hrun, -⟩ := exists_run_of_words_eq hwords
    exact ⟨before, after, hrun⟩
  · rintro ⟨before, after, hrun⟩
    rw [hrun.words_eq]
    exact List.mem_append_right _ List.mem_cons_self

/-- The words behind a run are the runs that begin later. -/
lemma IsRun.mem_words_after_iff (h : IsRun line before word after) {word' : List Char} :
    word' ∈ words after ↔
      ∃ before' after', IsRun line before' word' after' ∧ before.length < before'.length := by
  rw [mem_words_iff]
  constructor
  · rintro ⟨mid, after', h'⟩
    refine ⟨_, after', h.behind h', ?_⟩
    have hpos : 0 < word.length := List.length_pos_iff.2 h.ne_nil
    rw [List.length_append, List.length_append]
    omega
  · rintro ⟨before', after', h', hlt⟩
    obtain ⟨mid, hmid⟩ := h.later h' hlt
    exact ⟨mid, after', hmid⟩

end RespWire
