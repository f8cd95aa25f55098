import RespWire.Proofs.Report.Layout
import RespWire.Proofs.Report.Properties
import RespWire.Proofs.Text.Runs

/-!
# Records by their last words

A name has the text that the last word of the line gives it, and none if no word gives it one. A
line that is cut at white space is read as its first part, overridden by its second part.
-/

namespace RespWire.ClientRecord

variable {line word : List Char} {name text : String}

/-- Does a word give a text to a name? The name ends at the first equals sign, which the text is
behind. Without one the whole word is a name, and its text is empty. -/
inductive Gives : List Char → String → String → Prop where
  | pair (name text : String) (h : '=' ∉ name.toList) :
    Gives (name.toList ++ '=' :: text.toList) name text
  | bare (name : String) (h : '=' ∉ name.toList) : Gives name.toList name ""

/-- The properties of one client, overridden by those of another. -/
def overriddenBy (c d : ClientRecord) : ClientRecord :=
  ⟨c.properties.insertAll d.properties.entries⟩

/-! ### Words -/

lemma ofWord_of_notMem (h : '=' ∉ word) : ofWord word = (String.ofList word, "") := by
  have hletters : ∀ c ∈ word, decide (c ≠ '=') = true := by
    intro c hc
    exact decide_eq_true fun heq => h (heq ▸ hc)
  rw [ofWord, List.takeWhile_eq_self_iff.2 hletters, List.dropWhile_eq_nil_iff.2 hletters]
  rfl

lemma ofWord_append_cons {front : List Char} (h : '=' ∉ front) (rest : List Char) :
    ofWord (front ++ '=' :: rest) = (String.ofList front, String.ofList rest) := by
  have hword := ofWord_wordOf (e := (String.ofList front, String.ofList rest))
    fun c hc heq => h (by simpa [heq] using hc)
  simpa only [wordOf, String.toList_ofList] using hword

lemma gives_iff : Gives word name text ↔ ofWord word = (name, text) := by
  constructor
  · rintro (⟨name, text, h⟩ | ⟨name, h⟩)
    · rw [ofWord_append_cons h, String.ofList_toList, String.ofList_toList]
    · rw [ofWord_of_notMem h, String.ofList_toList]
  · intro h
    by_cases hword : '=' ∈ word
    · obtain ⟨front, rest, rfl, hfront⟩ := List.eq_append_cons_of_mem hword
      rw [ofWord_append_cons hfront, Prod.mk.injEq] at h
      obtain ⟨rfl, rfl⟩ := h
      simpa [hfront] using Gives.pair (String.ofList front) (String.ofList rest)
    · rw [ofWord_of_notMem hword, Prod.mk.injEq] at h
      obtain ⟨rfl, rfl⟩ := h
      simpa [hword] using Gives.bare (String.ofList word)

lemma exists_gives_iff : (∃ text, Gives word name text) ↔ (ofWord word).1 = name := by
  simp only [gives_iff]
  constructor
  · rintro ⟨text, h⟩
    rw [h]
  · rintro rfl
    exact ⟨(ofWord word).2, rfl⟩

/-! ### Lines -/

lemma represents_ofLine (line : List Char) :
    Properties.Represents (ofLine line).properties ((words line).map ofWord) :=
  Dictionary.get?_ofList _

lemma get?_ofLine (line : List Char) (name : String) :
    (ofLine line).get? name = ((words line).map ofWord).reverse.lookup name :=
  represents_ofLine line name

lemma get?_ofLine_eq_none_iff :
    (ofLine line).get? name = none ↔ ∀ word ∈ words line, ∀ text, ¬ Gives word name text := by
  simp only [get?_ofLine, List.lookup_eq_none_iff, List.mem_reverse, List.forall_mem_map,
    bne_iff_ne, ne_comm (a := name), ← exists_gives_iff, ne_eq, not_exists]

/-- The word of a line that comes last for a name gives the text. -/
lemma get?_ofLine_eq_some_iff : (ofLine line).get? name = some text ↔
    ∃ before word after, words line = before ++ word :: after ∧ Gives word name text ∧
      ∀ word' ∈ after, ∀ text', ¬ Gives word' name text' := by
  have hothers (after : List (List Char)) :
      (∀ word' ∈ after, ∀ text', ¬ Gives word' name text') ↔
        ∀ e ∈ after.map ofWord, e.1 ≠ name := by
    simp only [List.forall_mem_map, ← exists_gives_iff, ne_eq, not_exists]
  rw [get?_ofLine, Dictionary.lookup_reverse_eq_some_iff_isLast, Dictionary.IsLast]
  constructor
  · rintro ⟨before', after', hpairs, hafter⟩
    obtain ⟨before, rest, hwords, -, hrest⟩ := List.map_eq_append_iff.1 hpairs
    obtain ⟨word, after, rfl, hword, rfl⟩ := List.map_eq_cons_iff.1 hrest
    exact ⟨before, word, after, hwords, gives_iff.2 hword, (hothers after).2 hafter⟩
  · rintro ⟨before, word, after, hwords, hword, hafter⟩
    refine ⟨before.map ofWord, after.map ofWord, ?_, (hothers after).1 hafter⟩
    rw [hwords, List.map_append, List.map_cons, gives_iff.1 hword]

/-- The last run that gives a name a text gives the text of the name. -/
lemma get?_ofLine_eq_some_iff_run : (ofLine line).get? name = some text ↔
    ∃ before word after, IsRun line before word after ∧ Gives word name text ∧
      ∀ before' word' after' text', IsRun line before' word' after' →
        before.length < before'.length → ¬ Gives word' name text' := by
  rw [get?_ofLine_eq_some_iff]
  constructor
  · rintro ⟨front, word, rest, hwords, hword, hlast⟩
    obtain ⟨before, after, hrun, rfl⟩ := exists_run_of_words_eq hwords
    refine ⟨before, word, after, hrun, hword, fun before' word' after' text' h' hlt => ?_⟩
    exact hlast word' (hrun.mem_words_after_iff.2 ⟨before', after', h', hlt⟩) text'
  · rintro ⟨before, word, after, hrun, hword, hlast⟩
    refine ⟨words before, word, words after, hrun.words_eq, hword, fun word' hmem text' => ?_⟩
    obtain ⟨before', after', h', hlt⟩ := hrun.mem_words_after_iff.1 hmem
    exact hlast before' word' after' text' h' hlt

/-- A record has a text for each of the names on its line. -/
lemma size_ofLine (line : List Char) :
    (ofLine line).properties.size = ((words line).map fun word => (ofWord word).1).toFinset.card := by
  rw [(represents_ofLine line).size_eq, List.map_map]
  rfl

/-! ### Cut lines -/

lemma get?_overriddenBy (c d : ClientRecord) (name : String) :
    (c.overriddenBy d).get? name = (d.get? name).or (c.get? name) :=
  Dictionary.get?_insertAll_entries c.properties d.properties name

lemma ofLine_append_cons {c : Char} (hc : isBlank c = true) (a b : List Char) :
    ofLine (a ++ c :: b) = (ofLine a).overriddenBy (ofLine b) := by
  rw [ofLine, words_append_cons hc, List.map_append, Dictionary.ofList_append, overriddenBy, ofLine,
    ofLine, Dictionary.insertAll_entries_ofList]

/-- A name has the text of the last run of the line that gives it one, and none if no run does, so
there are as many texts as names. A line that is cut at white space is read part by part, and the
second part counts where both have a text. -/
theorem line_read_by_last_words :
    (∀ line name text, (ofLine line).get? name = some text ↔
      ∃ before word after, IsRun line before word after ∧ Gives word name text ∧
        ∀ before' word' after' text', IsRun line before' word' after' →
          before.length < before'.length → ¬ Gives word' name text') ∧
    (∀ line name, (ofLine line).get? name = none ↔
      ∀ before word after text, IsRun line before word after → ¬ Gives word name text) ∧
    (∀ line, ∃ names : Finset String,
      (∀ name, name ∈ names ↔
        ∃ before word after text, IsRun line before word after ∧ Gives word name text) ∧
      (ofLine line).properties.size = names.card) ∧
    ∀ a c b, isBlank c = true →
      ofLine (a ++ c :: b) = (ofLine a).overriddenBy (ofLine b) ∧
      ∀ name, (ofLine (a ++ c :: b)).get? name =
        ((ofLine b).get? name).or ((ofLine a).get? name) := by
  refine ⟨fun line name text => get?_ofLine_eq_some_iff_run, fun line name => ?_, fun line => ?_,
    fun a c b hc => ?_⟩
  · simp only [get?_ofLine_eq_none_iff, mem_words_iff]
    constructor
    · intro h before word after text hrun
      exact h word ⟨before, after, hrun⟩ text
    · rintro h word ⟨before, after, hrun⟩ text
      exact h before word after text hrun
  · refine ⟨_, fun name => ?_, size_ofLine line⟩
    simp only [List.mem_toFinset, List.mem_map, ← exists_gives_iff, mem_words_iff]
    constructor
    · rintro ⟨word, ⟨before, after, hrun⟩, text, hgives⟩
      exact ⟨before, word, after, text, hrun, hgives⟩
    · rintro ⟨before, word, after, text, hrun, hgives⟩
      exact ⟨word, ⟨before, after, hrun⟩, text, hgives⟩
  · rw [ofLine_append_cons hc]
    exact ⟨rfl, get?_overriddenBy _ _⟩

/-- The first part of a line, with a name that the second part has another text for. -/
def firstPart : List Char := "name=a age=1 x".toList

/-- The second part, with an equals sign in a text and a word that gives a text to the empty name. -/
def secondPart : List Char := "name=b=c =z".toList

/-- An em space cuts a line too. -/
theorem line_read_by_last_words_overridden :
    isBlank '\u2003' = true ∧
      ofLine (firstPart ++ '\u2003' :: secondPart) =
        (ofLine firstPart).overriddenBy (ofLine secondPart) ∧
      (ofLine (firstPart ++ '\u2003' :: secondPart)).get? "name" = some "b=c" ∧
      (ofLine (firstPart ++ '\u2003' :: secondPart)).get? "" = some "z" ∧
      (ofLine (firstPart ++ '\u2003' :: secondPart)).get? "x" = some "" ∧
      (ofLine (firstPart ++ '\u2003' :: secondPart)).get? "b" = none := by
  have hblank : isBlank '\u2003' = true := by decide
  obtain ⟨hcut, hget⟩ := line_read_by_last_words.2.2.2 firstPart '\u2003' secondPart hblank
  have hsecond : (ofLine secondPart).get? "name" = some "b=c" ∧
      (ofLine secondPart).get? "" = some "z" ∧ (ofLine secondPart).get? "x" = none ∧
      (ofLine secondPart).get? "b" = none := by decide
  have hfirst : (ofLine firstPart).get? "x" = some "" ∧ (ofLine firstPart).get? "b" = none := by
    decide
  refine ⟨hblank, hcut, ?_, ?_, ?_, ?_⟩
  · rw [hget, hsecond.1]
    rfl
  · rw [hget, hsecond.2.1]
    rfl
  · rw [hget, hsecond.2.2.1, hfirst.1]
    rfl
  · rw [hget, hsecond.2.2.2, hfirst.2]
    rfl

end RespWire.ClientRecord
