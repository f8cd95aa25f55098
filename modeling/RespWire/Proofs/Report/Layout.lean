import Mathlib.Data.List.TakeWhile
import RespWire.Proofs.Collection.Dictionary
import RespWire.Proofs.Report.Lines

/-!
# Layouts of reports

A report may show the properties of a client in any order and leave any white space around them, and
blank lines between clients. All layouts are read alike, and whatever is read has a layout.
-/

namespace RespWire.ClientRecord

variable {p : Properties} {ps : List Properties} {e : String × String} {es : List (String × String)}
  {cs gap line ending : List Char}

/-- Can properties be shown on a line? Names and texts have no white space, and names no equals
sign. -/
structure Presentable (p : Properties) : Prop where
  ne_nil : p.entries ≠ []
  name : ∀ e ∈ p.entries, ∀ c ∈ e.1.toList, isBlank c = false ∧ c ≠ '='
  text : ∀ e ∈ p.entries, ∀ c ∈ e.2.toList, isBlank c = false

/-! ### Layouts -/

/-- The word for a name and a text. -/
def wordOf (e : String × String) : List Char := e.1.toList ++ '=' :: e.2.toList

/-- White space within a line. -/
def IsGap (cs : List Char) : Prop := ∀ c ∈ cs, isBlank c = true ∧ c ≠ '\n'

/-- Words in a row, with white space between them. -/
inductive Row : List (String × String) → List Char → Prop where
  | word (e : String × String) : Row [e] (wordOf e)
  | cons (e : String × String) {es : List (String × String)} {gap cs : List Char} (hne : gap ≠ [])
      (hgap : IsGap gap) (h : Row es cs) : Row (e :: es) (wordOf e ++ (gap ++ cs))

/-- A line that shows properties in some order. -/
inductive Line (p : Properties) : List Char → Prop where
  | mk {es : List (String × String)} {before cs after : List Char} (hperm : es.Perm p.entries)
      (hrow : Row es cs) (hbefore : IsGap before) (hafter : IsGap after) :
      Line p (before ++ (cs ++ after))

inductive LineEnd : List Char → Prop where
  | feed : LineEnd ['\n']
  | returnFeed : LineEnd ['\r', '\n']

/-- A report with a line for each client in turn, and blank lines anywhere. -/
inductive Layout : List Properties → List Char → Prop where
  | blank {gap : List Char} (h : IsGap gap) : Layout [] gap
  | line {p : Properties} {line : List Char} (h : Line p line) : Layout [p] line
  | blank_append {ps : List Properties} {gap ending cs : List Char} (h : IsGap gap)
      (hend : LineEnd ending) (hrest : Layout ps cs) : Layout ps (gap ++ (ending ++ cs))
  | line_append {p : Properties} {ps : List Properties} {line ending cs : List Char}
      (h : Line p line) (hend : LineEnd ending) (hrest : Layout ps cs) :
      Layout (p :: ps) (line ++ (ending ++ cs))

/-! ### Words -/

lemma Presentable.isBlank_of_mem_wordOf (hp : Presentable p) (he : e ∈ p.entries) {c : Char}
    (hc : c ∈ wordOf e) : isBlank c = false := by
  rcases List.mem_append.1 hc with hc | hc
  · exact (hp.name e he c hc).1
  · rcases List.mem_cons.1 hc with rfl | hc
    · decide
    · exact hp.text e he c hc

lemma wordOf_ne_nil (e : String × String) : wordOf e ≠ [] := by simp [wordOf]

lemma ofWord_wordOf (h : ∀ c ∈ e.1.toList, c ≠ '=') : ofWord (wordOf e) = e := by
  have hname : ∀ c ∈ e.1.toList, decide (c ≠ '=') = true := fun c hc => decide_eq_true (h c hc)
  simp only [ofWord, wordOf, List.takeWhile_append_of_pos hname, List.dropWhile_append_of_pos hname]
  simp

lemma map_ofWord_wordOf (h : ∀ e ∈ es, ∀ c ∈ e.1.toList, c ≠ '=') :
    (es.map wordOf).map ofWord = es := by
  rw [List.map_map]
  conv_rhs => rw [← List.map_id es]
  exact List.map_congr_left fun e he => ofWord_wordOf (h e he)

lemma words_row (h : Row es cs) (hes : ∀ e ∈ es, ∀ c ∈ wordOf e, isBlank c = false) :
    words cs = es.map wordOf := by
  induction h with
  | word e => exact words_eq_singleton (wordOf_ne_nil e) (hes e List.mem_cons_self)
  | cons e hne hgap h ih =>
    rw [words_append_gap_append hne fun c hc => (hgap c hc).1,
      words_eq_singleton (wordOf_ne_nil e) (hes e List.mem_cons_self),
      ih fun e' he' => hes e' (List.mem_cons_of_mem e he')]
    rfl

lemma feed_notMem_row (h : Row es cs) (hes : ∀ e ∈ es, ∀ c ∈ wordOf e, isBlank c = false) :
    '\n' ∉ cs := by
  have hword : ∀ e ∈ es, '\n' ∉ wordOf e := by
    intro e he hc
    cases hes e he '\n' hc
  induction h with
  | word e => exact hword e List.mem_cons_self
  | cons e hne hgap h ih =>
    have hrest := ih (fun e' he' => hes e' (List.mem_cons_of_mem e he'))
      fun e' he' => hword e' (List.mem_cons_of_mem e he')
    simp only [List.mem_append, not_or]
    exact ⟨hword e List.mem_cons_self, fun hc => (hgap _ hc).2 rfl, hrest⟩

/-! ### Reading layouts -/

/-- A line is read as what it shows. -/
lemma ofText_of_line (hp : Presentable p) (h : Line p line) : ofText line = [⟨p⟩] := by
  obtain @⟨es, before, cs, after, hperm, hrow, hbefore, hafter⟩ := h
  have hes : ∀ e ∈ es, ∀ c ∈ wordOf e, isBlank c = false := by
    intro e he c hc
    exact hp.isBlank_of_mem_wordOf (hperm.subset he) hc
  have hfeed : '\n' ∉ before ++ (cs ++ after) := by
    simp only [List.mem_append, not_or]
    exact ⟨fun hc => (hbefore _ hc).2 rfl, feed_notMem_row hrow hes, fun hc => (hafter _ hc).2 rfl⟩
  have hwords : words (before ++ (cs ++ after)) = es.map wordOf := by
    rw [words_gap_append fun c hc => (hbefore c hc).1, words_append_gap fun c hc => (hafter c hc).1,
      words_row hrow hes]
  have hmap : (es.map wordOf).map ofWord = es :=
    map_ofWord_wordOf fun e he c hc => (hp.name e (hperm.subset he) c hc).2
  have hne : es ≠ [] := by
    rintro rfl
    exact hp.ne_nil hperm.nil_eq.symm
  rw [ofText_line hfeed, all_isBlank_eq, hwords, if_neg (by simpa using hne), ofLine, hwords, hmap,
    Dictionary.ofList_eq_of_perm hperm]

lemma ofText_append_end (h : LineEnd ending) (a b : List Char) :
    ofText (a ++ (ending ++ b)) = ofText a ++ ofText b := by
  cases h with
  | feed => exact ofText_append a b
  | returnFeed =>
    rw [← ofText_append_return a, ← ofText_append]
    simp

lemma ofText_gap (h : IsGap gap) : ofText gap = [] :=
  ofText_eq_nil_iff.2 fun c hc => (h c hc).1

/-- A report is read as what it shows, however it is laid out. -/
lemma ofText_of_layout (h : Layout ps cs) (hps : ∀ p ∈ ps, Presentable p) :
    ofText cs = ps.map ClientRecord.mk := by
  induction h with
  | blank hgap => exact ofText_gap hgap
  | line hline => exact ofText_of_line (hps _ List.mem_cons_self) hline
  | blank_append hgap hend _ ih => rw [ofText_append_end hend, ofText_gap hgap, ih hps]; rfl
  | line_append hline hend _ ih =>
    rw [ofText_append_end hend, ofText_of_line (hps _ List.mem_cons_self) hline,
      ih fun p hp => hps p (List.mem_cons_of_mem _ hp)]
    rfl

/-! ### What is read -/

lemma presentable_ofLine (h : line.all isBlank = false) : Presentable (ofLine line).properties where
  ne_nil := by
    apply Dictionary.ofList_entries_ne_nil
    simpa [all_isBlank_eq] using h
  name := by
    intro e he c hc
    obtain ⟨word, hword, rfl⟩ := List.mem_map.1 (Dictionary.mem_ofList he)
    rw [ofWord, String.toList_ofList] at hc
    refine ⟨isBlank_of_mem_words hword (List.takeWhile_subset _ hc), ?_⟩
    simpa using List.mem_takeWhile_imp hc
  text := by
    intro e he c hc
    obtain ⟨word, hword, rfl⟩ := List.mem_map.1 (Dictionary.mem_ofList he)
    rw [ofWord, String.toList_ofList] at hc
    exact isBlank_of_mem_words hword (List.dropWhile_subset _ (List.drop_subset _ _ hc))

lemma presentable_of_mem_listOfReport {report : Option String} {r : ClientRecord}
    (h : r ∈ listOfReport report) : Presentable r.properties := by
  cases report with
  | none => cases h
  | some t =>
    rw [listOfReport_some] at h
    obtain ⟨line, hline, rfl⟩ := List.mem_map.1 h
    exact presentable_ofLine (by simpa using (List.mem_filter.1 hline).2)

/-! ### Plain layouts -/

/-- Words with a space between any two. -/
def plainRow : List (String × String) → List Char
  | [] => []
  | [e] => wordOf e
  | e :: es => wordOf e ++ ([' '] ++ plainRow es)

/-- A line for each client and nothing else. -/
def plainReport (ps : List Properties) : List Char :=
  ps.flatMap fun p => plainRow p.entries ++ ['\n']

lemma isGap_nil : IsGap [] := by simp [IsGap]

lemma isGap_space : IsGap [' '] := by
  intro c hc
  rw [List.mem_singleton.1 hc]
  decide

lemma row_plainRow (h : es ≠ []) : Row es (plainRow es) := by
  induction es with
  | nil => exact absurd rfl h
  | cons e es ih =>
    cases es with
    | nil => exact .word e
    | cons e' es =>
      exact .cons e (List.cons_ne_nil ' ' []) isGap_space (ih (List.cons_ne_nil e' es))

lemma line_plainRow (h : p.entries ≠ []) : Line p (plainRow p.entries) := by
  have hline := Line.mk (.refl p.entries) (row_plainRow h) isGap_nil isGap_nil
  rwa [List.nil_append, List.append_nil] at hline

lemma layout_plainReport (h : ∀ p ∈ ps, p.entries ≠ []) : Layout ps (plainReport ps) := by
  induction ps with
  | nil => exact .blank isGap_nil
  | cons p ps ih =>
    have hline := line_plainRow (h p List.mem_cons_self)
    have hrest := ih fun q hq => h q (List.mem_cons_of_mem p hq)
    rw [plainReport, List.flatMap_cons, List.append_assoc]
    exact .line_append hline .feed hrest

/-- Every layout is read as what it shows. Whatever is read can be shown, and showing it in any
layout, a plain one for instance, and reading that gives the same again. -/
theorem layout_read_back :
    (∀ (ps : List Properties) (t : String), (∀ p ∈ ps, Presentable p) → Layout ps t.toList →
      listOfReport (some t) = ps.map ClientRecord.mk) ∧
    (∀ report, ∀ r ∈ listOfReport report, Presentable r.properties) ∧
    (∀ (report : Option String) (t : String),
      Layout ((listOfReport report).map properties) t.toList →
      listOfReport (some t) = listOfReport report) ∧
    ∀ report : Option String,
      Layout ((listOfReport report).map properties)
        (plainReport ((listOfReport report).map properties)) ∧
      listOfReport (some (String.ofList (plainReport ((listOfReport report).map properties)))) =
        listOfReport report := by
  have hread : ∀ (ps : List Properties) (t : String), (∀ p ∈ ps, Presentable p) →
      Layout ps t.toList → listOfReport (some t) = ps.map ClientRecord.mk := by
    intro ps t hps h
    rw [listOfReport_some, ofText_of_layout h hps]
  have hpresentable : ∀ report, ∀ p ∈ (listOfReport report).map properties, Presentable p := by
    intro report p hp
    obtain ⟨r, hr, rfl⟩ := List.mem_map.1 hp
    exact presentable_of_mem_listOfReport hr
  have hagain : ∀ (report : Option String) (t : String),
      Layout ((listOfReport report).map properties) t.toList →
      listOfReport (some t) = listOfReport report := by
    intro report t h
    rw [hread _ t (hpresentable report) h, List.map_map]
    exact List.map_id _
  refine ⟨hread, fun report r hr => presentable_of_mem_listOfReport hr, hagain, fun report => ?_⟩
  have hplain := layout_plainReport fun p hp => (hpresentable report p hp).ne_nil
  exact ⟨hplain, hagain report _ (by rwa [String.toList_ofList])⟩

/-- A text with an equals sign in it, without a name, and a name without a text. -/
def oddProperties : Properties := ⟨[("", "x=y"), ("name", "")], by decide⟩

/-- A blank line, then the properties in descending order with an em space between them. -/
def oddReport : String := " \r\n\tname=\u2003=x=y\r\n"

theorem layout_read_back_odd :
    Presentable oddProperties ∧ Layout [oddProperties] oddReport.toList ∧
      listOfReport (some oddReport) = [⟨oddProperties⟩] ∧
      Layout ((listOfReport (some oddReport)).map properties) "=x=y name=".toList ∧
      listOfReport (some "=x=y name=") = listOfReport (some oddReport) := by
  have hp : Presentable oddProperties :=
    ⟨by decide, by simp [oddProperties]; decide, by simp [oddProperties]; decide⟩
  have htab : IsGap ['\t'] := by simp [IsGap]; decide
  have hspace : IsGap ['\u2003'] := by simp [IsGap]; decide
  have hrow : Row [("name", ""), ("", "x=y")] "name=\u2003=x=y".toList :=
    .cons ("name", "") (List.cons_ne_nil '\u2003' []) hspace (.word ("", "x=y"))
  have hline : Line oddProperties "\tname=\u2003=x=y".toList :=
    .mk (.swap ..) hrow htab isGap_nil
  have hlayout : Layout [oddProperties] oddReport.toList :=
    .blank_append isGap_space .returnFeed (.line_append hline .returnFeed (.blank isGap_nil))
  obtain ⟨hread, -, hagain, -⟩ := layout_read_back
  have hlist : listOfReport (some oddReport) = [⟨oddProperties⟩] :=
    hread [oddProperties] oddReport (by simpa using hp) hlayout
  have hplain : Layout ((listOfReport (some oddReport)).map properties) "=x=y name=".toList := by
    rw [hlist]
    exact .line (line_plainRow hp.ne_nil)
  exact ⟨hp, hlayout, hlist, hplain, hagain (some oddReport) "=x=y name=" hplain⟩

end RespWire.ClientRecord
