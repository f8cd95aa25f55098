import RespWire.Proofs.Text.Words
import RespWire.Report.Client

/-!
# Reports line by line

A report on clients is read line by line. How its lines end, and where lines of white space stand,
does not matter.
-/

namespace RespWire.ClientRecord

variable {cs line : List Char}

/-- A record for each of some lines that is not blank. -/
def ofLines (lines : List (List Char)) : List ClientRecord :=
  (lines.filter fun line => !line.all isBlank).map ofLine

/-- The records of a text whose lines end with line feeds alone. -/
def ofText (cs : List Char) : List ClientRecord := ofLines (cs.splitOn '\n')

/-! ### Lines -/

lemma ofLines_cons (line : List Char) (lines : List (List Char)) :
    ofLines (line :: lines) = (if line.all isBlank then [] else [ofLine line]) ++ ofLines lines := by
  by_cases h : line.all isBlank = true <;> simp [ofLines, h]

lemma ofLines_append (lines lines' : List (List Char)) :
    ofLines (lines ++ lines') = ofLines lines ++ ofLines lines' := by
  simp [ofLines]

lemma ofLines_linesOfPieces (pieces : List (List Char)) :
    ofLines (linesOfPieces pieces) = ofLines pieces := by
  match pieces with
  | [] => rfl
  | [piece] =>
    rw [linesOfPieces]
    split_ifs with h
    · rw [List.isEmpty_iff.1 h]
      rfl
    · rfl
  | piece :: next :: pieces =>
    rw [linesOfPieces, ofLines_cons, ofLines_cons piece, ofLines_linesOfPieces (next :: pieces)]
    · simp only [all_isBlank_eq, ofLine, words_dropReturn]
    · exact List.cons_ne_nil _ _

/-! ### Texts -/

lemma ofText_append (a b : List Char) : ofText (a ++ '\n' :: b) = ofText a ++ ofText b := by
  rw [ofText, List.splitOn_append_cons_self, ofLines_append]
  rfl

lemma ofText_line (h : '\n' ∉ line) :
    ofText line = if line.all isBlank then [] else [ofLine line] := by
  rw [ofText, List.splitOn_eq_singleton h, ofLines_cons]
  exact List.append_nil _

lemma ofText_eq_nil_iff : ofText cs = [] ↔ ∀ c ∈ cs, isBlank c = true := by
  induction cs using lineInduction with
  | last line hline =>
    rw [ofText_line hline]
    simp
  | more line cs hline ih =>
    have hfeed : isBlank '\n' = true := by decide
    rw [ofText_append, List.append_eq_nil_iff, ih, ofText_line hline]
    simp [or_imp, forall_and, hfeed]

lemma ofText_append_return (cs : List Char) : ofText (cs ++ ['\r']) = ofText cs := by
  induction cs using lineInduction with
  | last line hline =>
    have hreturn : '\n' ∉ line ++ ['\r'] := by simp [hline]
    rw [ofText_line hline, ofText_line hreturn]
    simp only [all_isBlank_eq, ofLine, words_append_return]
  | more line cs hline ih =>
    rw [List.append_assoc, List.cons_append, ofText_append, ofText_append, ih]

/-- Neither the short cut for blank reports nor the rules for ends of lines show. -/
theorem listOfReport_some (t : String) : listOfReport (some t) = ofText t.toList := by
  rw [listOfReport]
  split_ifs with h
  · exact (ofText_eq_nil_iff.2 (List.all_eq_true.1 h)).symm
  · exact ofLines_linesOfPieces _

lemma listOfReport_of_blank {t : String} (h : isBlankText t = true) : listOfReport (some t) = [] :=
  if_pos h

lemma listOfReport_append_feed (a b : String) :
    listOfReport (some (a ++ "\n" ++ b)) = listOfReport (some a) ++ listOfReport (some b) := by
  have hcs : (a ++ "\n" ++ b).toList = a.toList ++ '\n' :: b.toList := by simp
  simp only [listOfReport_some, hcs, ofText_append]

lemma listOfReport_append_return_feed (a b : String) :
    listOfReport (some (a ++ "\r\n" ++ b)) = listOfReport (some a) ++ listOfReport (some b) := by
  have hcs : (a ++ "\r\n" ++ b).toList = (a.toList ++ ['\r']) ++ '\n' :: b.toList := by simp
  simp only [listOfReport_some, hcs, ofText_append, ofText_append_return]

/-- A report is read line by line. There is a record for each line that is not blank, so none
exactly for a blank or absent report, and neither the ends of lines nor blank lines matter. -/
theorem report_read_by_lines :
    (∀ a b : String,
      listOfReport (some (a ++ "\n" ++ b)) = listOfReport (some a) ++ listOfReport (some b)) ∧
    (∀ t : String, '\n' ∉ t.toList →
      listOfReport (some t) = if isBlankText t then [] else [ofLine t.toList]) ∧
    (∀ t : String, listOfReport (some t) =
      ((t.toList.splitOn '\n').filter fun line => !line.all isBlank).map ofLine) ∧
    (∀ report : Option String,
      listOfReport report = [] ↔ ∀ t, report = some t → isBlankText t = true) ∧
    (∀ a b : String,
      listOfReport (some (a ++ "\r\n" ++ b)) = listOfReport (some (a ++ "\n" ++ b))) ∧
    (∀ t : String, listOfReport (some (t ++ "\n")) = listOfReport (some t) ∧
      listOfReport (some (t ++ "\r\n")) = listOfReport (some t)) ∧
    ∀ a blank b : String, isBlankText blank = true →
      listOfReport (some (blank ++ "\n" ++ b)) = listOfReport (some b) ∧
      listOfReport (some (a ++ "\n" ++ blank)) = listOfReport (some a) ∧
      listOfReport (some (a ++ "\n" ++ blank ++ "\n" ++ b)) =
        listOfReport (some (a ++ "\n" ++ b)) := by
  have hempty : listOfReport (some "") = [] := rfl
  refine ⟨listOfReport_append_feed, fun t h => ?_, listOfReport_some, fun report => ?_,
    fun a b => ?_, fun t => ⟨?_, ?_⟩, fun a blank b h => ?_⟩
  · rw [listOfReport_some, ofText_line h]
    rfl
  · cases report with
    | none => simp [listOfReport]
    | some t =>
      rw [listOfReport_some, ofText_eq_nil_iff]
      simp [isBlankText]
  · rw [listOfReport_append_return_feed, listOfReport_append_feed]
  · rw [← String.append_empty (s := t ++ "\n"), listOfReport_append_feed, hempty, List.append_nil]
  · rw [← String.append_empty (s := t ++ "\r\n"), listOfReport_append_return_feed, hempty,
      List.append_nil]
  · have hblank := listOfReport_of_blank h
    simp only [listOfReport_append_feed, hblank, List.append_nil, List.nil_append, and_self]

/-- A line may end in a return without a line feed, and a line of returns is blank. -/
theorem report_read_by_lines_returns :
    '\n' ∉ "id=3 x\r".toList ∧
      listOfReport (some "id=3 x\r") = [ofLine "id=3 x\r".toList] ∧
      isBlankText "\r\r" = true ∧
      listOfReport (some ("id=3 x\r" ++ "\n" ++ "\r\r" ++ "\n" ++ "name=")) =
        listOfReport (some ("id=3 x\r" ++ "\n" ++ "name=")) := by
  obtain ⟨-, hline, -, -, -, -, hblank⟩ := report_read_by_lines
  have hone := hline "id=3 x\r" (by decide)
  rw [if_neg (by decide)] at hone
  exact ⟨by decide, hone, by decide, (hblank "id=3 x\r" "\r\r" "name=" (by decide)).2.2⟩

end RespWire.ClientRecord
