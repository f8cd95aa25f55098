import RespWire.Proofs.Collection.Last
import RespWire.Proofs.Keyspace.SortQuery

/-!
# Sort queries made by changes

A query that is made by changes has all patterns to return in the order in which they were added,
and of each other part what was set last. So two changes next to each other can be swapped unless
they set the same part, or add different patterns.
-/

namespace RespWire

/-- What is asked for, as arguments: BY with its pattern, GET with each of the patterns, LIMIT with
its two integers, DESC and ALPHA. -/
def SortDemand.written (d : SortDemand) : List Bytes :=
  Encoding.option "BY" d.byPattern ++
    (d.getPatterns.flatMap fun pattern => [Utf8.encode "GET", pattern]) ++
    (d.limit.elim [] fun w =>
      [Utf8.encode "LIMIT", Encoding.integer w.offset.toInt, Encoding.integer w.count.toInt]) ++
    (if d.descending then [Utf8.encode "DESC"] else []) ++
    if d.alphabetic then [Utf8.encode "ALPHA"] else []

namespace SortQuery

variable {a b : Edit}

/-! ### What a change sets -/

/-- The parts of a query. -/
inductive Part where
  | byPattern
  | getPatterns
  | limit
  | order
  | comparison
  deriving DecidableEq, Repr

namespace Edit

/-- The part of a query that a change is about. -/
def part : Edit → Part
  | .sortBy _ => .byPattern
  | .get _ => .getPatterns
  | .limit _ _ => .limit
  | .order _ => .order
  | .alpha => .comparison
  | .numeric => .comparison

def byPattern? : Edit → Option Bytes
  | .sortBy p => some p
  | _ => none

def getPattern? : Edit → Option Bytes
  | .get p => some p
  | _ => none

def window? : Edit → Option SortWindow
  | .limit m n => some ⟨m, n⟩
  | _ => none

def direction? : Edit → Option SortDirection
  | .order d => some d
  | _ => none

/-- Does a change make the comparison alphabetic, if it is about that? -/
def alphabetic? : Edit → Option Bool
  | .alpha => some true
  | .numeric => some false
  | _ => none

end Edit

/-- Do two changes depend on their order? Patterns to return are kept in order, and other parts have
one value only. -/
inductive Clash : Edit → Edit → Prop where
  | get {p p' : Bytes} (h : p ≠ p') : Clash (.get p) (.get p')
  | set {a b : Edit} (h : a.part = b.part) (hget : a.part ≠ .getPatterns) : Clash a b

/-! ### One change -/

lemma byPattern_edit (q : SortQuery) (e : Edit) :
    (q.edit e).byPattern = e.byPattern?.or q.byPattern := by
  cases e <;> rfl

lemma getPatterns_edit (q : SortQuery) (e : Edit) :
    (q.edit e).getPatterns.getD [] = q.getPatterns.getD [] ++ e.getPattern?.toList := by
  cases e <;> simp [edit, Edit.getPattern?]

lemma limit_edit (q : SortQuery) (e : Edit) : (q.edit e).limit = e.window?.or q.limit := by
  cases e <;> rfl

lemma order_edit (q : SortQuery) (e : Edit) : (q.edit e).order = e.direction?.or q.order := by
  cases e <;> rfl

lemma alphabetic_edit (q : SortQuery) (e : Edit) :
    (q.edit e).alphabetic = e.alphabetic?.or q.alphabetic := by
  cases e <;> rfl

/-- Changes of different parts can be made in any order. -/
lemma edit_comm_of_part_ne (h : a.part ≠ b.part) (q : SortQuery) :
    (q.edit a).edit b = (q.edit b).edit a := by
  cases a <;> cases b <;> first | rfl | exact absurd rfl h

lemma eq_get_of_part (h : a.part = .getPatterns) : ∃ p, a = .get p := by
  cases a with
  | get p => exact ⟨p, rfl⟩
  | _ => cases h

lemma edit_comm (h : ¬ Clash a b) (q : SortQuery) : (q.edit a).edit b = (q.edit b).edit a := by
  by_cases hpart : a.part = b.part
  · have hget : a.part = .getPatterns := by
      by_contra hne
      exact h (.set hpart hne)
    obtain ⟨p, rfl⟩ := eq_get_of_part hget
    obtain ⟨p', rfl⟩ := eq_get_of_part (hpart.symm.trans hget)
    have hp : p = p' := by
      by_contra hne
      exact h (.get hne)
    rw [hp]
  · exact edit_comm_of_part_ne hpart q

/-! ### All changes -/

/-- What changes ask for: the patterns to return in order, and the last of what each other part was
set to. -/
def demandOf (edits : List Edit) : SortDemand :=
  ⟨last? Edit.byPattern? edits, edits.filterMap Edit.getPattern?, last? Edit.window? edits,
    last? Edit.direction? edits = some .descending, last? Edit.alphabetic? edits = some true⟩

lemma getPatterns_run (q : SortQuery) (edits : List Edit) :
    (q.run edits).getPatterns.getD [] =
      q.getPatterns.getD [] ++ edits.filterMap Edit.getPattern? := by
  induction edits generalizing q with
  | nil => exact (List.append_nil _).symm
  | cons e edits ih =>
    have hrun : q.run (e :: edits) = (q.edit e).run edits := rfl
    rw [hrun, ih, getPatterns_edit, List.append_assoc, List.filterMap_cons]
    cases e.getPattern? <;> rfl

/-- No change is forgotten but for later ones of the same part. -/
lemma demand_run (edits : List Edit) : (run empty edits).demand = demandOf edits := by
  have hby : (run empty edits).byPattern = last? Edit.byPattern? edits :=
    foldl_eq_last?_of_eq_none byPattern_edit rfl edits
  have hlimit : (run empty edits).limit = last? Edit.window? edits :=
    foldl_eq_last?_of_eq_none limit_edit rfl edits
  have horder : (run empty edits).order = last? Edit.direction? edits :=
    foldl_eq_last?_of_eq_none order_edit rfl edits
  have halphabetic : (run empty edits).alphabetic = last? Edit.alphabetic? edits :=
    foldl_eq_last?_of_eq_none alphabetic_edit rfl edits
  rw [demand, demandOf, hby, getPatterns_run, hlimit, horder, halphabetic]
  rfl

lemma run_swap (h : ¬ Clash a b) (q : SortQuery) (before after : List Edit) :
    q.run (before ++ a :: b :: after) = q.run (before ++ b :: a :: after) := by
  simp only [run, List.foldl_append, List.foldl_cons, edit_comm h]

/-! ### Arguments -/

lemma arguments_eq_written (q : SortQuery) : q.arguments = ⟨q.demand.written⟩ := by
  rw [arguments, byArguments_eq, getArguments_eq, limitArguments_eq, orderArguments_eq,
    alphaArguments_eq]
  simp only [SortDemand.written, demand, decide_eq_true_eq]

lemma arguments_swap_get_ne {p p' : Bytes} (h : p ≠ p') (before after : List Edit) :
    (run empty (before ++ .get p :: .get p' :: after)).arguments ≠
      (run empty (before ++ .get p' :: .get p :: after)).arguments := by
  rw [ne_eq, arguments_eq_iff, demand_run, demand_run]
  intro hdemand
  have hpatterns := congrArg SortDemand.getPatterns hdemand
  simp only [demandOf, List.filterMap_append, List.filterMap_cons, Edit.getPattern?,
    List.append_cancel_left_eq, List.cons.injEq] at hpatterns
  exact h hpatterns.1

/-- A query that is made by changes is written as what they ask for: all patterns to return in
order, and the last of what each other part was set to. So changes that do not clash can be swapped,
but patterns to return that differ cannot. -/
theorem sort_arguments_of_edits :
    (∀ edits, (run empty edits).arguments = ⟨(demandOf edits).written⟩) ∧
    (∀ edits edits', (run empty edits).arguments = (run empty edits').arguments ↔
      demandOf edits = demandOf edits') ∧
    (∀ before a b after, ¬ Clash a b →
      (run empty (before ++ a :: b :: after)).arguments =
        (run empty (before ++ b :: a :: after)).arguments) ∧
    ∀ before p p' after, p ≠ p' →
      (run empty (before ++ .get p :: .get p' :: after)).arguments ≠
        (run empty (before ++ .get p' :: .get p :: after)).arguments := by
  refine ⟨fun edits => ?_, fun edits edits' => ?_, fun before a b after h => ?_,
    fun before p p' after h => arguments_swap_get_ne h before after⟩
  · rw [arguments_eq_written, demand_run]
  · rw [arguments_eq_iff, demand_run, demand_run]
  · rw [run_swap h]

/-- A pattern that is spelled like a word can be set before or after another one is added. -/
theorem sort_arguments_of_edits_swapped :
    ¬ Clash (.sortBy (Utf8.encode "GET")) (.get (Utf8.encode "BY")) ∧
      (run empty
          [.alpha, .sortBy (Utf8.encode "GET"), .get (Utf8.encode "BY"), .numeric]).arguments =
        (run empty
          [.alpha, .get (Utf8.encode "BY"), .sortBy (Utf8.encode "GET"), .numeric]).arguments ∧
      Utf8.encode "GET" ≠ Utf8.encode "BY" ∧
      (run empty [.get (Utf8.encode "GET"), .get (Utf8.encode "BY")]).arguments ≠
        (run empty [.get (Utf8.encode "BY"), .get (Utf8.encode "GET")]).arguments := by
  obtain ⟨-, -, hswap, hget⟩ := sort_arguments_of_edits
  have hclash : ¬ Clash (.sortBy (Utf8.encode "GET")) (.get (Utf8.encode "BY")) := by
    rintro ⟨⟩
    contradiction
  have hne : Utf8.encode "GET" ≠ Utf8.encode "BY" := by decide
  exact ⟨hclash, hswap [.alpha] _ _ [.numeric] hclash, hne, hget [] _ _ [] hne⟩

end SortQuery

end RespWire
