import Mathlib.Data.List.Induction
import RespWire.SortedSet.Interval

/-!
# Intervals made by changes

An end of an interval is what its place was set to last, where an exchange leads to the other place.
So changes of different ends can be made in any order, and between exchanges only the last change of
an end counts. The argument of an end is a matter of that end and its place alone. A value is
written alike in both places, and an open end as the infinity of the place that it is in now.
-/

namespace RespWire

/-! ### Places -/

namespace Interval

/-- The places of the two ends. -/
inductive Side where
  | lower
  | upper
  deriving DecidableEq, Repr

def Side.other : Side → Side
  | .lower => .upper
  | .upper => .lower

@[simp] lemma Side.other_other (s : Side) : s.other.other = s := by
  cases s <;> rfl

/-- The orders in which a range may be taken. -/
inductive Order where
  | score
  | lex
  deriving DecidableEq, Repr

/-- What an open end is written as in its place. -/
def Order.openText : Order → Side → String
  | .score, .lower => "-inf"
  | .score, .upper => "+inf"
  | .lex, .lower => "-"
  | .lex, .upper => "+"

/-- What stands in front of a value that belongs to the range. -/
def Order.inclusiveMark : Order → String
  | .score => ""
  | .lex => "["

end Interval

/-- How an end is written in a place. -/
def Bound.written (o : Interval.Order) (s : Interval.Side) : Bound → Bytes
  | .unbounded => Utf8.encode (o.openText s)
  | .inclusive x => Utf8.encode o.inclusiveMark ++ x.toBytes
  | .exclusive x => Utf8.encode "(" ++ x.toBytes

/-- A value is written alike in both places. -/
lemma Bound.written_other {b : Bound} (h : b.isBounded = true) (o : Interval.Order)
    (s : Interval.Side) : b.written o s.other = b.written o s := by
  cases b with
  | unbounded => cases h
  | inclusive | exclusive => rfl

lemma Bound.written_of_isBounded_eq_false {b : Bound} (h : b.isBounded = false)
    (o : Interval.Order) (s : Interval.Side) : b.written o s = Utf8.encode (o.openText s) := by
  cases b with
  | unbounded => rfl
  | inclusive | exclusive => cases h

namespace Interval

variable {i j : Interval} {a b e : Edit} {s : Side}

/-- The end in a place. -/
def endAt (i : Interval) : Side → Bound
  | .lower => i.lower
  | .upper => i.upper

/-- The argument for the end in a place. -/
def argumentAt (i : Interval) : Order → Side → Bytes
  | .score, .lower => i.scoreArguments.1
  | .score, .upper => i.scoreArguments.2
  | .lex, .lower => i.lexArguments.1
  | .lex, .upper => i.lexArguments.2

lemma ext_endAt (h : i.endAt s = j.endAt s) (hother : i.endAt s.other = j.endAt s.other) :
    i = j := by
  obtain ⟨lower, upper⟩ := i
  obtain ⟨lower', upper'⟩ := j
  cases s with
  | lower =>
    cases h
    cases hother
    rfl
  | upper =>
    cases h
    cases hother
    rfl

lemma argumentAt_eq (i : Interval) (o : Order) (s : Side) :
    i.argumentAt o s = (i.endAt s).written o s := by
  obtain ⟨lower, upper⟩ := i
  cases s with
  | lower => cases o <;> cases lower <;> rfl
  | upper => cases o <;> cases upper <;> rfl

/-! ### One change -/

namespace Edit

/-- What a change sets the end in a place to. -/
def sets? : Edit → Side → Option Bound
  | .gt x, .lower => some (.exclusive x)
  | .gte x, .lower => some (.inclusive x)
  | .setLower b, .lower => some b
  | .lt x, .upper => some (.exclusive x)
  | .lte x, .upper => some (.inclusive x)
  | .setUpper b, .upper => some b
  | .reset, _ => some .unbounded
  | _, _ => none

/-- Where an end was before a change that does not set it. -/
def placeBefore : Edit → Side → Side
  | .swap, s => s.other
  | _, s => s

/-- Does a change set the end in one place, and nothing else? -/
inductive SetsOnly : Edit → Side → Prop where
  | gt (x : Endpoint) : SetsOnly (.gt x) .lower
  | gte (x : Endpoint) : SetsOnly (.gte x) .lower
  | setLower (b : Bound) : SetsOnly (.setLower b) .lower
  | lt (x : Endpoint) : SetsOnly (.lt x) .upper
  | lte (x : Endpoint) : SetsOnly (.lte x) .upper
  | setUpper (b : Bound) : SetsOnly (.setUpper b) .upper

lemma placeBefore_of_ne (h : e ≠ .swap) (s : Side) : e.placeBefore s = s := by
  cases e with
  | swap => exact absurd rfl h
  | _ => rfl

namespace SetsOnly

lemma exists_eq_some (h : e.SetsOnly s) : ∃ b, e.sets? s = some b := by
  cases h <;> exact ⟨_, rfl⟩

lemma other_eq_none (h : e.SetsOnly s) : e.sets? s.other = none := by
  cases h <;> rfl

lemma ne_swap (h : e.SetsOnly s) : e ≠ .swap := by
  cases h <;> exact nofun

end SetsOnly

end Edit

/-- What an end is after a change. -/
lemma endAt_edit (i : Interval) (e : Edit) (s : Side) :
    (i.edit e).endAt s = (e.sets? s).getD (i.endAt (e.placeBefore s)) := by
  cases e <;> cases s <;> rfl

/-- A change that is no exchange keeps what two intervals have in common in a place. -/
lemma endAt_edit_congr (h : i.endAt s = j.endAt s) (he : e ≠ .swap) :
    (i.edit e).endAt s = (j.edit e).endAt s := by
  rw [endAt_edit, endAt_edit, Edit.placeBefore_of_ne he, h]

lemma endAt_edit_other (h : e.SetsOnly s) (i : Interval) :
    (i.edit e).endAt s.other = i.endAt s.other := by
  rw [endAt_edit, h.other_eq_none, Option.getD_none, Edit.placeBefore_of_ne h.ne_swap]

/-- The end that a change sets forgets what it was. -/
lemma endAt_edit_eq (h : e.SetsOnly s) (i j : Interval) :
    (i.edit e).endAt s = (j.edit e).endAt s := by
  obtain ⟨b, hb⟩ := h.exists_eq_some
  rw [endAt_edit, endAt_edit, hb, Option.getD_some, Option.getD_some]

lemma edit_comm (ha : a.SetsOnly s) (hb : b.SetsOnly s.other) (i : Interval) :
    (i.edit a).edit b = (i.edit b).edit a := by
  have hkeep (j : Interval) : (j.edit b).endAt s = j.endAt s := by
    simpa using endAt_edit_other hb j
  apply ext_endAt (s := s)
  · rw [hkeep]
    exact endAt_edit_eq ha i (i.edit b)
  · rw [endAt_edit_other ha]
    exact endAt_edit_eq hb (i.edit a) i

/-! ### All changes -/

lemma run_append (i : Interval) (before after : List Edit) :
    i.run (before ++ after) = (i.run before).run after :=
  List.foldl_append

lemma endAt_run_congr {edits : List Edit} (h : i.endAt s = j.endAt s) (hswap : .swap ∉ edits) :
    (i.run edits).endAt s = (j.run edits).endAt s := by
  induction edits generalizing i j with
  | nil => exact h
  | cons e edits ih =>
    rw [List.mem_cons, not_or] at hswap
    obtain ⟨he, hedits⟩ := hswap
    exact ih (endAt_edit_congr h (Ne.symm he)) hedits

lemma run_overridden (ha : a.SetsOnly s) (hb : b.SetsOnly s) {between : List Edit}
    (hswap : .swap ∉ between) (i : Interval) :
    (i.edit a).run (between ++ [b]) = i.run (between ++ [b]) := by
  rw [run_append, run_append]
  apply ext_endAt (s := s)
  · exact endAt_edit_eq hb _ _
  · have hkeep := endAt_run_congr (endAt_edit_other ha i) hswap
    exact endAt_edit_congr hkeep hb.ne_swap

/-- The end in a place after some changes, the last of which is looked at first: it is what the
change sets it to, or the end that was there or in the other place before the change. -/
def lookBack : Side → List Edit → Bound
  | _, [] => .unbounded
  | s, e :: earlier => (e.sets? s).getD (lookBack (e.placeBefore s) earlier)

lemma endAt_run (edits : List Edit) (s : Side) :
    (run unbounded edits).endAt s = lookBack s edits.reverse := by
  induction edits using List.reverseRecOn generalizing s with
  | nil => cases s <;> rfl
  | append_singleton edits e ih =>
    rw [run_append, List.reverse_append, List.reverse_singleton, List.singleton_append, lookBack,
      ← ih]
    exact endAt_edit _ e s

/-- An exchange takes an end to its other place, where it is written by the rule of that place. -/
lemma argumentAt_run_swap (i : Interval) (edits : List Edit) (o : Order) (s : Side) :
    (i.run (edits ++ [.swap])).argumentAt o s.other =
      ((i.run edits).endAt s).written o s.other := by
  rw [argumentAt_eq, run_append]
  cases s <;> rfl

/-- Whatever the changes were, each end is what looking back from the last of them finds, and its
argument is a matter of that end and its place alone. A change of one end leaves the other one
alone, changes of different ends can be swapped, and of two changes of an end without an exchange
between them the earlier one is forgotten. Two exchanges cancel; after one of them values are
written as before, and an open end as the infinity of its new place. -/
theorem interval_arguments_of_edits :
    (∀ edits s, (run unbounded edits).endAt s = lookBack s edits.reverse) ∧
    (∀ edits o s, (run unbounded edits).argumentAt o s =
      ((run unbounded edits).endAt s).written o s) ∧
    (∀ edits e s, e.SetsOnly s → ∀ o, (run unbounded (edits ++ [e])).argumentAt o s.other =
      (run unbounded edits).argumentAt o s.other) ∧
    (∀ before a b after s, a.SetsOnly s → b.SetsOnly s.other →
      run unbounded (before ++ a :: b :: after) = run unbounded (before ++ b :: a :: after)) ∧
    (∀ before a between b after s, a.SetsOnly s → b.SetsOnly s → .swap ∉ between →
      run unbounded (before ++ a :: (between ++ b :: after)) =
        run unbounded (before ++ (between ++ b :: after))) ∧
    (∀ before after, run unbounded (before ++ .swap :: .swap :: after) =
      run unbounded (before ++ after)) ∧
    ∀ edits o s,
      (((run unbounded edits).endAt s).isBounded = true →
        (run unbounded (edits ++ [.swap])).argumentAt o s.other =
          (run unbounded edits).argumentAt o s) ∧
      (((run unbounded edits).endAt s).isBounded = false →
        (run unbounded (edits ++ [.swap])).argumentAt o s.other =
          Utf8.encode (o.openText s.other)) := by
  refine ⟨endAt_run, fun edits => argumentAt_eq _, fun edits e s he o => ?_,
    fun before a b after s ha hb => ?_, fun before a between b after s ha hb hswap => ?_,
    fun before after => ?_, fun edits o s => ⟨fun h => ?_, fun h => ?_⟩⟩
  · rw [argumentAt_eq, argumentAt_eq, run_append]
    exact congrArg _ (endAt_edit_other he _)
  · simp only [run, List.foldl_append, List.foldl_cons, edit_comm ha hb]
  · have hrun := run_overridden ha hb hswap (run unbounded before)
    simp only [run, List.foldl_append, List.foldl_cons, List.foldl_nil] at hrun ⊢
    rw [hrun]
  · simp only [run, List.foldl_append, List.foldl_cons, edit]
  · rw [argumentAt_run_swap, Bound.written_other h, argumentAt_eq]
  · rw [argumentAt_run_swap, Bound.written_of_isBounded_eq_false h]

/-- An open lower end becomes an open upper one, and a value that is set before the exchange stays
what it is. -/
theorem interval_arguments_of_edits_exchanged :
    run unbounded [.gt (.long 5), .lte (.text "z"), .reset, .lt (.double ⟨1⟩), .lte (.text "[a")] =
        run unbounded [.lte (.text "z"), .gt (.long 5), .reset, .lte (.text "[a")] ∧
      (run unbounded [.lte (.text "[a"), .swap]).argumentAt .lex .lower = Utf8.encode "[[a" ∧
      (run unbounded [.lte (.text "[a"), .swap]).argumentAt .score .upper = Utf8.encode "+inf" ∧
      (run unbounded [.lte (.text "[a"), .swap, .gte (.int 3)]).argumentAt .score .upper =
        Utf8.encode "+inf" := by
  obtain ⟨-, -, hframe, hcomm, hlast, -, hswap⟩ := interval_arguments_of_edits
  have hupper := (hswap [.lte (.text "[a")] .score .lower).2 rfl
  refine ⟨?_, ?_, hupper, ?_⟩
  · exact (hcomm [] _ _ _ .lower (.gt (.long 5)) (.lte (.text "z"))).trans
      (hlast [.lte (.text "z"), .gt (.long 5), .reset] _ [] _ [] .upper (.lt (.double ⟨1⟩))
        (.lte (.text "[a")) nofun)
  · exact ((hswap [.lte (.text "[a")] .lex .upper).1 rfl).trans (by decide)
  · exact (hframe [.lte (.text "[a"), .swap] _ .lower (.gte (.int 3)) .score).trans hupper

end Interval

end RespWire
