import RespWire.Keyspace.SortQuery
import RespWire.Proofs.Command.Options
import RespWire.Proofs.Number.Numeral

/-!
# SORT arguments read back

What a SORT command asks for is read off its arguments from left to right. A word says which part
comes next and how many arguments belong to it, so a pattern that is spelled like a word is not
taken for one. Queries have the same arguments exactly if they ask for the same.
-/

namespace RespWire

/-- What a query asks for, apart from what the server does anyway. -/
structure SortDemand where
  byPattern : Option Bytes
  getPatterns : List Bytes
  limit : Option SortWindow
  descending : Bool
  alphabetic : Bool
  deriving DecidableEq, Repr

def SortQuery.demand (q : SortQuery) : SortDemand :=
  ⟨q.byPattern, q.getPatterns.getD [], q.limit, q.order = some .descending,
    q.alphabetic = some true⟩

/-! ### Reading arguments -/

namespace SortDemand

/-- Takes a word off the front, if it is there. -/
def takeWord (word : String) : List Bytes → Bool × List Bytes
  | [] => (false, [])
  | arg :: args => if arg = Utf8.encode word then (true, args) else (false, arg :: args)

/-- Takes a word and the pattern behind it. -/
def takePattern (word : String) (args : List Bytes) : Option Bytes × List Bytes :=
  match takeWord word args with
  | (true, pattern :: rest) => (some pattern, rest)
  | _ => (none, args)

/-- Takes patterns as long as each has the word in front. -/
def takePatterns (word : String) : List Bytes → List Bytes × List Bytes
  | arg :: pattern :: args =>
    if arg = Utf8.encode word then
      (pattern :: (takePatterns word args).1, (takePatterns word args).2)
    else ([], arg :: pattern :: args)
  | args => ([], args)

def integer? (arg : Bytes) : Option Int64 := (Utf8.decode? arg).bind Numeral.int64?

/-- Takes a word and the two integers behind it. -/
def takeWindow (word : String) (args : List Bytes) : Option SortWindow × List Bytes :=
  match takeWord word args with
  | (true, offset :: count :: rest) =>
    match integer? offset, integer? count with
    | some offset, some count => (some ⟨offset, count⟩, rest)
    | _, _ => (none, args)
  | _ => (none, args)

/-- Reads `[BY pattern] (GET pattern)* [LIMIT offset count] [DESC] [ALPHA]`, with nothing left. -/
def read? (args : List Bytes) : Option SortDemand :=
  let (byPattern, args) := takePattern "BY" args
  let (getPatterns, args) := takePatterns "GET" args
  let (limit, args) := takeWindow "LIMIT" args
  let (descending, args) := takeWord "DESC" args
  let (alphabetic, args) := takeWord "ALPHA" args
  if args = [] then some ⟨byPattern, getPatterns, limit, descending, alphabetic⟩ else none

variable {word : String} {args : List Bytes}

lemma takeWord_encode (word : String) (args : List Bytes) :
    takeWord word (Utf8.encode word :: args) = (true, args) := by
  rw [takeWord, if_pos rfl]

lemma takeWord_of_head (h : args.head? ≠ some (Utf8.encode word)) :
    takeWord word args = (false, args) := by
  cases args with
  | nil => rfl
  | cons arg args => simp_all [takeWord]

lemma takePatterns_of_head (h : args.head? ≠ some (Utf8.encode word)) :
    takePatterns word args = ([], args) := by
  match args with
  | [] | [_] => rfl
  | arg :: pattern :: args => simp_all [takePatterns]

lemma integer?_integer (n : Int64) : integer? (Encoding.integer n.toInt) = some n := by
  have htext : Utf8.decode? (Encoding.integer n.toInt) = some (Numeral.text n.toInt) :=
    Utf8.decode?_eq_some_iff.2 rfl
  rw [integer?, htext, Option.bind_some, Numeral.int64?_text]

/-! ### First words -/

/-- Is one of some words in front of the arguments, if there are any? -/
def OpensWith (words : List String) (args : List Bytes) : Prop :=
  ∀ arg ∈ args.head?, arg ∈ words.map Utf8.encode

lemma OpensWith.append {words words' : List String} {args args' : List Bytes}
    (h : OpensWith words args) (h' : OpensWith words' args') :
    OpensWith (words ++ words') (args ++ args') := by
  intro arg harg
  rw [List.map_append, List.mem_append]
  cases args with
  | nil => exact .inr (h' arg harg)
  | cons a args => exact .inl (h arg harg)

lemma OpensWith.head_ne {words : List String} (h : OpensWith words args) (hword : word ∉ words) :
    args.head? ≠ some (Utf8.encode word) := by
  intro harg
  exact hword ((List.mem_map_of_injective Utf8.encode_injective).1 (h _ harg))

end SortDemand

namespace SortQuery

open SortDemand

variable (q : SortQuery) {args : List Bytes}

/-! ### Parts -/

lemma byArguments_eq : q.byArguments = Encoding.option "BY" q.byPattern := by
  rw [byArguments]
  cases q.byPattern <;> rfl

lemma getArguments_eq : q.getArguments =
    (q.getPatterns.getD []).flatMap fun pattern => [Utf8.encode "GET", pattern] := rfl

lemma limitArguments_eq : q.limitArguments = q.limit.elim [] fun w =>
    [Utf8.encode "LIMIT", Encoding.integer w.offset.toInt, Encoding.integer w.count.toInt] := by
  rw [limitArguments]
  cases q.limit <;> rfl

lemma orderArguments_eq : q.orderArguments =
    if q.order = some .descending then [Utf8.encode "DESC"] else [] := rfl

lemma alphaArguments_eq : q.alphaArguments =
    if q.alphabetic = some true then [Utf8.encode "ALPHA"] else [] := rfl

lemma opensWith_getArguments : OpensWith ["GET"] q.getArguments := by
  rw [OpensWith, getArguments_eq]
  cases q.getPatterns.getD [] with
  | nil => simp
  | cons pattern patterns => simp

lemma opensWith_limitArguments : OpensWith ["LIMIT"] q.limitArguments := by
  rw [OpensWith, limitArguments_eq]
  cases q.limit with
  | none => simp
  | some window => simp

lemma opensWith_orderArguments : OpensWith ["DESC"] q.orderArguments := by
  rw [OpensWith, orderArguments_eq]
  split_ifs <;> simp

lemma opensWith_alphaArguments : OpensWith ["ALPHA"] q.alphaArguments := by
  rw [OpensWith, alphaArguments_eq]
  split_ifs <;> simp

/-! ### Parts read back -/

lemma takePattern_byArguments (h : args.head? ≠ some (Utf8.encode "BY")) :
    takePattern "BY" (q.byArguments ++ args) = (q.byPattern, args) := by
  rw [byArguments_eq]
  cases q.byPattern with
  | none => rw [Encoding.option_none, List.nil_append, takePattern, takeWord_of_head h]
  | some pattern =>
    simp only [Encoding.option_some, List.cons_append, takePattern, takeWord_encode]
    rfl

lemma takePatterns_getArguments (h : args.head? ≠ some (Utf8.encode "GET")) :
    takePatterns "GET" (q.getArguments ++ args) = (q.getPatterns.getD [], args) := by
  rw [getArguments_eq]
  induction q.getPatterns.getD [] with
  | nil => exact takePatterns_of_head h
  | cons pattern patterns ih => simp [takePatterns, ih]

lemma takeWindow_limitArguments (h : args.head? ≠ some (Utf8.encode "LIMIT")) :
    takeWindow "LIMIT" (q.limitArguments ++ args) = (q.limit, args) := by
  rw [limitArguments_eq]
  cases q.limit with
  | none => rw [Option.elim_none, List.nil_append, takeWindow, takeWord_of_head h]
  | some window =>
    simp only [Option.elim_some, List.cons_append, takeWindow, takeWord_encode, integer?_integer]
    rfl

lemma takeWord_orderArguments (h : args.head? ≠ some (Utf8.encode "DESC")) :
    takeWord "DESC" (q.orderArguments ++ args) = (decide (q.order = some .descending), args) := by
  rw [orderArguments_eq]
  split_ifs with hq
  · rw [List.singleton_append, takeWord_encode, decide_eq_true hq]
  · rw [List.nil_append, takeWord_of_head h, decide_eq_false hq]

lemma takeWord_alphaArguments :
    takeWord "ALPHA" q.alphaArguments = (decide (q.alphabetic = some true), []) := by
  rw [alphaArguments_eq]
  split_ifs with hq
  · rw [takeWord_encode, decide_eq_true hq]
  · rw [takeWord, decide_eq_false hq]

/-- What a query asks for is read off its arguments, and all of them are read. -/
theorem read?_arguments : read? q.arguments.items = some q.demand := by
  have halpha := q.opensWith_alphaArguments
  have horder := q.opensWith_orderArguments.append halpha
  have hlimit := q.opensWith_limitArguments.append horder
  have hget := q.opensWith_getArguments.append hlimit
  simp only [read?, arguments, List.append_assoc,
    q.takePattern_byArguments (hget.head_ne (by decide)),
    q.takePatterns_getArguments (hlimit.head_ne (by decide)),
    q.takeWindow_limitArguments (horder.head_ne (by decide)),
    q.takeWord_orderArguments (halpha.head_ne (by decide)), q.takeWord_alphaArguments]
  rfl

lemma arguments_congr {p q : SortQuery} (h : p.demand = q.demand) : p.arguments = q.arguments := by
  obtain ⟨hby, hget, hlimit, horder, halpha⟩ := SortDemand.mk.inj h
  rw [decide_eq_decide] at horder halpha
  simp only [arguments, byArguments, getArguments, limitArguments, orderArguments, alphaArguments,
    hby, hget, hlimit, horder, halpha]

/-- Queries have the same arguments exactly if they ask for the same. -/
lemma arguments_eq_iff {p q : SortQuery} : p.arguments = q.arguments ↔ p.demand = q.demand := by
  constructor
  · intro h
    have hp := p.read?_arguments
    rw [h, q.read?_arguments] at hp
    exact (Option.some.inj hp).symm
  · exact arguments_congr

end SortQuery

/-- Arguments of SORT tell what is asked for, and nothing else. -/
theorem sort_arguments_unambiguous :
    (∀ p q : SortQuery, p.arguments = q.arguments ↔
      p.byPattern = q.byPattern ∧ p.getPatterns.getD [] = q.getPatterns.getD [] ∧
        p.limit = q.limit ∧ (p.order = some .descending ↔ q.order = some .descending) ∧
        (p.alphabetic = some true ↔ q.alphabetic = some true)) ∧
    ∀ q : SortQuery, SortDemand.read? q.arguments.items = some q.demand := by
  refine ⟨fun p q => ?_, SortQuery.read?_arguments⟩
  simp only [SortQuery.arguments_eq_iff, SortQuery.demand, SortDemand.mk.injEq, decide_eq_decide]

/-! Patterns that are spelled like words stay patterns. -/

example : SortDemand.read? (SortQuery.arguments ⟨some (Utf8.encode "GET"),
    some [Utf8.encode "LIMIT", [], Utf8.encode "DESC"], some ⟨-1, 0⟩, none, some true⟩).items =
      some ⟨some (Utf8.encode "GET"), [Utf8.encode "LIMIT", [], Utf8.encode "DESC"], some ⟨-1, 0⟩,
        false, true⟩ := by
  decide +kernel

end RespWire
