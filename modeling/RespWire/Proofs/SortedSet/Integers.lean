import RespWire.Proofs.Number.Integers
import RespWire.Proofs.SortedSet.Bounds
import RespWire.Proofs.SortedSet.Scores

/-!
# Integers among scores

An integer is the same score whether a reply has it as an integer or as text. As an end of a range
it has the same argument whether it is given as a word or as a double, as long as doubles tell
integers apart.
-/

namespace RespWire

variable {cs before after : List Char} {v : Resp} {text : String} {n : Int}

/-! ### Numerals between blanks -/

lemma trim_surrounded (hne : cs ≠ []) (hcs : ∀ c ∈ cs, isBlank c = false)
    (hbefore : ∀ c ∈ before, isBlank c = true) (hafter : ∀ c ∈ after, isBlank c = true) :
    trim (before ++ cs ++ after) = cs := by
  have hrev : ∀ c ∈ after.reverse, isBlank c = true := fun c hc => hafter c (List.mem_reverse.1 hc)
  have hcs' : ∀ c ∈ cs.reverse, isBlank c = false := fun c hc => hcs c (List.mem_reverse.1 hc)
  have hfirst : (cs ++ after).dropWhile isBlank = cs ++ after := by
    obtain ⟨c, cs, rfl⟩ := List.exists_cons_of_ne_nil hne
    exact List.dropWhile_cons_of_neg (by simp [hcs c])
  rw [trim, List.append_assoc, List.dropWhile_append_of_pos hbefore, hfirst, List.reverse_append,
    List.dropWhile_append_of_pos hrev, dropWhile_isBlank hcs', List.reverse_reverse]

lemma isBlank_of_mem_ofInt {c : Char} (h : c ∈ Numeral.ofInt n) : isBlank c = false := by
  apply isBlank_of_isGraphic
  rcases Numeral.mem_ofInt h with h | rfl
  · exact Binary64.isGraphic_of_isDigit h
  · exact Binary64.isGraphic_of_mem_marks (by decide)

/-! ### Scores -/

/-- A text that is an integer between blanks. -/
def padded (before : String) (n : Int) (after : String) : String :=
  before ++ Numeral.text n ++ after

lemma scoreOfReply_padded {left right : String} (hleft : isBlankText left = true)
    (hright : isBlankText right = true) (hv : v.text? = some (padded left n right)) :
    scoreOfReply v = .ok (.ofInt n) := by
  rw [isBlankText, List.all_eq_true] at hleft hright
  have htrim : trim (padded left n right).toList = Numeral.ofInt n := by
    rw [padded, String.toList_append, String.toList_append, Numeral.text, String.toList_ofList]
    exact trim_surrounded (Numeral.ofInt_ne_nil n) (fun c hc => isBlank_of_mem_ofInt hc) hleft hright
  cases v with
  | simple | bulk => simp only [scoreOfReply, hv, htrim, Binary64.read?_ofInt]
  | _ => cases hv

lemma text?_padded (left : String) (n : Int) (right : String) :
    (Resp.bulk (Utf8.encode left ++ Encoding.integer n ++ Utf8.encode right)).text? =
      some (padded left n right) := by
  refine Utf8.decode?_eq_some_iff.2 ?_
  simp only [padded, Encoding.integer, Utf8.encode, String.toList_append, List.flatMap_append]

/-- An integer and its numeral between blanks, in a string of either kind, are the same score: the
double nearest to the integer. -/
theorem integer_scores_agree (n : Int64) (left right : String) (hleft : isBlankText left = true)
    (hright : isBlankText right = true) :
    ∃ score, Binary64.IsNearest n.toInt score ∧ scoreOfReply (.integer n) = .ok score ∧
      scoreOfReply (.bulk (Utf8.encode left ++ Encoding.integer n.toInt ++ Utf8.encode right)) =
        .ok score ∧
      scoreOfReply (.simple (left ++ Numeral.text n.toInt ++ right)) = .ok score := by
  have hbound : n.toInt.natAbs ≤ 2 ^ 64 := by
    have hlow := n.le_toInt
    have hhigh := n.toInt_lt
    omega
  exact ⟨.ofInt n.toInt, Binary64.isNearest_ofInt hbound, rfl,
    scoreOfReply_padded hleft hright (text?_padded left n.toInt right),
    scoreOfReply_padded hleft hright rfl⟩

/-- Halfway between two doubles the even one is taken, for the integer and for its numeral. -/
theorem integer_scores_agree_tie :
    isBlankText "\u2003\t" = true ∧ isBlankText "\r\n" = true ∧
    scoreOfReply (.integer 9007199254740993) = .ok ⟨0x4340000000000000⟩ ∧
    scoreOfReply (.bulk (Utf8.encode "\u2003\t" ++ Encoding.integer 9007199254740993 ++
      Utf8.encode "\r\n")) = .ok ⟨0x4340000000000000⟩ := by
  have hleft : isBlankText "\u2003\t" = true := by decide
  have hright : isBlankText "\r\n" = true := by decide
  obtain ⟨score, -, hinteger, htext, -⟩ := integer_scores_agree 9007199254740993 _ _ hleft hright
  have hscore : score = ⟨0x4340000000000000⟩ := by
    rw [← Except.ok.inj hinteger]
    decide +kernel
  rw [hscore] at hinteger htext
  exact ⟨hleft, hright, hinteger, htext⟩

/-! ### Ends of ranges -/

/-- Are the arguments of ends with two values the same, in either kind of range and whether the ends
belong to it or not? -/
def Endpoint.SameArguments (x y : Endpoint) : Prop :=
  ∀ default, ∀ mark ∈ [Bound.inclusive, Bound.exclusive],
    Bound.scoreArgument (some (mark x)) default = Bound.scoreArgument (some (mark y)) default ∧
    Bound.lexArgument (some (mark x)) default = Bound.lexArgument (some (mark y)) default

lemma Endpoint.sameArguments_of_toBytes {x y : Endpoint} (h : x.toBytes = y.toBytes) :
    x.SameArguments y := by
  intro default mark hmark
  simp only [List.mem_cons, List.not_mem_nil, or_false] at hmark
  rcases hmark with rfl | rfl
  · simp only [Bound.scoreArgument_inclusive, Bound.lexArgument_inclusive, h, and_self]
  · simp only [Bound.scoreArgument_exclusive, Bound.lexArgument_exclusive, h, and_self]

lemma Encoding.double_ofInt (h : n.natAbs ≤ 2 ^ 53) :
    Encoding.double (.ofInt n) = Encoding.integer n := by
  rw [Encoding.double, Binary64.toText_ofInt h, Encoding.integer]

/-- Up to `2 ^ 53` the text of the double of an integer is its canonical numeral, so the integer has
the same argument as a double and as a word of either width. -/
theorem integer_ends_agree :
    (∀ n : Int64, n.toInt.natAbs ≤ 2 ^ 53 →
      Encoding.double (.ofInt n.toInt) = Encoding.integer n.toInt ∧
      Endpoint.SameArguments (.double (.ofInt n.toInt)) (.long n) ∧
      ∃ digits, Numeral.IsCanonical digits ∧ (Binary64.ofInt n.toInt).toText.toList =
        if n.toInt < 0 then '-' :: digits else digits) ∧
    ∀ i : Int32,
      Encoding.double (.ofInt i.toInt) = (Endpoint.int i).toBytes ∧
      Encoding.integer i.toInt64.toInt = (Endpoint.int i).toBytes ∧
      Endpoint.SameArguments (.double (.ofInt i.toInt)) (.int i) ∧
      Endpoint.SameArguments (.long i.toInt64) (.int i) := by
  refine ⟨fun n h => ⟨Encoding.double_ofInt h, ?_, ?_⟩, fun i => ?_⟩
  · exact Endpoint.sameArguments_of_toBytes (Encoding.double_ofInt h)
  · refine ⟨_, Numeral.isCanonical_ofNat n.toInt.natAbs, ?_⟩
    rw [Binary64.toText_ofInt h, Numeral.text, String.toList_ofList, Numeral.ofInt_eq]
  · have hbound : i.toInt.natAbs ≤ 2 ^ 53 := by
      have hlow := i.le_toInt
      have hhigh := i.toInt_lt
      omega
    have hdouble : Encoding.double (.ofInt i.toInt) = (Endpoint.int i).toBytes :=
      Encoding.double_ofInt hbound
    have hlong : Encoding.integer i.toInt64.toInt = (Endpoint.int i).toBytes := by
      rw [Int32.toInt_toInt64]
      rfl
    exact ⟨hdouble, hlong, Endpoint.sameArguments_of_toBytes hdouble,
      Endpoint.sameArguments_of_toBytes hlong⟩

/-- The greatest of these integers lies at the end of the range of its double, and the zeros of the
other one are not written as a power of ten. -/
theorem integer_ends_agree_limits :
    Encoding.double (.ofInt (9007199254740992 : Int64).toInt) =
        Encoding.integer (9007199254740992 : Int64).toInt ∧
      Bound.scoreArgument (some (.exclusive (.double (.ofInt (-4000000000000000 : Int64).toInt)))) [] =
        Bound.scoreArgument (some (.exclusive (.long (-4000000000000000)))) [] := by
  refine ⟨(integer_ends_agree.1 9007199254740992 (by decide)).1, ?_⟩
  have hsame := (integer_ends_agree.1 (-4000000000000000) (by decide)).2.1
  exact (hsame [] .exclusive (by simp)).1

end RespWire
