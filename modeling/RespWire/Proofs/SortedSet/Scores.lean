import RespWire.Proofs.Number.Shortest
import RespWire.Proofs.Text.Codec
import RespWire.SortedSet.Bound
import RespWire.SortedSet.Member

/-!
# Scores read back

A score that is written as text, in a listing of members or as an end of a range, is read as the
same double, so members keep their scores.
-/

namespace RespWire

variable {cs : List Char}

/-! ### Blanks -/

/-- The blanks of ASCII are not visible. -/
lemma isBlank_of_isGraphic {c : Char} (h : Binary64.IsGraphic c) : isBlank c = false := by
  have hranges : ∀ r ∈ blankRanges, r.2 ≤ 0x20 ∨ 0x7F ≤ r.1 := by decide
  rw [isBlank, List.any_eq_false]
  intro r hr hmem
  simp only [Bool.and_eq_true, decide_eq_true_eq] at hmem
  obtain ⟨hlow, hhigh⟩ := h
  rcases hranges r hr with hr | hr
  · omega
  · omega

lemma dropWhile_isBlank (h : ∀ c ∈ cs, isBlank c = false) : cs.dropWhile isBlank = cs := by
  cases cs with
  | nil => rfl
  | cons c cs => rw [List.dropWhile_cons_of_neg (by simp [h c])]

lemma trim_eq_self (h : ∀ c ∈ cs, isBlank c = false) : trim cs = cs := by
  rw [trim, dropWhile_isBlank h, dropWhile_isBlank, List.reverse_reverse]
  intro c hc
  exact h c (List.mem_reverse.1 hc)

/-! ### Scores -/

lemma trim_toText (x : Binary64) : trim x.toText.toList = x.toText.toList := by
  apply trim_eq_self
  intro c hc
  exact isBlank_of_isGraphic (Binary64.isGraphic_of_mem_toText hc)

lemma scoreOfReply_double (x : Binary64) :
    scoreOfReply (.bulk (Encoding.double x)) = .ok x.canonical := by
  have htext : Resp.text? (.bulk (Encoding.double x)) = some x.toText :=
    Utf8.decode?_eq_some_iff.2 rfl
  simp only [scoreOfReply, htext, trim_toText, Binary64.read?_toText]

namespace ScoredEntry

/-- The reply that lists members and their scores in turn. -/
def listing (entries : List ScoredEntry) : Resp :=
  .array (entries.flatMap fun e => [.bulk e.member, .bulk (Encoding.double e.score)])

lemma ofPairs_listing (entries : List ScoredEntry) :
    ofPairs (entries.flatMap fun e => [.bulk e.member, .bulk (Encoding.double e.score)]) =
      .ok (entries.map fun e => ⟨e.member, e.score.canonical⟩) := by
  induction entries with
  | nil => rfl
  | cons e entries ih =>
      simp only [List.flatMap_cons, List.cons_append, List.nil_append, List.map_cons, ofPairs,
        Resp.requireBulk, scoreOfReply_double, ih]
      rfl

lemma ofReply_array (items : List Resp) :
    ofReply (.array items) =
      if items.length % 2 ≠ 0 then .error (.unpaired items.length) else ofPairs items := rfl

lemma ofReply_listing (entries : List ScoredEntry) :
    ofReply (listing entries) = .ok (entries.map fun e => ⟨e.member, e.score.canonical⟩) := by
  have hlength : (entries.flatMap fun e =>
      [Resp.bulk e.member, .bulk (Encoding.double e.score)]).length = entries.length * 2 := by
    simp [List.length_flatMap]
  have heven : ¬ entries.length * 2 % 2 ≠ 0 := by simp
  rw [listing, ofReply_array, hlength, if_neg heven, ofPairs_listing]

end ScoredEntry

/-- Members and scores that are listed are read in order with the bits of their scores, except that
what is not a number comes back as one such value. A score at either kind of end of a range is read
from the argument, behind the mark of an end that does not belong to the range. -/
theorem scores_read_back (entries : List ScoredEntry) (d : Binary64) (default : Bytes) :
    ((∀ e ∈ entries, e.score.isNaN = false) →
      ScoredEntry.ofReply (ScoredEntry.listing entries) = .ok entries) ∧
    ScoredEntry.ofReply (ScoredEntry.listing entries) =
      .ok (entries.map fun e =>
        ⟨e.member, if e.score.isNaN then ⟨0x7FF8000000000000⟩ else e.score⟩) ∧
    (d.isNaN = false →
      scoreOfReply (.bulk (Bound.scoreArgument (some (.inclusive (.double d))) default)) = .ok d ∧
      ∃ rest, Bound.scoreArgument (some (.exclusive (.double d))) default = 0x28 :: rest ∧
        scoreOfReply (.bulk rest) = .ok d) := by
  refine ⟨?_, ScoredEntry.ofReply_listing entries, ?_⟩
  · intro h
    rw [ScoredEntry.ofReply_listing]
    congr 1
    calc entries.map (fun e => ⟨e.member, e.score.canonical⟩)
        = entries.map id := by
          apply List.map_congr_left
          intro e he
          rw [Binary64.canonical_of_not_isNaN (h e he)]
          rfl
      _ = entries := List.map_id entries
  · intro hd
    have hscore : scoreOfReply (.bulk (Encoding.double d)) = .ok d := by
      rw [scoreOfReply_double, Binary64.canonical_of_not_isNaN hd]
    exact ⟨hscore, Encoding.double d, rfl, hscore⟩

/-- Members of any bytes with the least magnitude, a negative zero, the greatest finite number and
negative infinity for their scores. -/
def extremes : List ScoredEntry :=
  [⟨[0x61], ⟨1⟩⟩, ⟨[], ⟨0x8000000000000000⟩⟩, ⟨[0x0D, 0x0A], ⟨0x7FEFFFFFFFFFFFFF⟩⟩,
    ⟨[0xFF], ⟨0xFFF0000000000000⟩⟩]

theorem scores_read_back_extremes :
    ScoredEntry.ofReply (ScoredEntry.listing extremes) = .ok extremes ∧
    scoreOfReply (.bulk (Bound.scoreArgument (some (.inclusive (.double ⟨1⟩))) [])) = .ok ⟨1⟩ := by
  have h := scores_read_back extremes ⟨1⟩ []
  exact ⟨h.1 (by decide +kernel), (h.2.2 (by decide +kernel)).1⟩

end RespWire
