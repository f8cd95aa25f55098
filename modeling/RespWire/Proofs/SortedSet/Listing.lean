import RespWire.Proofs.Collection.Pairs
import RespWire.Proofs.Resp.Shape
import RespWire.Proofs.SortedSet.Scores

/-!
# Listings of members and scores

Which replies list members with their scores. The elements count two by two: an even place has a
member and the place behind it has its score. A listing is refused for the first pair with a fault,
for its member before its score.
-/

namespace RespWire

variable {v : Resp} {e : ReplyError}

/-- The error of a reply for the same reply with some elements more in front. -/
def ReplyError.behind (count : Nat) : ReplyError → ReplyError
  | .unpaired n => .unpaired (count + n)
  | e => e

lemma ReplyError.behind_of_ne_unpaired {count : Nat} (h : ∀ n, e ≠ .unpaired n) :
    e.behind count = e := by
  cases e with
  | unpaired n => exact absurd rfl (h n)
  | _ => rfl

/-- What is not a score is of another kind or a text that is not a number. -/
lemma scoreOfReply_eq_error_cases (h : scoreOfReply v = .error e) :
    e = .unexpected .score v.kind ∨ ∃ text, e = .invalidScore text := by
  cases v with
  | integer => cases h
  | simple | bulk =>
    right
    simp only [scoreOfReply] at h
    split at h
    · cases h
      exact ⟨_, rfl⟩
    · split at h
      · cases h
      · cases h
        exact ⟨_, rfl⟩
  | error | null | array =>
    cases h
    exact .inl rfl

namespace ScoredEntry

variable {items rest : List Resp} {i : Nat} {entry : ScoredEntry} {pair : Resp × Resp}

/-! ### Pairs -/

/-- Reads a member and its score. -/
def ofPair (pair : Resp × Resp) : Except ReplyError ScoredEntry := do
  let member ← pair.1.requireBulk
  let score ← scoreOfReply pair.2
  return ⟨member, score⟩

lemma ofPairs_eq_mapM (items : List Resp) : ofPairs items = (inPairs items).mapM ofPair := by
  match items with
  | [] | [_] => rfl
  | member :: score :: rest =>
    simp only [ofPairs, inPairs, List.mapM_cons, ofPair, bind_assoc, pure_bind, ofPairs_eq_mapM rest]

lemma ofPair_eq_ok_iff :
    ofPair pair = .ok entry ↔
      pair.1 = .bulk entry.member ∧ scoreOfReply pair.2 = .ok entry.score := by
  simp only [ofPair, bind_eq_ok_iff, Resp.requireBulk_eq_ok_iff]
  constructor
  · rintro ⟨member, hmember, score, hscore, heq⟩
    cases heq
    exact ⟨hmember, hscore⟩
  · rintro ⟨hmember, hscore⟩
    exact ⟨_, hmember, _, hscore, rfl⟩

lemma ofPair_eq_error_iff :
    ofPair pair = .error e ↔
      pair.1.kind ≠ .bulk ∧ .unexpected .bulkString pair.1.kind = e ∨
        pair.1.kind = .bulk ∧ scoreOfReply pair.2 = .error e := by
  simp only [ofPair, bind_eq_error_iff, Resp.requireBulk_eq_error_iff, Resp.requireBulk_eq_ok_iff,
    Resp.kind_eq_bulk_iff]
  constructor
  · rintro (h | ⟨member, hmember, hscore | ⟨_, _, h⟩⟩)
    · exact .inl h
    · exact .inr ⟨⟨member, hmember⟩, hscore⟩
    · cases h
  · rintro (h | ⟨⟨member, hmember⟩, hscore⟩)
    · exact .inl h
    · exact .inr ⟨member, hmember, .inl hscore⟩

lemma exists_ofPair_eq_ok_iff :
    (∃ entry, ofPair pair = .ok entry) ↔
      pair.1.kind = .bulk ∧ ∃ score, scoreOfReply pair.2 = .ok score := by
  simp only [ofPair_eq_ok_iff, Resp.kind_eq_bulk_iff]
  constructor
  · rintro ⟨entry, hmember, hscore⟩
    exact ⟨⟨_, hmember⟩, _, hscore⟩
  · rintro ⟨⟨member, hmember⟩, score, hscore⟩
    exact ⟨⟨member, score⟩, hmember, hscore⟩

/-! ### Places -/

/-- Are there a member and its score in some place of a listing? -/
def Shows (items : List Resp) (i : Nat) (entry : ScoredEntry) : Prop :=
  items[2 * i]? = some (.bulk entry.member) ∧
    ∃ score, items[2 * i + 1]? = some score ∧ scoreOfReply score = .ok entry.score

/-- Why there is no member with its score in some place of a listing. The score is looked at only
behind a member. -/
inductive FaultAt (items : List Resp) (i : Nat) : ReplyError → Prop
  | member {v : Resp} : items[2 * i]? = some v → v.kind ≠ .bulk →
      FaultAt items i (.unexpected .bulkString v.kind)
  | score {data : Bytes} {v : Resp} {e : ReplyError} : items[2 * i]? = some (.bulk data) →
      items[2 * i + 1]? = some v → scoreOfReply v = .error e → FaultAt items i e

lemma shows_iff (heven : Even items.length) :
    Shows items i entry ↔
      ∃ pair, (inPairs items)[i]? = some pair ∧ ofPair pair = .ok entry := by
  simp only [Shows, Prod.exists, getElem?_inPairs_eq_some_iff heven, ofPair_eq_ok_iff]
  constructor
  · rintro ⟨hmember, score, hscore, hread⟩
    exact ⟨_, score, ⟨hmember, hscore⟩, rfl, hread⟩
  · rintro ⟨_, score, ⟨hmember, hscore⟩, rfl, hread⟩
    exact ⟨hmember, score, hscore, hread⟩

lemma faultAt_iff (heven : Even items.length) :
    FaultAt items i e ↔ ∃ pair, (inPairs items)[i]? = some pair ∧ ofPair pair = .error e := by
  constructor
  · rintro (⟨hmember, hkind⟩ | ⟨hmember, hscore, hread⟩)
    · obtain ⟨score, hpair⟩ := (getElem?_two_mul_eq_some_iff heven).1 hmember
      exact ⟨_, hpair, ofPair_eq_error_iff.2 (.inl ⟨hkind, rfl⟩)⟩
    · exact ⟨_, (getElem?_inPairs_eq_some_iff heven).2 ⟨hmember, hscore⟩,
        ofPair_eq_error_iff.2 (.inr ⟨rfl, hread⟩)⟩
  · rintro ⟨⟨member, score⟩, hpair, hread⟩
    obtain ⟨hmember, hscore⟩ := (getElem?_inPairs_eq_some_iff heven).1 hpair
    rcases ofPair_eq_error_iff.1 hread with ⟨hkind, rfl⟩ | ⟨hkind, hread⟩
    · exact .member hmember hkind
    · obtain ⟨data, rfl⟩ := Resp.kind_eq_bulk_iff.1 hkind
      exact .score hmember hscore hread

/-! ### Listings -/

lemma ofReply_of_even (heven : Even items.length) : ofReply (.array items) = ofPairs items := by
  rw [ofReply_array, if_neg (not_not.2 (Nat.even_iff.1 heven))]

lemma ofReply_of_odd (hodd : Odd items.length) :
    ofReply (.array items) = .error (.unpaired items.length) := by
  rw [ofReply_array, if_pos (by simp [Nat.odd_iff.1 hodd])]

lemma ofReply_of_kind_ne (hnull : v.kind ≠ .null) (harray : v.kind ≠ .array) :
    ofReply v = .error (.unexpected .array v.kind) := by
  cases v with
  | null => exact absurd rfl hnull
  | array => exact absurd rfl harray
  | _ => rfl

lemma ofReply_eq_ok_iff (heven : Even items.length) {entries : List ScoredEntry} :
    ofReply (.array items) = .ok entries ↔ items.length = 2 * entries.length ∧
      ∀ i entry, entries[i]? = some entry → Shows items i entry := by
  have hlength := length_inPairs heven
  have hcount : (inPairs items).length = entries.length ↔ items.length = 2 * entries.length := by
    omega
  simp only [ofReply_of_even heven, ofPairs_eq_mapM, mapM_eq_ok_iff_getElem?, shows_iff heven,
    hcount]

lemma ofReply_eq_error_iff (heven : Even items.length) :
    ofReply (.array items) = .error e ↔
      ∃ i, (∀ j < i, ∃ entry, Shows items j entry) ∧ FaultAt items i e := by
  simp only [ofReply_of_even heven, ofPairs_eq_mapM, mapM_eq_error_iff_getElem?, shows_iff heven,
    faultAt_iff heven]
  constructor
  · rintro ⟨i, pair, hpair, hread, hbefore⟩
    refine ⟨i, fun j hj => ?_, pair, hpair, hread⟩
    obtain ⟨before, entry, hpair, hread⟩ := hbefore j hj
    exact ⟨entry, before, hpair, hread⟩
  · rintro ⟨i, hbefore, pair, hpair, hread⟩
    refine ⟨i, pair, hpair, hread, fun j hj => ?_⟩
    obtain ⟨entry, before, hpair, hread⟩ := hbefore j hj
    exact ⟨before, entry, hpair, hread⟩

lemma exists_ofReply_eq_ok_iff (heven : Even items.length) :
    (∃ entries, ofReply (.array items) = .ok entries) ↔
      (∀ (i : Nat) v, items[2 * i]? = some v → v.kind = .bulk) ∧
        ∀ (i : Nat) v, items[2 * i + 1]? = some v → ∃ score, scoreOfReply v = .ok score := by
  simp only [ofReply_of_even heven, ofPairs_eq_mapM, exists_mapM_eq_ok_iff, exists_ofPair_eq_ok_iff,
    getElem?_two_mul_eq_some_iff heven, getElem?_two_mul_add_one_eq_some_iff heven]
  constructor
  · intro h
    constructor
    · rintro i member ⟨score, hpair⟩
      exact (h _ (List.mem_of_getElem? hpair)).1
    · rintro i score ⟨member, hpair⟩
      exact (h _ (List.mem_of_getElem? hpair)).2
  · rintro ⟨hmembers, hscores⟩ ⟨member, score⟩ hpair
    obtain ⟨i, hi⟩ := List.mem_iff_getElem?.1 hpair
    exact ⟨hmembers i member ⟨score, hi⟩, hscores i score ⟨member, hi⟩⟩

/-! ### One listing behind another -/

lemma ofReply_append (heven : Even items.length) (heven' : Even rest.length) :
    ofReply (.array (items ++ rest)) = do
      let entries ← ofReply (.array items)
      let more ← ofReply (.array rest)
      return entries ++ more := by
  have htotal : Even (items ++ rest).length := by
    rw [List.length_append]
    exact heven.add heven'
  simp only [ofReply_of_even heven, ofReply_of_even heven', ofReply_of_even htotal, ofPairs_eq_mapM,
    inPairs_append heven, List.mapM_append]

lemma ne_unpaired_of_ofReply_eq_error (heven : Even items.length)
    (h : ofReply (.array items) = .error e) (n : Nat) : e ≠ .unpaired n := by
  rintro rfl
  rw [ofReply_of_even heven, ofPairs_eq_mapM, mapM_eq_error_iff] at h
  obtain ⟨_, pair, _, -, -, hpair⟩ := h
  rcases ofPair_eq_error_iff.1 hpair with ⟨-, h⟩ | ⟨-, h⟩
  · cases h
  · rcases scoreOfReply_eq_error_cases h with h | ⟨_, h⟩ <;> cases h

variable {entries more : List ScoredEntry}

lemma ofReply_append_of_ok (heven : Even items.length)
    (hitems : ofReply (.array items) = .ok entries) (hrest : ofReply (.array rest) = .ok more) :
    ofReply (.array (items ++ rest)) = .ok (entries ++ more) := by
  rcases Nat.even_or_odd rest.length with heven' | hodd
  · rw [ofReply_append heven heven', hitems, hrest]
    rfl
  · rw [ofReply_of_odd hodd] at hrest
    cases hrest

lemma ofReply_append_of_ok_of_error (heven : Even items.length)
    (hitems : ofReply (.array items) = .ok entries) (hrest : ofReply (.array rest) = .error e) :
    ofReply (.array (items ++ rest)) = .error (e.behind items.length) := by
  rcases Nat.even_or_odd rest.length with heven' | hodd
  · have hpaired := ne_unpaired_of_ofReply_eq_error heven' hrest
    rw [ofReply_append heven heven', hitems, hrest, ReplyError.behind_of_ne_unpaired hpaired]
    rfl
  · -- the rest is not looked into, only its length counts
    have htotal : Odd (items ++ rest).length := by
      rw [List.length_append]
      exact heven.add_odd hodd
    rw [ofReply_of_odd hodd] at hrest
    cases hrest
    rw [ofReply_of_odd htotal, List.length_append]
    rfl

lemma ofReply_append_of_error (heven : Even items.length)
    (hitems : ofReply (.array items) = .error e) (heven' : Even rest.length) :
    ofReply (.array (items ++ rest)) = .error e := by
  rw [ofReply_append heven heven', hitems]
  rfl

/-- Which values are listings, what they list, and why the others are refused. A listing behind
another one is read after it, and a fault of the first one is the fault of both. -/
theorem listing_read_by_pairs (items rest : List Resp) :
    ofReply .null = .ok [] ∧
    (∀ v : Resp, v.kind ≠ .null → v.kind ≠ .array →
      ofReply v = .error (.unexpected .array v.kind)) ∧
    (Odd items.length → ofReply (.array items) = .error (.unpaired items.length)) ∧
    (Even items.length →
      ((∃ entries, ofReply (.array items) = .ok entries) ↔
        (∀ (i : Nat) v, items[2 * i]? = some v → v.kind = .bulk) ∧
          ∀ (i : Nat) v, items[2 * i + 1]? = some v → ∃ score, scoreOfReply v = .ok score) ∧
      (∀ entries, ofReply (.array items) = .ok entries ↔
        items.length = 2 * entries.length ∧
          ∀ i entry, entries[i]? = some entry → Shows items i entry) ∧
      (∀ e, ofReply (.array items) = .error e ↔
        ∃ i, (∀ j < i, ∃ entry, Shows items j entry) ∧ FaultAt items i e) ∧
      (∀ entries, ofReply (.array items) = .ok entries →
        (∀ more, ofReply (.array rest) = .ok more →
          ofReply (.array (items ++ rest)) = .ok (entries ++ more)) ∧
        ∀ e, ofReply (.array rest) = .error e →
          ofReply (.array (items ++ rest)) = .error (e.behind items.length)) ∧
      ∀ e, ofReply (.array items) = .error e → Even rest.length →
        ofReply (.array (items ++ rest)) = .error e) := by
  refine ⟨rfl, fun v => ofReply_of_kind_ne, ofReply_of_odd, fun heven => ⟨?_, ?_, ?_, ?_, ?_⟩⟩
  · exact exists_ofReply_eq_ok_iff heven
  · exact fun entries => ofReply_eq_ok_iff heven
  · exact fun e => ofReply_eq_error_iff heven
  · intro entries hitems
    exact ⟨fun more => ofReply_append_of_ok heven hitems,
      fun e => ofReply_append_of_ok_of_error heven hitems⟩
  · exact fun e => ofReply_append_of_error heven

/-- A score that is refused comes before the member behind it, and a listing of an odd number of
elements is not looked into. -/
theorem listing_read_by_pairs_first_fault :
    ofReply (.array [.bulk [0x61], .simple "nine", .integer 3, .null]) =
        .error (.invalidScore "nine") ∧
      ofReply (.array [.integer 3, .null, .bulk []]) = .error (.unpaired 3) := by
  obtain ⟨-, -, -, heven⟩ := listing_read_by_pairs [.bulk [0x61], .simple "nine"] [.integer 3, .null]
  obtain ⟨-, -, hodd, -⟩ := listing_read_by_pairs [.integer 3, .null, .bulk []] []
  obtain ⟨-, -, -, -, hfault⟩ := heven (by decide)
  exact ⟨hfault (.invalidScore "nine") rfl (by decide), hodd (by decide)⟩

end ScoredEntry

end RespWire
