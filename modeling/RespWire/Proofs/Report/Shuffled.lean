import Mathlib.Data.List.Forall2
import RespWire.Proofs.Collection.Dictionary
import RespWire.Report.Sentinel

/-!
# Records of shuffled pairs

A record is the same in whatever order its pairs come, if no name comes twice. If some do, it
depends on the order among the pairs of each name and on no other.
-/

namespace RespWire

namespace Dictionary

variable {κ : Type u} {ν : Type v} [DecidableEq κ] {pairs shuffled : List (κ × ν)}

/-- The pairs with one key, in order. -/
def withKey (pairs : List (κ × ν)) (key : κ) : List (κ × ν) := pairs.filter (·.1 = key)

lemma lookup_withKey (pairs : List (κ × ν)) (key : κ) :
    (withKey pairs key).lookup key = pairs.lookup key := by
  induction pairs with
  | nil => rfl
  | cons e pairs ih =>
    rw [withKey, List.filter_cons, lookup_cons_eq]
    by_cases h : e.1 = key
    · rw [if_pos (decide_eq_true h), lookup_cons_eq, if_pos h.symm, if_pos h.symm]
    · rw [if_neg (mt of_decide_eq_true h), if_neg (Ne.symm h)]
      exact ih

lemma lookup_reverse_withKey (pairs : List (κ × ν)) (key : κ) :
    (withKey pairs key).reverse.lookup key = pairs.reverse.lookup key := by
  rw [withKey, ← List.filter_reverse]
  exact lookup_withKey pairs.reverse key

/-- Of pairs with different keys there is at most one with a key, so their order is lost on it. -/
lemma withKey_eq_of_perm (h : (pairs.map Prod.fst).Nodup) (hperm : pairs.Perm shuffled) (key : κ) :
    withKey pairs key = withKey shuffled key := by
  have hfilter : (withKey pairs key).Perm (withKey shuffled key) := hperm.filter _
  have hlength : (withKey pairs key).length ≤ 1 := by
    have hcount : (pairs.map Prod.fst).count key ≤ 1 := List.nodup_iff_count_le_one.1 h key
    rw [List.count, List.countP_map, List.countP_eq_length_filter] at hcount
    exact hcount
  match hkey : withKey pairs key, hlength with
  | [], _ =>
    rw [hkey] at hfilter
    exact hfilter.nil_eq
  | [e], _ =>
    rw [hkey] at hfilter
    exact (List.perm_singleton.1 hfilter.symm).symm

variable [LT κ] [DecidableLT κ] [StrictTotal κ]

/-- Only the order among pairs of one key is of effect. -/
theorem ofList_eq_of_withKey (h : ∀ key, withKey pairs key = withKey shuffled key) :
    ofList pairs = ofList shuffled := by
  apply ext_get?
  intro key
  rw [get?_ofList, get?_ofList, ← lookup_reverse_withKey, h, lookup_reverse_withKey]

/-- Pairs with different keys can be inserted in any order. -/
theorem ofList_eq_of_perm_pairs (h : (pairs.map Prod.fst).Nodup) (hperm : pairs.Perm shuffled) :
    ofList pairs = ofList shuffled :=
  ofList_eq_of_withKey (withKey_eq_of_perm h hperm)

/-- Pairs with different keys give each key its value. -/
lemma get?_ofList_eq_some_iff (h : (pairs.map Prod.fst).Nodup) {key : κ} {value : ν} :
    (ofList pairs).get? key = some value ↔ (key, value) ∈ pairs := by
  rw [← mem_entries_iff, (ofList_perm h).mem_iff]

end Dictionary

/-! ### Records -/

namespace ServerRecord

variable {pairs shuffled : List (String × String)}

/-- The texts that a record answers with, each with its name among the pairs. -/
def textAnswers : List (String × (ServerRecord → Option String)) :=
  [("name", name), ("ip", host), ("runid", runId), ("flags", flags), ("role-reported", roleReported)]

/-- The integers that a record answers with, each with its name among the pairs. -/
def integerAnswers : List (String × (ServerRecord → Option Int64)) :=
  [("num-slaves", numberOfReplicas), ("num-other-sentinels", numberOfOtherSentinels),
    ("quorum", quorum)]

/-- Does a record answer with what stands under each name among some pairs, in any order? -/
structure AnswersFrom (pairs : List (String × String)) (s : ServerRecord) : Prop where
  get? : ∀ name text, s.get? name = some text ↔ (name, text) ∈ pairs
  text : ∀ answer ∈ textAnswers, ∀ text, answer.2 s = some text ↔ (answer.1, text) ∈ pairs
  integer : ∀ answer ∈ integerAnswers, ∀ n, answer.2 s = some n ↔
    ∃ text, (answer.1, text) ∈ pairs ∧ Numeral.int64? text = some n
  port : ∀ n, s.port = some n ↔ ∃ text, ("port", text) ∈ pairs ∧ Numeral.uint16? text = some n

lemma textAnswers_eq {answer : String × (ServerRecord → Option String)} (h : answer ∈ textAnswers) :
    answer.2 = fun s => s.get? answer.1 := by
  simp only [textAnswers, List.mem_cons, List.not_mem_nil, or_false] at h
  rcases h with rfl | rfl | rfl | rfl | rfl <;> rfl

lemma integerAnswers_eq {answer : String × (ServerRecord → Option Int64)}
    (h : answer ∈ integerAnswers) : answer.2 = fun s => (s.get? answer.1).bind Numeral.int64? := by
  simp only [integerAnswers, List.mem_cons, List.not_mem_nil, or_false] at h
  rcases h with rfl | rfl | rfl <;> rfl

lemma answersFrom_ofPairs (h : (pairs.map Prod.fst).Nodup) : AnswersFrom pairs (ofPairs pairs) := by
  have hget : ∀ name text, (ofPairs pairs).get? name = some text ↔ (name, text) ∈ pairs :=
    fun name text => Dictionary.get?_ofList_eq_some_iff h
  refine ⟨hget, fun answer hanswer text => ?_, fun answer hanswer n => ?_, fun n => ?_⟩
  · rw [textAnswers_eq hanswer, hget]
  · rw [integerAnswers_eq hanswer, Option.bind_eq_some_iff]
    simp only [hget]
  · rw [port, Option.bind_eq_some_iff]
    simp only [hget]

lemma ofPairs_eq_of_withKey
    (h : ∀ name, Dictionary.withKey pairs name = Dictionary.withKey shuffled name) :
    ofPairs pairs = ofPairs shuffled := congrArg mk (Dictionary.ofList_eq_of_withKey h)

lemma ofPairs_eq_of_perm (h : (pairs.map Prod.fst).Nodup) (hperm : pairs.Perm shuffled) :
    ofPairs pairs = ofPairs shuffled := congrArg mk (Dictionary.ofList_eq_of_perm_pairs h hperm)

/-- Two ways in which the maps of a report yield their pairs: each in some order, and no name twice
in one map. -/
def Reorders (report shuffled : List (List (String × String))) : Prop :=
  List.Forall₂ (fun pairs pairs' => (pairs.map Prod.fst).Nodup ∧ pairs.Perm pairs') report shuffled

lemma Reorders.listOfPairs_eq {report shuffled : List (List (String × String))}
    (h : Reorders report shuffled) : listOfPairs (some shuffled) = listOfPairs (some report) := by
  induction h with
  | nil => rfl
  | cons hpairs _ ih => exact congrArg₂ List.cons (ofPairs_eq_of_perm hpairs.1 hpairs.2).symm ih

lemma Reorders.answersFrom {report shuffled : List (List (String × String))}
    (h : Reorders report shuffled) :
    List.Forall₂ AnswersFrom report (listOfPairs (some report)) := by
  induction h with
  | nil => exact .nil
  | cons hpairs _ ih => exact .cons (answersFrom_ofPairs hpairs.1) ih

/-- Pairs without a repeated name give the same record in any order, which answers with their texts,
and so do all maps of a report, each its own record. With repeated names the record depends on no
more than the order of the pairs of each name. -/
theorem record_of_shuffled_pairs :
    (∀ pairs shuffled, (pairs.map Prod.fst).Nodup → pairs.Perm shuffled →
      ofPairs shuffled = ofPairs pairs ∧ AnswersFrom pairs (ofPairs shuffled)) ∧
    (∀ report shuffled, Reorders report shuffled →
      listOfPairs (some shuffled) = listOfPairs (some report) ∧
        List.Forall₂ AnswersFrom report (listOfPairs (some shuffled))) ∧
    ∀ pairs shuffled,
      (∀ name, Dictionary.withKey pairs name = Dictionary.withKey shuffled name) →
        ofPairs pairs = ofPairs shuffled := by
  refine ⟨fun pairs shuffled h hperm => ?_, fun report shuffled h => ?_,
    fun pairs shuffled => ofPairs_eq_of_withKey⟩
  · rw [← ofPairs_eq_of_perm h hperm]
    exact ⟨rfl, answersFrom_ofPairs h⟩
  · rw [h.listOfPairs_eq]
    exact ⟨rfl, h.answersFrom⟩

/-- The address of a server in two orders, and names of which one comes twice. -/
theorem record_of_shuffled_pairs_repeated :
    (ofPairs [("port", "26379"), ("ip", "10.0.0.1")]).host = some "10.0.0.1" ∧
      (ofPairs [("port", "26379"), ("ip", "10.0.0.1")]).port = some 26379 ∧
      listOfPairs (some [[], [("port", "26379"), ("ip", "10.0.0.1")]]) =
        listOfPairs (some [[], [("ip", "10.0.0.1"), ("port", "26379")]]) ∧
      ofPairs [("ip", "10.0.0.1"), ("port", "26379"), ("ip", "10.0.0.2")] =
        ofPairs [("port", "26379"), ("ip", "10.0.0.1"), ("ip", "10.0.0.2")] := by
  obtain ⟨hpairs, hreport, hrepeated⟩ := record_of_shuffled_pairs
  have hnodup : ([("ip", "10.0.0.1"), ("port", "26379")].map Prod.fst).Nodup := by decide
  have hswap : [("ip", "10.0.0.1"), ("port", "26379")].Perm
      [("port", "26379"), ("ip", "10.0.0.1")] := .swap _ _ _
  obtain ⟨-, hanswers⟩ := hpairs _ _ hnodup hswap
  refine ⟨?_, ?_, ?_, hrepeated _ _ fun name => ?_⟩
  · exact (hanswers.text ("ip", host) (by simp [textAnswers]) "10.0.0.1").2 (by decide)
  · exact (hanswers.port 26379).2 ⟨"26379", by decide, by decide⟩
  · exact (hreport _ _ (.cons ⟨by decide, .nil⟩ (.cons ⟨hnodup, hswap⟩ .nil))).1
  · by_cases h : "port" = name
    · rw [← h]
      decide
    · simp [Dictionary.withKey, List.filter_cons, h]

end ServerRecord

end RespWire
