import RespWire.Proofs.Report.Sentinel
import RespWire.Proofs.Text.Codec

/-!
# Flattened pairs read back

Pairs that are flattened into arguments, and sent back as the entry of a report, are read as the
same properties. The flattening of some pairs starts with that of the first of them.
-/

namespace RespWire

/-! ### Flattening -/

namespace Encoding

lemma flatten_append (ps qs : List (Bytes × Bytes)) :
    flatten (ps ++ qs) = flatten ps ++ flatten qs := List.flatMap_append

lemma take_flatten (ps : List (Bytes × Bytes)) (n : Nat) :
    (flatten ps).take (2 * n) = flatten (ps.take n) := by
  induction ps generalizing n with
  | nil => simp [flatten]
  | cons p ps ih =>
    cases n with
    | zero => rfl
    | succ n => exact congrArg (p.1 :: p.2 :: ·) (ih n)

/-- An even number of arguments from the front are what the first pairs give. -/
lemma exists_prefix_of_prefix_flatten {ps : List (Bytes × Bytes)} {args : List Bytes}
    (h : args <+: flatten ps) (heven : Even args.length) : ∃ qs, qs <+: ps ∧ args = flatten qs := by
  obtain ⟨n, hn⟩ := heven.two_dvd
  refine ⟨ps.take n, List.take_prefix n ps, ?_⟩
  rw [← take_flatten, ← hn]
  exact List.prefix_iff_eq_take.1 h

end Encoding

/-! ### Reading -/

namespace ServerRecord

/-- The entry of bulk strings that shows some pairs. -/
def entryOfPairs (pairs : List (String × String)) : Resp :=
  .array ((Encoding.flatten (pairs.map fun p => (Utf8.encode p.1, Utf8.encode p.2))).map .bulk)

/-- The report of some servers, each with its pairs. -/
def replyOfPairs (servers : List (List (String × String))) : Resp :=
  .array (servers.map entryOfPairs)

/-- Names and texts in turn. -/
def alternating (pairs : List (String × String)) : List String := pairs.flatMap fun p => [p.1, p.2]

lemma inPairs_alternating (pairs : List (String × String)) :
    inPairs (alternating pairs) = pairs := by
  induction pairs with
  | nil => rfl
  | cons p pairs ih => exact congrArg (p :: ·) ih

lemma entryOfPairs_eq (pairs : List (String × String)) :
    entryOfPairs pairs = .array ((alternating pairs).map fun text => .bulk (Utf8.encode text)) := by
  simp [entryOfPairs, Encoding.flatten, alternating, List.flatMap_map, List.map_flatMap]

lemma propertiesOfEntry_entryOfPairs (pairs : List (String × String)) :
    propertiesOfEntry (entryOfPairs pairs) = .ok (.ofList pairs) := by
  rw [entryOfPairs_eq, propertiesOfEntry_eq_ok_iff]
  refine ⟨_, alternating pairs, rfl, ?_, ?_, by rw [inPairs_alternating]⟩
  · simp [alternating, List.length_flatMap]
  · simp [fieldText?, Function.comp_def]

lemma propertiesOfReply_replyOfPairs (servers : List (List (String × String))) :
    propertiesOfReply (replyOfPairs servers) = .ok (servers.map .ofList) := by
  rw [replyOfPairs, propertiesOfReply_array, mapM_eq_ok_iff, List.forall₂_map_left_iff,
    List.forall₂_map_right_iff, List.forall₂_same]
  exact fun pairs _ => propertiesOfEntry_entryOfPairs pairs

/-- Pairs that are flattened, server by server, are read as one table for each server, in order.
Its texts are the last ones of their names, and if no name comes twice its entries are the pairs.
Flattening takes pairs one after another. -/
theorem flattened_pairs_read_back :
    (∀ servers, ∃ tables, propertiesOfReply (replyOfPairs servers) = .ok tables ∧
      List.Forall₂ (fun pairs (p : Properties) =>
        p.keys.Pairwise (· < ·) ∧ (∀ name, p.get? name = pairs.reverse.lookup name) ∧
          ((pairs.map (·.1)).Nodup → p.entries.Perm pairs)) servers tables) ∧
    (∀ ps qs, Encoding.flatten (ps ++ qs) = Encoding.flatten ps ++ Encoding.flatten qs) ∧
    ∀ ps args, args <+: Encoding.flatten ps → Even args.length →
      ∃ qs, qs <+: ps ∧ args = Encoding.flatten qs := by
  refine ⟨fun servers => ⟨_, propertiesOfReply_replyOfPairs servers, ?_⟩,
    Encoding.flatten_append, fun ps args => Encoding.exists_prefix_of_prefix_flatten⟩
  rw [List.forall₂_map_right_iff, List.forall₂_same]
  intro pairs _
  exact ⟨Dictionary.pairwise_keys _, Dictionary.get?_ofList pairs, Dictionary.ofList_perm⟩

/-- Pairs with a name that comes twice. -/
def repeatedPairs : List (String × String) :=
  [("ip", "10.0.0.1"), ("port", "6379"), ("ip", "10.0.0.2")]

def distinctPairs : List (String × String) := [("name", "main"), ("", "")]

theorem flattened_pairs_read_back_repeated :
    (∃ p q, propertiesOfReply (replyOfPairs [repeatedPairs, distinctPairs]) = .ok [p, q] ∧
      p.get? "ip" = some "10.0.0.2" ∧ q.entries.Perm distinctPairs) ∧
    ∃ qs, qs <+: [([0x61], []), ([0x62], [0x63])] ∧ [[0x61], []] = Encoding.flatten qs := by
  obtain ⟨hread, -, hprefix⟩ := flattened_pairs_read_back
  refine ⟨?_, hprefix _ [[0x61], []] (by decide) (by decide)⟩
  obtain ⟨tables, htables, hpairs⟩ := hread [repeatedPairs, distinctPairs]
  cases hpairs with
  | cons hp hrest =>
    cases hrest with
    | cons hq hrest =>
      cases hrest
      refine ⟨_, _, htables, ?_, hq.2.2 (by decide)⟩
      rw [hp.2.1]
      rfl

end ServerRecord

end RespWire
