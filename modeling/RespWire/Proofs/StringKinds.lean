import RespWire.Proofs.Cluster.Topology
import RespWire.Proofs.Keyspace.Page
import RespWire.Proofs.Report.Sentinel
import RespWire.Proofs.SortedSet.Listing

/-!
# Strings of either kind

A reply that is accepted may have bulk strings in the place of its simple strings and is then read
as the same. Texts are read alike from both kinds. Where only a bulk string will do, a reply that is
accepted has one already.
-/

namespace RespWire

namespace Resp

mutual
/-- A value with every simple string in it made a bulk string of the same text. -/
def asBulk : Resp → Resp
  | .simple text => .bulk (Utf8.encode text)
  | .error text => .error text
  | .integer value => .integer value
  | .bulk data => .bulk data
  | .null => .null
  | .array items => .array (asBulkAll items)

/-- Values with every simple string in them made a bulk string of the same text. -/
def asBulkAll : List Resp → List Resp
  | [] => []
  | v :: vs => asBulk v :: asBulkAll vs
end

lemma asBulkAll_eq (vs : List Resp) : asBulkAll vs = vs.map asBulk := by
  induction vs with
  | nil => rfl
  | cons v vs ih => rw [asBulkAll, ih, List.map_cons]

@[simp] lemma asBulk_array (items : List Resp) :
    (array items).asBulk = .array (items.map asBulk) := by
  rw [asBulk, asBulkAll_eq]

@[simp] lemma asBulk_integer (value : Int64) : (integer value).asBulk = .integer value := by
  rw [asBulk]

@[simp] lemma asBulk_bulk (data : Bytes) : (bulk data).asBulk = .bulk data := by
  rw [asBulk]

@[simp] lemma asBulk_null : null.asBulk = .null := by
  rw [asBulk]

@[simp] lemma bytes?_asBulk (v : Resp) : v.asBulk.bytes? = v.bytes? := by
  cases v <;> simp [asBulk, bytes?]

@[simp] lemma text?_asBulk (v : Resp) : v.asBulk.text? = v.text? := by
  cases v <;> simp [asBulk, text?, Utf8.decode?_eq_some_iff]

end Resp

open Resp

/-- Does a reader that accepts a value read the same from it with bulk strings? -/
def ReadsAsBulk {α : Type} (read : Resp → Except ReplyError α) : Prop :=
  ∀ v x, read v = .ok x → read v.asBulk = .ok x

/-! ### Listings of members -/

lemma scoreOfReply_asBulk (v : Resp) : scoreOfReply v.asBulk = scoreOfReply v := by
  have htext := text?_asBulk v
  cases v <;> simp_all [asBulk, scoreOfReply, kind]

namespace ScoredEntry

lemma ofPair_map_asBulk {pair : Resp × Resp} {entry : ScoredEntry} (h : ofPair pair = .ok entry) :
    ofPair (pair.map asBulk asBulk) = .ok entry := by
  rw [ofPair_eq_ok_iff] at h ⊢
  obtain ⟨hmember, hscore⟩ := h
  rw [Prod.map_fst, Prod.map_snd, hmember, scoreOfReply_asBulk]
  exact ⟨asBulk_bulk _, hscore⟩

lemma readsAsBulk_ofReply : ReadsAsBulk ofReply := by
  intro v entries h
  cases v with
  | null => rwa [asBulk_null]
  | array items =>
    rcases Nat.even_or_odd items.length with heven | hodd
    · have heven' : Even (items.map asBulk).length := by rwa [List.length_map]
      rw [ofReply_of_even heven, ofPairs_eq_mapM] at h
      rw [asBulk_array, ofReply_of_even heven', ofPairs_eq_mapM, inPairs_map]
      exact mapM_map_eq_ok (f := ofPair) (fun _ _ => ofPair_map_asBulk) h
    · rw [ofReply_of_odd hodd] at h
      cases h
  | _ => cases h

end ScoredEntry

/-! ### Nodes -/

namespace Cluster.Node

lemma Describes.map_asBulk {fields : List Resp} {n : Node} (h : Describes fields n) :
    Describes (fields.map asBulk) n := by
  obtain ⟨more, rest, hstart, hstop, hhost, htext, hport⟩ := h
  simp only [List.map_cons, asBulk_integer, asBulk_array]
  exact .mk _ _ hstart hstop (by rwa [bytes?_asBulk]) htext hport

lemma readsAsBulk_ofReply : ReadsAsBulk ofReply := by
  intro v n h
  obtain ⟨start, stop, owner, rfl, hn⟩ := ofReply_eq_ok_iff.1 h
  rw [asBulk_array]
  exact ofReply_eq_ok_iff.2 ⟨_, _, _, rfl, hn.map_asBulk⟩

lemma readsAsBulk_ofEntry : ReadsAsBulk ofEntry := by
  intro v n h
  rw [ofEntry_eq_ok_iff, accepts_iff] at h ⊢
  obtain ⟨fields, rfl, hn⟩ := h
  exact ⟨_, asBulk_array fields, hn.map_asBulk⟩

lemma readsAsBulk_listOfReply : ReadsAsBulk listOfReply := by
  intro v nodes h
  cases v with
  | null => rwa [asBulk_null]
  | array entries =>
    rw [asBulk_array]
    exact mapM_map_eq_ok readsAsBulk_ofEntry h
  | _ => cases h

end Cluster.Node

/-! ### Servers -/

namespace ServerRecord

lemma fieldText?_asBulk (v : Resp) : fieldText? v.asBulk = fieldText? v := by
  cases v <;> simp [asBulk, fieldText?]

lemma readsAsBulk_propertiesOfEntry : ReadsAsBulk propertiesOfEntry := by
  intro v p h
  rw [propertiesOfEntry_eq_ok_iff] at h ⊢
  obtain ⟨fields, texts, rfl, heven, htexts, hp⟩ := h
  refine ⟨_, texts, asBulk_array fields, by rwa [List.length_map], ?_, hp⟩
  rw [← htexts, List.map_map]
  exact List.map_congr_left fun v _ => fieldText?_asBulk v

lemma readsAsBulk_propertiesOfReply : ReadsAsBulk propertiesOfReply := by
  intro v ps h
  cases v with
  | null => rwa [asBulk_null]
  | array entries =>
    rw [asBulk_array]
    exact mapM_map_eq_ok readsAsBulk_propertiesOfEntry h
  | _ => cases h

end ServerRecord

/-! ### Pages of scans -/

namespace ScanPage

lemma ShowsCursor.asBulk {v : Resp} {next : UInt64} (h : ShowsCursor v next) :
    ShowsCursor v.asBulk next := by
  cases h with
  | integer h =>
    rw [asBulk_integer]
    exact .integer h
  | text h hspells => exact .text (by rwa [bytes?_asBulk]) hspells

lemma readsAsBulk_ofReply : ReadsAsBulk ofReply := by
  intro v page h
  simp only [ofReply_eq_ok_iff, cursorOfReply_eq_ok_iff_shows] at h ⊢
  obtain ⟨cursor, rfl, hcursor⟩ := h
  refine ⟨cursor.asBulk, ?_, hcursor.asBulk⟩
  simp [Function.comp_def]

end ScanPage

/-- Whatever the readers of replies accept they read as the same if its simple strings are bulk
strings of their texts, at every depth: members with their scores, nodes, the properties of servers,
and pages of scans. -/
theorem accepted_replies_read_as_bulk :
    (∀ reply entries, ScoredEntry.ofReply reply = .ok entries →
      ScoredEntry.ofReply reply.asBulk = .ok entries) ∧
    (∀ reply n, Cluster.Node.ofReply reply = .ok n →
      Cluster.Node.ofReply reply.asBulk = .ok n) ∧
    (∀ reply nodes, Cluster.Node.listOfReply reply = .ok nodes →
      Cluster.Node.listOfReply reply.asBulk = .ok nodes) ∧
    (∀ reply ps, ServerRecord.propertiesOfReply reply = .ok ps →
      ServerRecord.propertiesOfReply reply.asBulk = .ok ps) ∧
    ∀ reply page, ScanPage.ofReply reply = .ok page → ScanPage.ofReply reply.asBulk = .ok page := by
  exact ⟨ScoredEntry.readsAsBulk_ofReply, Cluster.Node.readsAsBulk_ofReply,
    Cluster.Node.readsAsBulk_listOfReply, ServerRecord.readsAsBulk_propertiesOfReply,
    ScanPage.readsAsBulk_ofReply⟩

/-- An entry of a topology with simple strings in its owner and behind it. -/
def simpleEntry : Resp :=
  .array [.integer 5461, .integer 10922,
    .array [.simple "é", .integer 7000, .simple "id"], .array [.simple "10.0.0.2", .null]]

def simpleNode : Cluster.Node := ⟨"é", 7000, ⟨⟨5461, by decide⟩, ⟨10922, by decide⟩, by decide⟩⟩

/-- Scores, hosts, names and cursors from simple strings, with simple strings that are not looked
at behind them. -/
theorem accepted_replies_read_as_bulk_mixed :
    (ScoredEntry.ofReply (.array [.bulk [0xFF], .simple " -0.5"]) =
        .ok [⟨[0xFF], ⟨0xBFE0000000000000⟩⟩] ∧
      ScoredEntry.ofReply (.array [.bulk [0xFF], .bulk (Utf8.encode " -0.5")]) =
        .ok [⟨[0xFF], ⟨0xBFE0000000000000⟩⟩]) ∧
    (Cluster.Node.ofReply (.array [.integer 5461, .integer 10922,
        .array [.simple "é", .integer 7000]]) = .ok simpleNode ∧
      Cluster.Node.ofReply (.array [.integer 5461, .integer 10922,
        .array [.bulk [0xC3, 0xA9], .integer 7000]]) = .ok simpleNode) ∧
    (Cluster.Node.listOfReply (.array [simpleEntry]) = .ok [simpleNode] ∧
      Cluster.Node.listOfReply (.array [simpleEntry.asBulk]) = .ok [simpleNode]) ∧
    (ServerRecord.propertiesOfReply (.array [.array [.simple "ip", .integer 3, .bulk [0x69, 0x70],
        .simple ""]]) = .ok [.ofList [("ip", "")]] ∧
      ServerRecord.propertiesOfReply (.array [.array [.bulk [0x69, 0x70], .integer 3,
        .bulk [0x69, 0x70], .bulk []]]) = .ok [.ofList [("ip", "")]]) ∧
    (ScanPage.ofReply (.array [.simple "+07", .array [.bulk [0x61]]]) = .ok ⟨7, [[0x61]]⟩ ∧
      ScanPage.ofReply (.array [.bulk [0x2B, 0x30, 0x37], .array [.bulk [0x61]]]) =
        .ok ⟨7, [[0x61]]⟩) := by
  obtain ⟨hmembers, hnode, hnodes, hservers, hpage⟩ := accepted_replies_read_as_bulk
  have hm : ScoredEntry.ofReply (.array [.bulk [0xFF], .simple " -0.5"]) =
      .ok [⟨[0xFF], ⟨0xBFE0000000000000⟩⟩] := by decide +kernel
  have hn : Cluster.Node.ofReply (.array [.integer 5461, .integer 10922,
      .array [.simple "é", .integer 7000]]) = .ok simpleNode := by decide
  have hns : Cluster.Node.listOfReply (.array [simpleEntry]) = .ok [simpleNode] := by decide
  have hs : ServerRecord.propertiesOfReply (.array [.array [.simple "ip", .integer 3,
      .bulk [0x69, 0x70], .simple ""]]) = .ok [.ofList [("ip", "")]] := by decide
  have hp : ScanPage.ofReply (.array [.simple "+07", .array [.bulk [0x61]]]) =
      .ok ⟨7, [[0x61]]⟩ := by decide
  exact ⟨⟨hm, hmembers _ _ hm⟩, ⟨hn, hnode _ _ hn⟩, ⟨hns, hnodes _ _ hns⟩, ⟨hs, hservers _ _ hs⟩,
    hp, hpage _ _ hp⟩

end RespWire
