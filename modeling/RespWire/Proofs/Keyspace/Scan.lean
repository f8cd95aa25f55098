import Mathlib.Data.List.Chain
import RespWire.Keyspace.Scan
import RespWire.Proofs.Number.Numeral
import RespWire.Proofs.Resp.Shape

/-!
# Whole scans

A walk uses the replies up to the first one that ends it, and gathers the items of their pages in
order. It asks for each page with the cursor of the one before, and a cursor goes back in the bytes
in which it came.
-/

namespace RespWire

lemma cursorBytes_eq_zero_iff {cursor : UInt64} :
    cursorBytes cursor = Utf8.encode "0" ↔ cursor = 0 := by
  constructor
  · intro h
    have htext : Numeral.text cursor.toNat = Numeral.text (0 : Nat) := Utf8.encode_injective h
    exact UInt64.toNat_inj.1 (Int.ofNat_inj.1 (Numeral.text_injective htext))
  · rintro rfl
    decide

/-! ### Pages -/

namespace ScanPage

variable {cursor reply : Resp} {page : ScanPage} {text : String}

lemma ofReply_eq_ok_iff : ofReply reply = .ok page ↔
    ∃ cursor, reply = .array [cursor, .array (page.items.map .bulk)] ∧
      cursorOfReply cursor = .ok page.cursor := by
  rw [ofReply, bind_eq_ok_iff]
  simp only [Resp.requireArray_eq_ok_iff]
  constructor
  · rintro ⟨parts, rfl, h⟩
    split at h
    · rename_i cursor items
      simp only [bind_eq_ok_iff, Resp.requireArray_eq_ok_iff,
        Resp.mapM_requireBulk_eq_ok_iff] at h
      obtain ⟨next, hcursor, _, rfl, items, rfl, hpage⟩ := h
      cases hpage
      exact ⟨cursor, rfl, hcursor⟩
    · cases h
  · rintro ⟨cursor, rfl, hcursor⟩
    refine ⟨_, rfl, ?_⟩
    simp only [bind_eq_ok_iff, Resp.requireArray_eq_ok_iff, Resp.mapM_requireBulk_eq_ok_iff]
    exact ⟨_, hcursor, _, rfl, _, rfl, rfl⟩

lemma cursorOfReply_eq_ok_iff {next : UInt64} (h : cursor.requireText = .ok text) :
    cursorOfReply cursor = .ok next ↔ Numeral.uint64? text = some next := by
  rw [cursorOfReply, h]
  · cases hread : Numeral.uint64? text with
    | none => simp [bind, Except.bind, hread]
    | some n => simp [bind, Except.bind, hread]
  · rintro value rfl
    cases h

/-- A cursor that is sent as a canonical numeral goes back in the same bytes. -/
lemma cursorBytes_of_isCanonical {items : Resp} (h : cursor.bytes? = some (Utf8.encode text))
    (hcanonical : Numeral.IsCanonical text.toList)
    (hpage : ofReply (.array [cursor, items]) = .ok page) :
    cursorBytes page.cursor = Utf8.encode text := by
  obtain ⟨cursor', hreply, hcursor⟩ := ofReply_eq_ok_iff.1 hpage
  simp only [Resp.array.injEq, List.cons.injEq] at hreply
  obtain ⟨rfl, -⟩ := hreply
  have hread := (cursorOfReply_eq_ok_iff (Resp.requireText_of_bytes? h)).1 hcursor
  rw [cursorBytes, Encoding.natural, Numeral.text_of_uint64?_eq_some hcanonical hread]

/-- Does a walk end with what was read? It does with the cursor zero and with a refusal. -/
def endsWalk : Except ReplyError ScanPage → Bool
  | .ok page => page.cursor = 0
  | .error _ => true

/-- The items that were read, if any were. -/
def itemsOf : Except ReplyError ScanPage → List Bytes
  | .ok page => page.items
  | .error _ => []

lemma isLast_iff : page.isLast = true ↔ page.cursor = 0 := decide_eq_true_iff

lemma endsWalk_eq_false_iff {found : Except ReplyError ScanPage} :
    endsWalk found = false ↔ ∃ page, found = .ok page ∧ page.cursor ≠ 0 := by
  cases found <;> simp [endsWalk]

end ScanPage

/-! ### Walks -/

namespace Scan

open ScanPage

variable (s : Scan) (cursor : UInt64) (reply : Resp) (replies : List Resp)

/-- The request with some bytes in the place of the cursor. -/
def requestWith (bytes : Bytes) : Resp :=
  .array ((Utf8.encode s.command :: s.key.toList ++ bytes :: s.filter.arguments.items).map .bulk)

lemma request_eq : s.request cursor = s.requestWith (cursorBytes cursor) := by
  simp [request, requestWith, Arguments.frame]

/-- The replies up to the first one that ends a walk, or all if there is none. -/
def used (replies : List Resp) : List Resp :=
  replies.take (replies.findIdx (fun reply => endsWalk (ofReply reply)) + 1)

variable {reply} in
lemma used_cons_of_ends (h : endsWalk (ofReply reply) = true) :
    used (reply :: replies) = [reply] := by
  simp [used, List.findIdx_cons, h]

variable {reply} in
lemma used_cons_of_goes_on (h : endsWalk (ofReply reply) = false) :
    used (reply :: replies) = reply :: used replies := by
  simp [used, List.findIdx_cons, h]

/-- What a turn does: it ends the walk, or the walk goes on from the cursor of its page. -/
lemma walkFrom_cons_cases :
    endsWalk (ofReply reply) = true ∧
        s.walkFrom cursor (reply :: replies) = [⟨s.request cursor, ofReply reply⟩] ∨
      ∃ page, ofReply reply = .ok page ∧ page.cursor ≠ 0 ∧
        s.walkFrom cursor (reply :: replies) =
          ⟨s.request cursor, .ok page⟩ :: s.walkFrom page.cursor replies := by
  rw [walkFrom]
  cases hpage : ofReply reply with
  | error e => exact .inl ⟨rfl, rfl⟩
  | ok page =>
    by_cases hlast : page.cursor = 0
    · exact .inl ⟨decide_eq_true hlast, by simp [isLast_iff.2 hlast]⟩
    · exact .inr ⟨page, rfl, hlast, by simp [mt isLast_iff.1 hlast]⟩

lemma map_page_walkFrom :
    (s.walkFrom cursor replies).map (·.page) = (used replies).map ofReply := by
  induction replies generalizing cursor with
  | nil => rfl
  | cons reply replies ih =>
    rcases s.walkFrom_cons_cases cursor reply replies with
      ⟨hends, hwalk⟩ | ⟨page, hpage, hne, hwalk⟩
    · rw [hwalk, used_cons_of_ends replies hends]
      rfl
    · have hgoes : endsWalk (ofReply reply) = false := endsWalk_eq_false_iff.2 ⟨page, hpage, hne⟩
      rw [hwalk, used_cons_of_goes_on replies hgoes, List.map_cons, List.map_cons, ih, hpage]

lemma head_walkFrom {turn : Turn} (h : turn ∈ (s.walkFrom cursor replies).head?) :
    turn.request = s.request cursor := by
  cases replies with
  | nil => cases h
  | cons reply replies =>
    rcases s.walkFrom_cons_cases cursor reply replies with ⟨-, hwalk⟩ | ⟨page, -, -, hwalk⟩ <;>
    · rw [hwalk] at h
      cases h
      rfl

/-- Each request after the first one has the cursor of the page before, which is not zero. -/
def Follows (turn next : Turn) : Prop :=
  ∃ page, turn.page = .ok page ∧ page.cursor ≠ 0 ∧ next.request = s.request page.cursor

lemma isChain_walkFrom : (s.walkFrom cursor replies).IsChain s.Follows := by
  induction replies generalizing cursor with
  | nil => exact .nil
  | cons reply replies ih =>
    rcases s.walkFrom_cons_cases cursor reply replies with
      ⟨-, hwalk⟩ | ⟨page, hpage, hne, hwalk⟩
    · rw [hwalk]
      exact .singleton _
    · rw [hwalk, List.isChain_cons]
      exact ⟨fun next hnext => ⟨page, rfl, hne, s.head_walkFrom _ _ hnext⟩, ih page.cursor⟩

lemma map_page_walk : (s.walk replies).map (·.page) = (used replies).map ofReply :=
  s.map_page_walkFrom 0 replies

variable {s replies}

lemma exists_follows {k : Nat} {next : Turn} (h : (s.walk replies)[k + 1]? = some next) :
    ∃ turn, (s.walk replies)[k]? = some turn ∧ s.Follows turn next := by
  obtain ⟨hk, rfl⟩ := List.getElem?_eq_some_iff.1 h
  exact ⟨_, List.getElem?_eq_getElem (Nat.lt_of_succ_lt hk),
    List.isChain_iff_getElem.1 (s.isChain_walkFrom 0 replies) k hk⟩

lemma page_of_getElem? {k : Nat} {turn : Turn} {reply : Resp}
    (h : (s.walk replies)[k]? = some turn) (hreply : replies[k]? = some reply) :
    turn.page = ofReply reply := by
  have hpages := congrArg (·[k]?) (s.map_page_walk replies)
  simp only [List.getElem?_map, h, used, List.getElem?_take, hreply] at hpages
  split_ifs at hpages
  · exact Option.some.inj hpages
  · cases hpages

variable (s replies)

/-! ### Items -/

/-- All items that some turns got, gathered turn after turn. -/
def gather (turns : List Turn) : List Bytes :=
  turns.foldl (fun items turn => items ++ itemsOf turn.page) []

lemma gather_walk :
    gather (s.walk replies) = (used replies).flatMap fun reply => itemsOf (ofReply reply) := by
  calc gather (s.walk replies)
      = (s.walk replies).flatMap fun turn => itemsOf turn.page := by
        rw [gather, List.flatMap_eq_foldl]
    _ = ((s.walk replies).map (·.page)).flatMap itemsOf := by rw [List.flatMap_map]
    _ = ((used replies).map ofReply).flatMap itemsOf := by rw [map_page_walk]
    _ = (used replies).flatMap fun reply => itemsOf (ofReply reply) := by rw [List.flatMap_map]

end Scan

/-- A walk loses, repeats and reorders nothing: its turns read the used replies one by one, its
requests differ in the cursor alone, which is zero in the first one only and comes from the page
before in all others, and all items of the used pages are gathered in order. -/
theorem walk_faithful (s : Scan) (replies : List Resp) :
    (s.walk replies).map (·.page) = (Scan.used replies).map ScanPage.ofReply ∧
    (∀ k turn, (s.walk replies)[k]? = some turn →
      ∃ bytes, turn.request = s.requestWith bytes ∧ (bytes = Utf8.encode "0" ↔ k = 0)) ∧
    (∀ k turn next, (s.walk replies)[k]? = some turn → (s.walk replies)[k + 1]? = some next →
      ∃ page, turn.page = .ok page ∧ next.request = s.requestWith (cursorBytes page.cursor)) ∧
    Scan.gather (s.walk replies) =
      (Scan.used replies).flatMap (fun reply => ScanPage.itemsOf (ScanPage.ofReply reply)) ∧
    ∀ k cursor items text next, replies[k]? = some (.array [cursor, items]) →
      cursor.bytes? = some (Utf8.encode text) → Numeral.IsCanonical text.toList →
      (s.walk replies)[k + 1]? = some next → next.request = s.requestWith (Utf8.encode text) := by
  refine ⟨s.map_page_walk replies, fun k turn h => ?_, fun k turn next h hnext => ?_,
    s.gather_walk replies, fun k cursor items text next hreply htext hcanonical hnext => ?_⟩
  · cases k with
    | zero =>
      have hhead : turn ∈ (s.walk replies).head? := by rwa [List.head?_eq_getElem?]
      have hrequest : turn.request = s.request 0 := s.head_walkFrom 0 replies hhead
      exact ⟨cursorBytes 0, by rw [hrequest, s.request_eq], by decide⟩
    | succ k =>
      obtain ⟨-, -, page, -, hne, hrequest⟩ := Scan.exists_follows h
      refine ⟨cursorBytes page.cursor, by rw [hrequest, s.request_eq], ?_⟩
      simp [cursorBytes_eq_zero_iff, hne]
  · obtain ⟨turn', h', page, hpage, -, hrequest⟩ := Scan.exists_follows hnext
    rw [h] at h'
    cases h'
    exact ⟨page, hpage, by rw [hrequest, s.request_eq]⟩
  · obtain ⟨turn, h, page, hpage, -, hrequest⟩ := Scan.exists_follows hnext
    rw [Scan.page_of_getElem? h hreply] at hpage
    rw [hrequest, s.request_eq, ScanPage.cursorBytes_of_isCanonical htext hcanonical hpage]

/-- A scan of a hash whose cursor takes the greatest value. -/
def hashScan : Scan := ⟨"HSCAN", some [0x68], ⟨some 10, none⟩⟩

/-- Three pages, of which the second one has no items and is not the last, and one reply more. -/
def hashPages : List Resp :=
  [.array [.bulk (Utf8.encode "18446744073709551615"), .array [.bulk [0x61], .bulk []]],
    .array [.integer 7, .array []], .array [.integer 0, .array [.bulk [0xFF]]], .null]

theorem walk_faithful_hash :
    hashPages[0]? = some (.array [.bulk (Utf8.encode "18446744073709551615"),
      .array [.bulk [0x61], .bulk []]]) ∧
    Numeral.IsCanonical "18446744073709551615".toList ∧
    ∃ turn next, (hashScan.walk hashPages)[0]? = some turn ∧
      (hashScan.walk hashPages)[1]? = some next ∧
      turn.request = hashScan.requestWith (Utf8.encode "0") ∧
      next.request = hashScan.requestWith (Utf8.encode "18446744073709551615") ∧
      Scan.gather (hashScan.walk hashPages) = [[0x61], [], [0xFF]] := by
  obtain ⟨-, hfirst, -, hitems, hcanonical⟩ := walk_faithful hashScan hashPages
  have h0 : (hashScan.walk hashPages)[0]? =
      some ⟨hashScan.request 0, .ok ⟨18446744073709551615, [[0x61], []]⟩⟩ := by rfl
  have h1 : (hashScan.walk hashPages)[1]? =
      some ⟨hashScan.request 18446744073709551615, .ok ⟨7, []⟩⟩ := by rfl
  have hc : Numeral.IsCanonical "18446744073709551615".toList :=
    ⟨by decide, List.all_eq_true.1 (by decide), by decide⟩
  obtain ⟨bytes, hrequest, hzero⟩ := hfirst 0 _ h0
  rw [hzero.2 rfl] at hrequest
  exact ⟨rfl, hc, _, _, h0, h1, hrequest, hcanonical 0 _ _ _ _ rfl rfl hc h1, by rw [hitems]; rfl⟩

end RespWire
