import RespWire.Proofs.Keyspace.Scan

/-!
# Pages of scans

Which replies are pages, and why the others are refused: for the first check that fails, from the
outside in and from left to right. A page that is written for a cursor and items is read as these.
-/

namespace RespWire.ScanPage

variable {v reply : Resp} {next : UInt64} {e : ReplyError} {page : ScanPage}

/-! ### Cursors -/

/-- The cursor that a value shows: an integer that is not negative, or a string of either kind whose
text spells it. -/
inductive ShowsCursor : Resp → UInt64 → Prop where
  | integer {value : Int64} {next : UInt64} (h : value.toInt = next.toNat) :
    ShowsCursor (.integer value) next
  | text {v : Resp} {text : String} {next : UInt64} (h : v.bytes? = some (Utf8.encode text))
      (hspells : Numeral.Spells text.toList next.toNat) : ShowsCursor v next

/-- Why a value shows no cursor. -/
inductive CursorFault : Resp → ReplyError → Prop where
  | negative {value : Int64} (h : value.toInt < 0) :
    CursorFault (.integer value) (.outOfRange .cursor value)
  | kind {v : Resp} (h : v.kind = .error ∨ v.kind = .null ∨ v.kind = .array) :
    CursorFault v (.unexpected .string v.kind)
  | text {v : Resp} {data : Bytes} (h : v.bytes? = some data) (hno : ∀ next, ¬ ShowsCursor v next) :
    CursorFault v (.invalidInteger (Utf8.decodeLossy data))

lemma showsCursor_integer_iff {value : Int64} :
    ShowsCursor (.integer value) next ↔ value.toInt = next.toNat := by
  constructor
  · rintro (h | ⟨h, -⟩)
    · exact h
    · cases h
  · exact .integer

/-- Bytes that are read as a numeral are its written form, for no replacement is part of one. -/
lemma showsCursor_iff_of_bytes? {data : Bytes} (h : v.bytes? = some data) :
    ShowsCursor v next ↔ Numeral.uint64? (Utf8.decodeLossy data) = some next := by
  rw [Numeral.uint64?_eq_some_iff]
  constructor
  · rintro (_ | ⟨htext, hspells⟩)
    · cases h
    · rw [h] at htext
      rwa [Option.some.inj htext, Utf8.decodeLossy_encode]
  · intro hspells
    have hgap : Utf8.replacement ∉ (Utf8.decodeLossy data).toList := by
      intro hmem
      rcases hspells.isDigit_or_eq_plus _ hmem with hdigit | hplus
      · exact absurd hdigit (by decide)
      · exact absurd hplus (by decide)
    rw [Utf8.eq_encode_of_replacement_notMem hgap] at h
    exact .text h hspells

lemma cursorOfReply_integer (value : Int64) :
    cursorOfReply (.integer value) =
      if 0 ≤ value.toInt then .ok (UInt64.ofNat value.toInt.toNat)
      else .error (.outOfRange .cursor value) := rfl

lemma cursorOfReply_of_bytes? {data : Bytes} (h : v.bytes? = some data) :
    cursorOfReply v = (Numeral.uint64? (Utf8.decodeLossy data)).elim
      (.error (.invalidInteger (Utf8.decodeLossy data))) .ok := by
  have htext : v.requireText = .ok (Utf8.decodeLossy data) :=
    Resp.requireText_eq_ok_iff.2 ⟨data, h, rfl⟩
  cases v with
  | integer => cases h
  | _ =>
    rw [cursorOfReply, htext]
    · cases hread : Numeral.uint64? (Utf8.decodeLossy data) <;> simp [bind, Except.bind, hread]
    · rintro value ⟨⟩

lemma cursorOfReply_of_kind (h : v.kind = .error ∨ v.kind = .null ∨ v.kind = .array) :
    cursorOfReply v = .error (.unexpected .string v.kind) := by
  cases v with
  | error | null | array => rfl
  | _ => simp [Resp.kind] at h

/-- What is no integer is a string or of none of the kinds of a cursor. -/
lemma cursor_cases (v : Resp) :
    (∃ value, v = .integer value) ∨ (∃ data, v.bytes? = some data) ∨
      (v.kind = .error ∨ v.kind = .null ∨ v.kind = .array) := by
  cases v <;> simp [Resp.bytes?, Resp.kind]

lemma cursorOfReply_eq_ok_iff_shows : cursorOfReply v = .ok next ↔ ShowsCursor v next := by
  rcases cursor_cases v with ⟨value, rfl⟩ | ⟨data, hdata⟩ | hkind
  · rw [showsCursor_integer_iff, cursorOfReply_integer]
    constructor
    · intro h
      split_ifs at h with hpos
      cases h
      have hlt : value.toInt.toNat < UInt64.size := by
        rw [Int.toNat_lt hpos]
        exact Int.lt_of_le_of_lt value.toInt_le (by decide)
      rw [UInt64.toNat_ofNat_of_lt' hlt, Int.toNat_of_nonneg hpos]
    · intro h
      rw [h, if_pos (Int.natCast_nonneg _), Int.toNat_natCast, UInt64.ofNat_toNat]
  · rw [showsCursor_iff_of_bytes? hdata, cursorOfReply_of_bytes? hdata]
    cases Numeral.uint64? (Utf8.decodeLossy data) <;> simp
  · rw [cursorOfReply_of_kind hkind]
    refine iff_of_false nofun ?_
    rintro (_ | ⟨h, -⟩)
    · simp [Resp.kind] at hkind
    · cases v <;> simp [Resp.kind, Resp.bytes?] at hkind h

lemma cursorOfReply_eq_error_iff : cursorOfReply v = .error e ↔ CursorFault v e := by
  constructor
  · intro h
    have hno : ∀ next, ¬ ShowsCursor v next := by
      intro next hnext
      rw [cursorOfReply_eq_ok_iff_shows.2 hnext] at h
      cases h
    rcases cursor_cases v with ⟨value, rfl⟩ | ⟨data, hdata⟩ | hkind
    · rw [cursorOfReply_integer] at h
      split_ifs at h with hpos
      cases h
      exact .negative (Int.not_le.1 hpos)
    · rw [cursorOfReply_of_bytes? hdata] at h
      cases hread : Numeral.uint64? (Utf8.decodeLossy data) with
      | some next => exact absurd ((showsCursor_iff_of_bytes? hdata).2 hread) (hno next)
      | none =>
        rw [hread] at h
        cases h
        exact .text hdata hno
    · rw [cursorOfReply_of_kind hkind] at h
      cases h
      exact .kind hkind
  · rintro (hneg | hkind | ⟨hdata, hno⟩)
    · rw [cursorOfReply_integer, if_neg (Int.not_le.2 hneg)]
    · exact cursorOfReply_of_kind hkind
    · have hnone : Numeral.uint64? (Utf8.decodeLossy _) = none :=
        Option.eq_none_iff_forall_not_mem.2 fun next hnext =>
          hno next ((showsCursor_iff_of_bytes? hdata).2 hnext)
      rw [cursorOfReply_of_bytes? hdata, hnone]
      rfl

/-! ### Pages -/

/-- Why a reply is not a page. Every check is made only if those before it succeed. -/
inductive Fault : Resp → ReplyError → Prop where
  | kind {reply : Resp} (h : reply.kind ≠ .array) : Fault reply (.unexpected .array reply.kind)
  | count {parts : List Resp} (h : parts.length ≠ 2) :
    Fault (.array parts) (.wrongCount 2 parts.length)
  | cursor {cursor items : Resp} {e : ReplyError} (h : CursorFault cursor e) :
    Fault (.array [cursor, items]) e
  | items {cursor items : Resp} {next : UInt64} (hcursor : ShowsCursor cursor next)
      (h : items.kind ≠ .array) : Fault (.array [cursor, items]) (.unexpected .array items.kind)
  | item {cursor : Resp} {next : UInt64} {before : List Resp} {item : Resp} {after : List Resp}
      (hcursor : ShowsCursor cursor next) (hbefore : ∀ x ∈ before, x.kind = .bulk)
      (h : item.kind ≠ .bulk) :
    Fault (.array [cursor, .array (before ++ item :: after)]) (.unexpected .bulkString item.kind)

lemma ofReply_pair (cursor items : Resp) :
    ofReply (.array [cursor, items]) = do
      let next ← cursorOfReply cursor
      let items ← (← items.requireArray).mapM Resp.requireBulk
      return ⟨next, items⟩ := rfl

lemma ofReply_of_length_ne {parts : List Resp} (h : parts.length ≠ 2) :
    ofReply (.array parts) = .error (.wrongCount 2 parts.length) := by
  match parts with
  | [] | [_] | _ :: _ :: _ :: _ => rfl
  | [_, _] => exact absurd rfl h

lemma mapM_requireBulk_eq_error_iff {items : List Resp} :
    items.mapM Resp.requireBulk = .error e ↔
      ∃ before item after, items = before ++ item :: after ∧ (∀ x ∈ before, x.kind = .bulk) ∧
        item.kind ≠ .bulk ∧ .unexpected .bulkString item.kind = e := by
  simp only [mapM_eq_error_iff, Resp.requireBulk_eq_error_iff, Resp.requireBulk_eq_ok_iff,
    Resp.kind_eq_bulk_iff]

lemma ofReply_pair_eq_error_iff {cursor items : Resp} :
    ofReply (.array [cursor, items]) = .error e ↔ CursorFault cursor e ∨
      ∃ next, ShowsCursor cursor next ∧
        (items.kind ≠ .array ∧ .unexpected .array items.kind = e ∨
          ∃ before item after, items = .array (before ++ item :: after) ∧
            (∀ x ∈ before, x.kind = .bulk) ∧ item.kind ≠ .bulk ∧
            .unexpected .bulkString item.kind = e) := by
  simp only [ofReply_pair, bind_eq_error_iff, cursorOfReply_eq_error_iff,
    cursorOfReply_eq_ok_iff_shows, Resp.requireArray_eq_error_iff, Resp.requireArray_eq_ok_iff,
    mapM_requireBulk_eq_error_iff]
  refine or_congr_right (exists_congr fun next => and_congr_right fun _ => or_congr_right ?_)
  constructor
  · rintro ⟨_, rfl, ⟨before, item, after, rfl, hitem⟩ | ⟨_, _, h⟩⟩
    · exact ⟨before, item, after, rfl, hitem⟩
    · cases h
  · rintro ⟨before, item, after, rfl, hitem⟩
    exact ⟨_, rfl, .inl ⟨before, item, after, rfl, hitem⟩⟩

lemma ofReply_eq_error_iff : ofReply reply = .error e ↔ Fault reply e := by
  constructor
  · intro h
    cases reply with
    | array parts =>
      match parts with
      | [cursor, items] =>
        rcases ofReply_pair_eq_error_iff.1 h with h | ⟨next, hcursor, ⟨hkind, rfl⟩ | h⟩
        · exact .cursor h
        · exact .items hcursor hkind
        · obtain ⟨before, item, after, rfl, hbefore, hitem, rfl⟩ := h
          exact .item hcursor hbefore hitem
      | [] | [_] | _ :: _ :: _ :: _ =>
        rw [ofReply_of_length_ne (by simp)] at h
        cases h
        exact .count (by simp)
    | _ =>
      cases h
      exact .kind nofun
  · intro h
    cases h with
    | kind h => simp [ofReply, bind_eq_error_iff, h]
    | count h => exact ofReply_of_length_ne h
    | cursor h => exact ofReply_pair_eq_error_iff.2 (.inl h)
    | items hcursor h => exact ofReply_pair_eq_error_iff.2 (.inr ⟨_, hcursor, .inl ⟨h, rfl⟩⟩)
    | item hcursor hbefore h =>
      exact ofReply_pair_eq_error_iff.2
        (.inr ⟨_, hcursor, .inr ⟨_, _, _, rfl, hbefore, h, rfl⟩⟩)

/-! ### Written pages -/

lemma showsCursor_cursorBytes (next : UInt64) : ShowsCursor (.bulk (cursorBytes next)) next := by
  refine .text rfl (.plain ?_)
  rw [Numeral.text, String.toList_ofList]
  exact Numeral.denotes_ofNat next.toNat

/-- A cursor that is not too great for a signed word can be sent as an integer. -/
lemma showsCursor_ofNat (h : next.toNat ≤ 2 ^ 63 - 1) :
    ShowsCursor (.integer (Int64.ofNat next.toNat)) next :=
  .integer (Int64.toInt_ofNat_of_lt (by omega))

lemma ofReply_of_showsCursor {cursor : Resp} (h : ShowsCursor cursor next) (items : List Bytes) :
    ofReply (.array [cursor, .array (items.map .bulk)]) = .ok ⟨next, items⟩ :=
  ofReply_eq_ok_iff.2 ⟨cursor, rfl, cursorOfReply_eq_ok_iff_shows.2 h⟩

/-- A page is an array of two values, a cursor and an array of bulk strings, and all else is refused
for its first fault. Written pages are read back, with their cursors as texts or as integers. -/
theorem page_read_by_shape :
    (∀ reply page, ofReply reply = .ok page ↔
      ∃ cursor, reply = .array [cursor, .array (page.items.map .bulk)] ∧
        ShowsCursor cursor page.cursor) ∧
    (∀ reply e, ofReply reply = .error e ↔ Fault reply e) ∧
    ∀ (next : UInt64) (items : List Bytes),
      ofReply (.array [.bulk (cursorBytes next), .array (items.map .bulk)]) = .ok ⟨next, items⟩ ∧
      (next.toNat ≤ 2 ^ 63 - 1 →
        ofReply (.array [.integer (Int64.ofNat next.toNat), .array (items.map .bulk)]) =
          .ok ⟨next, items⟩) := by
  refine ⟨fun reply page => ?_, fun reply e => ofReply_eq_error_iff, fun next items => ⟨?_, ?_⟩⟩
  · simp only [ofReply_eq_ok_iff, cursorOfReply_eq_ok_iff_shows]
  · exact ofReply_of_showsCursor (showsCursor_cursorBytes next) items
  · intro h
    exact ofReply_of_showsCursor (showsCursor_ofNat h) items

/-- Cursors have the whole width of a word and no more, and an item is looked at behind a cursor. -/
theorem page_read_by_shape_edges :
    ofReply (.array [.bulk (Utf8.encode "+018446744073709551615"), .array [.bulk [0x61], .bulk []]]) =
        .ok ⟨18446744073709551615, [[0x61], []]⟩ ∧
      ofReply (.array [.simple "18446744073709551616", .array [.null]]) =
        .error (.invalidInteger "18446744073709551616") ∧
      ofReply (.array [.integer (-1), .null]) = .error (.outOfRange .cursor (-1)) ∧
      ofReply (.array [.integer 9223372036854775807, .array [.bulk [0xFF]]]) =
        .ok ⟨9223372036854775807, [[0xFF]]⟩ := by
  obtain ⟨hpage, hfault, hwritten⟩ := page_read_by_shape
  refine ⟨?_, ?_, ?_, (hwritten 9223372036854775807 [[0xFF]]).2 (by decide)⟩
  · exact (hpage _ _).2 ⟨_, rfl, .text rfl
      (Numeral.unsigned?_eq_some_iff.1 (by decide))⟩
  · refine (hfault _ _).2 (.cursor ?_)
    have hnone : Numeral.uint64? (Utf8.decodeLossy (Utf8.encode "18446744073709551616")) = none := by
      rw [Utf8.decodeLossy_encode]
      decide
    have h := @CursorFault.text (.simple "18446744073709551616") _ rfl fun next hnext => by
      rw [showsCursor_iff_of_bytes? rfl, hnone] at hnext
      cases hnext
    rwa [Utf8.decodeLossy_encode] at h
  · exact (hfault _ _).2 (.cursor (.negative (by decide)))

end RespWire.ScanPage
