import RespWire.Command.Arguments
import RespWire.Proofs.Text.Scan
import RespWire.Resp.Shape

/-!
# Text and its bytes

The strict reader accepts exactly what is written, the lossy one agrees with it there and shows
every other string of bytes by a replacement character. Bytes around written text change nothing of
it.
-/

namespace RespWire.Utf8

variable {bytes : Bytes} {text : String}

/-! ### Written text -/

lemma encode_ofList (cs : List Char) :
    encode (String.ofList cs) = cs.flatMap String.utf8EncodeChar := by
  rw [encode, String.toList_ofList]

@[simp] lemma scan_encode (text : String) : scan (encode text) = text.toList.map some := by
  have h := scan_encode_append text []
  rwa [List.append_nil, show scan [] = [] from rfl, List.append_nil] at h

@[simp] lemma decodeLossy_encode (text : String) : decodeLossy (encode text) = text := by
  simp [decodeLossy, Function.comp_def]

lemma encode_injective : Function.Injective encode := by
  intro s t h
  rw [← decodeLossy_encode s, h, decodeLossy_encode]

lemma encode_eq_nil_iff : encode text = [] ↔ text = "" := encode_injective.eq_iff' rfl

/-- Bytes without a gap are the written form of their text. -/
lemma encode_decodeLossy (h : none ∉ scan bytes) : encode (decodeLossy bytes) = bytes := by
  have hstart : Progress.Reads [] .start := rfl
  rw [decodeLossy, encode_ofList]
  exact (append_eq_of_none_notMem hstart h).symm

lemma none_notMem_scan_iff : none ∉ scan bytes ↔ ∃ text, bytes = encode text := by
  constructor
  · intro h
    exact ⟨decodeLossy bytes, (encode_decodeLossy h).symm⟩
  · rintro ⟨text, rfl⟩
    simp

lemma decode?_eq_none_iff : decode? bytes = none ↔ none ∈ scan bytes := by
  rw [decode?]
  split_ifs with h <;> simp [h]

lemma decode?_eq_some_iff : decode? bytes = some text ↔ bytes = encode text := by
  constructor
  · intro h
    have hs : none ∉ scan bytes := by
      rw [← decode?_eq_none_iff, h]
      exact Option.some_ne_none _
    rw [decode?, if_neg hs, Option.some.injEq] at h
    rw [← h, encode_decodeLossy hs]
  · rintro rfl
    have hs : none ∉ scan (encode text) := none_notMem_scan_iff.2 ⟨text, rfl⟩
    rw [decode?, if_neg hs, decodeLossy_encode]

lemma replacement_mem_decodeLossy (h : none ∈ scan bytes) :
    replacement ∈ (decodeLossy bytes).toList := by
  rw [decodeLossy, String.toList_ofList]
  exact List.mem_map.2 ⟨none, h, rfl⟩

/-- Bytes whose text shows no gap are the written form of that text. -/
lemma eq_encode_of_replacement_notMem (h : replacement ∉ (decodeLossy bytes).toList) :
    bytes = encode (decodeLossy bytes) :=
  (encode_decodeLossy fun hgap => h (replacement_mem_decodeLossy hgap)).symm

lemma decodeLossy_append_encode_append (h : text ≠ "") (before after : Bytes) :
    decodeLossy (before ++ encode text ++ after) =
      decodeLossy before ++ text ++ decodeLossy after := by
  rw [decodeLossy, scan_append_encode_append h]
  apply String.toList_injective
  simp [decodeLossy, Function.comp_def]

/-! ### Ill-formed bytes -/

/-- Bytes that no text is written as, by their defects. -/
inductive IllFormed : Bytes → Prop where
  /-- A first byte of overlong pairs, or of values above U+10FFFF. -/
  | lead (before after : Bytes) {b : UInt8} (h : b = 0xC0 ∨ b = 0xC1 ∨ 0xF5 ≤ b) :
    IllFormed (before ++ b :: after)
  /-- A second byte of other overlong forms, of surrogates, or of values above U+10FFFF. -/
  | second (before after : Bytes) {b x : UInt8}
      (h : b = 0xE0 ∧ x < 0xA0 ∨ b = 0xF0 ∧ x < 0x90 ∨ b = 0xED ∧ 0x9F < x ∨ b = 0xF4 ∧ 0x8F < x) :
    IllFormed (before ++ b :: x :: after)
  /-- A part of a character, with nothing behind it that could belong to it. -/
  | truncated (before after : Bytes) {c : Char} {part rest : Bytes}
      (h : String.utf8EncodeChar c = part ++ rest) (hpart : part ≠ []) (hrest : rest ≠ [])
      (hafter : ∀ b ∈ after.head?, ¬ Continues b) :
    IllFormed (before ++ part ++ after)
  /-- A continuation byte with no character to continue. -/
  | stray (text : String) (after : Bytes) {b : UInt8} (h : Continues b) :
    IllFormed (encode text ++ b :: after)

lemma none_mem_scan_of_second {b x low high : UInt8} {payload owed : Nat} (after : Bytes)
    (hlead : lead b = ([], .partway payload owed low high))
    (hx : ¬ (low.toNat ≤ x.toNat ∧ x.toNat ≤ high.toNat)) : none ∈ scan (b :: x :: after) := by
  rw [scan_cons, hlead, List.nil_append, scanFrom, step_gap hx]
  exact List.mem_cons_self

/-- A part of a written character is not text. -/
lemma none_mem_scan_of_append_eq {c : Char} {part rest : Bytes}
    (h : String.utf8EncodeChar c = part ++ rest) (hpart : part ≠ []) (hrest : rest ≠ []) :
    none ∈ scan part := by
  by_contra hn
  obtain ⟨text, rfl⟩ := none_notMem_scan_iff.1 hn
  have hs := scan_utf8EncodeChar_append c []
  rw [List.append_nil, h, scan_encode_append] at hs
  rcases List.append_eq_singleton_iff.1 hs with ⟨ht, -⟩ | ⟨-, hr⟩
  · exact hpart (by rw [encode, List.map_eq_nil_iff.1 ht]; rfl)
  · have hn : none ∉ scan rest := by simp [hr]
    exact hrest (by rw [← encode_decodeLossy hn, decodeLossy, hr]; rfl)

lemma none_mem_scan_of_illFormed (h : IllFormed bytes) : none ∈ scan bytes := by
  cases h with
  | @lead before after b h =>
    have hb : 0xC0 ≤ b.toNat ∧ (b.toNat < 0xC2 ∨ 0xF5 ≤ b.toNat) := by
      rw [UInt8.le_iff_toNat_le] at h
      rcases h with rfl | rfl | h
      · decide
      · decide
      · exact ⟨Nat.le_trans (by decide) h, .inr h⟩
    rw [scan_append_of_head (by simpa using not_continues_of_le hb.1), scan_cons,
      lead_gap (by omega) hb.2]
    simp
  | @second before after b x h =>
    have hb : 0xC0 ≤ b.toNat := by
      rcases h with ⟨rfl, -⟩ | ⟨rfl, -⟩ | ⟨rfl, -⟩ | ⟨rfl, -⟩ <;> decide
    rw [scan_append_of_head (by simpa using not_continues_of_le hb)]
    apply List.mem_append_right
    simp only [UInt8.lt_iff_toNat_lt, UInt8.reduceToNat] at h
    rcases h with ⟨rfl, hx⟩ | ⟨rfl, hx⟩ | ⟨rfl, hx⟩ | ⟨rfl, hx⟩
    · exact none_mem_scan_of_second after (lead_three (by decide) (by decide)) (by simp; omega)
    · exact none_mem_scan_of_second after (lead_four (by decide) (by decide)) (by simp; omega)
    · exact none_mem_scan_of_second after (lead_three (by decide) (by decide)) (by simp; omega)
    · exact none_mem_scan_of_second after (lead_four (by decide) (by decide)) (by simp; omega)
  | @truncated before after c part rest h hpart hrest hafter =>
    obtain ⟨b, part', rfl⟩ := List.exists_cons_of_ne_nil hpart
    have hb : ¬ Continues b := not_continues_of_utf8EncodeChar h
    rw [scan_append_of_head hafter, scan_append_of_head (by simpa using hb)]
    apply List.mem_append_left
    exact List.mem_append_right _ (none_mem_scan_of_append_eq h hpart hrest)
  | stray text after h =>
    rw [scan_encode_append, scan_cons, lead_gap h.1 (.inl (Nat.lt_of_le_of_lt h.2 (by decide)))]
    simp

/-! ### Readers -/

/-- Written text reads back as it is, and nothing else is read strictly. -/
theorem text_codec_exact :
    (∀ text, decodeLossy (encode text) = text) ∧
    ∀ bytes : Bytes,
      (encode (decodeLossy bytes) = bytes ↔ ∃ text, bytes = encode text) ∧
      (∀ text, (Resp.bulk bytes).text? = some text ↔ bytes = encode text) ∧
      (∀ text, (Resp.bulk bytes).text? = some text →
        decodeLossy bytes = text ∧ (Resp.bulk bytes).requireText = .ok text) ∧
      ((Resp.bulk bytes).text? = none → '\uFFFD' ∈ (decodeLossy bytes).toList) ∧
      (IllFormed bytes → (Resp.bulk bytes).text? = none) ∧
      decodeLossy (encode (decodeLossy bytes)) = decodeLossy bytes := by
  refine ⟨decodeLossy_encode, fun bytes => ⟨?_, fun text => ?_, fun text h => ?_, fun h => ?_,
    fun h => ?_, decodeLossy_encode _⟩⟩
  · constructor
    · intro h
      exact ⟨_, h.symm⟩
    · rintro ⟨text, rfl⟩
      rw [decodeLossy_encode]
  · exact decode?_eq_some_iff
  · obtain rfl := decode?_eq_some_iff.1 h
    rw [Resp.requireText, decodeLossy_encode]
    exact ⟨rfl, rfl⟩
  · exact replacement_mem_decodeLossy (decode?_eq_none_iff.1 h)
  · exact decode?_eq_none_iff.2 (none_mem_scan_of_illFormed h)

/-- The euro sign has three bytes; two of them are no text. -/
theorem text_codec_exact_euro :
    (Resp.bulk [0xE2, 0x82, 0xAC]).text? = some "€" ∧ decodeLossy [0xE2, 0x82, 0xAC] = "€" ∧
      IllFormed [0xE2, 0x82] ∧ (Resp.bulk [0xE2, 0x82]).text? = none ∧
      '\uFFFD' ∈ (decodeLossy [0xE2, 0x82]).toList := by
  obtain ⟨-, hread, hagree, -⟩ := text_codec_exact.2 [0xE2, 0x82, 0xAC]
  obtain ⟨-, -, -, hshow, hrefuse, -⟩ := text_codec_exact.2 [0xE2, 0x82]
  have heuro := (hread "€").2 (by decide)
  have hcut : IllFormed [0xE2, 0x82] :=
    @IllFormed.truncated [] [] '€' [0xE2, 0x82] [0xAC] (by decide) (by decide) (by decide) (by simp)
  exact ⟨heuro, (hagree "€" heuro).1, hcut, hrefuse hcut, hshow (hrefuse hcut)⟩

/-- Text keeps its characters whatever bytes are around it. -/
theorem decodeLossy_surrounded :
    (∀ (before : Bytes) (text : String) (after : Bytes), text ≠ "" →
      decodeLossy (before ++ encode text ++ after) =
        decodeLossy before ++ text ++ decodeLossy after ∧
      (Resp.bulk (before ++ encode text ++ after)).requireText =
        .ok (decodeLossy before ++ text ++ decodeLossy after)) ∧
    ∀ parts : List (Bytes × String × Bytes), (∀ p ∈ parts, p.2.1 ≠ "") →
      Arguments.texts ⟨parts.map fun p => p.1 ++ encode p.2.1 ++ p.2.2⟩ =
        parts.map fun p => decodeLossy p.1 ++ p.2.1 ++ decodeLossy p.2.2 := by
  refine ⟨fun before text after h => ?_, fun parts h => ?_⟩
  · have heq := decodeLossy_append_encode_append h before after
    exact ⟨heq, congrArg _ heq⟩
  · rw [Arguments.texts, List.map_map]
    apply List.map_congr_left
    intro p hp
    exact decodeLossy_append_encode_append (h p hp) p.1 p.2.2

/-- The two bytes in front would go on with the last one, but not across a character. -/
theorem decodeLossy_surrounded_cut :
    decodeLossy ([0xE2, 0x82] ++ encode "é" ++ [0xAC]) =
        decodeLossy [0xE2, 0x82] ++ "é" ++ decodeLossy [0xAC] ∧
      Arguments.texts ⟨[[0xE2, 0x82] ++ encode "é" ++ [0xAC]]⟩ =
        [decodeLossy [0xE2, 0x82] ++ "é" ++ decodeLossy [0xAC]] := by
  refine ⟨(decodeLossy_surrounded.1 [0xE2, 0x82] "é" [0xAC] (by decide)).1, ?_⟩
  exact decodeLossy_surrounded.2 [([0xE2, 0x82], "é", [0xAC])] (by decide)

end RespWire.Utf8
