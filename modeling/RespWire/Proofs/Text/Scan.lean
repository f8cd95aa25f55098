import Mathlib.Tactic.Ring
import RespWire.Text.Utf8

/-!
# Scans of UTF-8

What one byte can do to a scan, and what follows for a whole one: it reads every written character
back, it leaves a gap wherever the bytes are not written text, and it starts afresh at every byte
that can begin a character. The invariant is that each way to go on within the bounds of some
progress spells a character that starts with the bytes read so far.
-/

namespace RespWire.Utf8

/-! ### Written characters -/

/-- The last groups of six bits of a code point, each as a continuation byte. -/
def sextets : Nat → Nat → Bytes
  | 0, _ => []
  | n + 1, v => UInt8.ofNat (v / 64 ^ n % 64 + 0x80) :: sextets n v

lemma toNat_ofNat {v : Nat} (h : v.isValidChar) : (Char.ofNat v).toNat = v := by
  rw [Char.ofNat, dif_pos h]
  rfl

lemma ofNat_eq {n : Nat} {b : UInt8} (h : n = b.toNat) : UInt8.ofNat n = b := by
  rw [h, UInt8.ofNat_toNat]

lemma toNat_lt (c : Char) : c.toNat < 0x110000 := by
  rcases c.valid with h | ⟨-, h⟩
  · exact Nat.lt_trans h (by decide)
  · exact h

lemma utf8EncodeChar_one {c : Char} (h : c.toNat < 0x80) :
    String.utf8EncodeChar c = [UInt8.ofNat c.toNat] := by
  rw [String.utf8EncodeChar]
  exact if_pos (Nat.le_of_lt_succ h)

lemma utf8EncodeChar_two {c : Char} (h : 0x80 ≤ c.toNat) (h' : c.toNat < 0x800) :
    String.utf8EncodeChar c = UInt8.ofNat (c.toNat / 64 ^ 1 + 0xC0) :: sextets 1 c.toNat := by
  have hv : c.val.toNat = c.toNat := rfl
  have hm : c.toNat / 64 ^ 1 % 32 = c.toNat / 64 ^ 1 := by omega
  rw [String.utf8EncodeChar, hv, if_neg (by omega), if_pos (by omega), ← hm]
  simp [sextets]

lemma utf8EncodeChar_three {c : Char} (h : 0x800 ≤ c.toNat) (h' : c.toNat < 0x10000) :
    String.utf8EncodeChar c = UInt8.ofNat (c.toNat / 64 ^ 2 + 0xE0) :: sextets 2 c.toNat := by
  have hv : c.val.toNat = c.toNat := rfl
  have hm : c.toNat / 64 ^ 2 % 16 = c.toNat / 64 ^ 2 := by omega
  rw [String.utf8EncodeChar, hv, if_neg (by omega), if_neg (by omega), if_pos (by omega), ← hm]
  simp [sextets]

lemma utf8EncodeChar_four {c : Char} (h : 0x10000 ≤ c.toNat) :
    String.utf8EncodeChar c = UInt8.ofNat (c.toNat / 64 ^ 3 + 0xF0) :: sextets 3 c.toNat := by
  have hv : c.val.toNat = c.toNat := rfl
  have hm : c.toNat / 64 ^ 3 % 8 = c.toNat / 64 ^ 3 := by
    have := toNat_lt c
    omega
  rw [String.utf8EncodeChar, hv, if_neg (by omega), if_neg (by omega), if_neg (by omega), ← hm]
  simp [sextets]

/-! ### Progress within a character -/

/-- Does a code point go on from the payload, with a next byte within the bounds? -/
def Progress.Admits (v : Nat) : Progress → Prop
  | .start => False
  | .partway payload owed low high =>
    v / 64 ^ (owed + 1) = payload ∧ low.toNat ≤ v / 64 ^ owed % 64 + 0x80 ∧
      v / 64 ^ owed % 64 + 0x80 ≤ high.toNat

/-- The progress to which the bytes since the last character lead. -/
def Progress.Reads (read : Bytes) : Progress → Prop
  | .start => read = []
  | .partway payload owed low high =>
    0x80 ≤ low.toNat ∧ high.toNat ≤ 0xBF ∧
      ∀ v, (Progress.partway payload owed low high).Admits v →
        v.isValidChar ∧ String.utf8EncodeChar (Char.ofNat v) = read ++ sextets (owed + 1) v

lemma reads_two {b : UInt8} (h : 0xC2 ≤ b.toNat) (h' : b.toNat < 0xE0) :
    (Progress.partway (b.toNat % 32) 0 0x80 0xBF).Reads [b] := by
  refine ⟨by decide, by decide, fun v hv => ?_⟩
  simp only [Progress.Admits] at hv
  have hvalid : v.isValidChar := .inl (by omega)
  have hc := toNat_ofNat hvalid
  refine ⟨hvalid, ?_⟩
  rw [utf8EncodeChar_two (by omega) (by omega), hc, ofNat_eq (b := b) (by omega)]
  rfl

/-- A low first bound excludes what two bytes can write; a low last one, the surrogates. -/
lemma reads_three {b low high : UInt8} (h : 0xE0 ≤ b.toNat) (h' : b.toNat < 0xF0)
    (hlow : 0x80 ≤ low.toNat) (hhigh : high.toNat ≤ 0xBF)
    (hfirst : b.toNat = 0xE0 → 0xA0 ≤ low.toNat) (hgap : b.toNat = 0xED → high.toNat ≤ 0x9F) :
    (Progress.partway (b.toNat % 16) 1 low high).Reads [b] := by
  refine ⟨hlow, hhigh, fun v hv => ?_⟩
  simp only [Progress.Admits] at hv
  have hvalid : v.isValidChar := by
    rw [Nat.isValidChar]
    omega
  have hc := toNat_ofNat hvalid
  refine ⟨hvalid, ?_⟩
  rw [utf8EncodeChar_three (by omega) (by omega), hc, ofNat_eq (b := b) (by omega)]
  rfl

lemma reads_four {b low high : UInt8} (h : 0xF0 ≤ b.toNat) (h' : b.toNat < 0xF5)
    (hlow : 0x80 ≤ low.toNat) (hhigh : high.toNat ≤ 0xBF)
    (hfirst : b.toNat = 0xF0 → 0x90 ≤ low.toNat) (hlast : b.toNat = 0xF4 → high.toNat ≤ 0x8F) :
    (Progress.partway (b.toNat % 8) 2 low high).Reads [b] := by
  refine ⟨hlow, hhigh, fun v hv => ?_⟩
  simp only [Progress.Admits] at hv
  have hvalid : v.isValidChar := .inr (by omega)
  have hc := toNat_ofNat hvalid
  refine ⟨hvalid, ?_⟩
  rw [utf8EncodeChar_four (by omega), hc, ofNat_eq (b := b) (by omega)]
  rfl

/-! ### First bytes -/

section Lead

variable {b : UInt8}

lemma lead_one (h : b.toNat < 0x80) : lead b = ([some (Char.ofNat b.toNat)], .start) := by
  simp [lead, UInt8.lt_iff_toNat_lt, h]

lemma lead_two (h : 0xC2 ≤ b.toNat) (h' : b.toNat < 0xE0) :
    lead b = ([], .partway (b.toNat % 32) 0 0x80 0xBF) := by
  simp only [lead, UInt8.lt_iff_toNat_lt, UInt8.reduceToNat]
  rw [if_neg (by omega), if_neg (by omega), if_pos h']

lemma lead_three (h : 0xE0 ≤ b.toNat) (h' : b.toNat < 0xF0) :
    lead b = ([], .partway (b.toNat % 16) 1 (if b.toNat = 0xE0 then 0xA0 else 0x80)
      (if b.toNat = 0xED then 0x9F else 0xBF)) := by
  simp only [lead, UInt8.lt_iff_toNat_lt, ← UInt8.toNat_inj, UInt8.reduceToNat]
  rw [if_neg (by omega), if_neg (by omega), if_neg (by omega), if_pos h']

lemma lead_four (h : 0xF0 ≤ b.toNat) (h' : b.toNat < 0xF5) :
    lead b = ([], .partway (b.toNat % 8) 2 (if b.toNat = 0xF0 then 0x90 else 0x80)
      (if b.toNat = 0xF4 then 0x8F else 0xBF)) := by
  simp only [lead, UInt8.lt_iff_toNat_lt, ← UInt8.toNat_inj, UInt8.reduceToNat]
  rw [if_neg (by omega), if_neg (by omega), if_neg (by omega), if_neg (by omega), if_pos h']

lemma lead_gap (h : 0x80 ≤ b.toNat) (h' : b.toNat < 0xC2 ∨ 0xF5 ≤ b.toNat) :
    lead b = ([none], .start) := by
  simp only [lead, UInt8.lt_iff_toNat_lt, UInt8.reduceToNat]
  split_ifs <;> first | rfl | omega

end Lead

/-- What a first byte does: it is a character, it starts one, or it leaves a gap. -/
lemma lead_cases (b : UInt8) :
    (∃ c, lead b = ([some c], .start) ∧ String.utf8EncodeChar c = [b]) ∨
    (∃ q, lead b = ([], q) ∧ q.Reads [b]) ∨ lead b = ([none], .start) := by
  by_cases h1 : b.toNat < 0x80
  · have hc := toNat_ofNat (v := b.toNat) (.inl (by omega))
    refine .inl ⟨_, lead_one h1, ?_⟩
    rw [utf8EncodeChar_one (by omega), hc, UInt8.ofNat_toNat]
  by_cases h2 : b.toNat < 0xC2 ∨ 0xF5 ≤ b.toNat
  · exact .inr (.inr (lead_gap (by omega) h2))
  by_cases h3 : b.toNat < 0xE0
  · exact .inr (.inl ⟨_, lead_two (by omega) h3, reads_two (by omega) h3⟩)
  by_cases h4 : b.toNat < 0xF0
  · refine .inr (.inl ⟨_, lead_three (by omega) h4, reads_three (by omega) h4 ?_ ?_ ?_ ?_⟩) <;>
      split_ifs <;> simp_all
  · refine .inr (.inl ⟨_, lead_four (by omega) (by omega), reads_four (by omega) ?_ ?_ ?_ ?_ ?_⟩) <;>
      first | omega | split_ifs <;> simp_all

/-! ### Steps -/

section Step

variable {payload owed : Nat} {low high b : UInt8}

lemma step_last (h : low.toNat ≤ b.toNat) (h' : b.toNat ≤ high.toNat) :
    step (.partway payload 0 low high) b =
      ([some (Char.ofNat (payload * 64 + b.toNat % 64))], .start) := by
  simp [step, UInt8.le_iff_toNat_le, h, h']

lemma step_inner (h : low.toNat ≤ b.toNat) (h' : b.toNat ≤ high.toNat) :
    step (.partway payload (owed + 1) low high) b =
      ([], .partway (payload * 64 + b.toNat % 64) owed 0x80 0xBF) := by
  simp [step, UInt8.le_iff_toNat_le, h, h']

lemma step_gap (h : ¬ (low.toNat ≤ b.toNat ∧ b.toNat ≤ high.toNat)) :
    step (.partway payload owed low high) b = (none :: (lead b).1, (lead b).2) := by
  rw [← UInt8.le_iff_toNat_le, ← UInt8.le_iff_toNat_le] at h
  simp only [step, if_neg h]

end Step

lemma exists_reads_lead (b : UInt8) : ∃ read, (lead b).2.Reads read := by
  rcases lead_cases b with ⟨c, hc, -⟩ | ⟨q, hq, hr⟩ | hn
  · exact ⟨[], by rw [hc]; rfl⟩
  · exact ⟨[b], by rwa [hq]⟩
  · exact ⟨[], by rw [hn]; rfl⟩

/-- What any byte does: it completes a character, goes on with one, or leaves a gap. -/
lemma step_cases {p : Progress} {read : Bytes} (h : p.Reads read) (b : UInt8) :
    (∃ c, step p b = ([some c], .start) ∧ String.utf8EncodeChar c = read ++ [b]) ∨
    (∃ q, step p b = ([], q) ∧ q.Reads (read ++ [b])) ∨
    (none ∈ (step p b).1 ∧ ∃ read', (step p b).2.Reads read') := by
  cases p with
  | start =>
    obtain rfl : read = [] := h
    rcases lead_cases b with hc | hq | hn
    · exact .inl hc
    · exact .inr (.inl hq)
    · exact .inr (.inr ⟨by simp [step, hn], exists_reads_lead b⟩)
  | partway payload owed low high =>
    obtain ⟨hlow, hhigh, hread⟩ := h
    by_cases hb : low.toNat ≤ b.toNat ∧ b.toNat ≤ high.toNat
    · cases owed with
      | zero =>
        have hv : (Progress.partway payload 0 low high).Admits (payload * 64 + b.toNat % 64) := by
          simp only [Progress.Admits]
          omega
        refine .inl ⟨_, step_last hb.1 hb.2, ?_⟩
        rw [(hread _ hv).2, sextets, sextets, ofNat_eq (b := b) (by omega)]
      | succ owed =>
        refine .inr (.inl ⟨_, step_inner hb.1 hb.2, by decide, by decide, fun v hv => ?_⟩)
        obtain ⟨hpayload, -⟩ := hv
        have hdiv : v / 64 ^ (owed + 1 + 1) = payload := by
          rw [Nat.pow_succ, ← Nat.div_div_eq_div_mul, hpayload]
          omega
        have hv : (Progress.partway payload (owed + 1) low high).Admits v :=
          ⟨hdiv, by omega, by omega⟩
        refine ⟨(hread v hv).1, ?_⟩
        rw [(hread v hv).2, sextets, ofNat_eq (b := b) (by omega), List.append_assoc]
        rfl
    · rw [step_gap hb]
      exact .inr (.inr ⟨List.mem_cons_self, exists_reads_lead b⟩)

lemma exists_reads_step {p : Progress} {read : Bytes} (h : p.Reads read) (b : UInt8) :
    ∃ read', (step p b).2.Reads read' := by
  rcases step_cases h b with ⟨c, hc, -⟩ | ⟨q, hq, hr⟩ | ⟨-, hr⟩
  · exact ⟨[], by rw [hc]; rfl⟩
  · exact ⟨_, by rwa [hq]⟩
  · exact hr

/-! ### Scans of written text -/

lemma scan_cons (b : UInt8) (bytes : Bytes) :
    scan (b :: bytes) = (lead b).1 ++ scanFrom (lead b).2 bytes := rfl

/-- A scan that owes the sextets of a code point reads it off them. -/
lemma scanFrom_sextets {v payload owed : Nat} {low high : UInt8}
    (h : (Progress.partway payload owed low high).Admits v) (rest : Bytes) :
    scanFrom (.partway payload owed low high) (sextets (owed + 1) v ++ rest) =
      some (Char.ofNat v) :: scan rest := by
  induction owed generalizing payload low high with
  | zero =>
    obtain ⟨hpayload, hlow, hhigh⟩ := h
    have hb : (UInt8.ofNat (v / 64 ^ 0 % 64 + 0x80)).toNat = v / 64 ^ 0 % 64 + 0x80 := by
      simp; omega
    have hv : payload * 64 + (v / 64 ^ 0 % 64 + 0x80) % 64 = v := by omega
    rw [sextets, List.cons_append, scanFrom, step_last (by omega) (by omega), hb, hv]
    rfl
  | succ owed ih =>
    obtain ⟨hpayload, hlow, hhigh⟩ := h
    have hb : (UInt8.ofNat (v / 64 ^ (owed + 1) % 64 + 0x80)).toNat =
        v / 64 ^ (owed + 1) % 64 + 0x80 := by
      simp; omega
    have hv : v / 64 ^ (owed + 1) = payload * 64 + (v / 64 ^ (owed + 1) % 64 + 0x80) % 64 := by
      rw [Nat.pow_succ, ← Nat.div_div_eq_div_mul] at hpayload
      omega
    rw [sextets, List.cons_append, scanFrom, step_inner (by omega) (by omega), hb]
    apply ih
    refine ⟨hv, ?_, ?_⟩ <;> simp only [UInt8.reduceToNat] <;> omega

/-- The first byte of a character that has more puts the others within its bounds. -/
lemma exists_lead_utf8EncodeChar {c : Char} (h : 0x80 ≤ c.toNat) :
    ∃ b payload owed low high, String.utf8EncodeChar c = b :: sextets (owed + 1) c.toNat ∧
      lead b = ([], .partway payload owed low high) ∧
      (Progress.partway payload owed low high).Admits c.toNat := by
  have hlt := toNat_lt c
  by_cases h2 : c.toNat < 0x800
  · have hb : (UInt8.ofNat (c.toNat / 64 ^ 1 + 0xC0)).toNat = c.toNat / 64 ^ 1 + 0xC0 := by
      simp; omega
    refine ⟨_, _, _, _, _, utf8EncodeChar_two h h2, lead_two (by omega) (by omega), ?_⟩
    simp only [Progress.Admits, UInt8.reduceToNat, hb]
    omega
  by_cases h3 : c.toNat < 0x10000
  · have hb : (UInt8.ofNat (c.toNat / 64 ^ 2 + 0xE0)).toNat = c.toNat / 64 ^ 2 + 0xE0 := by
      simp; omega
    have hvalid : c.toNat < 0xD800 ∨ 0xDFFF < c.toNat := by
      rcases c.valid with h | h
      · exact .inl h
      · exact .inr h.1
    refine ⟨_, _, _, _, _, utf8EncodeChar_three (by omega) h3, lead_three (by omega) (by omega), ?_⟩
    simp only [Progress.Admits, hb]
    split_ifs <;> simp only [UInt8.reduceToNat] <;> omega
  · have hb : (UInt8.ofNat (c.toNat / 64 ^ 3 + 0xF0)).toNat = c.toNat / 64 ^ 3 + 0xF0 := by
      simp; omega
    refine ⟨_, _, _, _, _, utf8EncodeChar_four (by omega), lead_four (by omega) (by omega), ?_⟩
    simp only [Progress.Admits, hb]
    split_ifs <;> simp only [UInt8.reduceToNat] <;> omega

/-- A written character is read back, whatever follows it. -/
theorem scan_utf8EncodeChar_append (c : Char) (rest : Bytes) :
    scan (String.utf8EncodeChar c ++ rest) = some c :: scan rest := by
  by_cases h : c.toNat < 0x80
  · have hb : (UInt8.ofNat c.toNat).toNat = c.toNat := by
      simp; omega
    rw [utf8EncodeChar_one h, List.cons_append, scan_cons, lead_one (by omega), hb,
      Char.ofNat_toNat]
    rfl
  · obtain ⟨b, payload, owed, low, high, hc, hb, hv⟩ := exists_lead_utf8EncodeChar (c := c) (by omega)
    rw [hc, List.cons_append, scan_cons, hb, List.nil_append, scanFrom_sextets hv,
      Char.ofNat_toNat]

/-- Written text is read back, whatever follows it. -/
theorem scan_encode_append (text : String) (rest : Bytes) :
    scan (encode text ++ rest) = text.toList.map some ++ scan rest := by
  rw [encode]
  induction text.toList with
  | nil => rfl
  | cons c cs ih =>
    rw [List.flatMap_cons, List.append_assoc, scan_utf8EncodeChar_append, ih]
    rfl

/-- Bytes that are scanned without a gap are the written form of what is read. -/
lemma append_eq_of_none_notMem {p : Progress} {read bytes : Bytes} (h : p.Reads read)
    (hs : none ∉ scanFrom p bytes) :
    read ++ bytes =
      ((scanFrom p bytes).map (·.getD replacement)).flatMap String.utf8EncodeChar := by
  induction bytes generalizing p read with
  | nil =>
    cases p with
    | start =>
      obtain rfl : read = [] := h
      rfl
    | partway => exact absurd List.mem_cons_self hs
  | cons b bytes ih =>
    rw [scanFrom, List.mem_append, not_or] at hs
    rw [scanFrom]
    rcases step_cases h b with ⟨c, hc, hread⟩ | ⟨q, hq, hr⟩ | ⟨hn, -⟩
    · rw [hc] at hs ⊢
      have hstart : Progress.Reads [] .start := rfl
      have hrest := ih hstart hs.2
      simp only [List.cons_append, List.nil_append, List.map_cons, List.flatMap_cons,
        Option.getD_some, hread, ← hrest]
      rw [List.append_assoc]
      rfl
    · rw [hq] at hs ⊢
      rw [List.nil_append, ← ih hr hs.2, List.append_assoc]
      rfl
    · exact absurd hn hs.1

/-! ### Scans of text among other bytes -/

/-- Can a byte stand within a character? -/
def Continues (b : UInt8) : Prop := 0x80 ≤ b.toNat ∧ b.toNat ≤ 0xBF

/-- A byte that cannot stand within a character ends what is partly read. -/
lemma scanFrom_cons_of_not_continues {p : Progress} {read : Bytes} {b : UInt8} (h : p.Reads read)
    (hb : ¬ Continues b) (bytes : Bytes) :
    scanFrom p (b :: bytes) = p.flush ++ scan (b :: bytes) := by
  cases p with
  | start => rfl
  | partway payload owed low high =>
    obtain ⟨hlow, hhigh, -⟩ := h
    rw [Continues] at hb
    rw [scanFrom, step_gap (by omega)]
    rfl

/-- A scan starts afresh at a byte that cannot stand within a character. -/
lemma scanFrom_append_of_not_continues {p : Progress} {read : Bytes} {b : UInt8} (h : p.Reads read)
    (hb : ¬ Continues b) (before bytes : Bytes) :
    scanFrom p (before ++ b :: bytes) = scanFrom p before ++ scan (b :: bytes) := by
  induction before generalizing p read with
  | nil => exact scanFrom_cons_of_not_continues h hb bytes
  | cons x before ih =>
    obtain ⟨read', h'⟩ := exists_reads_step h x
    rw [List.cons_append, scanFrom, ih h', scanFrom, List.append_assoc]

lemma not_continues_of_le {b : UInt8} (h : 0xC0 ≤ b.toNat) : ¬ Continues b := by
  rintro ⟨-, h'⟩
  omega

/-- A scan starts afresh at bytes that cannot go on with a character. -/
lemma scan_append_of_head {after : Bytes} (h : ∀ b ∈ after.head?, ¬ Continues b) (before : Bytes) :
    scan (before ++ after) = scan before ++ scan after := by
  cases after with
  | nil =>
    rw [List.append_nil, show scan [] = [] from rfl, List.append_nil]
  | cons b after =>
    have hstart : Progress.Reads [] .start := rfl
    exact scanFrom_append_of_not_continues hstart (h b rfl) before after

/-- The first byte of a written character goes on with no other. -/
lemma not_continues_of_utf8EncodeChar {c : Char} {b : UInt8} {rest : Bytes}
    (h : String.utf8EncodeChar c = b :: rest) : ¬ Continues b := by
  rintro ⟨hb, hb'⟩
  have hs := scan_utf8EncodeChar_append c []
  rw [List.append_nil, h, scan_cons, lead_gap hb (.inl (by omega))] at hs
  cases hs

/-- Text is scanned apart from what is around it. -/
lemma scan_append_encode_append {text : String} (h : text ≠ "") (before after : Bytes) :
    scan (before ++ encode text ++ after) =
      scan before ++ (text.toList.map some ++ scan after) := by
  obtain ⟨c, cs, hcs⟩ := List.exists_cons_of_ne_nil (mt String.toList_eq_nil_iff.1 h)
  obtain ⟨b, rest, hb⟩ := List.exists_cons_of_ne_nil (String.utf8EncodeChar_ne_nil (c := c))
  rw [List.append_assoc, scan_append_of_head, scan_encode_append]
  rw [encode, hcs, List.flatMap_cons, hb]
  simpa using not_continues_of_utf8EncodeChar hb

end RespWire.Utf8
