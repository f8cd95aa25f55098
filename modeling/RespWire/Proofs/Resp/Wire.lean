import RespWire.Proofs.Number.Numeral
import RespWire.Proofs.Text.Codec
import RespWire.Resp.Wire

/-!
# Reading the wire

Values that follow each other can be told apart: no written form is the start of another one, as
long as no line has a line end within. Requests are made of bulk strings alone, so what they are
about may be any bytes.
-/

namespace RespWire.Resp

/-! ### Appending -/

mutual
lemma appendTo_eq (out : Bytes) (v : Resp) : appendTo out v = out ++ encode v := by
  match v with
  | .simple text | .error text | .integer value | .null => simp [encode, appendTo]
  | .bulk data => simp [encode, appendTo]
  | .array items =>
    rw [encode, appendTo, appendTo, appendAll_eq _ items, appendAll_eq ([] ++ _) items]
    simp

lemma appendAll_eq (out : Bytes) (vs : List Resp) : appendAll out vs = out ++ appendAll [] vs := by
  match vs with
  | [] => simp [appendAll]
  | v :: vs =>
    rw [appendAll, appendAll, appendAll_eq _ vs, appendAll_eq (appendTo [] v) vs, appendTo_eq out v]
    simp [encode]
end

@[simp] lemma appendAll_cons (v : Resp) (vs : List Resp) :
    appendAll [] (v :: vs) = encode v ++ appendAll [] vs := by
  rw [appendAll, appendAll_eq]
  rfl

/-! ### Lines -/

/-- Has a text no line end within? -/
def UnbrokenText (text : String) : Prop := ¬ ['\r', '\n'] <:+: text.toList

instance (text : String) : Decidable (UnbrokenText text) :=
  inferInstanceAs (Decidable (¬ ['\r', '\n'] <:+: text.toList))

mutual
/-- Do the texts of a value, at any depth, have no line end within? -/
def Unbroken : Resp → Prop
  | .simple text | .error text => UnbrokenText text
  | .integer _ | .bulk _ | .null => True
  | .array items => UnbrokenAll items

/-- Do the texts of some values have no line end within? -/
def UnbrokenAll : List Resp → Prop
  | [] => True
  | v :: vs => v.Unbroken ∧ UnbrokenAll vs
end

/-- The text of the first line of a value. -/
def heading : Resp → String
  | .simple text | .error text => text
  | .integer value => Numeral.text value.toInt
  | .bulk data => Numeral.text data.length
  | .null => Numeral.text (-1)
  | .array items => Numeral.text items.length

/-- What follows the first line of a value. -/
def content : Resp → Bytes
  | .bulk data => data ++ crlf
  | .array items => appendAll [] items
  | _ => []

lemma encode_eq (v : Resp) : encode v = line v.kind (Utf8.encode v.heading) ++ v.content := by
  cases v with
  | array items =>
    rw [encode, appendTo, appendAll_eq]
    rfl
  | _ => simp [encode, appendTo, kind, heading, content, Encoding.integer, Encoding.natural]

lemma unbrokenText_numeral (n : Int) : UnbrokenText (Numeral.text n) := by
  intro h
  have hr : '\r' ∈ Numeral.ofInt n := by
    rw [Numeral.text, String.toList_ofList] at h
    exact h.subset (by simp)
  rcases Numeral.mem_ofInt hr with h | h <;> cases h

lemma unbrokenText_heading {v : Resp} (h : v.Unbroken) : UnbrokenText v.heading := by
  cases v with
  | simple text | error text => rwa [Unbroken] at h
  | integer | bulk | null | array => exact unbrokenText_numeral _

/-- A line end among the bytes of a text is one of the text. -/
lemma not_crlf_infix_encode {text : String} (h : UnbrokenText text) :
    ¬ crlf <:+: Utf8.encode text := by
  rintro ⟨before, after, heq⟩
  have hr : ∀ b ∈ (crlf ++ after).head?, ¬ Utf8.Continues b := by
    simp [crlf, Utf8.Continues]
  have hs := Utf8.scan_encode text
  rw [← heq, List.append_assoc, Utf8.scan_append_of_head hr] at hs
  obtain ⟨as, bs, htext, -, hbs⟩ := List.map_eq_append_iff.1 hs.symm
  have hcrlf : Utf8.scan (crlf ++ after) = some '\r' :: some '\n' :: Utf8.scan after := rfl
  rw [hcrlf] at hbs
  obtain ⟨c, bs, rfl, hc, hbs⟩ := List.map_eq_cons_iff.1 hbs
  obtain ⟨d, bs, rfl, hd, -⟩ := List.map_eq_cons_iff.1 hbs
  cases hc
  cases hd
  exact h ⟨as, bs, by rw [htext]; simp⟩

/-- The first line end is where a line ends. -/
lemma not_append_crlf_eq {a r s t : Bytes} (ht : t ≠ []) (h : ¬ crlf <:+: a ++ t) :
    crlf ++ r ≠ t ++ (crlf ++ s) := by
  intro heq
  match t with
  | [] => exact ht rfl
  | [x] => cases heq
  | x :: y :: t =>
    obtain ⟨rfl, rfl, -⟩ : 0x0D = x ∧ 0x0A = y ∧ r = t ++ (crlf ++ s) := by simpa [crlf] using heq
    exact h ⟨a, t, by simp [crlf]⟩

lemma append_crlf_inj {a b r s : Bytes} (ha : ¬ crlf <:+: a) (hb : ¬ crlf <:+: b)
    (h : a ++ (crlf ++ r) = b ++ (crlf ++ s)) : a = b ∧ r = s := by
  rcases List.append_eq_append_iff.1 h with ⟨t, rfl, heq⟩ | ⟨t, rfl, heq⟩
  · by_cases ht : t = []
    · subst ht
      simpa using heq
    · exact absurd heq (not_append_crlf_eq ht hb)
  · by_cases ht : t = []
    · subst ht
      simpa [eq_comm] using heq
    · exact absurd heq (not_append_crlf_eq ht ha)

lemma line_append_inj {k l : Kind} {s t : String} {a b : Bytes} (hs : UnbrokenText s)
    (ht : UnbrokenText t)
    (h : line k (Utf8.encode s) ++ a = line l (Utf8.encode t) ++ b) :
    k.mark = l.mark ∧ s = t ∧ a = b := by
  simp only [line, List.cons_append, List.append_assoc, List.cons.injEq] at h
  obtain ⟨hmark, hrest⟩ := h
  obtain ⟨hst, hab⟩ :=
    append_crlf_inj (not_crlf_infix_encode hs) (not_crlf_infix_encode ht) hrest
  exact ⟨hmark, Utf8.encode_injective hst, hab⟩

/-! ### Values -/

mutual
/-- No written form starts another one. -/
theorem encode_append_inj (v w : Resp) {r s : Bytes} (hv : v.Unbroken) (hw : w.Unbroken)
    (h : encode v ++ r = encode w ++ s) : v = w ∧ r = s := by
  rw [encode_eq, encode_eq, List.append_assoc, List.append_assoc] at h
  obtain ⟨hmark, hhead, hcontent⟩ :=
    line_append_inj (unbrokenText_heading hv) (unbrokenText_heading hw) h
  -- all other pairs of kinds differ in their marks
  match v, w with
  | .simple _, .simple _ | .error _, .error _ =>
    obtain rfl := hhead
    exact ⟨rfl, hcontent⟩
  | .integer m, .integer n =>
    obtain rfl := Int64.toInt_inj.1 (Numeral.text_injective hhead)
    exact ⟨rfl, hcontent⟩
  | .bulk a, .bulk b =>
    have hlen : a.length = b.length := Int.ofNat_inj.1 (Numeral.text_injective hhead)
    simp only [content, List.append_assoc] at hcontent
    obtain ⟨rfl, hrest⟩ := List.append_inj hcontent hlen
    exact ⟨rfl, List.append_cancel_left hrest⟩
  | .null, .null => exact ⟨rfl, hcontent⟩
  | .array vs, .array ws =>
    have hlen : vs.length = ws.length := Int.ofNat_inj.1 (Numeral.text_injective hhead)
    obtain ⟨rfl, hrest⟩ := appendAll_append_inj vs ws hv hw hlen hcontent
    exact ⟨rfl, hrest⟩
  | .bulk a, .null =>
    have := Numeral.text_injective hhead
    omega
  | .null, .bulk b =>
    have := Numeral.text_injective hhead
    omega

theorem appendAll_append_inj (vs ws : List Resp) {r s : Bytes} (hvs : UnbrokenAll vs)
    (hws : UnbrokenAll ws) (hlen : vs.length = ws.length)
    (h : appendAll [] vs ++ r = appendAll [] ws ++ s) : vs = ws ∧ r = s := by
  match vs, ws with
  | [], [] => exact ⟨rfl, h⟩
  | v :: vs, w :: ws =>
    simp only [appendAll_cons, List.append_assoc] at h
    obtain ⟨rfl, hrest⟩ := encode_append_inj v w hvs.1 hws.1 h
    obtain ⟨rfl, hrs⟩ := appendAll_append_inj vs ws hvs.2 hws.2 (Nat.succ.inj hlen) hrest
    exact ⟨rfl, hrs⟩
end

lemma encode_ne_nil (v : Resp) : encode v ≠ [] := by
  rw [encode_eq, line]
  exact List.cons_ne_nil _ _

theorem appendAll_inj {vs ws : List Resp} (hvs : UnbrokenAll vs) (hws : UnbrokenAll ws)
    (h : appendAll [] vs = appendAll [] ws) : vs = ws := by
  induction vs generalizing ws with
  | nil =>
    cases ws with
    | nil => rfl
    | cons w ws =>
      rw [appendAll_cons] at h
      exact absurd (List.append_eq_nil_iff.1 h.symm).1 (encode_ne_nil w)
  | cons v vs ih =>
    cases ws with
    | nil =>
      rw [appendAll_cons] at h
      exact absurd (List.append_eq_nil_iff.1 h).1 (encode_ne_nil v)
    | cons w ws =>
      rw [appendAll_cons, appendAll_cons] at h
      obtain ⟨rfl, hrest⟩ := encode_append_inj v w hvs.1 hws.1 h
      rw [ih hvs.2 hws.2 hrest]

end RespWire.Resp

namespace RespWire

open Resp

/-- What a request is made of. -/
structure Request where
  command : String
  leading : List Bytes
  args : Arguments

namespace Request

/-- The name of the command and all arguments in the order in which they are sent. -/
def flat (r : Request) : List Bytes := Utf8.encode r.command :: r.leading ++ r.args.items

/-- The value that is sent. -/
def frame (r : Request) : Resp := r.args.frame r.command r.leading

lemma frame_eq (r : Request) : r.frame = .array (r.flat.map .bulk) := rfl

lemma map_frame_eq_iff (qs rs : List Request) :
    qs.map frame = rs.map frame ↔ qs.map flat = rs.map flat := by
  have hframe : frame = (fun items => .array (items.map .bulk)) ∘ flat := funext frame_eq
  rw [hframe, ← List.map_map, ← List.map_map]
  apply List.map_inj_right
  intro a b h
  exact (List.map_inj_right fun _ _ => Resp.bulk.inj).1 (Resp.array.inj h)

lemma unbrokenAll_bulk (items : List Bytes) : UnbrokenAll (items.map .bulk) := by
  induction items with
  | nil => trivial
  | cons data items ih => exact ⟨trivial, ih⟩

lemma unbrokenAll_frames (rs : List Request) : UnbrokenAll (rs.map frame) := by
  induction rs with
  | nil => trivial
  | cons r rs ih => exact ⟨unbrokenAll_bulk r.flat, ih⟩

end Request

/-- The bytes of a pipeline tell its values, and those of requests their arguments. -/
theorem pipeline_inj :
    (∀ vs ws : List Resp, UnbrokenAll vs → UnbrokenAll ws →
      appendAll [] vs = appendAll [] ws → vs = ws) ∧
    ∀ qs rs : List Request,
      appendAll [] (qs.map Request.frame) = appendAll [] (rs.map Request.frame) ↔
        qs.map Request.flat = rs.map Request.flat := by
  refine ⟨fun vs ws hvs hws h => appendAll_inj hvs hws h, fun qs rs => ?_⟩
  rw [← Request.map_frame_eq_iff]
  constructor
  · exact appendAll_inj (Request.unbrokenAll_frames qs) (Request.unbrokenAll_frames rs)
  · intro h
    rw [h]

/-- A return that ends a line and a line end among the bytes of a bulk string do no harm. -/
theorem pipeline_inj_line_ends :
    UnbrokenAll [.simple "a\r", .bulk [0x0D, 0x0A]] ∧
      appendAll [] [.simple "a\r", .bulk [0x0D, 0x0A]] =
        [0x2B, 0x61, 0x0D, 0x0D, 0x0A] ++ [0x24, 0x32, 0x0D, 0x0A, 0x0D, 0x0A, 0x0D, 0x0A] ∧
      [Resp.simple "a\r", .bulk [0x0D, 0x0A]] = [.simple "a\r", .bulk [0x0D, 0x0A]] := by
  have hclean : UnbrokenAll [.simple "a\r", .bulk [0x0D, 0x0A]] :=
    ⟨by rw [Unbroken]; decide, trivial, trivial⟩
  exact ⟨hclean, by decide, pipeline_inj.1 _ _ hclean hclean rfl⟩

end RespWire
