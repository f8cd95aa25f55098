import Mathlib.Data.List.Forall2
import RespWire.Proofs.Number.Signed
import RespWire.Proofs.Resp.Wire

/-!
# The grammar of the wire

What the written form of a value is, as a grammar that says nothing of how it is written. The encoder
carries the bytes before a value along with it through all that the value is made of. It leaves them
as they are and puts behind them the one form that the grammar has for the value.
-/

namespace RespWire.Resp

variable {v w : Resp} {vs : List Resp} {data out before : Bytes}

/-! ### Numbers -/

/-- The digits of a number without superfluous zeros. -/
def IsCount (data : Bytes) (n : Nat) : Prop :=
  ∃ digits, Numeral.IsCanonical digits ∧ Numeral.Denotes digits n ∧
    data = Utf8.encode (String.ofList digits)

/-- The digits of an integer without superfluous zeros, and a minus sign if it is negative. -/
def IsInteger (data : Bytes) (n : Int) : Prop :=
  ∃ numeral, Numeral.IsCanonicalSigned numeral ∧ Numeral.SpellsSigned numeral n ∧
    data = Utf8.encode (String.ofList numeral)

lemma isCount_iff {n : Nat} : IsCount data n ↔ data = Encoding.natural n := by
  constructor
  · rintro ⟨digits, hcanonical, hdenotes, rfl⟩
    rw [Encoding.natural, Numeral.text_natCast, hdenotes.ofNat_eq hcanonical]
  · rintro rfl
    exact ⟨_, Numeral.isCanonical_ofNat n, Numeral.denotes_ofNat n, rfl⟩

lemma isInteger_iff {n : Int} : IsInteger data n ↔ data = Encoding.integer n := by
  constructor
  · rintro ⟨numeral, hcanonical, hspells, rfl⟩
    rw [Encoding.integer, Numeral.text, Numeral.eq_ofInt_of_spellsSigned hcanonical hspells]
  · rintro rfl
    exact ⟨_, Numeral.isCanonicalSigned_ofInt n, Numeral.spellsSigned_ofInt n, rfl⟩

/-! ### Values -/

/-- The written forms of values. A bulk string has the number of its bytes in front, and an array the
number of its elements; the elements follow, each in a written form of its own. -/
inductive Written : Resp → Bytes → Prop where
  | simple (text : String) : Written (.simple text) (0x2B :: Utf8.encode text ++ crlf)
  | error (text : String) : Written (.error text) (0x2D :: Utf8.encode text ++ crlf)
  | integer {value : Int64} {number : Bytes} (h : IsInteger number value.toInt) :
    Written (.integer value) (0x3A :: number ++ crlf)
  | bulk {data count : Bytes} (h : IsCount count data.length) :
    Written (.bulk data) (0x24 :: count ++ crlf ++ data ++ crlf)
  | null : Written .null (0x24 :: 0x2D :: 0x31 :: crlf)
  | array {items : List Resp} {count : Bytes} {parts : List Bytes}
      (h : IsCount count items.length) (hparts : List.Forall₂ Written items parts) :
    Written (.array items) (0x2A :: count ++ crlf ++ parts.flatten)

/-- The values that stand in a value, itself and those at any depth. -/
inductive Occurs : Resp → Resp → Prop where
  | self (v : Resp) : Occurs v v
  | item {w v : Resp} {items : List Resp} (hv : v ∈ items) (h : Occurs w v) :
    Occurs w (.array items)

lemma appendAll_nil_eq (vs : List Resp) : appendAll [] vs = (vs.map encode).flatten := by
  induction vs with
  | nil => rfl
  | cons v vs ih => rw [appendAll_cons, ih, List.map_cons, List.flatten_cons]

lemma encode_array (items : List Resp) : encode (.array items) =
    0x2A :: Encoding.natural items.length ++ crlf ++ (items.map encode).flatten := by
  rw [encode, appendTo, appendAll_eq, appendAll_nil_eq]
  rfl

lemma encode_bulk (data : Bytes) : encode (.bulk data) =
    0x24 :: Encoding.natural data.length ++ crlf ++ data ++ crlf := by
  rw [encode, appendTo]
  rfl

lemma encode_integer (value : Int64) :
    encode (.integer value) = 0x3A :: Encoding.integer value.toInt ++ crlf := by
  rw [encode, appendTo]
  rfl

lemma encode_simple (text : String) :
    encode (.simple text) = 0x2B :: Utf8.encode text ++ crlf := by
  rw [encode, appendTo]
  rfl

lemma encode_error (text : String) :
    encode (.error text) = 0x2D :: Utf8.encode text ++ crlf := by
  rw [encode, appendTo]
  rfl

lemma encode_null : encode .null = 0x24 :: 0x2D :: 0x31 :: crlf := by
  decide

mutual
lemma written_encode (v : Resp) : Written v (encode v) := by
  match v with
  | .simple text => exact encode_simple text ▸ .simple text
  | .error text => exact encode_error text ▸ .error text
  | .integer value => exact encode_integer value ▸ .integer (isInteger_iff.2 rfl)
  | .bulk data => exact encode_bulk data ▸ .bulk (isCount_iff.2 rfl)
  | .null => exact encode_null ▸ .null
  | .array items =>
    exact encode_array items ▸ .array (isCount_iff.2 rfl) (forall₂_written_encode items)

lemma forall₂_written_encode (vs : List Resp) : List.Forall₂ Written vs (vs.map encode) := by
  match vs with
  | [] => exact .nil
  | v :: vs => exact .cons (written_encode v) (forall₂_written_encode vs)
end

mutual
lemma Written.eq_encode {v : Resp} {data : Bytes} (h : Written v data) : data = encode v := by
  match h with
  | .simple text => rw [encode_simple]
  | .error text => rw [encode_error]
  | .integer h => rw [encode_integer, isInteger_iff.1 h]
  | .bulk h => rw [encode_bulk, isCount_iff.1 h]
  | .null => rw [encode_null]
  | .array h hparts => rw [encode_array, isCount_iff.1 h, eq_map_encode hparts]

lemma eq_map_encode {vs : List Resp} {parts : List Bytes} (h : List.Forall₂ Written vs parts) :
    parts = vs.map encode := by
  match h with
  | .nil => rfl
  | .cons hpart hparts => rw [hpart.eq_encode, eq_map_encode hparts, List.map_cons]
end

/-- The grammar has one written form for each value, and that is what the encoder writes. -/
lemma written_iff : Written v data ↔ data = encode v := by
  constructor
  · exact Written.eq_encode
  · rintro rfl
    exact written_encode v

/-- What is written for a value at any depth stands in one piece in what is written for all. -/
lemma encode_infix_of_occurs (h : Occurs w v) : encode w <:+: encode v := by
  induction h with
  | self => exact List.infix_rfl
  | @item v items hv _ ih =>
    have hpart : encode v ∈ items.map encode := List.mem_map_of_mem hv
    rw [encode_array]
    exact ih.trans ((List.infix_of_mem_flatten hpart).trans (List.suffix_append _ _).isInfix)

/-! ### Values behind each other -/

lemma length_stages (out : Bytes) (vs : List Resp) : (stages out vs).length = vs.length := by
  induction vs generalizing out with
  | nil => rfl
  | cons v vs ih => rw [stages, List.length_cons, ih, List.length_cons]

/-- A value leaves the bytes before it as they are and puts its own behind them. -/
lemma getElem?_stages {i : Nat} (hbefore : (out :: stages out vs)[i]? = some before)
    (hv : vs[i]? = some v) : (stages out vs)[i]? = some (before ++ encode v) := by
  induction vs generalizing out i with
  | nil => cases hv
  | cons u vs ih =>
    cases i with
    | zero =>
      obtain rfl := Option.some.inj hbefore
      obtain rfl := Option.some.inj hv
      rw [stages, List.getElem?_cons_zero, appendTo_eq]
    | succ i => exact ih hbefore hv

/-- Values that are written one after another leave all bytes before them as they are: after each of
them the bytes are those before it and its own written form. That is the only one that the grammar
has for the value, and the written form of each value within it, at any depth, is a part of it. -/
theorem written_one_after_another :
    (∀ out v, appendTo out v = out ++ encode v) ∧
    (∀ out vs, appendAll out vs = out ++ (vs.map encode).flatten ∧
      (stages out vs).length = vs.length ∧
      ∀ (i : Nat) before v, (out :: stages out vs)[i]? = some before → vs[i]? = some v →
        (stages out vs)[i]? = some (before ++ encode v)) ∧
    (∀ v data, Written v data ↔ data = encode v) ∧
    ∀ v w, Occurs w v → encode w <:+: encode v := by
  refine ⟨appendTo_eq, fun out vs => ⟨?_, length_stages out vs, fun i before v => getElem?_stages⟩,
    fun v data => written_iff, fun v w => encode_infix_of_occurs⟩
  rw [appendAll_eq, appendAll_nil_eq]

/-- A text of one character has two bytes here, within two arrays. -/
theorem written_one_after_another_nested :
    let letter : Resp := .bulk (Utf8.encode "é")
    let nested : Resp := .array [.null, .array [letter]]
    stages [0x2B] [letter, nested] =
        [[0x2B] ++ encode letter, [0x2B] ++ encode letter ++ encode nested] ∧
      encode letter = [0x24, 0x32, 0x0D, 0x0A, 0xC3, 0xA9, 0x0D, 0x0A] ∧
      Occurs letter nested ∧ encode letter <:+: encode nested := by
  intro letter nested
  obtain ⟨-, hstages, -, hoccurs⟩ := written_one_after_another
  have hletter : Occurs letter nested :=
    .item (v := .array [letter]) (by simp) (.item List.mem_cons_self (.self letter))
  have hfirst := (hstages [0x2B] [letter, nested]).2.2 0 _ _ rfl rfl
  have hsecond := (hstages [0x2B] [letter, nested]).2.2 1 _ _ hfirst rfl
  refine ⟨?_, by decide, hletter, hoccurs _ _ hletter⟩
  exact congrArg₂ (fun a b => [a, b]) (Option.some.inj hfirst) (Option.some.inj hsecond)

end RespWire.Resp
