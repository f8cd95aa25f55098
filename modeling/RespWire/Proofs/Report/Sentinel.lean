import RespWire.Command.Encoding
import RespWire.Proofs.Collection.Dictionary
import RespWire.Proofs.Collection.Pairs
import RespWire.Proofs.Resp.Shape
import RespWire.Report.Sentinel

/-!
# Reports of sentinels

A report is read as one record for each server. Names and texts stand in turn, and of several texts
of one name the last one counts, also if their names differ as bytes and not as texts. The first
entry that shows no properties is why a report is refused.
-/

namespace RespWire.ServerRecord

variable {v entry reply : Resp} {fields : List Resp} {p : Properties} {e : ReplyError}

/-! ### Fields -/

/-- The text that a field shows. A string of either kind shows its own and an integer its
numeral. -/
def fieldText? : Resp → Option String
  | .simple text => some text
  | .bulk data => some (Utf8.decodeLossy data)
  | .integer value => some (Numeral.text value.toInt)
  | _ => none

lemma textOfReply_eq_ok_iff {text : String} :
    textOfReply v = .ok text ↔ fieldText? v = some text := by
  cases v <;> simp [textOfReply, Resp.requireText, fieldText?]

lemma textOfReply_eq_error_iff :
    textOfReply v = .error e ↔ fieldText? v = none ∧ .unexpected .string v.kind = e := by
  cases v <;> simp [textOfReply, Resp.requireText, fieldText?]

/-- All fields are read before any two are paired. -/
lemma pairsOfFields_eq {fields : List Resp} (h : Even fields.length) :
    pairsOfFields fields = (fields.mapM textOfReply).map inPairs := by
  match fields with
  | [] => rfl
  | [_] => exact absurd h (by simp)
  | name :: text :: rest =>
    have hrest : Even rest.length := by simpa [Nat.even_add_one] using h
    rw [pairsOfFields, pairsOfFields_eq hrest, List.mapM_cons, List.mapM_cons]
    cases textOfReply name with
    | error e => rfl
    | ok name =>
      cases textOfReply text with
      | error e => rfl
      | ok text =>
        cases rest.mapM textOfReply <;> rfl

/-! ### Entries -/

/-- The name at a place among fields. -/
def nameAt? (fields : List Resp) (i : Nat) : Option String := fields[2 * i]?.bind fieldText?

/-- The text at a place among fields. -/
def textAt? (fields : List Resp) (i : Nat) : Option String := fields[2 * i + 1]?.bind fieldText?

/-- Do all fields of an entry show texts, and can they be paired? -/
def IsListing (entry : Resp) : Prop :=
  ∃ fields, entry = .array fields ∧ Even fields.length ∧ ∀ field ∈ fields, fieldText? field ≠ none

/-- Why an entry shows no properties. -/
inductive Fault : Resp → ReplyError → Prop where
  | kind {entry : Resp} (h : entry.kind ≠ .array) : Fault entry (.unexpected .array entry.kind)
  | unpaired {fields : List Resp} (h : Odd fields.length) :
    Fault (.array fields) (.unpaired fields.length)
  | field {before : List Resp} {field : Resp} {after : List Resp}
      (heven : Even (before ++ field :: after).length)
      (hbefore : ∀ x ∈ before, fieldText? x ≠ none) (h : fieldText? field = none) :
    Fault (.array (before ++ field :: after)) (.unexpected .string field.kind)

lemma propertiesOfEntry_of_odd (h : Odd fields.length) :
    propertiesOfEntry (.array fields) = .error (.unpaired fields.length) :=
  if_pos (by rw [Nat.odd_iff.1 h]; decide)

lemma propertiesOfEntry_of_even (h : Even fields.length) :
    propertiesOfEntry (.array fields) = do
      let texts ← fields.mapM textOfReply
      return .ofList (inPairs texts) := by
  have heven : ¬ fields.length % 2 ≠ 0 := by simp [Nat.even_iff.1 h]
  have hread : propertiesOfEntry (.array fields) = (pairsOfFields fields).map .ofList := by
    show (if fields.length % 2 ≠ 0 then _ else _) = _
    rw [if_neg heven]
    cases pairsOfFields fields <;> rfl
  rw [hread, pairsOfFields_eq h]
  cases fields.mapM textOfReply <;> rfl

lemma mapM_textOfReply_eq_ok_iff {texts : List String} :
    fields.mapM textOfReply = .ok texts ↔ fields.map fieldText? = texts.map some := by
  simp only [mapM_eq_ok_iff, textOfReply_eq_ok_iff]
  rw [← List.forall₂_map_right_iff (f := some), ← List.forall₂_map_left_iff (f := fieldText?),
    List.forall₂_eq_eq_eq]

lemma propertiesOfEntry_eq_ok_iff : propertiesOfEntry entry = .ok p ↔
    ∃ fields texts, entry = .array fields ∧ Even fields.length ∧
      fields.map fieldText? = texts.map some ∧ .ofList (inPairs texts) = p := by
  constructor
  · intro h
    cases entry with
    | array fields =>
      rcases Nat.even_or_odd fields.length with heven | hodd
      · simp only [propertiesOfEntry_of_even heven, bind_eq_ok_iff,
          mapM_textOfReply_eq_ok_iff] at h
        obtain ⟨texts, htexts, hp⟩ := h
        exact ⟨fields, texts, rfl, heven, htexts, Except.ok.inj hp⟩
      · rw [propertiesOfEntry_of_odd hodd] at h
        cases h
    | _ => cases h
  · rintro ⟨fields, texts, rfl, heven, htexts, rfl⟩
    rw [propertiesOfEntry_of_even heven, mapM_textOfReply_eq_ok_iff.2 htexts]
    rfl

lemma propertiesOfEntry_eq_error_iff : propertiesOfEntry entry = .error e ↔ Fault entry e := by
  constructor
  · intro h
    cases entry with
    | array fields =>
      rcases Nat.even_or_odd fields.length with heven | hodd
      · simp only [propertiesOfEntry_of_even heven, bind_eq_error_iff, mapM_eq_error_iff,
          textOfReply_eq_ok_iff, textOfReply_eq_error_iff] at h
        obtain ⟨before, field, after, rfl, hbefore, h, rfl⟩ | ⟨_, _, h⟩ := h
        · exact .field heven (fun x hx => Option.ne_none_iff_exists'.2 (hbefore x hx)) h
        · cases h
      · rw [propertiesOfEntry_of_odd hodd] at h
        cases h
        exact .unpaired hodd
    | _ =>
      cases h
      exact .kind (by simp [Resp.kind])
  · intro h
    cases h with
    | kind h => simp [propertiesOfEntry, bind_eq_error_iff, h]
    | unpaired h => exact propertiesOfEntry_of_odd h
    | field heven hbefore h =>
      simp only [propertiesOfEntry_of_even heven, bind_eq_error_iff, mapM_eq_error_iff,
        textOfReply_eq_ok_iff, textOfReply_eq_error_iff]
      exact .inl ⟨_, _, _, rfl, fun x hx => Option.ne_none_iff_exists'.1 (hbefore x hx), h, rfl⟩

lemma isListing_iff : IsListing entry ↔ ∃ p, propertiesOfEntry entry = .ok p := by
  simp only [propertiesOfEntry_eq_ok_iff]
  constructor
  · rintro ⟨fields, rfl, heven, hfields⟩
    refine ⟨_, fields, fields.map fun field => (fieldText? field).getD "", rfl, heven, ?_, rfl⟩
    rw [List.map_map]
    apply List.map_congr_left
    intro field hfield
    obtain ⟨text, htext⟩ := Option.ne_none_iff_exists'.1 (hfields field hfield)
    rw [Function.comp_apply, htext, Option.getD_some]
  · rintro ⟨_, fields, texts, rfl, heven, htexts, -⟩
    refine ⟨fields, rfl, heven, fun field hfield hnone => ?_⟩
    have hmem : none ∈ texts.map some := htexts ▸ List.mem_map.2 ⟨field, hfield, hnone⟩
    simp at hmem

/-! ### Records -/

lemma getElem?_texts {texts : List String} (h : fields.map fieldText? = texts.map some) (j : Nat) :
    texts[j]? = fields[j]?.bind fieldText? := by
  have hj := congrArg (·[j]?) h
  simp only [List.getElem?_map] at hj
  cases hf : fields[j]? <;> cases ht : texts[j]? <;> simp_all

/-- Does a record have what an entry shows? The text of a name is the one at the last place with
that name. -/
def Describes (entry : Resp) (s : ServerRecord) : Prop :=
  ∃ fields, entry = .array fields ∧ ∀ name,
    (∀ text, s.get? name = some text ↔ ∃ i, nameAt? fields i = some name ∧
      textAt? fields i = some text ∧ ∀ j > i, nameAt? fields j ≠ some name) ∧
    (s.get? name = none ↔ ∀ i, nameAt? fields i ≠ some name)

lemma describes_of_propertiesOfEntry (h : propertiesOfEntry entry = .ok p) :
    Describes entry ⟨p⟩ := by
  obtain ⟨fields, texts, rfl, heven, htexts, rfl⟩ := propertiesOfEntry_eq_ok_iff.1 h
  have hlength : texts.length = fields.length := by
    rw [← List.length_map (f := some), ← htexts, List.length_map]
  have heven' : Even texts.length := hlength ▸ heven
  have hname (i : Nat) : (inPairs texts)[i]?.map Prod.fst = nameAt? fields i := by
    rw [(getElem?_inPairs heven' i).1, getElem?_texts htexts, nameAt?]
  have hpair (i : Nat) (name text : String) : (inPairs texts)[i]? = some (name, text) ↔
      nameAt? fields i = some name ∧ textAt? fields i = some text := by
    rw [getElem?_inPairs_eq_some_iff heven', getElem?_texts htexts, getElem?_texts htexts, nameAt?,
      textAt?]
  refine ⟨fields, rfl, fun name => ⟨fun text => ?_, ?_⟩⟩
  · simp only [get?, Dictionary.get?_ofList, Dictionary.lookup_reverse_eq_some_iff, hpair, hname,
      and_assoc]
  · simp only [get?, Dictionary.get?_ofList, Dictionary.lookup_reverse_eq_none_iff, hname]

/-! ### Replies -/

lemma propertiesOfReply_array (entries : List Resp) :
    propertiesOfReply (.array entries) = entries.mapM propertiesOfEntry := rfl

/-- Taking properties apart and collecting them again gives the same. -/
lemma ofPairs_entries (p : Properties) : ofPairs p.entries = ⟨p⟩ :=
  congrArg mk (Dictionary.ofList_entries p)

lemma listOfReply_eq_ok_iff {records : List ServerRecord} : listOfReply reply = .ok records ↔
    ∃ ps, propertiesOfReply reply = .ok ps ∧ ps.map mk = records := by
  rw [listOfReply, bind_eq_ok_iff]
  refine exists_congr fun ps => and_congr_right fun _ => ?_
  have hps : listOfPairs (some (ps.map Dictionary.entries)) = ps.map mk := by
    rw [listOfPairs, Option.getD_some, List.map_map]
    exact List.map_congr_left fun p _ => ofPairs_entries p
  rw [hps]
  exact ⟨Except.ok.inj, congrArg Except.ok⟩

lemma listOfReply_eq_error_iff :
    listOfReply reply = .error e ↔ propertiesOfReply reply = .error e := by
  simp [listOfReply, bind_eq_error_iff, pure, Except.pure]

/-- A report gives one record for each of its entries, in order, with the last text of each name.
Every other reply is refused for its kind or for its first entry that shows no properties. -/
theorem sentinel_reply_read :
    listOfReply .null = .ok [] ∧
    (∀ entries, (∃ records, listOfReply (.array entries) = .ok records) ↔
      ∀ entry ∈ entries, IsListing entry) ∧
    (∀ entries records, listOfReply (.array entries) = .ok records →
      List.Forall₂ Describes entries records) ∧
    (∀ reply e, listOfReply reply = .error e ↔ propertiesOfReply reply = .error e) ∧
    (∀ reply : Resp, reply.kind ≠ .null → reply.kind ≠ .array →
      propertiesOfReply reply = .error (.unexpected .array reply.kind)) ∧
    ∀ entries e, propertiesOfReply (.array entries) = .error e ↔ ∃ before entry after,
      entries = before ++ entry :: after ∧ (∀ x ∈ before, IsListing x) ∧ Fault entry e := by
  refine ⟨rfl, fun entries => ?_, fun entries records h => ?_,
    fun reply e => listOfReply_eq_error_iff, fun reply hnull harray => ?_, fun entries e => ?_⟩
  · simp only [listOfReply_eq_ok_iff, propertiesOfReply_array, isListing_iff,
      ← exists_mapM_eq_ok_iff]
    constructor
    · rintro ⟨_, ps, hps, -⟩
      exact ⟨ps, hps⟩
    · rintro ⟨ps, hps⟩
      exact ⟨_, ps, hps, rfl⟩
  · simp only [listOfReply_eq_ok_iff, propertiesOfReply_array, mapM_eq_ok_iff] at h
    obtain ⟨ps, hps, rfl⟩ := h
    exact List.forall₂_map_right_iff.2 (hps.imp fun _ _ => describes_of_propertiesOfEntry)
  · cases reply with
    | null => exact absurd rfl hnull
    | array => exact absurd rfl harray
    | _ => rfl
  · simp only [propertiesOfReply_array, mapM_eq_error_iff, isListing_iff,
      propertiesOfEntry_eq_error_iff]

/-- Two names of different bytes that are not text, and a number for the text of the second. -/
def clashingFields : List Resp :=
  [.bulk [0xFF], .simple "first", .bulk [0xFE], .integer (-5)]

/-- The later of two names that are the same as texts counts. That fields cannot be paired comes
before what they show. -/
theorem sentinel_reply_read_clashing :
    (∃ s t, listOfReply (.array [.array clashingFields, .array []]) = .ok [s, t] ∧
      s.get? "\uFFFD" = some "-5" ∧ t.get? "\uFFFD" = none) ∧
    propertiesOfReply (.integer 3) = .error (.unexpected .array .integer) ∧
    propertiesOfReply (.array [.array clashingFields, .array [.null], .null]) =
      .error (.unpaired 1) := by
  obtain ⟨-, haccept, hrecords, -, hkind, hfirst⟩ := sentinel_reply_read
  have hclashing : IsListing (.array clashingFields) :=
    ⟨_, rfl, by decide, by simp [clashingFields, fieldText?]⟩
  have hempty : IsListing (.array []) := ⟨[], rfl, by decide, nofun⟩
  refine ⟨?_, hkind _ nofun nofun, ?_⟩
  · obtain ⟨records, h⟩ := (haccept [.array clashingFields, .array []]).2
      (by simp [hclashing, hempty])
    cases hrecords _ _ h with
    | cons hs hrest =>
      cases hrest with
      | cons ht hrest =>
        cases hrest
        obtain ⟨_, hfields, hs⟩ := hs
        obtain ⟨_, hfields', ht⟩ := ht
        cases hfields
        cases hfields'
        refine ⟨_, _, h, ((hs _).1 _).2 ⟨1, by decide, by decide, fun j hj => ?_⟩,
          (ht _).2.2 fun i => by simp [nameAt?]⟩
        have hnone : clashingFields[2 * j]? = none :=
          List.getElem?_eq_none (by simp [clashingFields]; omega)
        simp [nameAt?, hnone]
  · refine (hfirst _ _).2 ⟨[.array clashingFields], .array [.null], [.null], rfl, ?_,
      .unpaired (by decide)⟩
    intro x hx
    rwa [List.mem_singleton.1 hx]

end RespWire.ServerRecord
